import InfSplitter.Routing.World
import InfSplitter.Session.Completion
import InfSplitter.Session.Selection

/-!
# What every run keeps

`Chained issued store` is the shape of the client nodes: their ids were issued, a chain goes from
later ids to earlier ones, and a child link leads to a node that links back. It is kept by an insert
of a node under fresh ids, and by everything else that happens to the store; `Sound` adds the same
for the exchanges under way. A chained store is well formed, which is what frontier selection
needs to be described by `LongestReading`.
-/

set_option autoImplicit false

namespace InfSplitter.Routing

open Lib Session

/-! ## The shape of the store -/

structure Chained (issued : List String) (store : InteractionStore) : Prop extends
    store.Indexed where
  idIssued : ∀ {c : ClientInteractionNode}, store.Stored c → c.id ∈ issued
  prevEarlier : ∀ {c : ClientInteractionNode} {p : String}, store.Stored c →
    c.prevId = some p → p ∈ issued ∧ issued.idxOf p < issued.idxOf c.id
  rootSystem : ∀ {c : ClientInteractionNode} {p : String}, store.Stored c →
    c.prevId = some p → c.systemInstructionHash = none
  child : ∀ {p d : String}, store.prevToClient.lookup p = some d →
    d ∈ issued ∧ ∀ c, store.clients.lookup d = some c → c.prevId = some p

namespace Chained

variable {issued : List String} {store store' : InteractionStore}

theorem wellFormed (h : Chained issued store) : store.WellFormed where
  toIndexed := h.toIndexed
  ranked := ⟨issued.idxOf, fun hc hp => (h.prevEarlier hc hp).2⟩

theorem new : Chained [] InteractionStore.new := by
  refine ⟨InteractionStore.Indexed.new, ?_, ?_, ?_, ?_⟩ <;>
    simp [InteractionStore.new, InteractionStore.Stored]

/-- The shape depends on the client nodes and the two indexes only. -/
theorem congr (h : Chained issued store) (same : SameChains store store') :
    Chained issued store' := by
  refine ⟨h.toIndexed.congr same, ?_, ?_, ?_, ?_⟩
  · intro c hc
    exact h.idIssued (same.stored_iff.mp hc)
  · intro c p hc hp
    exact h.prevEarlier (same.stored_iff.mp hc) hp
  · intro c p hc hp
    exact h.rootSystem (same.stored_iff.mp hc) hp
  · intro p d hd
    rw [same.prevToClient] at hd
    rw [same.clients]
    exact h.child hd

theorem prevIssued (h : Chained issued store) {c : ClientInteractionNode} {p : String}
    (hc : store.Stored c) (hp : c.prevId = some p) : p ∈ issued :=
  (h.prevEarlier hc hp).1

/-- **An insert under fresh ids keeps the shape.** -/
theorem insertClient (h : Chained issued store) {node : ClientInteractionNode}
    {ids : List String} (hid : node.id ∈ ids) (fresh : ∀ id ∈ ids, id ∉ issued)
    (hprev : ∀ p, node.prevId = some p → p ∈ issued)
    (hroot : ∀ p, node.prevId = some p → node.systemInstructionHash = none) :
    Chained (issued ++ ids) (store.insertClient node) := by
  have hnew : node.id ∉ issued := fresh _ hid
  refine ⟨h.toIndexed.insertClient node, ?_, ?_, ?_, ?_⟩
  · intro c hc
    rcases stored_insertClient.mp hc with rfl | ⟨_, hold⟩
    · exact List.mem_append_right _ hid
    · exact List.mem_append_left _ (h.idIssued hold)
  · intro c p hc hp
    rcases stored_insertClient.mp hc with rfl | ⟨_, hold⟩
    · have hpi := hprev p hp
      refine ⟨List.mem_append_left _ hpi, ?_⟩
      rw [List.idxOf_append_of_mem hpi, List.idxOf_append_of_notMem hnew]
      have := List.idxOf_lt_length_of_mem hpi
      omega
    · obtain ⟨hpi, hlt⟩ := h.prevEarlier hold hp
      refine ⟨List.mem_append_left _ hpi, ?_⟩
      rw [List.idxOf_append_of_mem hpi, List.idxOf_append_of_mem (h.idIssued hold)]
      exact hlt
  · intro c p hc hp
    rcases stored_insertClient.mp hc with rfl | ⟨_, hold⟩
    · exact hroot p hp
    · exact h.rootSystem hold hp
  · intro p d hd
    rw [InteractionStore.insertClient_prevToClient_lookup] at hd
    by_cases hp : node.prevId = some p
    · rw [if_pos hp, Option.some.injEq] at hd
      subst hd
      refine ⟨List.mem_append_right _ hid, ?_⟩
      intro c hc
      rw [InteractionStore.insertClient_lookup, if_pos rfl, Option.some.injEq] at hc
      rw [← hc, hp]
    · rw [if_neg hp] at hd
      obtain ⟨hdi, hback⟩ := h.child hd
      refine ⟨List.mem_append_left _ hdi, ?_⟩
      intro c hc
      have hne : d ≠ node.id := by
        rintro rfl
        exact hnew hdi
      rw [InteractionStore.insertClient_lookup, if_neg hne] at hc
      exact hback c hc

/-- Stamping a client node changes nothing the shape speaks of. -/
theorem touchClient (h : Chained issued store) (id : String) (now : UInt64) :
    Chained issued (StoreV2.touchClient store id now) := by
  refine ⟨h.toIndexed.touchClient id now, ?_, ?_, ?_, ?_⟩
  · intro c hc
    obtain ⟨c0, h0, he, _⟩ := touchClient_lookup hc
    rw [he]
    exact h.idIssued (h.stored h0)
  · intro c p hc hp
    obtain ⟨c0, h0, he, hpr, _⟩ := touchClient_lookup hc
    rw [he]
    exact h.prevEarlier (h.stored h0) (hpr ▸ hp)
  · intro c p hc hp
    obtain ⟨c0, h0, _, hpr, _, hs⟩ := touchClient_lookup hc
    rw [hs]
    exact h.rootSystem (h.stored h0) (hpr ▸ hp)
  · intro p d hd
    rw [touchClient_prevToClient] at hd
    obtain ⟨hdi, hback⟩ := h.child hd
    refine ⟨hdi, ?_⟩
    intro c hc
    obtain ⟨c0, h0, _, hpr, _⟩ := touchClient_lookup hc
    rw [hpr]
    exact hback c0 h0

theorem cleanAll {s : StoreV2} (h : Chained issued s.interactions) :
    Chained issued s.cleanAll.interactions := by
  refine ⟨InteractionStore.Indexed.cleanAll s, ?_, ?_, ?_, ?_⟩
  · intro c hc
    exact absurd hc (not_stored_cleanAll s c)
  · intro c p hc
    exact absurd hc (not_stored_cleanAll s c)
  · intro c p hc
    exact absurd hc (not_stored_cleanAll s c)
  · intro p d hd
    refine ⟨(h.child hd).1, ?_⟩
    intro c hc
    exact absurd hc (by simp [StoreV2.cleanAll])

end Chained

/-! ## The steps of the two inserts -/

theorem recordInteraction_sameChains (store : StoreV2) (now : UInt64) (sessionId id : String)
    (prev : Option String) (hashes : List UInt64) (system : Option UInt64) :
    SameChains (store.interactions.insertClient (recordedNode now id prev hashes system))
      (recordInteraction store now sessionId id prev hashes system).interactions :=
  ⟨rfl, rfl, rfl⟩

/-! ## Sound worlds -/

structure Sound (w : World) : Prop where
  chained : Chained w.issued w.store.interactions
  pendingIssued : ∀ x ∈ w.pending, ∀ p, x.prevId = some p → p ∈ w.issued

theorem Exchange.storedSystemHash_none {x : Exchange} {p : String} (h : x.prevId = some p) :
    x.storedSystemHash = none := by
  unfold Exchange.storedSystemHash
  rw [h]
  rfl

/-- The previous id of a frontier is issued: it is a stored node or what one continues. -/
theorem Chained.frontier_issued {issued : List String} {store : InteractionStore}
    (h : Chained issued store) {hashes : List UInt64} {sys : Option UInt64} {frontier : Frontier}
    (found : findFrontier store hashes none sys = some frontier) {p : String}
    (hp : frontier.previousInteractionId = some p) : p ∈ issued := by
  have wf := h.wellFormed
  cases Outcome.of_findFrontier wf found with
  | empty _ => exact absurd hp (by simp)
  | fresh _ _ => exact absurd hp (by simp)
  | replay hl _ => exact h.prevIssued (hl.stored wf.toIndexed) hp
  | boundary hl _ _ =>
    rw [← Option.some.inj hp]
    exact h.idIssued (hl.stored wf.toIndexed)
  | fork hl _ _ => exact h.prevIssued (hl.stored wf.toIndexed) hp

namespace Sound

theorem init : Sound World.init where
  chained := Chained.new
  pendingIssued := by simp [World.init]

theorem commitSplit_id {batch : InFlightBatch} {node : ClientInteractionNode} {now : UInt64}
    (hnode : node = StoreV2.clientNodeOf batch node.upstreamIds now)
    (hne : node.upstreamIds ≠ []) : node.id ∈ node.upstreamIds := by
  have hlast := getLast?_clientNodeOf hne batch now
  rw [← hnode] at hlast
  exact List.mem_of_getLast? hlast

/-- One step keeps a world sound. -/
theorem step {w w' : World} {a : Action} (h : Sound w) (hstep : Step w a w') : Sound w' := by
  cases hstep with
  | answered => exact h
  | lookup found =>
    refine ⟨h.chained, ?_⟩
    intro x hx p hp
    rcases List.mem_cons.mp hx with rfl | hx
    · exact h.chained.frontier_issued found hp
    · exact h.pendingIssued x hx p hp
  | @commit x id now sessionId mem fresh =>
    refine ⟨?_, ?_⟩
    · refine Chained.congr (h.chained.insertClient ?_ ?_ ?_ ?_)
        (recordInteraction_sameChains w.store now sessionId id _ _ _)
      · exact List.mem_singleton_self id
      · intro k hk
        rw [List.mem_singleton.mp hk]
        exact fresh
      · exact h.pendingIssued x mem
      · intro p hp
        exact Exchange.storedSystemHash_none hp
    · intro y hy p hp
      exact List.mem_append_left _ (h.pendingIssued y (List.mem_of_mem_erase hy) p hp)
  | @commitSplit x batchId batch now store' node mem own prev hashes system completed sent
      fresh =>
    obtain ⟨hnode, same⟩ := completeBatch_ok own completed
    have hprev : node.prevId = x.prevId := by
      rw [hnode, ← prev]
      rfl
    have hsys : node.systemInstructionHash = x.storedSystemHash := by
      rw [hnode, ← system]
      rfl
    refine ⟨Chained.congr (Chained.insertClient h.chained (commitSplit_id hnode sent) fresh ?_ ?_)
      same, ?_⟩
    · intro p hp
      exact h.pendingIssued x mem p (hprev ▸ hp)
    · intro p hp
      rw [hsys]
      exact Exchange.storedSystemHash_none (hprev ▸ hp)
    · intro y hy p hp
      exact List.mem_append_left _ (h.pendingIssued y (List.mem_of_mem_erase hy) p hp)
  | drop =>
    refine ⟨h.chained, ?_⟩
    intro y hy p hp
    exact h.pendingIssued y (List.mem_of_mem_erase hy) p hp
  | extendLifetime now sessionId expiresAtUtc =>
    refine ⟨?_, h.pendingIssued⟩
    show Chained w.issued (w.store.extendLifetime now sessionId expiresAtUtc).interactions
    rcases extendLifetime_interactions w.store now sessionId expiresAtUtc with heq | ⟨id, heq⟩
    · rw [heq]
      exact h.chained
    · rw [heq]
      exact h.chained.touchClient id now
  | cleanAll => exact ⟨h.chained.cleanAll, h.pendingIssued⟩
  | other clients hashIndex prevToClient =>
    exact ⟨h.chained.congr ⟨clients, hashIndex, prevToClient⟩, h.pendingIssued⟩

/-- **Every reachable world is sound.** -/
theorem of_run {moments : List (World × Action)} {w : World} (run : routing.Run moments w) :
    Sound w :=
  run.invariant (P := Sound) init fun _ _ _ h hstep => step h hstep

theorem wellFormed {w : World} (h : Sound w) : w.store.interactions.WellFormed :=
  h.chained.wellFormed

end Sound

end InfSplitter.Routing
