import InfSplitter.Persistence.Restore
import InfSplitter.Session.Completion

/-!
# What a step may bring into a store

Every way a store is changed, as one `StoreAction`: the two inserts, the touch on a replay, a
session set or extended, the batch operations and the two clean-ups. An action carries what the
operation is given, the reading of the clock included.

A step can make a store one that does not come back. The numbers it puts in may be too large for
TOML, and then nothing is saved at all; every hash is an arbitrary 64-bit value, so this is what
happens to half of them. And a node may get a second child, or move to another parent: its links are
then not those a restart builds. `Persistable` excludes both. The numbers are kept by
`Storable.run`, the links by `Linked.run`; that nothing weaker keeps the links at an insert is
`Linked.insertClient_iff`.
-/

set_option autoImplicit false

namespace InfSplitter.Persistence

open Lib Lib.Toml Session

inductive StoreAction
  | setSession (sessionId : String) (session : SessionInfo)
  | insertUpstream (node : UpstreamInteractionNode)
  | insertClient (node : ClientInteractionNode)
  | touchUpstreamOnReplay (upstreamId : String) (now : UInt64)
  | createBatch (now : UInt64) (id sessionId : String) (prevInteractionId : Option String)
      (messageHashes : List UInt64) (systemInstructionHash : Option UInt64)
      (pieces : List InFlightPiece)
  | setPieceBody (now : UInt64) (batchId : String) (pieceIndex : Nat) (body : List UInt8)
  | markResponseStarted (now : UInt64) (batchId : String) (pieceIndex : Nat)
  | markSent (now : UInt64) (batchId : String) (pieceIndex : Nat) (interactionId : String)
  | ackPiece (now : UInt64) (batchId : String) (pieceIndex : Nat) (interactionId : String)
  | completeBatch (now : UInt64) (batchId : String)
  | failBatch (now : UInt64) (batchId error : String)
  | removeBatch (batchId : String)
  | extendLifetime (now : UInt64) (sessionId : String) (expiresAtUtc : UInt64)
  | cleanAll
  | discardAllInflight

namespace StoreAction

def run (s : StoreV2) : StoreAction → StoreV2
  | .setSession sessionId session => { s with sessions := s.sessions.insert sessionId session }
  | .insertUpstream node => { s with interactions := s.interactions.insertUpstream node }
  | .insertClient node => { s with interactions := s.interactions.insertClient node }
  | .touchUpstreamOnReplay upstreamId now =>
    { s with interactions := s.interactions.touchUpstreamOnReplay upstreamId now }
  | .createBatch now id sessionId prev hashes system pieces =>
    s.createBatch now id sessionId prev hashes system pieces
  | .setPieceBody now batchId pieceIndex body => (s.setPieceBody now batchId pieceIndex body).1
  | .markResponseStarted now batchId pieceIndex =>
    (s.markResponseStarted now batchId pieceIndex).1
  | .markSent now batchId pieceIndex interactionId =>
    (s.markSent now batchId pieceIndex interactionId).1
  | .ackPiece now batchId pieceIndex interactionId =>
    (s.ackPiece now batchId pieceIndex interactionId).1
  | .completeBatch now batchId => (s.completeBatch now batchId).1
  | .failBatch now batchId error => (s.failBatch now batchId error).1
  | .removeBatch batchId => s.removeBatch batchId
  | .extendLifetime now sessionId expiresAtUtc => s.extendLifetime now sessionId expiresAtUtc
  | .cleanAll => s.cleanAll
  | .discardAllInflight => s.discardAllInflight.1

/-- The numbers the action brings are such that TOML can hold them. -/
def NumbersInRange : StoreAction → Prop
  | .setSession _ session => StorableSession session
  | .insertUpstream node => StorableUpstream node
  | .insertClient node => StorableClient node
  | .touchUpstreamOnReplay _ now => InRange now
  | .createBatch now _ _ _ hashes system pieces =>
    InRange now ∧ (∀ h ∈ hashes, InRange h) ∧ (∀ h ∈ system, InRange h) ∧
      ∀ p ∈ pieces, StorablePiece p
  | .setPieceBody now _ _ _ => InRange now
  | .markResponseStarted now _ _ => InRange now
  | .markSent now _ _ _ => InRange now
  | .ackPiece now _ _ _ => InRange now
  | .completeBatch now _ => InRange now ∧ InRange (now + defaultSessionTtlSecs)
  | .failBatch now _ _ => InRange now
  | .extendLifetime now _ expiresAtUtc => InRange now ∧ InRange expiresAtUtc
  | .removeBatch _ => True
  | .cleanAll => True
  | .discardAllInflight => True

end StoreAction

/-- A node stored as `id` that continues `prevId` leaves every slot with the child a restart
finds. -/
structure KeepsLinks (store : InteractionStore) (id : String) (prevId : Option String) : Prop where
  -- no other node continues the stored node that this one continues
  only : ∀ {p : String} {c : ClientInteractionNode}, p = id ∨ p ∈ store.clients →
    store.Stored c → prevId = some p → c.prevId = some p → c.id = id
  -- it does not move away from a stored node whose slot still holds it
  moved : ∀ {p : String}, p = id ∨ p ∈ store.clients →
    store.prevToClient.lookup p = some id → prevId = some p
  -- the nodes that were stored before the one they continue: only the one in the slot
  awaited : prevId ≠ some id → ∀ {c : ClientInteractionNode}, store.Stored c → c.id ≠ id →
    (store.prevToClient.lookup id = some c.id ↔ c.prevId = some id)

/-- Only an insert and a batch that completes change links. -/
def StoreAction.LinksKept (s : StoreV2) : StoreAction → Prop
  | .insertClient node => KeepsLinks s.interactions node.id node.prevId
  | .completeBatch _ batchId =>
    ∀ batch, s.inFlight.lookup batchId = some batch →
      batch.pieces.all (fun piece => piece.status.isAcked) = true →
        KeepsLinks s.interactions
          ((batch.pieces.filterMap InFlightPiece.ackedId).getLast?.getD "")
          batch.prevInteractionId
  | _ => True

structure Persistable (s : StoreV2) (a : StoreAction) : Prop where
  numbers : a.NumbersInRange
  links : a.LinksKept s

/-! ## The numbers -/

section
variable {V : Type} {P : V → Prop} {m : StrMap V}

theorem All.empty : All P (∅ : StrMap V) := by
  intro k v h
  rw [AList.lookup_empty] at h
  exact absurd h (by simp)

theorem All.insert (h : All P m) {v : V} (hv : P v) (k : String) : All P (m.insert k v) := by
  intro k' v' h'
  rcases lookup_insert_cases h' with ⟨_, rfl⟩ | ⟨_, hold⟩
  · exact hv
  · exact h hold

theorem All.erase (h : All P m) (k : String) : All P (m.erase k) := by
  intro k' v' h'
  exact h (lookup_erase_some h').2

theorem All.foldl_erase (h : All P m) (ks : List String) :
    All P (ks.foldl (fun m k => m.erase k) m) := by
  induction ks generalizing m with
  | nil => exact h
  | cons k ks ih =>
    apply ih
    exact h.erase k

end

namespace Storable

variable {s : StoreV2}

theorem new : Storable StoreV2.new := ⟨All.empty, All.empty, All.empty, All.empty⟩

theorem touchUpstream (h : Storable s) (upstreamId : String) {now : UInt64} (hnow : InRange now) :
    All StorableUpstream (s.interactions.touchUpstreamOnReplay upstreamId now).upstreams := by
  unfold InteractionStore.touchUpstreamOnReplay
  cases hu : s.interactions.upstreams.lookup upstreamId with
  | none => exact h.upstreams
  | some node =>
    apply h.upstreams.insert
    exact ⟨hnow, (h.upstreams hu).2⟩

/-- The transitions of a piece leave its numbers alone. -/
theorem updatePiece (h : Storable s) {now : UInt64} (hnow : InRange now) (batchId : String)
    (pieceIndex : Nat) {change : InFlightPiece → Except BatchError InFlightPiece}
    (hchange : ∀ {p p'}, change p = .ok p' →
      p'.index = p.index ∧ p'.contentHash = p.contentHash) :
    Storable (s.updatePiece now batchId pieceIndex change).1 := by
  unfold StoreV2.updatePiece
  cases hb : s.inFlight.lookup batchId with
  | none => exact h
  | some batch =>
    simp only
    cases hp : batch.pieces[pieceIndex]? with
    | none => exact h
    | some piece =>
      simp only
      cases hc : change piece with
      | error e => exact h
      | ok piece' =>
        obtain ⟨hh, hs, hpieces, hcr, _⟩ := h.inFlight hb
        refine ⟨h.sessions, h.clients, h.upstreams, ?_⟩
        apply h.inFlight.insert
        refine ⟨hh, hs, fun p hmem => ?_, hcr, hnow⟩
        rcases List.mem_or_eq_of_mem_set hmem with hold | rfl
        · exact hpieces p hold
        · obtain ⟨hindex, hhash⟩ := hchange hc
          have hold := hpieces piece (List.mem_of_getElem? hp)
          unfold StorablePiece at hold ⊢
          rw [hindex, hhash]
          exact hold

theorem createBatch (h : Storable s) {now : UInt64} (hnow : InRange now) (id sessionId : String)
    (prev : Option String) {hashes : List UInt64} (hh : ∀ x ∈ hashes, InRange x)
    {system : Option UInt64} (hs : ∀ x ∈ system, InRange x) {pieces : List InFlightPiece}
    (hp : ∀ p ∈ pieces, StorablePiece p) :
    Storable (s.createBatch now id sessionId prev hashes system pieces) := by
  refine ⟨h.sessions, h.clients, h.upstreams, ?_⟩
  apply h.inFlight.insert
  exact ⟨hh, hs, hp, hnow, hnow⟩

theorem insertCalls {store : InteractionStore} (h : All StorableUpstream store.upstreams)
    {calls : List UpstreamInteractionNode} (hcalls : ∀ call ∈ calls, StorableUpstream call) :
    All StorableUpstream (insertCalls store calls).upstreams := by
  induction calls generalizing store with
  | nil => exact h
  | cons call rest ih =>
    obtain ⟨hcall, hrest⟩ := List.forall_mem_cons.mp hcalls
    exact ih (h.insert hcall call.id) hrest

theorem touchSession {sessions : StrMap SessionInfo} (h : All StorableSession sessions)
    (sessionId interactionId : String) {now : UInt64} (hnow : InRange now) :
    All StorableSession (StoreV2.touchSession sessions sessionId interactionId now) := by
  unfold StoreV2.touchSession
  cases hs : sessions.lookup sessionId with
  | none => exact h
  | some session =>
    apply h.insert
    exact ⟨hnow, (h hs).2⟩

theorem completeBatch (h : Storable s) {now : UInt64} (hnow : InRange now)
    (httl : InRange (now + defaultSessionTtlSecs)) (batchId : String) :
    Storable (s.completeBatch now batchId).1 := by
  have hcalls (batch : InFlightBatch) : ∀ call ∈ batch.calls now, StorableUpstream call := by
    intro call hcall
    obtain ⟨hseen, hexpires⟩ := times_pieceNodes batch now _ _ call hcall
    unfold StorableUpstream
    rw [hseen, hexpires]
    exact ⟨hnow, httl⟩
  have hclients (batch : InFlightBatch) :
      All StorableClient (Session.insertCalls s.interactions (batch.calls now)).clients := by
    rw [(insertCalls_sameChains s.interactions (batch.calls now)).clients]
    exact h.clients
  cases completing s now batchId with
  | missing _ result =>
    rw [result]
    exact h
  | @partly batch _ _ _ result =>
    rw [result]
    exact ⟨h.sessions, hclients batch, insertCalls h.upstreams (hcalls batch),
      h.inFlight.erase batchId⟩
  | @whole batch hb _ result =>
    obtain ⟨hh, hs, _⟩ := h.inFlight hb
    rw [result]
    refine ⟨touchSession h.sessions _ _ hnow, ?_, insertCalls h.upstreams (hcalls batch),
      h.inFlight.erase batchId⟩
    apply (hclients batch).insert
    exact ⟨hh, hs, hnow⟩

theorem failBatch (h : Storable s) {now : UInt64} (hnow : InRange now) (batchId error : String) :
    Storable (s.failBatch now batchId error).1 := by
  unfold StoreV2.failBatch
  cases hb : s.inFlight.lookup batchId with
  | none => exact h
  | some batch =>
    obtain ⟨hh, hs, hpieces, hcr, _⟩ := h.inFlight hb
    refine ⟨h.sessions, h.clients, h.upstreams.foldl_erase _, ?_⟩
    apply h.inFlight.insert
    refine ⟨hh, hs, fun p hmem => ?_, hcr, hnow⟩
    obtain ⟨q, hq, rfl⟩ := List.mem_map.mp hmem
    by_cases hacked : q.status.isAcked = true
    · rw [if_pos hacked]
      exact hpieces q hq
    · rw [if_neg hacked]
      exact hpieces q hq

theorem touchClient {store : InteractionStore} (h : All StorableClient store.clients)
    (id : String) {now : UInt64} (hnow : InRange now) :
    All StorableClient (StoreV2.touchClient store id now).clients := by
  unfold StoreV2.touchClient
  cases hc : store.clients.lookup id with
  | none => exact h
  | some client =>
    apply h.insert
    exact ⟨(h hc).1, (h hc).2.1, hnow⟩

theorem extendLifetime (h : Storable s) {now : UInt64} (hnow : InRange now) (sessionId : String)
    {expiresAtUtc : UInt64} (hexp : InRange expiresAtUtc) :
    Storable (s.extendLifetime now sessionId expiresAtUtc) := by
  unfold StoreV2.extendLifetime
  cases hs : s.sessions.lookup sessionId with
  | none => exact h
  | some session =>
    cases hl : session.lastInteractionId with
    | none =>
      simp only [hl]
      refine ⟨?_, h.clients, h.upstreams, h.inFlight⟩
      apply h.sessions.insert
      exact ⟨hnow, hexp⟩
    | some lastId =>
      simp only [hl]
      refine ⟨?_, touchClient h.clients lastId hnow, ?_, h.inFlight⟩
      · apply h.sessions.insert
        exact ⟨hnow, hexp⟩
      unfold StoreV2.touchClient
      cases s.interactions.clients.lookup lastId <;> exact h.upstreams

/-- **Numbers in range come from numbers in range.** -/
theorem run (h : Storable s) {a : StoreAction} (ha : a.NumbersInRange) : Storable (a.run s) := by
  cases a with
  | setSession sessionId session =>
    exact ⟨h.sessions.insert ha sessionId, h.clients, h.upstreams, h.inFlight⟩
  | insertUpstream node =>
    exact ⟨h.sessions, h.clients, h.upstreams.insert ha node.id, h.inFlight⟩
  | insertClient node =>
    exact ⟨h.sessions, h.clients.insert ha node.id, h.upstreams, h.inFlight⟩
  | touchUpstreamOnReplay upstreamId now =>
    refine ⟨h.sessions, ?_, h.touchUpstream upstreamId ha, h.inFlight⟩
    show All StorableClient (s.interactions.touchUpstreamOnReplay upstreamId now).clients
    rw [(touchUpstreamOnReplay_sameChains s.interactions upstreamId now).clients]
    exact h.clients
  | createBatch now id sessionId prev hashes system pieces =>
    exact h.createBatch ha.1 id sessionId prev ha.2.1 ha.2.2.1 ha.2.2.2
  | setPieceBody now batchId pieceIndex body =>
    apply h.updatePiece ha
    intro p p' hc
    cases hc
    exact ⟨rfl, rfl⟩
  | markResponseStarted now batchId pieceIndex =>
    apply h.updatePiece ha
    intro p p' hc
    split at hc <;> cases hc
    exact ⟨rfl, rfl⟩
  | markSent now batchId pieceIndex interactionId =>
    apply h.updatePiece ha
    intro p p' hc
    split at hc <;> cases hc
    exact ⟨rfl, rfl⟩
  | ackPiece now batchId pieceIndex interactionId =>
    apply h.updatePiece ha
    intro p p' hc
    split at hc <;> cases hc
    · exact ⟨rfl, rfl⟩
    · exact ⟨rfl, rfl⟩
  | completeBatch now batchId => exact h.completeBatch ha.1 ha.2 batchId
  | failBatch now batchId error => exact h.failBatch ha batchId error
  | removeBatch batchId => exact ⟨h.sessions, h.clients, h.upstreams, h.inFlight.erase batchId⟩
  | extendLifetime now sessionId expiresAtUtc => exact h.extendLifetime ha.1 sessionId ha.2
  | cleanAll => exact ⟨All.empty, All.empty, All.empty, All.empty⟩
  | discardAllInflight => exact ⟨h.sessions, h.clients, h.upstreams, All.empty⟩

end Storable

/-! ## The links -/

namespace Linked

variable {store store' : InteractionStore}

theorem new : Linked InteractionStore.new where
  toIndexed := InteractionStore.Indexed.new
  slot ha := absurd ha (by simp [InteractionStore.new, InteractionStore.Stored])

theorem congr (h : Linked store) (same : SameChains store store') : Linked store' where
  toIndexed := h.toIndexed.congr same
  slot ha hc := by
    rw [same.prevToClient]
    exact h.slot (same.stored_iff.mp ha) (same.stored_iff.mp hc)

theorem touchClient (h : Linked store) (id : String) (now : UInt64) :
    Linked (StoreV2.touchClient store id now) where
  toIndexed := h.toIndexed.touchClient id now
  slot {a c} ha hc := by
    obtain ⟨a0, ha0, hida, _⟩ := touchClient_lookup ha
    obtain ⟨c0, hc0, hidc, hprevc, _⟩ := touchClient_lookup hc
    rw [touchClient_prevToClient, hida, hidc, hprevc]
    exact h.slot (h.stored ha0) (h.stored hc0)

theorem cleanAll (s : StoreV2) : Linked s.cleanAll.interactions where
  toIndexed := InteractionStore.Indexed.cleanAll s
  slot ha := absurd ha (not_stored_cleanAll s _)

/-- **An insert keeps a store linked exactly if it keeps the links.** -/
theorem insertClient_iff (h : Linked store) (node : ClientInteractionNode) :
    Linked (store.insertClient node) ↔ KeepsLinks store node.id node.prevId := by
  have hnode : (store.insertClient node).Stored node := stored_insertClient.mpr (Or.inl rfl)
  constructor
  · intro h'
    -- the ids in question are those of nodes stored after the insert
    have hknown : ∀ {p}, p = node.id ∨ p ∈ store.clients →
        ∃ a, (store.insertClient node).Stored a ∧ a.id = p := by
      intro p hp
      by_cases hid : p = node.id
      · exact ⟨node, hnode, hid.symm⟩
      · obtain ⟨a, ha⟩ := Option.isSome_iff_exists.mp
          (AList.lookup_isSome.mpr (hp.resolve_left hid))
        have haid := h.keyed ha
        refine ⟨a, stored_insertClient.mpr (Or.inr ⟨?_, h.stored ha⟩), haid⟩
        rw [haid]
        exact hid
    refine ⟨?_, ?_, ?_⟩
    · intro p c hp hc hprev hcp
      by_contra hne
      obtain ⟨a, ha, rfl⟩ := hknown hp
      have hslot := (h'.slot ha (stored_insertClient.mpr (Or.inr ⟨hne, hc⟩))).mpr hcp
      rw [InteractionStore.insertClient_prevToClient_lookup, if_pos hprev] at hslot
      exact hne (Option.some.inj hslot).symm
    · intro p hp hslot
      by_contra hne
      obtain ⟨a, ha, rfl⟩ := hknown hp
      apply hne
      apply (h'.slot ha hnode).mp
      rw [InteractionStore.insertClient_prevToClient_lookup, if_neg hne]
      exact hslot
    · intro hself c hc hne
      have hslot := h'.slot hnode (stored_insertClient.mpr (Or.inr ⟨hne, hc⟩))
      rw [InteractionStore.insertClient_prevToClient_lookup, if_neg hself] at hslot
      exact hslot
  · intro hk
    refine ⟨h.toIndexed.insertClient node, fun {a c} ha hc => ?_⟩
    rw [InteractionStore.insertClient_prevToClient_lookup]
    have hown : a.id = node.id ∨ a.id ∈ store.clients := by
      rcases stored_insertClient.mp ha with rfl | ⟨_, hold⟩
      · exact Or.inl rfl
      · exact Or.inr (AList.lookup_isSome.mp (Option.isSome_iff_exists.mpr ⟨a, hold⟩))
    by_cases hp : node.prevId = some a.id
    · -- the slot of `a` is the new node's now
      rw [if_pos hp, Option.some.injEq]
      rcases stored_insertClient.mp hc with rfl | ⟨hne, hold⟩
      · exact ⟨fun _ => hp, fun _ => rfl⟩
      · refine ⟨fun hid => absurd hid.symm hne, fun hcp => ?_⟩
        exact (hk.only hown hold hp hcp).symm
    · rw [if_neg hp]
      rcases stored_insertClient.mp hc with rfl | ⟨hne, hold⟩
      · exact ⟨hk.moved hown, fun hcp => absurd hcp hp⟩
      · rcases stored_insertClient.mp ha with rfl | ⟨_, hold'⟩
        · exact hk.awaited hp hold hne
        · exact h.slot hold' hold

theorem completeBatch {s : StoreV2} (h : Linked s.interactions) {now : UInt64}
    {batchId : String} (hk : (StoreAction.completeBatch now batchId).LinksKept s) :
    Linked (s.completeBatch now batchId).1.interactions := by
  cases completing s now batchId with
  | missing _ result =>
    rw [result]
    exact h
  | partly _ _ result =>
    rw [result]
    exact h.congr (insertCalls_sameChains _ _)
  | @whole batch hb all result =>
    rw [result]
    have hlinked : Linked (s.interactions.insertClient
        (StoreV2.clientNodeOf batch batch.ackedIds now)) :=
      (h.insertClient_iff _).mpr (hk batch hb all)
    exact hlinked.congr (completed_sameChains s now batchId batch)

/-- **A step that keeps the links keeps the store linked.** -/
theorem run {s : StoreV2} (h : Linked s.interactions) {a : StoreAction} (ha : a.LinksKept s) :
    Linked (a.run s).interactions := by
  cases a with
  | insertClient node => exact (h.insertClient_iff node).mpr ha
  | completeBatch now batchId => exact h.completeBatch ha
  | extendLifetime now sessionId expiresAtUtc =>
    rcases extendLifetime_interactions s now sessionId expiresAtUtc with heq | ⟨id, heq⟩
    · show Linked (s.extendLifetime now sessionId expiresAtUtc).interactions
      rw [heq]
      exact h
    · show Linked (s.extendLifetime now sessionId expiresAtUtc).interactions
      rw [heq]
      exact h.touchClient id now
  | cleanAll => exact Linked.cleanAll s
  | insertUpstream node => exact h.congr ⟨rfl, rfl, rfl⟩
  | touchUpstreamOnReplay upstreamId now =>
    exact h.congr (touchUpstreamOnReplay_sameChains s.interactions upstreamId now)
  | setPieceBody now batchId pieceIndex body => exact h.congr (updatePiece_sameChains ..)
  | markResponseStarted now batchId pieceIndex => exact h.congr (updatePiece_sameChains ..)
  | markSent now batchId pieceIndex interactionId => exact h.congr (updatePiece_sameChains ..)
  | ackPiece now batchId pieceIndex interactionId => exact h.congr (updatePiece_sameChains ..)
  | failBatch now batchId error => exact h.congr (failBatch_sameChains s now batchId error)
  | setSession _ _ => exact h
  | createBatch _ _ _ _ _ _ _ => exact h
  | removeBatch _ => exact h
  | discardAllInflight => exact h

end Linked

end InfSplitter.Persistence
