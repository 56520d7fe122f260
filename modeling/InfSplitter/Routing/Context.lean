import InfSplitter.Routing.Invariant

/-!
# What the upstream model gets to see

A request that is sent continues the history `contextOf prevId` with the harness messages from the
frontier index on. The two together should be the client's own history.

Nodes store the full list of hashes, so this is an invariant as long as every send respects it:
then the history of a stored node *is* its list (`Faithful.node`). A reading of `n < length` hashes
that stops in node `T` is then continued rightly in two situations, and in no other:

* `T` has exactly the hashes read, so the request goes on behind `T`;
* `T` starts a chain and ends differently, so the request starts over.

What goes wrong outside of them is the fork inside a chain: the search then answers index `0` and
the *parent* of `T`, and the parent's history is delivered a second time.
-/

set_option autoImplicit false

namespace InfSplitter.Routing

open Lib Session

/-- The reading the search prefers, if some hashes are left after it, stops in a node with exactly
the hashes read, or in the first node of a chain which ends with another hash. -/
def ContinuesFaithfully (store : InteractionStore) (hashes : List UInt64) : Prop :=
  ∀ n terminal, LongestReading store none hashes n terminal → n < hashes.length →
    terminal.messageHashes = hashes.take n ∨
      terminal.prevId = none ∧ terminal.messageHashes.getLast? ≠ hashes[n - 1]?

/-- The moments of a run at which a request is looked up have to meet the condition. -/
def LooksUpFaithfully (w : World) : Action → Prop
  | .lookup request => ContinuesFaithfully w.store.interactions request.hashes
  | _ => True

structure Faithful (w : World) : Prop where
  sound : Sound w
  node : ∀ c, w.store.interactions.Stored c → w.history c.id = c.messageHashes
  nonempty : ∀ c, w.store.interactions.Stored c → c.messageHashes ≠ []
  prevNonempty : ∀ c, w.store.interactions.Stored c → ∀ p, c.prevId = some p → w.history p ≠ []
  sent : ∀ x ∈ w.pending,
    w.contextOf x.prevId ++ x.sent = x.request.hashes ∧ x.request.hashes ≠ [] ∧
      ∀ p, x.prevId = some p → w.history p ≠ []

/-- The hash before the end of a proper reading. -/
theorem getElem?_pred_of_reading {hashes : List UInt64} {n : Nat} (hpos : 0 < n)
    (hlt : n < hashes.length) : ∃ last, hashes[n - 1]? = some last ∧
      (hashes.take n).getLast? = some last := by
  have hlt' : n - 1 < hashes.length := by omega
  refine ⟨hashes[n - 1], List.getElem?_eq_getElem hlt', ?_⟩
  rw [List.getLast?_eq_getElem?, List.length_take, Nat.min_eq_left hlt.le,
    List.getElem?_take_of_lt (by omega)]
  exact List.getElem?_eq_getElem hlt'

/-- **What is sent at a frontier completes the history behind it exactly under the condition.** -/
theorem Faithful.context_iff {w : World} (h : Faithful w) {hashes : List UInt64}
    {frontier : Frontier}
    (found : findFrontier w.store.interactions hashes none none = some frontier) :
    (frontier.allKnown = false →
        w.contextOf frontier.previousInteractionId ++ hashes.drop frontier.index = hashes) ↔
      ContinuesFaithfully w.store.interactions hashes := by
  have wf := h.sound.wellFormed
  unfold ContinuesFaithfully
  cases Outcome.of_findFrontier wf found with
  | empty hnil =>
    subst hnil
    refine iff_of_true (fun _ => rfl) ?_
    intro n terminal _ hlt
    exact absurd hlt (Nat.not_lt_zero n)
  | fresh hne hno =>
    refine iff_of_true (fun _ => rfl) ?_
    intro n terminal hl _
    obtain ⟨⟨c, i, hc, _⟩, _⟩ := hl
    exact absurd hc (hno c i)
  | @replay n terminal hl known =>
    rw [isKnown_none, beq_iff_eq] at known
    rw [hl.forall_iff wf.toIndexed]
    refine iff_of_true (fun hk => absurd hk (by simp)) ?_
    intro hlt
    exact absurd known (Nat.ne_of_lt hlt)
  | @boundary n terminal hl unknown ended =>
    rw [isKnown_none, beq_eq_false_iff_ne] at unknown
    have hlt : n < hashes.length := lt_of_le_of_ne hl.le_length unknown
    obtain ⟨last, hlast, _⟩ := getElem?_pred_of_reading hl.pos hlt
    have hst := hl.stored wf.toIndexed
    rw [hl.forall_iff wf.toIndexed]
    show (_ → w.history terminal.id ++ hashes.drop n = hashes) ↔ _
    rw [h.node terminal hst]
    constructor
    · intro hctx _
      have hsplit : terminal.messageHashes ++ hashes.drop n = hashes.take n ++ hashes.drop n := by
        rw [List.take_append_drop]
        exact hctx rfl
      exact Or.inl (List.append_cancel_right hsplit)
    · intro hcond _
      rcases hcond hlt with heq | ⟨hroot, hne⟩
      · rw [heq, List.take_append_drop]
      · -- a first node that ends differently is not a boundary
        rw [endedAtClientBoundary_of_root hlast hroot, Option.some.injEq, beq_iff_eq] at ended
        exact absurd (ended.trans hlast.symm) hne
  | @fork n terminal hl unknown ended =>
    rw [isKnown_none, beq_eq_false_iff_ne] at unknown
    have hlt : n < hashes.length := lt_of_le_of_ne hl.le_length unknown
    obtain ⟨last, hlast, htake⟩ := getElem?_pred_of_reading hl.pos hlt
    have hst := hl.stored wf.toIndexed
    rw [hl.forall_iff wf.toIndexed]
    show (_ → w.contextOf terminal.prevId ++ hashes.drop 0 = hashes) ↔ _
    rw [List.drop_zero]
    constructor
    · intro hctx _
      have hempty : w.contextOf terminal.prevId = [] := List.append_left_eq_self.mp (hctx rfl)
      cases hp : terminal.prevId with
      | some p =>
        rw [hp] at hempty
        exact absurd hempty (h.prevNonempty terminal hst p hp)
      | none =>
        rw [endedAtClientBoundary_of_root hlast hp, Option.some.injEq,
          beq_eq_false_iff_ne] at ended
        exact Or.inr ⟨rfl, hlast ▸ ended⟩
    · intro hcond _
      rcases hcond hlt with heq | ⟨hroot, _⟩
      · -- a node with exactly the hashes read ends at the boundary
        rw [← heq] at htake
        rw [endedAtClientBoundary_of_mem hlast (List.mem_of_getLast? htake), htake] at ended
        simp at ended
      · rw [hroot]
        rfl

/-! ## Faithful runs -/

theorem Faithful.init : Faithful World.init := by
  have none_stored : ∀ c, ¬ World.init.store.interactions.Stored c := by
    intro c hc
    exact absurd hc (by simp [World.init, StoreV2.new, InteractionStore.new,
      InteractionStore.Stored])
  exact ⟨Sound.init, fun c hc => absurd hc (none_stored c), fun c hc => absurd hc (none_stored c),
    fun c hc => absurd hc (none_stored c), by simp [World.init]⟩

/-- `extend_lifetime` stamps nodes and does nothing else to them. -/
theorem extendLifetime_stored {store : StoreV2} (ix : store.interactions.Indexed)
    {now expiresAtUtc : UInt64} {sessionId : String} {c : ClientInteractionNode}
    (hc : (store.extendLifetime now sessionId expiresAtUtc).interactions.Stored c) :
    ∃ c0, store.interactions.Stored c0 ∧ c.id = c0.id ∧ c.prevId = c0.prevId ∧
      c.messageHashes = c0.messageHashes := by
  rcases extendLifetime_interactions store now sessionId expiresAtUtc with heq | ⟨id, heq⟩
  · rw [heq] at hc
    exact ⟨c, hc, rfl, rfl, rfl⟩
  · rw [heq] at hc
    obtain ⟨c0, h0, hid, hp, hm, _⟩ := touchClient_lookup hc
    exact ⟨c0, ix.stored h0, hid, hp, hm⟩

/-- Contexts of issued ids do not change when a fresh id gets its history. -/
theorem contextOf_historyAfter {w : World} {x : Exchange} {id : String} (fresh : id ∉ w.issued)
    {prev : Option String} (hprev : ∀ p, prev = some p → p ∈ w.issued) (store : StoreV2)
    (pending : List Exchange) (issued : List String) :
    World.contextOf
        { store := store, pending := pending, issued := issued,
          history := w.historyAfter x id } prev =
      w.contextOf prev := by
  cases prev with
  | none => rfl
  | some p =>
    have hne : p ≠ id := by
      rintro rfl
      exact fresh (hprev p rfl)
    exact Function.update_of_ne hne _ _

/-- The insert of an exchange's node under a fresh id keeps a world faithful. -/
theorem Faithful.insert {w : World} (h : Faithful w) {x : Exchange} (mem : x ∈ w.pending)
    (node : ClientInteractionNode) (fresh : node.id ∉ w.issued) (hprev : node.prevId = x.prevId)
    (hhashes : node.messageHashes = x.request.hashes) {store' : StoreV2} {ids : List String}
    (same : SameChains (w.store.interactions.insertClient node) store'.interactions)
    (sound : Sound { store := store', pending := w.pending.erase x, issued := w.issued ++ ids,
                     history := w.historyAfter x node.id }) :
    Faithful { store := store', pending := w.pending.erase x, issued := w.issued ++ ids,
               history := w.historyAfter x node.id } := by
  obtain ⟨hctx, hne, hprevNe⟩ := h.sent x mem
  have old : ∀ {p : String}, p ∈ w.issued → w.historyAfter x node.id p = w.history p := by
    intro p hp
    refine Function.update_of_ne ?_ _ _
    rintro rfl
    exact fresh hp
  have hnew : w.historyAfter x node.id node.id = x.request.hashes := by
    unfold World.historyAfter
    rw [Function.update_self, hctx]
  refine ⟨sound, ?_, ?_, ?_, ?_⟩
  · intro c hc
    rcases stored_insertClient.mp (same.stored_iff.mp hc) with rfl | ⟨_, hold⟩
    · exact hnew.trans hhashes.symm
    · exact (old (h.sound.chained.idIssued hold)).trans (h.node c hold)
  · intro c hc
    rcases stored_insertClient.mp (same.stored_iff.mp hc) with rfl | ⟨_, hold⟩
    · rw [hhashes]
      exact hne
    · exact h.nonempty c hold
  · intro c hc p hp
    rcases stored_insertClient.mp (same.stored_iff.mp hc) with rfl | ⟨_, hold⟩
    · rw [hprev] at hp
      have := hprevNe p hp
      rw [← old (h.sound.pendingIssued x mem p hp)] at this
      exact this
    · have := h.prevNonempty c hold p hp
      rw [← old (h.sound.chained.prevIssued hold hp)] at this
      exact this
  · intro y hy
    have hy := List.mem_of_mem_erase hy
    obtain ⟨hyctx, hyne, hyprev⟩ := h.sent y hy
    have hissued := h.sound.pendingIssued y hy
    refine ⟨?_, hyne, ?_⟩
    · rw [contextOf_historyAfter fresh hissued]
      exact hyctx
    · intro p hp
      have := hyprev p hp
      rw [← old (hissued p hp)] at this
      exact this

/-- Worlds that differ in nothing the invariant reads. -/
theorem Faithful.congr {w w' : World} (h : Faithful w) (sound : Sound w')
    (stored : ∀ c, w'.store.interactions.Stored c → ∃ c0, w.store.interactions.Stored c0 ∧
      c.id = c0.id ∧ c.prevId = c0.prevId ∧ c.messageHashes = c0.messageHashes)
    (pending : ∀ x ∈ w'.pending, x ∈ w.pending) (history : w'.history = w.history) :
    Faithful w' := by
  refine ⟨sound, ?_, ?_, ?_, ?_⟩
  · intro c hc
    obtain ⟨c0, h0, hid, _, hm⟩ := stored c hc
    rw [history, hid, hm]
    exact h.node c0 h0
  · intro c hc
    obtain ⟨c0, h0, _, _, hm⟩ := stored c hc
    rw [hm]
    exact h.nonempty c0 h0
  · intro c hc p hp
    obtain ⟨c0, h0, _, hpr, _⟩ := stored c hc
    rw [history]
    exact h.prevNonempty c0 h0 p (hpr ▸ hp)
  · intro x hx
    have := h.sent x (pending x hx)
    unfold World.contextOf at this ⊢
    rw [history]
    exact this

/-- The exchange a faithful lookup starts. -/
theorem Faithful.lookup {w : World} (h : Faithful w) {request : Request} {frontier : Frontier}
    (found : findFrontier w.store.interactions request.hashes none none = some frontier)
    (proceeds : Proceeds request frontier)
    (hok : ContinuesFaithfully w.store.interactions request.hashes) :
    w.contextOf frontier.previousInteractionId ++ request.hashes.drop frontier.index =
        request.hashes ∧
      request.hashes ≠ [] ∧
      ∀ p, frontier.previousInteractionId = some p → w.history p ≠ [] := by
  refine ⟨(h.context_iff found).mpr hok proceeds.1, ?_, ?_⟩
  · intro hnil
    rw [hnil] at found
    simp only [findFrontier, Option.some.injEq] at found
    exact proceeds.2 ⟨hnil, by rw [← found]⟩
  · intro p hp
    cases Outcome.of_findFrontier h.sound.wellFormed found with
    | empty _ => exact absurd hp (by simp)
    | fresh _ _ => exact absurd hp (by simp)
    | replay hl _ => exact h.prevNonempty _ (hl.stored h.sound.wellFormed.toIndexed) p hp
    | @boundary _ terminal hl _ _ =>
      have hst := hl.stored h.sound.wellFormed.toIndexed
      rw [← Option.some.inj hp, h.node terminal hst]
      exact h.nonempty terminal hst
    | fork hl _ _ => exact h.prevNonempty _ (hl.stored h.sound.wellFormed.toIndexed) p hp

theorem Faithful.step {w w' : World} {a : Action} (h : Faithful w) (hok : LooksUpFaithfully w a)
    (hstep : Step w a w') : Faithful w' := by
  have sound := h.sound.step hstep
  cases hstep with
  | answered => exact h
  | lookup found proceeds =>
    refine ⟨sound, h.node, h.nonempty, h.prevNonempty, ?_⟩
    intro x hx
    rcases List.mem_cons.mp hx with rfl | hx
    · exact h.lookup found proceeds hok
    · exact h.sent x hx
  | @commit x id now sessionId mem fresh =>
    exact h.insert mem (recordedNode now id x.prevId x.request.hashes x.storedSystemHash)
      fresh rfl rfl (recordInteraction_sameChains w.store now sessionId id _ _ _) sound
  | @commitSplit x batchId batch now store' node mem own prev hashes system completed sent
      fresh =>
    obtain ⟨hnode, same⟩ := completeBatch_ok own completed
    refine h.insert mem node (fresh _ (Sound.commitSplit_id hnode sent)) ?_ ?_ same sound
    · rw [hnode, ← prev]
      rfl
    · rw [hnode, ← hashes]
      rfl
  | drop =>
    exact h.congr sound (fun c hc => ⟨c, hc, rfl, rfl, rfl⟩)
      (fun x hx => List.mem_of_mem_erase hx) rfl
  | extendLifetime now sessionId expiresAtUtc =>
    refine h.congr sound ?_ (fun x hx => hx) rfl
    intro c hc
    exact extendLifetime_stored h.sound.wellFormed.toIndexed hc
  | cleanAll =>
    refine h.congr sound ?_ (fun x hx => hx) rfl
    intro c hc
    exact absurd hc (by simp [StoreV2.cleanAll, InteractionStore.Stored])
  | other clients hashIndex prevToClient =>
    refine h.congr sound ?_ (fun x hx => hx) rfl
    intro c hc
    exact ⟨c, (SameChains.stored_iff ⟨clients, hashIndex, prevToClient⟩).mp hc, rfl, rfl, rfl⟩

theorem Faithful.of_run {moments : List (World × Action)} {w : World}
    (run : routing.Run moments w) (hok : ∀ m ∈ moments, LooksUpFaithfully m.1 m.2) :
    Faithful w :=
  run.preserves LooksUpFaithfully Faithful.init (fun _ _ _ h hok hstep => h.step hok hstep) hok

/-- **Context faithfulness over whole runs.** In a run whose lookups all met the condition, every
stored node's history is its list of hashes, and for every next request the search ends, and what
would be sent completes the history behind the frontier if and only if the condition holds. -/
theorem context_faithful_iff {moments : List (World × Action)} {w : World}
    (run : routing.Run moments w) (hok : ∀ m ∈ moments, LooksUpFaithfully m.1 m.2) :
    (∀ c, w.store.interactions.Stored c → w.history c.id = c.messageHashes) ∧
      ∀ hashes, ∃ frontier,
        findFrontier w.store.interactions hashes none none = some frontier ∧
          ((frontier.allKnown = false →
              w.contextOf frontier.previousInteractionId ++ hashes.drop frontier.index = hashes) ↔
            ContinuesFaithfully w.store.interactions hashes) := by
  have h := Faithful.of_run run hok
  refine ⟨h.node, ?_⟩
  intro hashes
  obtain ⟨frontier, found, _⟩ := findFrontier_outcome h.sound.wellFormed hashes none none
  exact ⟨frontier, found, h.context_iff found⟩

/-! ## The fork inside a chain

Two turns of one conversation, then its second message rewritten: `[1]`, `[1, 2]`, and `[1, 3]`. -/

def firstTurn : Exchange :=
  { request := { hashes := [1], systemInstructionHash := none }
    frontier := { index := 0, previousInteractionId := none, allKnown := false,
                  matchedClientId := none } }

def secondTurn : Exchange :=
  { request := { hashes := [1, 2], systemInstructionHash := none }
    frontier := { index := 1, previousInteractionId := some "int-1", allKnown := false,
                  matchedClientId := none } }

/-- The world after one turn. -/
def World.oneTurn : World :=
  (World.init.lookedUp firstTurn.request firstTurn.frontier).committed firstTurn "int-1" 0 "session"

/-- The world after two turns. -/
def World.twoTurns : World :=
  (World.oneTurn.lookedUp secondTurn.request secondTurn.frontier).committed secondTurn "int-2" 0
    "session"

/-- The moments of the first turn, newest first. -/
def oneTurnMoments : List (World × Action) :=
  [(World.init.lookedUp firstTurn.request firstTurn.frontier, .commit firstTurn "int-1"),
    (World.init, .lookup firstTurn.request)]

theorem run_oneTurn : routing.Run oneTurnMoments World.oneTurn := by
  have looked := System.Run.init.step (S := routing)
    (Step.lookup (by decide :
      findFrontier _ firstTurn.request.hashes none none = some firstTurn.frontier) (by decide))
  exact looked.step (Step.commit 0 "session" (by decide) (by decide))

theorem run_twoTurns : ∃ moments, routing.Run moments World.twoTurns := by
  have looked := run_oneTurn.step
    (Step.lookup (by decide :
      findFrontier _ secondTurn.request.hashes none none = some secondTurn.frontier) (by decide))
  exact ⟨_, looked.step (Step.commit 0 "session" (by decide) (by decide))⟩

/-- The rewritten second message goes to the first turn's interaction together with the first
message, which that interaction has already seen. -/
theorem context_not_always_faithful :
    ¬ ∀ moments w, routing.Run moments w → ∀ hashes frontier,
      findFrontier w.store.interactions hashes none none = some frontier →
        frontier.allKnown = false →
          w.contextOf frontier.previousInteractionId ++ hashes.drop frontier.index = hashes := by
  intro h
  obtain ⟨moments, run⟩ := run_twoTurns
  have := h moments _ run [1, 3]
    { index := 0, previousInteractionId := some "int-1", allKnown := false, matchedClientId := none }
    (by decide) rfl
  exact absurd this (by decide)

theorem oneTurn_looksUpFaithfully : ∀ m ∈ oneTurnMoments, LooksUpFaithfully m.1 m.2 := by
  intro m hm
  rcases List.mem_cons.mp hm with rfl | hm
  · trivial
  · rw [List.mem_singleton.mp hm]
    exact (Faithful.init.context_iff
      (by decide : _ = some firstTurn.frontier)).mp fun _ => by decide

/-- After one turn the history of its node is its list of hashes. -/
theorem context_faithful_iff_oneTurn :
    World.oneTurn.history "int-1" = [1] ∧
      ∃ frontier,
        findFrontier World.oneTurn.store.interactions [1, 2] none none = some frontier ∧
          ((frontier.allKnown = false →
              World.oneTurn.contextOf frontier.previousInteractionId ++
                ([1, 2] : List UInt64).drop frontier.index = [1, 2]) ↔
            ContinuesFaithfully World.oneTurn.store.interactions [1, 2]) :=
  ⟨(context_faithful_iff run_oneTurn oneTurn_looksUpFaithfully).1
      (recordedNode 0 "int-1" none [1] none) (by decide),
    (context_faithful_iff run_oneTurn oneTurn_looksUpFaithfully).2 [1, 2]⟩

end InfSplitter.Routing
