import InfSplitter.Routing.Context

/-!
# Whose answer a replay returns

When all incoming hashes are known the handler sends nothing and returns the stored answer of the
node the search matched. The answer is the right one if that node was created by a request with
exactly these hashes.

A complete reading need not stop in such a node. It may stop inside a longer node, or, after the
last hash of a node that has been continued, in the *next* node (`stopsIn_next`); the later turn
is then replayed for the earlier one. The node with exactly the hashes may still win, since the
search prefers newer nodes, and `ReplaysOwnAnswer` is that it does.
-/

set_option autoImplicit false

namespace InfSplitter.Routing

open Lib Session

/-- Some reading of all hashes stops in `terminal`. -/
def StopsIn (store : InteractionStore) (hashes : List UInt64)
    (terminal : ClientInteractionNode) : Prop :=
  ∃ c i, Candidate store none hashes c i ∧ read store hashes c i = (hashes.length, terminal)

/-- The same among the chains that were started with a system hash. -/
def StopsWith (store : InteractionStore) (sys : Option UInt64) (hashes : List UInt64)
    (terminal : ClientInteractionNode) : Prop :=
  ∃ c i, Candidate store sys hashes c i ∧ read store hashes c i = (hashes.length, terminal)

/-- `a` is newer than `b`, or as old with a smaller id. -/
def Newer (a b : ClientInteractionNode) : Prop :=
  b.lastSeenUtc < a.lastSeenUtc ∨ b.lastSeenUtc = a.lastSeenUtc ∧ a.id < b.id

/-- Wherever a reading of all hashes stops in a node with other hashes, another one stops in a
newer node with exactly these. -/
def ReplaysOwnAnswer (store : InteractionStore) (hashes : List UInt64) : Prop :=
  ∀ terminal, StopsIn store hashes terminal → terminal.messageHashes ≠ hashes →
    ∃ own, StopsIn store hashes own ∧ own.messageHashes = hashes ∧ Newer own terminal

/-- In a run with these moments `id` was given to a request with these hashes. -/
def CreatedBy (moments : List (World × Action)) (id : String) (hashes : List UInt64) : Prop :=
  ∃ m ∈ moments, ∃ x, x.request.hashes = hashes ∧
    (m.2 = .commit x id ∨ ∃ batchId, m.2 = .commitSplit x batchId id)

/-! ## Every stored node remembers its request -/

theorem createdBy_cons {m : World × Action} {moments : List (World × Action)} {id : String}
    {hashes : List UInt64} :
    CreatedBy (m :: moments) id hashes ↔
      (∃ x, x.request.hashes = hashes ∧
        (m.2 = .commit x id ∨ ∃ batchId, m.2 = .commitSplit x batchId id)) ∨
      CreatedBy moments id hashes := by
  unfold CreatedBy
  rw [List.exists_mem_cons_iff]

/-- Ids are given out once, and stored nodes hold the hashes of the request they were given to. -/
structure Recorded (moments : List (World × Action)) (w : World) : Prop where
  issued : ∀ {id hashes}, CreatedBy moments id hashes → id ∈ w.issued
  node : ∀ {c}, w.store.interactions.Stored c →
    ∀ hashes, CreatedBy moments c.id hashes ↔ c.messageHashes = hashes

/-- A step that inserts nothing. -/
theorem Recorded.idle {moments : List (World × Action)} {w w' : World} {a : Action}
    (h : Recorded moments w) (hissued : w'.issued = w.issued)
    (hcommit : ∀ x id, a ≠ .commit x id) (hsplit : ∀ x b id, a ≠ .commitSplit x b id)
    (stored : ∀ c, w'.store.interactions.Stored c → ∃ c0, w.store.interactions.Stored c0 ∧
      c.id = c0.id ∧ c.prevId = c0.prevId ∧ c.messageHashes = c0.messageHashes) :
    Recorded ((w, a) :: moments) w' := by
  have same : ∀ {id hashes}, CreatedBy ((w, a) :: moments) id hashes →
      CreatedBy moments id hashes := by
    intro id hashes hc
    rcases createdBy_cons.mp hc with ⟨x, _, ha | ⟨b, ha⟩⟩ | hc
    · exact absurd ha (hcommit x id)
    · exact absurd ha (hsplit x b id)
    · exact hc
  refine ⟨?_, ?_⟩
  · intro id hashes hc
    rw [hissued]
    exact h.issued (same hc)
  · intro c hc hashes
    obtain ⟨c0, h0, hid, _, hm⟩ := stored c hc
    rw [hid, hm]
    exact ⟨fun hcr => (h.node h0 hashes).mp (same hcr),
      fun he => createdBy_cons.mpr (Or.inr ((h.node h0 hashes).mpr he))⟩

/-- A step that inserts the node of `x` under a fresh id. -/
theorem Recorded.insert {moments : List (World × Action)} {w w' : World} {a : Action}
    (h : Recorded moments w) (x : Exchange) (node : ClientInteractionNode)
    (ha : ∀ y id, (a = .commit y id ∨ ∃ b, a = .commitSplit y b id) ↔ y = x ∧ id = node.id)
    (fresh : node.id ∉ w.issued) (hid : node.id ∈ w'.issued)
    (hissued : ∀ id ∈ w.issued, id ∈ w'.issued)
    (hhashes : node.messageHashes = x.request.hashes)
    (same : SameChains (w.store.interactions.insertClient node) w'.store.interactions) :
    Recorded ((w, a) :: moments) w' := by
  have created : ∀ {id hashes}, CreatedBy ((w, a) :: moments) id hashes ↔
      (id = node.id ∧ node.messageHashes = hashes) ∨ CreatedBy moments id hashes := by
    intro id hashes
    rw [createdBy_cons]
    refine or_congr ?_ Iff.rfl
    constructor
    · intro ⟨y, hy, hay⟩
      obtain ⟨rfl, rfl⟩ := (ha y id).mp hay
      exact ⟨rfl, hhashes.trans hy⟩
    · rintro ⟨rfl, hm⟩
      exact ⟨x, hhashes.symm.trans hm, (ha x node.id).mpr ⟨rfl, rfl⟩⟩
  refine ⟨?_, ?_⟩
  · intro id hashes hc
    rcases created.mp hc with ⟨rfl, _⟩ | hold
    · exact hid
    · exact hissued id (h.issued hold)
  · intro c hc hashes
    rw [created]
    rcases stored_insertClient.mp (same.stored_iff.mp hc) with rfl | ⟨hne, hold⟩
    · constructor
      · rintro (⟨_, hm⟩ | hcr)
        · exact hm
        · exact absurd (h.issued hcr) fresh
      · intro hm
        exact Or.inl ⟨rfl, hm⟩
    · constructor
      · rintro (⟨he, _⟩ | hcr)
        · exact absurd he hne
        · exact (h.node hold hashes).mp hcr
      · intro hm
        exact Or.inr ((h.node hold hashes).mpr hm)

theorem Recorded.step {moments : List (World × Action)} {w w' : World} {a : Action}
    (h : Recorded moments w) (sound : Sound w) (hstep : Step w a w') :
    Recorded ((w, a) :: moments) w' := by
  have unchanged : ∀ c, w.store.interactions.Stored c → ∃ c0, w.store.interactions.Stored c0 ∧
      c.id = c0.id ∧ c.prevId = c0.prevId ∧ c.messageHashes = c0.messageHashes :=
    fun c hc => ⟨c, hc, rfl, rfl, rfl⟩
  cases hstep with
  | answered => exact h.idle rfl (by simp) (by simp) unchanged
  | lookup => exact h.idle rfl (by simp) (by simp) unchanged
  | drop => exact h.idle rfl (by simp) (by simp) unchanged
  | extendLifetime now sessionId expiresAtUtc =>
    refine h.idle rfl (by simp) (by simp) ?_
    intro c hc
    exact extendLifetime_stored sound.wellFormed.toIndexed hc
  | cleanAll =>
    refine h.idle rfl (by simp) (by simp) ?_
    intro c hc
    exact absurd hc (by simp [StoreV2.cleanAll, InteractionStore.Stored])
  | other clients hashIndex prevToClient =>
    refine h.idle rfl (by simp) (by simp) ?_
    intro c hc
    exact unchanged c ((SameChains.stored_iff ⟨clients, hashIndex, prevToClient⟩).mp hc)
  | @commit x id now sessionId mem fresh =>
    refine h.insert x
      (recordedNode now id x.prevId x.request.hashes x.storedSystemHash) ?_ fresh ?_ ?_ rfl
      (recordInteraction_sameChains w.store now sessionId id _ _ _)
    · intro y k
      simp [recordedNode, eq_comm]
    · exact List.mem_append_right _ (List.mem_singleton_self id)
    · exact fun k hk => List.mem_append_left _ hk
  | @commitSplit x batchId batch now store' node mem own prev hashes system completed sent
      fresh =>
    obtain ⟨hnode, same⟩ := completeBatch_ok own completed
    have hid := Sound.commitSplit_id hnode sent
    refine h.insert x node ?_ (fresh _ hid) ?_ ?_ ?_ same
    · intro y k
      simp [eq_comm]
    · exact List.mem_append_right _ hid
    · exact fun k hk => List.mem_append_left _ hk
    · rw [hnode, ← hashes]
      rfl

theorem Recorded.of_run {moments : List (World × Action)} {w : World}
    (run : routing.Run moments w) : Recorded moments w := by
  induction run with
  | init =>
    refine ⟨?_, ?_⟩
    · intro id hashes ⟨m, hm, _⟩
      exact absurd hm (by simp)
    · intro c hc
      exact absurd hc (by simp [routing, World.init, StoreV2.new, InteractionStore.new,
        InteractionStore.Stored])
  | step run hstep ih => exact ih.step (Sound.of_run run) hstep

/-! ## Replays -/

/-- Re-sending a turn that has been continued reads on into the node that continues it. -/
theorem stopsIn_next {store : InteractionStore} {c d : ClientInteractionNode}
    (hc : store.Stored c) (hne : c.messageHashes ≠ []) (hn : nextNode store c = some d) :
    StopsIn store c.messageHashes d := by
  refine ⟨c, 0, ⟨hc, List.head?_eq_getElem?.symm, hne, rfl⟩, ?_⟩
  have h : readOn ClientInteractionNode.messageHashes (nextNode store) (c.messageHashes ++ []) c 0 =
      (0 + c.messageHashes.length, d) := readOn_boundary hn [] hne rfl []
  rw [List.append_nil, Nat.zero_add] at h
  exact h

/-- The longest reading is complete as soon as some reading is, and stops in the newest node. -/
theorem StopsWith.longest {store : InteractionStore} (ix : store.Indexed)
    {sys : Option UInt64} {hashes : List UInt64} {terminal : ClientInteractionNode}
    (h : StopsWith store sys hashes terminal) :
    ∃ best, LongestReading store sys hashes hashes.length best ∧ StopsWith store sys hashes best ∧
      (best = terminal ∨ Newer best terminal) := by
  obtain ⟨c, i, hc, hr⟩ := h
  obtain ⟨n, best, hl⟩ := hc.longest ix
  have hle := hl.2 c i hc
  rw [hr] at hle
  have hst : store.Stored terminal := by
    have := hc.stored_stop ix.keyed
    rw [hr] at this
    exact this
  rcases lt_or_eq_of_le hle with hlt | heq
  · rcases preference_lt_iff.mp hlt with hlt | ⟨hn, hnewer⟩
    · exact absurd hl.le_length (Nat.not_le.mpr hlt)
    · simp only at hn hnewer
      subst hn
      exact ⟨best, hl, hl.1, Or.inr hnewer⟩
  · have := preference_inj (r := (hashes.length, terminal)) (s := (n, best)) hst
      (hl.stored ix) heq
    obtain ⟨rfl, rfl⟩ := Prod.mk.inj this
    exact ⟨terminal, hl, hl.1, Or.inl rfl⟩

theorem StopsIn.longest {store : InteractionStore} (wf : store.WellFormed)
    {hashes : List UInt64} {terminal : ClientInteractionNode}
    (h : StopsIn store hashes terminal) :
    ∃ best, LongestReading store none hashes hashes.length best ∧ StopsIn store hashes best ∧
      (best = terminal ∨ Newer best terminal) :=
  StopsWith.longest wf.toIndexed h

theorem Newer.asymm {a b : ClientInteractionNode} (h : Newer a b) : ¬ Newer b a := by
  intro h'
  have h1 := preference_lt_iff (r := (0, b)) (s := (0, a)) |>.mpr (Or.inr ⟨rfl, h⟩)
  have h2 := preference_lt_iff (r := (0, a)) (s := (0, b)) |>.mpr (Or.inr ⟨rfl, h'⟩)
  exact absurd (lt_trans h1 h2) (lt_irrefl _)

/-- **Replay soundness over whole runs.** In every reachable world and for every list of hashes:
what is replayed was created by a request with exactly these hashes, if and only if every complete
reading that stops in a node with other hashes is beaten by one that stops in a node with these. -/
theorem replay_sound_iff {moments : List (World × Action)} {w : World}
    (run : routing.Run moments w) (hashes : List UInt64) :
    (∀ frontier matched,
        findFrontier w.store.interactions hashes none none = some frontier →
          frontier.allKnown = true → frontier.matchedClientId = some matched →
            CreatedBy moments matched hashes) ↔
      ReplaysOwnAnswer w.store.interactions hashes := by
  have wf := (Sound.of_run run).wellFormed
  have recorded := Recorded.of_run run
  constructor
  · intro hreplay terminal hstop hne
    obtain ⟨best, hl, hbest, hnewer⟩ := StopsIn.longest wf hstop
    have known : isKnown hashes none hashes.length best = true := by
      rw [isKnown_none]
      exact beq_self_eq_true _
    have hcr := hreplay { index := hashes.length, previousInteractionId := best.prevId,
                          allKnown := true, matchedClientId := some best.id } best.id
      (by rw [findFrontier_eq wf hl, known]; rfl) rfl rfl
    have hm := (recorded.node (hl.stored wf.toIndexed) hashes).mp hcr
    rcases hnewer with rfl | hnewer
    · exact absurd hm hne
    · exact ⟨best, hbest, hm, hnewer⟩
  · intro hcond frontier matched found hknown hmatched
    cases Outcome.of_findFrontier wf found with
    | empty _ => exact absurd hknown (by simp)
    | fresh _ _ => exact absurd hknown (by simp)
    | boundary _ _ _ => exact absurd hknown (by simp)
    | fork _ _ _ => exact absurd hknown (by simp)
    | @replay n terminal hl known =>
      rw [isKnown_none, beq_iff_eq] at known
      subst known
      rw [← Option.some.inj hmatched]
      apply (recorded.node (hl.stored wf.toIndexed) hashes).mpr
      by_contra hne
      -- the selected node would be beaten by a newer one, which the search would have preferred
      obtain ⟨own, hown, _, hnewer⟩ := hcond terminal hl.1 hne
      obtain ⟨best, hl', _, hbest⟩ := StopsIn.longest wf hown
      obtain ⟨_, rfl⟩ := hl.unique wf.toIndexed hl'
      rcases hbest with rfl | hbest
      · exact hnewer.asymm hnewer
      · exact hnewer.asymm hbest

/-- Re-sending the first turn of a conversation with two turns replays the answer of the second. -/
theorem replay_not_always_sound :
    ¬ ∀ moments w, routing.Run moments w → ∀ hashes frontier matched,
      findFrontier w.store.interactions hashes none none = some frontier →
        frontier.allKnown = true → frontier.matchedClientId = some matched →
          CreatedBy moments matched hashes := by
  intro h
  obtain ⟨moments, run⟩ := run_twoTurns
  have hcr := h moments _ run [1]
    { index := 1, previousInteractionId := some "int-1", allKnown := true,
      matchedClientId := some "int-2" } "int-2" (by decide) rfl rfl
  have hst : World.twoTurns.store.interactions.Stored
      (recordedNode 0 "int-2" (some "int-1") [1, 2] none) := by decide
  have := ((Recorded.of_run run).node hst [1]).mp hcr
  exact absurd this (by decide)

/-- With one turn stored, re-sending it replays its own answer. -/
theorem replay_sound_iff_oneTurn :
    (∀ frontier matched,
        findFrontier World.oneTurn.store.interactions [1] none none = some frontier →
          frontier.allKnown = true → frontier.matchedClientId = some matched →
            CreatedBy oneTurnMoments matched [1]) ↔
      ReplaysOwnAnswer World.oneTurn.store.interactions [1] :=
  replay_sound_iff run_oneTurn [1]

end InfSplitter.Routing
