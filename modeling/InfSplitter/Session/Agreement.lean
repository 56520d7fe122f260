import InfSplitter.Session.Selection

/-!
# Stores that answer alike

The hash index lists positions in an order, and in general also positions that no longer hold the
hash. Neither shows in an answer: on two stores with the same client nodes and the same child links
between them, whose indexes miss nothing, `find_frontier` comes to the same result
(`SameGraph.findFrontier`). This includes the searches that do not end.

The order does not show because the preference of the search tells any two stored terminal nodes
apart. The stale positions do not because every turn of the candidate loop that does not `continue`
stands at an occurrence (`mem_lookupHash_of_assess`).
-/

set_option autoImplicit false

namespace InfSplitter.Session

open Lib

/-- The second store has the client nodes of the first, and links the stored ones as it does. -/
structure SameGraph (store store' : InteractionStore) : Prop where
  clients : store'.clients = store.clients
  next : ∀ {c : ClientInteractionNode}, store.Stored c → nextNode store' c = nextNode store c

/-- Of two lists with the same elements, `argmax` picks the same one if it can tell them apart. -/
theorem argmax_eq_of_mem_iff {α β : Type} [LinearOrder β] {f : α → β} {l l' : List α}
    (hmem : ∀ a, a ∈ l ↔ a ∈ l') (hinj : ∀ a ∈ l, ∀ b ∈ l, f a = f b → a = b) :
    l.argmax f = l'.argmax f := by
  cases h : l.argmax f with
  | none =>
    have hnil : l = [] := List.argmax_eq_none.mp h
    have hnil' : l' = [] := by
      apply List.eq_nil_iff_forall_not_mem.mpr
      intro a ha
      rw [← hmem, hnil] at ha
      exact absurd ha List.not_mem_nil
    rw [hnil']
    rfl
  | some a =>
    have ha : a ∈ l := List.argmax_mem h
    cases h' : l'.argmax f with
    | none =>
      rw [hmem, List.argmax_eq_none.mp h'] at ha
      exact absurd ha List.not_mem_nil
    | some b =>
      have hb : b ∈ l := (hmem b).mpr (List.argmax_mem h')
      have hab : f a ≤ f b := List.le_of_mem_argmax ((hmem a).mp ha) h'
      have hba : f b ≤ f a := List.le_of_mem_argmax hb h
      rw [hinj a ha b hb (le_antisymm hab hba)]

section
variable {store : InteractionStore}

theorem findFrontier_cons (h0 : UInt64) (hs : List UInt64) (prev : Option String)
    (sys : Option UInt64) :
    findFrontier store (h0 :: hs) prev sys =
      (searchBest store (h0 :: hs) prev sys (store.lookupHash h0) none).bind
        (frontierOf store (h0 :: hs)) := rfl

/-- A turn of the loop over positions that does not end keeps the loop from ending. -/
theorem searchBest_eq_none {hashes : List UInt64} {prev : Option String} {sys : Option UInt64}
    {positions : List ClientInteractionPosition} {pos : ClientInteractionPosition}
    (hmem : pos ∈ positions) (h : assess store hashes prev sys pos = none) (best : Option Best) :
    searchBest store hashes prev sys positions best = none := by
  induction positions generalizing best with
  | nil => exact absurd hmem List.not_mem_nil
  | cons p rest ih =>
    unfold searchBest
    rcases List.mem_cons.mp hmem with rfl | hrest
    · rw [h]
    · cases assess store hashes prev sys p with
      | none => rfl
      | some r =>
        cases r with
        | none => exact ih hrest best
        | some cur => exact ih hrest (keepBest best cur)

/-- A turn that does not `continue` stands where the first hash really is. -/
theorem mem_lookupHash_of_assess (ix : store.Indexed) {h0 : UInt64} {hs : List UInt64}
    {prev : Option String} {sys : Option UInt64} {pos : ClientInteractionPosition}
    (h : assess store (h0 :: hs) prev sys pos ≠ some none) : pos ∈ store.lookupHash h0 := by
  unfold assess at h
  cases hc : store.clients.lookup pos.clientId with
  | none =>
    rw [hc] at h
    exact absurd rfl h
  | some c =>
    simp only [hc] at h
    by_cases hget : c.messageHashes[pos.messageIndex]? = some h0
    · have := ix.indexed (ix.stored hc) hget
      rw [ix.keyed hc] at this
      exact this
    · rw [if_pos (show c.messageHashes[pos.messageIndex]? ≠ (h0 :: hs).head? from hget)] at h
      exact absurd rfl h

/-- The preference of the search tells its candidates apart. -/
theorem assessed_inj (keyed : ∀ {k : String} {c : ClientInteractionNode},
    store.clients.lookup k = some c → c.id = k) {hashes : List UInt64} (hne : hashes ≠ [])
    {prev : Option String} {sys : Option UInt64} {positions : List ClientInteractionPosition}
    {b b' : Best}
    (hb : b ∈ positions.filterMap fun pos => (assess store hashes prev sys pos).join)
    (hb' : b' ∈ positions.filterMap fun pos => (assess store hashes prev sys pos).join)
    (h : preference b.reading = preference b'.reading) : b = b' := by
  obtain ⟨c, i, hc, hread, hknown⟩ := mem_assessed keyed hne prev sys hb
  obtain ⟨c', i', hc', hread', hknown'⟩ := mem_assessed keyed hne prev sys hb'
  have hst : store.Stored b.reading.2 := by
    rw [hread]
    exact hc.stored_stop keyed
  have hst' : store.Stored b'.reading.2 := by
    rw [hread']
    exact hc'.stored_stop keyed
  obtain ⟨hlen, hnode⟩ := Prod.mk.inj (preference_inj hst hst' h)
  cases b
  cases b'
  simp only at hlen hnode hknown hknown'
  rw [hknown, hknown', hlen, hnode]

end

namespace SameGraph

variable {store store' : InteractionStore}

/-- Both backward loops only read the client nodes. -/
theorem prevNode_eq (same : SameGraph store store') : prevNode store' = prevNode store := by
  funext c
  unfold prevNode
  rw [same.clients]

theorem chainFuel_eq (same : SameGraph store store') : chainFuel store' = chainFuel store := by
  unfold chainFuel
  rw [same.clients]

theorem systemMatches_eq (same : SameGraph store store') (sys : Option UInt64)
    (c : ClientInteractionNode) : systemMatches store' sys c = systemMatches store sys c := by
  unfold systemMatches findChainRoot
  rw [same.prevNode_eq, same.chainFuel_eq]

theorem frontierOf_eq (same : SameGraph store store') (hashes : List UInt64)
    (best : Option Best) : frontierOf store' hashes best = frontierOf store hashes best := by
  have hended : endedAtClientBoundary store' = endedAtClientBoundary store := by
    funext hashes n terminal
    unfold endedAtClientBoundary
    rw [same.prevNode_eq, same.chainFuel_eq]
  unfold frontierOf
  rw [hended]

theorem walkForward_eq (same : SameGraph store store')
    (keyed : ∀ {k : String} {c : ClientInteractionNode},
      store.clients.lookup k = some c → c.id = k)
    (hs : List UInt64) (i : Nat) {w : Walk} (hw : store.Stored w.currentClient) :
    walkForward store' hs i w = walkForward store hs i w := by
  induction hs generalizing i w with
  | nil => rfl
  | cons h hs ih =>
    unfold walkForward
    rw [same.next hw]
    cases hn : nextNode store w.currentClient with
    | none =>
      simp only
      rw [ih (i + 1) (w := { w with prefixLen := i + 1, expectedIdx := w.expectedIdx + 1,
                                    atBoundary := false }) hw]
    | some d =>
      simp only
      rw [ih (i + 1) (w := { w with prefixLen := i + 1, expectedIdx := w.expectedIdx + 1,
                                    atBoundary := false }) hw,
        ih (i + 1) (w := { prefixLen := i + 1, expectedIdx := 0, currentClient := d,
                           atBoundary := false }) (stored_nextNode keyed hn)]

theorem assess_eq (same : SameGraph store store')
    (keyed : ∀ {k : String} {c : ClientInteractionNode},
    store.clients.lookup k = some c → c.id = k) (hashes : List UInt64)
    (prev : Option String) (sys : Option UInt64) (pos : ClientInteractionPosition) :
    assess store' hashes prev sys pos = assess store hashes prev sys pos := by
  have hterminal : ∀ w : Walk, w.terminalClient store' = w.terminalClient store := by
    intro w
    unfold Walk.terminalClient walkBackFrom
    rw [same.prevNode_eq]
  unfold assess
  rw [same.clients]
  cases hc : store.clients.lookup pos.clientId with
  | none => rfl
  | some c =>
    simp only [same.systemMatches_eq, hterminal]
    rw [same.walkForward_eq keyed hashes 0
      (w := { prefixLen := 0, expectedIdx := pos.messageIndex, currentClient := c,
              atBoundary := false }) (stored_of_lookup keyed hc)]

/-- **The answer depends on the client nodes, the links between them, and the positions listed
where a turn does something.** -/
theorem findFrontier_eq_of_listed (same : SameGraph store store')
    (keyed : ∀ {k : String} {c : ClientInteractionNode},
    store.clients.lookup k = some c → c.id = k) (hashes : List UInt64)
    (prev : Option String) (sys : Option UInt64)
    (listed : ∀ {h0 : UInt64} {hs : List UInt64} {pos : ClientInteractionPosition},
      assess store (h0 :: hs) prev sys pos ≠ some none →
        (pos ∈ store'.lookupHash h0 ↔ pos ∈ store.lookupHash h0)) :
    findFrontier store' hashes prev sys = findFrontier store hashes prev sys := by
  cases hashes with
  | nil => rfl
  | cons h0 hs =>
    have hassess := same.assess_eq keyed (h0 :: hs) prev sys
    rw [findFrontier_cons, findFrontier_cons]
    by_cases hends : ∃ pos ∈ store.lookupHash h0, assess store (h0 :: hs) prev sys pos = none
    · -- neither search ends
      obtain ⟨pos, hin, h⟩ := hends
      have hdoes : assess store (h0 :: hs) prev sys pos ≠ some none := by simp [h]
      have hin' := (listed hdoes).mpr hin
      rw [searchBest_eq_none hin h, searchBest_eq_none hin' ((hassess pos).trans h)]
      rfl
    · have hsome : ∀ pos ∈ store.lookupHash h0,
          ∃ r, assess store (h0 :: hs) prev sys pos = some r := by
        intro pos hpos
        apply Option.ne_none_iff_exists'.mp
        exact fun h => hends ⟨pos, hpos, h⟩
      have hsome' : ∀ pos ∈ store'.lookupHash h0,
          ∃ r, assess store' (h0 :: hs) prev sys pos = some r := by
        intro pos hpos
        rw [hassess]
        apply Option.ne_none_iff_exists'.mp
        intro h
        have hdoes : assess store (h0 :: hs) prev sys pos ≠ some none := by simp [h]
        exact hends ⟨pos, (listed hdoes).mp hpos, h⟩
      have hmem : ∀ b,
          (b ∈ (store.lookupHash h0).filterMap fun pos =>
            (assess store (h0 :: hs) prev sys pos).join) ↔
          b ∈ (store'.lookupHash h0).filterMap fun pos =>
            (assess store (h0 :: hs) prev sys pos).join := by
        intro b
        rw [List.mem_filterMap, List.mem_filterMap]
        refine exists_congr fun pos => and_congr_left fun hb => ?_
        have hdoes : assess store (h0 :: hs) prev sys pos ≠ some none := by
          intro h
          rw [h] at hb
          cases hb
        exact (listed hdoes).symm
      rw [searchBest_eq hsome, searchBest_eq hsome', foldl_keepBest, foldl_keepBest,
        Option.bind_some, Option.bind_some, same.frontierOf_eq]
      simp only [hassess]
      congr 1
      refine (argmax_eq_of_mem_iff hmem ?_).symm
      intro b hb b' hb' hpref
      exact assessed_inj keyed (List.cons_ne_nil h0 hs) hb hb' hpref

/-- **Where the indexes miss nothing, it depends on the client nodes and the links between them
only.** -/
theorem findFrontier_eq (same : SameGraph store store') (ix : store.Indexed)
    (ix' : store'.Indexed) (hashes : List UInt64) (prev : Option String) (sys : Option UInt64) :
    findFrontier store' hashes prev sys = findFrontier store hashes prev sys := by
  refine same.findFrontier_eq_of_listed ix.keyed hashes prev sys ?_
  intro h0 hs pos h
  have h' : assess store' (h0 :: hs) prev sys pos ≠ some none := by
    rw [same.assess_eq ix.keyed]
    exact h
  exact iff_of_true (mem_lookupHash_of_assess ix' h') (mem_lookupHash_of_assess ix h)

end SameGraph

/-! ## The order of the index -/

/-- **The answer does not depend on the order of the index**, nor on how often it lists a
position. -/
theorem findFrontier_index_order {store : InteractionStore}
    (keyed : ∀ {k : String} {c : ClientInteractionNode},
      store.clients.lookup k = some c → c.id = k)
    {hashIndex' : MultiMap UInt64 ClientInteractionPosition}
    (listed : ∀ h pos, pos ∈ hashIndex'.get h ↔ pos ∈ store.hashIndex.get h)
    (hashes : List UInt64) (prev : Option String) (sys : Option UInt64) :
    findFrontier { store with hashIndex := hashIndex' } hashes prev sys =
      findFrontier store hashes prev sys := by
  have same : SameGraph store { store with hashIndex := hashIndex' } := ⟨rfl, fun _ => rfl⟩
  refine same.findFrontier_eq_of_listed keyed hashes prev sys ?_
  intro h0 hs pos _
  exact listed h0 pos

/-- Two chains that begin alike. -/
def beginAlike : InteractionStore :=
  (InteractionStore.new.insertClient
    { id := "a", prevId := none, messageHashes := [1], systemInstructionHash := none,
      upstreamIds := [], lastSeenUtc := 0 }).insertClient
    { id := "b", prevId := none, messageHashes := [1], systemInstructionHash := none,
      upstreamIds := [], lastSeenUtc := 0 }

theorem findFrontier_index_order_beginAlike :
    findFrontier
        { beginAlike with
          hashIndex := MultiMap.pushAll ∅ [(1, ⟨"b", 0⟩), (1, ⟨"a", 0⟩), (1, ⟨"b", 0⟩)] }
        [1, 2] none none =
      findFrontier beginAlike [1, 2] none none := by
  have keyed : beginAlike.Indexed := (InteractionStore.Indexed.new.insertClient _).insertClient _
  have hindex : beginAlike.hashIndex = MultiMap.pushAll ∅ [(1, ⟨"a", 0⟩), (1, ⟨"b", 0⟩)] := rfl
  refine findFrontier_index_order keyed.keyed ?_ [1, 2] none none
  intro h pos
  rw [hindex, MultiMap.mem_get_pushAll, MultiMap.mem_get_pushAll]
  refine or_congr Iff.rfl ?_
  simp only [List.mem_cons, List.not_mem_nil, or_false]
  tauto

end InfSplitter.Session
