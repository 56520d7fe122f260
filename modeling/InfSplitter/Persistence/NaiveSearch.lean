import InfSplitter.Persistence.Indexes
import InfSplitter.Session.Deltas
import Mathlib.Data.Finset.Lattice.Fold
import Mathlib.Order.Lattice.Nat

/-!
# The search against a naive one

`find_frontier` is asked here on a store with exact indexes. The naive search has no index, no walk
and no running best: it puts the hashes of a node and of all that come after it together into one
text, does so from every position of every node, and takes the greatest length to which the request
agrees with such a text.

The index that is returned is that length or zero. It is zero for a request that forks, and a
request that forks inside the first node of a chain has no previous id either: it gets the answer of
a request of which nothing is known.
-/

set_option autoImplicit false

namespace InfSplitter.Persistence

open Lib Session

/-- No node comes before itself. -/
def Acyclic (store : InteractionStore) : Prop :=
  ∀ id, ¬ Relation.TransGen (fun id p => clientLink store id = some (some p)) id id

/-! ## The naive search -/

section
variable (store : InteractionStore) (sys : Option UInt64) (hashes : List UInt64)

/-- A node and its successors. -/
def successors (c : ClientInteractionNode) : List ClientInteractionNode :=
  (trail (nextNode store) (chainFuel store) c).getD [c]

/-- The hashes from position `i` of a node on, followed by those of its successors. -/
def textFrom (c : ClientInteractionNode) (i : Nat) : List UInt64 :=
  c.messageHashes.drop i ++
    (successors store c).tail.flatMap ClientInteractionNode.messageHashes

/-- Whether the root of a chain has the system hash, if one is asked for. -/
def rootHas (c : ClientInteractionNode) : Bool :=
  match sys with
  | none => true
  | some h => (findChainRoot store c).any fun root => root.systemInstructionHash == some h

/-- The positions of all nodes that hold the first hash. -/
def starts : List (ClientInteractionNode × Nat) :=
  store.clients.values.flatMap fun c =>
    ((List.range c.messageHashes.length).filter fun i =>
      c.messageHashes[i]? == hashes.head? && rootHas store sys c).map (c, ·)

/-- The greatest length to which the request agrees with a text. -/
def longestAgreement : Nat :=
  (starts store sys hashes).toFinset.sup fun s => agree hashes (textFrom store s.1 s.2)

/-- A node on a walk that attains the greatest length. -/
def OnBestWalk (node : ClientInteractionNode) : Prop :=
  ∃ s ∈ starts store sys hashes,
    agree hashes (textFrom store s.1 s.2) = longestAgreement store sys hashes ∧
      node ∈ successors store s.1

/-- The search stops inside a node: of the walks that attain the greatest length it prefers one that
starts in the node and attains it before the node's hashes are over. -/
structure StopsInside (node : ClientInteractionNode) : Prop where
  preferred : LongestReading store sys hashes (longestAgreement store sys hashes) node
  inside : ∃ i, (node, i) ∈ starts store sys hashes ∧
    agree hashes (textFrom store node i) = longestAgreement store sys hashes ∧
      i + longestAgreement store sys hashes < node.messageHashes.length

end

section
variable {store : InteractionStore} {sys : Option UInt64} {hashes : List UInt64}

/-! ## Links on exact indexes -/

/-- A successor comes after the node, by its own account. -/
theorem prevId_of_nextNode (exact : Exact store) {c d : ClientInteractionNode}
    (h : nextNode store c = some d) : store.Stored d ∧ d.prevId = some c.id := by
  refine ⟨stored_nextNode exact.keyed h, ?_⟩
  obtain ⟨id, hid, hd⟩ := Option.bind_eq_some_iff.mp h
  obtain ⟨d', hd', hprev⟩ := exact.child hid
  rw [hd, Option.some.injEq] at hd'
  rw [hd', hprev]

theorem wellFormed_of_exact (exact : Exact store) (acyclic : Acyclic store) :
    store.WellFormed where
  keyed := exact.keyed
  indexed hc hx := (exact.hash _ _).mpr ⟨_, hc, hx⟩
  ranked := by
    obtain ⟨rank, hrank⟩ := exists_rank acyclic
      (store.clients.values.filterMap ClientInteractionNode.prevId).toFinset (by
        intro id p h
        obtain ⟨c, hc, hp⟩ := Option.map_eq_some_iff.mp h
        rw [List.mem_toFinset, List.mem_filterMap]
        exact ⟨c, StrMap.mem_values.mpr ⟨id, hc⟩, hp⟩)
    refine ⟨rank, ?_⟩
    intro c p hc hp
    apply hrank
    unfold clientLink
    rw [show store.clients.lookup c.id = some c from hc, Option.map_some, hp]

/-- Going forward ends as well: the rank that goes up there is bounded by that of some node. -/
theorem trail_nextNode_isSome (exact : Exact store) (acyclic : Acyclic store)
    {c : ClientInteractionNode} (hc : store.Stored c) :
    ∃ l, trail (nextNode store) (chainFuel store) c = some l := by
  obtain ⟨rank, hrank⟩ := (wellFormed_of_exact exact acyclic).ranked
  have hlen : chainFuel store = store.clients.values.length + 1 := by
    unfold chainFuel StrMap.values
    rw [List.length_map]
  have hbound : ∃ bound, ∀ d, store.Stored d → rank d.id ≤ bound := by
    refine ⟨(store.clients.values.toFinset).sup fun d => rank d.id, ?_⟩
    intro d hd
    exact Finset.le_sup (f := fun d : ClientInteractionNode => rank d.id)
      (List.mem_toFinset.mpr (StrMap.mem_values.mpr ⟨d.id, hd⟩))
  obtain ⟨bound, hbound⟩ := hbound
  obtain ⟨r, hr⟩ := chase_isSome (nextNode store) (fun _ => false) (P := store.Stored)
    (fun d => bound - rank d.id) store.clients.values (by
      intro a b ha hb
      obtain ⟨hst, hprev⟩ := prevId_of_nextNode exact hb
      have hup := hrank hst hprev
      have hle := hbound b hst
      exact ⟨hst, StrMap.mem_values.mpr ⟨b.id, hst⟩, by omega⟩) hc
  rw [hlen]
  exact trail_isSome hr

/-! ## The two searches -/

/-- The stores the searches are compared on. -/
structure Searchable (store : InteractionStore) : Prop where
  exact : Exact store
  acyclic : Acyclic store
  nonempty : ∀ c, store.Stored c → c.messageHashes ≠ []

/-- Stores that grow by inserts of new nodes are such stores. -/
theorem searchable_of_deltaForest (forest : DeltaForest store) : Searchable store where
  exact := by
    induction forest with
    | new => exact Exact.new
    | insert forest fresh _ _ ih =>
      refine ih.insertClient ⟨?_, ?_, ?_⟩
      · intro c hc
        rw [fresh] at hc
        cases hc
      · intro c hc
        rw [fresh] at hc
        cases hc
      · intro p hp
        obtain ⟨d, hd, _⟩ := forest.child_stored hp
        rw [fresh] at hd
        cases hd
  acyclic := forest.links.acyclic
  nonempty _ hc := forest.nonempty hc

theorem rootHas_iff {c : ClientInteractionNode} :
    rootHas store sys c = true ↔ systemMatches store sys c = some true := by
  unfold rootHas systemMatches
  cases sys with
  | none => exact iff_of_true rfl rfl
  | some h => cases findChainRoot store c <;> simp

/-- Both start at the same positions. -/
theorem mem_starts_iff (searchable : Searchable store) (hne : hashes ≠ [])
    {c : ClientInteractionNode} {i : Nat} :
    (c, i) ∈ starts store sys hashes ↔ Candidate store sys hashes c i := by
  obtain ⟨h0, hs, rfl⟩ := List.exists_cons_of_ne_nil hne
  have hstored : c ∈ store.clients.values ↔ store.Stored c := by
    rw [StrMap.mem_values]
    constructor
    · intro ⟨k, hk⟩
      exact stored_of_lookup searchable.exact.keyed hk
    · intro hc
      exact ⟨c.id, hc⟩
  unfold starts Candidate
  simp only [List.mem_flatMap, List.mem_map, List.mem_filter, List.mem_range, Bool.and_eq_true,
    beq_iff_eq, rootHas_iff, Prod.mk.injEq]
  constructor
  · rintro ⟨c', hc', i', ⟨_, hget, hroot⟩, rfl, rfl⟩
    exact ⟨hstored.mp hc', hget, hne, hroot⟩
  · rintro ⟨hc, hget, _, hroot⟩
    exact ⟨c, hstored.mpr hc, i, ⟨(List.getElem?_eq_some_iff.mp hget).1, hget, hroot⟩, rfl, rfl⟩

/-- **A reading is the agreement with the text**, and stops in a node on its walk. -/
theorem read_naive (searchable : Searchable store) {c : ClientInteractionNode} {i : Nat}
    (hc : Candidate store sys hashes c i) :
    (read store hashes c i).1 = agree hashes (textFrom store c i) ∧
      (read store hashes c i).2 ∈ successors store c := by
  obtain ⟨l, hl⟩ := trail_nextNode_isSome searchable.exact searchable.acyclic hc.1
  have hsuccessors : successors store c = l := by
    unfold successors
    rw [hl, Option.getD_some]
  have hi := hc.index_lt
  have htext : textFrom store c i = (l.flatMap ClientInteractionNode.messageHashes).drop i := by
    unfold textFrom
    obtain ⟨rest, rfl⟩ := trail_head hl
    rw [hsuccessors, List.tail_cons, List.flatMap_cons,
      List.drop_append_of_le_length (Nat.le_of_lt hi)]
  rw [htext, hsuccessors]
  refine ⟨?_, readOn_mem_trail hashes i hl⟩
  exact readOn_eq_agree (P := store.Stored)
    (fun _ _ _ hn => stored_nextNode searchable.exact.keyed hn) searchable.nonempty hashes hl hc.1 hi

theorem longestAgreement_eq (searchable : Searchable store) {n : Nat}
    {terminal : ClientInteractionNode} (h : LongestReading store sys hashes n terminal) :
    longestAgreement store sys hashes = n ∧ OnBestWalk store sys hashes terminal := by
  obtain ⟨⟨c, i, hc, hread⟩, hmax⟩ := h
  have hne : hashes ≠ [] := hc.2.2.1
  have hstart := (mem_starts_iff searchable hne).mpr hc
  obtain ⟨hagree, hmem⟩ := read_naive searchable hc
  rw [hread] at hagree hmem
  have hlongest : longestAgreement store sys hashes = n := by
    apply le_antisymm
    · apply Finset.sup_le
      rintro ⟨c', i'⟩ hs
      have hc' := (mem_starts_iff searchable hne).mp (List.mem_toFinset.mp hs)
      rw [← (read_naive searchable hc').1]
      have hle := hmax c' i' hc'
      by_contra hlt
      exact absurd (preference_lt_iff.mpr (Or.inl (Nat.lt_of_not_le hlt))) (not_lt.mpr hle)
    · rw [show n = agree hashes (textFrom store c i) from hagree]
      exact Finset.le_sup (f := fun s : ClientInteractionNode × Nat =>
        agree hashes (textFrom store s.1 s.2)) (List.mem_toFinset.mpr hstart)
  refine ⟨hlongest, (c, i), hstart, ?_, hmem⟩
  rw [hlongest]
  exact hagree.symm

/-- **A search that forks in the first node of a chain stops inside it.** -/
theorem stopsInside_of_fork (searchable : Searchable store) {n : Nat}
    {terminal : ClientInteractionNode} (h : LongestReading store sys hashes n terminal)
    (hroot : terminal.prevId = none)
    (ended : endedAtClientBoundary store hashes n terminal = some false) :
    StopsInside store sys hashes terminal := by
  obtain ⟨hlongest, -⟩ := longestAgreement_eq searchable h
  have hpos := h.pos
  have hle := h.le_length
  refine ⟨hlongest.symm ▸ h, ?_⟩
  obtain ⟨⟨c, i, hc, hread⟩, -⟩ := h
  have hstart := (mem_starts_iff searchable hc.2.2.1).mpr hc
  obtain ⟨hagree, -⟩ := read_naive searchable hc
  -- no link leads to a first node, so the walk has started in it
  have hfirst : ∀ d, nextNode store d ≠ some terminal := by
    intro d hd
    rw [(prevId_of_nextNode searchable.exact hd).2] at hroot
    cases hroot
  have hstarted : c = terminal := by
    rcases readOn_stop_inv ClientInteractionNode.messageHashes (nextNode store)
      (P := fun a => a = c ∨ ∃ d, nextNode store d = some a)
      (fun a b _ hb => Or.inr ⟨a, hb⟩) hashes i (Or.inl rfl) with hsame | ⟨d, hd⟩
    · exact (hsame.symm.trans (congrArg Prod.snd hread))
    · have hterminal : nextNode store d = some terminal := hd.trans (congrArg some
        (congrArg Prod.snd hread))
      exact absurd hterminal (hfirst d)
  subst hstarted
  have hprefix : hashes.take n <+: c.messageHashes.drop i := by
    have hstay := readOn_stay hfirst hc.index_lt (congrArg Prod.snd hread)
    rwa [show (readOn ClientInteractionNode.messageHashes (nextNode store) hashes c i).1 = n from
      congrArg Prod.fst hread] at hstay
  refine ⟨i, hstart, ?_, ?_⟩
  · rw [hlongest, ← hagree, hread]
  · rw [hlongest]
    have hlength := hprefix.length_le
    rw [List.length_take, Nat.min_eq_left hle, List.length_drop] at hlength
    have hindex := hc.index_lt
    by_contra hover
    -- otherwise the last hash read is the node's last
    have hlast : hashes[n - 1]? = c.messageHashes.getLast? := by
      obtain ⟨rest, hrest⟩ := hprefix
      have hget := congrArg (fun l => l[n - 1]?) hrest
      rw [List.getElem?_append_left (by rw [List.length_take]; omega),
        List.getElem?_take_of_lt (by omega), List.getElem?_drop] at hget
      rw [hget, List.getLast?_eq_getElem?, show i + (n - 1) = c.messageHashes.length - 1 by omega]
    obtain ⟨last, hsome⟩ : ∃ last, hashes[n - 1]? = some last :=
      ⟨_, List.getElem?_eq_getElem (by omega)⟩
    rw [endedAtClientBoundary_of_root hsome hroot, ← hlast, hsome] at ended
    simp at ended

/-- With no position to start at, nothing agrees. -/
theorem longestAgreement_eq_zero (searchable : Searchable store) (hne : hashes ≠ [])
    (h : ∀ c i, ¬ Candidate store sys hashes c i) : longestAgreement store sys hashes = 0 := by
  have hnil : starts store sys hashes = [] := by
    apply List.eq_nil_iff_forall_not_mem.mpr
    rintro ⟨c, i⟩ hs
    exact h c i ((mem_starts_iff searchable hne).mp hs)
  unfold longestAgreement
  rw [hnil]
  rfl

/-- What the search answers, by the greatest length `agreement`. -/
structure NaiveAnswer (store : InteractionStore) (sys : Option UInt64) (hashes : List UInt64)
    (agreement : Nat) (frontier : Frontier) : Prop where
  unknown : agreement = 0 →
    frontier.index = 0 ∧ frontier.previousInteractionId = none ∧ frontier.allKnown = false
  -- a fork inside the first node of a chain gets the same answer
  rootFork : frontier.index = 0 ∧ frontier.previousInteractionId = none ∧
    frontier.allKnown = false → agreement = 0 ∨ ∃ node, StopsInside store sys hashes node ∧
      node.prevId = none
  index : agreement ≠ 0 → frontier.index = 0 ∨ frontier.index = agreement
  known : agreement ≠ 0 → frontier.allKnown = true →
    agreement = hashes.length ∧ frontier.index = agreement
  previous : agreement ≠ 0 → ∃ node, OnBestWalk store sys hashes node ∧
    (frontier.previousInteractionId = some node.id ∨
      frontier.previousInteractionId = node.prevId)

/-- **The search comes to the maximum the naive search takes.** -/
theorem findFrontier_naive (searchable : Searchable store) (hne : hashes ≠ [])
    (prev : Option String) :
    ∃ frontier, findFrontier store hashes prev sys = some frontier ∧
      NaiveAnswer store sys hashes (longestAgreement store sys hashes) frontier := by
  obtain ⟨frontier, found, outcome⟩ :=
    findFrontier_outcome (wellFormed_of_exact searchable.exact searchable.acyclic) hashes prev sys
  refine ⟨frontier, found, ?_⟩
  cases outcome with
  | empty h => exact absurd h hne
  | fresh _ hno =>
    have hzero := longestAgreement_eq_zero searchable hne hno
    exact
      { unknown := fun _ => ⟨rfl, rfl, rfl⟩
        rootFork := fun _ => Or.inl hzero
        index := fun h => absurd hzero h
        known := fun h => absurd hzero h
        previous := fun h => absurd hzero h }
  | replay hl known =>
    obtain ⟨hlongest, hbest⟩ := longestAgreement_eq searchable hl
    have hlength := (isKnown_iff.mp known).1
    have hpos := hl.pos
    exact
      { unknown := fun h => by omega
        rootFork := fun h => by cases h.2.2
        index := fun _ => Or.inr hlongest.symm
        known := fun _ _ => ⟨hlongest.trans hlength, hlongest.symm⟩
        previous := fun _ => ⟨_, hbest, Or.inr rfl⟩ }
  | boundary hl unknown ended =>
    obtain ⟨hlongest, hbest⟩ := longestAgreement_eq searchable hl
    have hpos := hl.pos
    exact
      { unknown := fun h => by omega
        rootFork := fun h => by cases h.2.1
        index := fun _ => Or.inr hlongest.symm
        known := fun _ h => by cases h
        previous := fun _ => ⟨_, hbest, Or.inl rfl⟩ }
  | fork hl unknown ended =>
    obtain ⟨hlongest, hbest⟩ := longestAgreement_eq searchable hl
    have hpos := hl.pos
    exact
      { unknown := fun h => by omega
        rootFork := fun h => Or.inr ⟨_, stopsInside_of_fork searchable hl h.2.1 ended, h.2.1⟩
        index := fun _ => Or.inl rfl
        known := fun _ h => by cases h
        previous := fun _ => ⟨_, hbest, Or.inr rfl⟩ }

end

theorem findFrontier_naive_twoDeltas :
    ∃ frontier, findFrontier twoDeltas [1, 3] none none = some frontier ∧
      NaiveAnswer twoDeltas none [1, 3] (longestAgreement twoDeltas none [1, 3]) frontier :=
  findFrontier_naive (searchable_of_deltaForest deltaForest_twoDeltas) (by simp) none

/-- One turn of two messages. -/
def oneTurn : InteractionStore :=
  InteractionStore.new.insertClient
    { id := "C1", prevId := none, messageHashes := [1, 2], systemInstructionHash := none,
      upstreamIds := ["C1"], lastSeenUtc := 0 }

/-- A request that forks inside it is answered like one of which nothing is known. -/
theorem unknown_not_only_without_agreement :
    ¬ ∀ (store : InteractionStore) (sys : Option UInt64) (hashes : List UInt64)
        (prev : Option String), Searchable store → hashes ≠ [] →
      ∃ frontier, findFrontier store hashes prev sys = some frontier ∧
        (longestAgreement store sys hashes = 0 ↔
          frontier.index = 0 ∧ frontier.previousInteractionId = none ∧
            frontier.allKnown = false) := by
  intro all
  have forest : DeltaForest oneTurn := .insert .new rfl (fun p hp => by cases hp) (by simp)
  obtain ⟨frontier, found, hiff⟩ :=
    all oneTurn none [1, 3] none (searchable_of_deltaForest forest) (by simp)
  have hfound : findFrontier oneTurn [1, 3] none none =
      some { index := 0, previousInteractionId := none, allKnown := false,
             matchedClientId := none } := by decide
  rw [hfound, Option.some.injEq] at found
  subst found
  have hzero : longestAgreement oneTurn none [1, 3] = 0 := hiff.mpr ⟨rfl, rfl, rfl⟩
  exact absurd hzero (by decide)

end InfSplitter.Persistence
