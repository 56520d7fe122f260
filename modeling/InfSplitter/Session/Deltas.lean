import InfSplitter.Session.Selection
import InfSplitter.Session.Walks
import Mathlib.Data.Finset.Lattice.Fold
import Mathlib.Order.Lattice.Nat

/-!
# Chains of deltas

The specification of the session state has a node hold the hashes of the messages it delivered, and
the history of a node is what the nodes from the root to it hold together (`fullHashes`). The search
for the frontier reads such chains: it goes on from one node to the next, and it should continue a
request at the node whose history is the longest known beginning of it (`FrontierLaw`).

It does so only where the node it continues has no child. A reading that comes to the end of a node
moves on to the child at once, and the search takes the node it stopped in for the node it has read:
it continues a rewritten history at the child. And a request that forks inside a node is answered
with index zero, not with the index the node's own messages start at. `frontier_law_iff` says
exactly when the law holds, and that it does for requests that only go on (`GoesOn`).
-/

set_option autoImplicit false

namespace InfSplitter.Session

open Lib

/-- The stores that inserts of new nodes come to, parents first. -/
inductive DeltaForest : InteractionStore → Prop
  | new : DeltaForest InteractionStore.new
  | insert {store : InteractionStore} {node : ClientInteractionNode} (forest : DeltaForest store)
      (fresh : store.clients.lookup node.id = none)
      (parent : ∀ p, node.prevId = some p → (store.clients.lookup p).isSome = true)
      (nonempty : node.messageHashes ≠ []) : DeltaForest (store.insertClient node)

/-- The hashes from the root of the chain to the node. -/
def fullHashes (store : InteractionStore) (id : String) : List UInt64 :=
  ((walkClientChain store id).getD []).reverse.flatMap ClientInteractionNode.messageHashes

/-- How far the request agrees with the history of some node. -/
def agreedLength (store : InteractionStore) (hashes : List UInt64) : Nat :=
  store.clients.values.toFinset.sup fun c => agree hashes (fullHashes store c.id)

/-- The node's history is the part of the request that is agreed on, and the request goes on. -/
def ContinuesAt (store : InteractionStore) (hashes : List UInt64) (node : ClientInteractionNode) :
    Prop :=
  store.Stored node ∧ fullHashes store node.id = hashes.take (agreedLength store hashes) ∧
    agreedLength store hashes < hashes.length

/-- The longest-prefix law. -/
structure FrontierLaw (store : InteractionStore) (hashes : List UInt64) (frontier : Frontier) :
    Prop where
  history : frontier.allKnown = false →
    (frontier.previousInteractionId.map (fullHashes store)).getD [] = hashes.take frontier.index
  longest : (∃ node, ContinuesAt store hashes node) →
    frontier.index = agreedLength store hashes ∧
      ∃ node, ContinuesAt store hashes node ∧ frontier.previousInteractionId = some node.id

namespace DeltaForest

variable {store : InteractionStore}

theorem indexed (forest : DeltaForest store) : store.Indexed := by
  induction forest with
  | new => exact .new
  | insert _ _ _ _ ih => exact ih.insertClient _

theorem links (forest : DeltaForest store) : Forest (clientLink store) := by
  induction forest with
  | new => exact Forest.empty
  | insert _ fresh parent _ ih =>
    rw [clientLink_insertClient]
    refine ih.insert (clientLink_eq_none.mpr fresh) ?_
    intro p hp
    rw [isSome_clientLink]
    exact parent p hp

theorem wellFormed (forest : DeltaForest store) : store.WellFormed where
  toIndexed := forest.indexed
  ranked := by
    obtain ⟨rank, hrank⟩ := forest.links.ranked
    refine ⟨rank, ?_⟩
    intro c p hc hp
    apply hrank
    unfold clientLink
    rw [show store.clients.lookup c.id = some c from hc, Option.map_some, hp]

theorem nonempty (forest : DeltaForest store) {c : ClientInteractionNode} (hc : store.Stored c) :
    c.messageHashes ≠ [] := by
  induction forest with
  | new => cases hc
  | insert _ _ _ hne ih =>
    rcases stored_insertClient.mp hc with rfl | ⟨_, hold⟩
    · exact hne
    · exact ih hold

/-- The previous id of a stored node is that of a stored node. -/
theorem parent_stored (forest : DeltaForest store) {c : ClientInteractionNode} {p : String}
    (hc : store.Stored c) (hp : c.prevId = some p) :
    ∃ parent, store.Stored parent ∧ parent.id = p ∧ prevNode store c = some parent := by
  have hlink : clientLink store c.id = some (some p) := by
    unfold clientLink
    rw [show store.clients.lookup c.id = some c from hc, Option.map_some, hp]
  obtain ⟨parent, hparent⟩ := Option.isSome_iff_exists.mp
    ((isSome_clientLink p).symm.trans (forest.links.closed hlink))
  refine ⟨parent, forest.indexed.stored hparent, forest.indexed.keyed hparent, ?_⟩
  unfold prevNode
  rw [hp, Option.bind_some, hparent]

/-- The nodes whose hashes the history of a node is. -/
theorem exists_chain (forest : DeltaForest store) {c : ClientInteractionNode}
    (hc : store.Stored c) :
    ∃ chain, trail (prevNode store) (chainFuel store) c = some chain ∧
      fullHashes store c.id = chain.reverse.flatMap ClientInteractionNode.messageHashes := by
  obtain ⟨chain, hchain⟩ := walkClientChain_isSome forest.indexed.keyed forest.links c.id
  refine ⟨chain, ?_, ?_⟩
  · unfold walkClientChain at hchain
    rwa [show store.clients.lookup c.id = some c from hc] at hchain
  · unfold fullHashes
    rw [hchain, Option.getD_some]

/-- **The history of a node is that of the node before it and its own hashes.** -/
theorem fullHashes_eq (forest : DeltaForest store) {c : ClientInteractionNode}
    (hc : store.Stored c) :
    fullHashes store c.id =
      (c.prevId.map (fullHashes store)).getD [] ++ c.messageHashes := by
  obtain ⟨chain, hchain, hfull⟩ := forest.exists_chain hc
  rw [hfull]
  cases hp : c.prevId with
  | none =>
    have hnone : prevNode store c = none := by
      unfold prevNode
      rw [hp, Option.bind_none]
    rw [trail_last hchain hnone]
    simp
  | some p =>
    obtain ⟨parent, hst, rfl, hprev⟩ := forest.parent_stored hc hp
    obtain ⟨rest, fuel, hrest, rfl⟩ := trail_next hchain hprev
    obtain ⟨chain', hchain', hfull'⟩ := forest.exists_chain hst
    rw [Option.map_some, Option.getD_some, hfull', trail_unique hchain' hrest]
    simp

theorem fullHashes_ne_nil (forest : DeltaForest store) {c : ClientInteractionNode}
    (hc : store.Stored c) : fullHashes store c.id ≠ [] := by
  rw [forest.fullHashes_eq hc]
  simp [forest.nonempty hc]

/-- Every hash of a history stands in some node. -/
theorem mem_fullHashes (forest : DeltaForest store) {c : ClientInteractionNode}
    (hc : store.Stored c) {x : UInt64} (hx : x ∈ fullHashes store c.id) :
    ∃ d, store.Stored d ∧ x ∈ d.messageHashes := by
  obtain ⟨chain, hchain, hfull⟩ := forest.exists_chain hc
  rw [hfull] at hx
  obtain ⟨d, hd, hxd⟩ := List.mem_flatMap.mp hx
  refine ⟨d, ?_, hxd⟩
  refine trail_inv (P := store.Stored) ?_ hchain hc d (List.mem_reverse.mp hd)
  intro a b _ hb
  exact (forest.wellFormed.stored_prevNode hb).1

/-- A child that is remembered is stored, and comes after its node by its own account. -/
theorem child_stored (forest : DeltaForest store) {p id : String}
    (h : store.prevToClient.lookup p = some id) :
    ∃ d, store.clients.lookup id = some d ∧ d.prevId = some p := by
  induction forest with
  | new => cases h
  | @insert store node _ fresh _ _ ih =>
    rw [InteractionStore.insertClient_prevToClient_lookup] at h
    by_cases hp : node.prevId = some p
    · rw [if_pos hp, Option.some.injEq] at h
      subst h
      refine ⟨node, ?_, hp⟩
      rw [InteractionStore.insertClient_lookup, if_pos rfl]
    · rw [if_neg hp] at h
      obtain ⟨d, hd, hprev⟩ := ih h
      refine ⟨d, ?_, hprev⟩
      rw [InteractionStore.insertClient_lookup, if_neg]
      · exact hd
      · rintro rfl
        rw [fresh] at hd
        cases hd

theorem prevId_of_nextNode (forest : DeltaForest store) {c d : ClientInteractionNode}
    (h : nextNode store c = some d) : d.prevId = some c.id := by
  obtain ⟨id, hid, hd⟩ := Option.bind_eq_some_iff.mp h
  obtain ⟨d', hd', hprev⟩ := forest.child_stored hid
  rw [hd, Option.some.injEq] at hd'
  rw [hd', hprev]

/-- The history of the node a reading stops in: what comes before the start, what is read, and what
is left. -/
theorem read_text (forest : DeltaForest store) (hashes : List UInt64) {c : ClientInteractionNode}
    (hc : store.Stored c) {i : Nat} (hi : i < c.messageHashes.length) :
    ∃ rest, fullHashes store (read store hashes c i).2.id =
        ((c.prevId.map (fullHashes store)).getD [] ++ c.messageHashes.take i) ++
          hashes.take (read store hashes c i).1 ++ rest ∧
      (∀ x, hashes[(read store hashes c i).1]? = some x → rest.head? ≠ some x) ∧
      (rest = [] → nextNode store (read store hashes c i).2 = none) := by
  have htext : fullHashes store c.id =
      ((c.prevId.map (fullHashes store)).getD [] ++ c.messageHashes.take i) ++
        c.messageHashes.drop i := by
    rw [forest.fullHashes_eq hc, List.append_assoc, List.take_append_drop]
  have hchild : ∀ a b : ClientInteractionNode, store.Stored a → nextNode store a = some b →
      fullHashes store b.id = fullHashes store a.id ++ b.messageHashes := by
    intro a b _ hb
    rw [forest.fullHashes_eq (forest.indexed.stored_nextNode hb), forest.prevId_of_nextNode hb]
    rfl
  exact readOn_text (fun _ _ _ hn => forest.indexed.stored_nextNode hn) (fun _ => forest.nonempty)
    hchild hashes hc hi htext

/-- **A reading that has read all of a history stops at a node without a child.** -/
theorem nextNode_of_history (forest : DeltaForest store) {hashes : List UInt64} {n : Nat}
    {terminal : ClientInteractionNode} (h : LongestReading store none hashes n terminal)
    (hfull : fullHashes store terminal.id = hashes.take n) : nextNode store terminal = none := by
  have hle := h.le_length
  obtain ⟨⟨c, i, hc, hread⟩, _⟩ := h
  obtain ⟨rest, hrest, _, hlast⟩ := forest.read_text hashes hc.1 hc.index_lt
  rw [hread] at hrest hlast
  apply hlast
  have hlength := congrArg List.length (hfull.symm.trans hrest)
  simp only [List.length_append, List.length_take] at hlength
  exact List.length_eq_zero_iff.mp (by omega)

/-- A child is remembered, or a later one. -/
theorem remembered (forest : DeltaForest store) {d : ClientInteractionNode} {p : String}
    (hd : store.Stored d) (hp : d.prevId = some p) :
    ∃ id, store.prevToClient.lookup p = some id := by
  induction forest with
  | new => cases hd
  | @insert store node _ _ _ _ ih =>
    rw [InteractionStore.insertClient_prevToClient_lookup]
    by_cases hnode : node.prevId = some p
    · exact ⟨_, if_pos hnode⟩
    · rw [if_neg hnode]
      rcases stored_insertClient.mp hd with rfl | ⟨_, hold⟩
      · exact absurd hp hnode
      · exact ih hold

end DeltaForest

/-! ## The law -/

/-- When the preferred reading of `n` hashes, which stops in `terminal`, comes to what the law
says. -/
structure ReadsLawfully (store : InteractionStore) (hashes : List UInt64) (n : Nat)
    (terminal : ClientInteractionNode) : Prop where
  -- it has read the history of its node and nothing else, or it forks inside a first node
  stops : n < hashes.length → fullHashes store terminal.id = hashes.take n ∨
    terminal.prevId = none ∧ terminal.messageHashes.getLast? ≠ hashes[n - 1]?
  -- where the request can be continued, it has read as far as any history goes
  continues : (∃ node, ContinuesAt store hashes node) →
    fullHashes store terminal.id = hashes.take n ∧ n = agreedLength store hashes

section
variable {store : InteractionStore} {hashes : List UInt64} {n : Nat}
  {terminal : ClientInteractionNode}

/-- So a request is not continued lawfully at a node that has a child. -/
theorem ReadsLawfully.childless (lawful : ReadsLawfully store hashes n terminal)
    (forest : DeltaForest store) (h : LongestReading store none hashes n terminal)
    (hshort : n < hashes.length) (hprev : terminal.prevId ≠ none) :
    nextNode store terminal = none := by
  rcases lawful.stops hshort with hfull | ⟨hfirst, _⟩
  · exact forest.nextNode_of_history h hfull
  · exact absurd hfirst hprev

/-- Where a request can be continued, something of it is known. -/
theorem ContinuesAt.candidate (forest : DeltaForest store) {node : ClientInteractionNode}
    (h : ContinuesAt store hashes node) :
    agreedLength store hashes ≠ 0 ∧ ∃ c i, Candidate store none hashes c i := by
  obtain ⟨hst, hfull, hlt⟩ := h
  have hne := forest.fullHashes_ne_nil hst
  cases hashes with
  | nil => cases hlt
  | cons h0 hs =>
    have hpos : agreedLength store (h0 :: hs) ≠ 0 := by
      intro hzero
      rw [hfull, hzero, List.take_zero] at hne
      exact hne rfl
    refine ⟨hpos, ?_⟩
    have hmem : h0 ∈ fullHashes store node.id := by
      obtain ⟨n, hn⟩ := Nat.exists_eq_succ_of_ne_zero hpos
      rw [hfull, hn, List.take_succ_cons]
      exact List.mem_cons_self
    obtain ⟨c, hc, hin⟩ := forest.mem_fullHashes hst hmem
    obtain ⟨i, hi⟩ := List.mem_iff_getElem?.mp hin
    exact ⟨c, i, hc, hi, List.cons_ne_nil h0 hs, rfl⟩

/-- A reading that has read a history has come to a boundary. -/
theorem ended_of_history (forest : DeltaForest store)
    (h : LongestReading store none hashes n terminal)
    (hfull : fullHashes store terminal.id = hashes.take n) :
    endedAtClientBoundary store hashes n terminal = some true := by
  have hst := h.stored forest.indexed
  have hpos := h.pos
  have hle := h.le_length
  have hlast : terminal.messageHashes.getLast? = hashes[n - 1]? := by
    have htake : (hashes.take n).getLast? = hashes[n - 1]? := by
      rw [List.getLast?_eq_getElem?, List.length_take, Nat.min_eq_left hle,
        List.getElem?_take_of_lt (by omega)]
    rw [← htake, ← hfull, forest.fullHashes_eq hst, List.getLast?_append_of_ne_nil _
      (forest.nonempty hst)]
  obtain ⟨last, hget⟩ : ∃ last, hashes[n - 1]? = some last :=
    ⟨_, List.getElem?_eq_getElem (by omega)⟩
  rw [hget] at hlast
  rw [endedAtClientBoundary_of_mem hget (List.mem_of_getLast? hlast), hlast, beq_self_eq_true]

/-- A reading that stops in a first node has come to a boundary if its last hash is the node's. -/
theorem ended_of_first (h : LongestReading store none hashes n terminal)
    (hfirst : terminal.prevId = none) :
    endedAtClientBoundary store hashes n terminal =
      some (terminal.messageHashes.getLast? == hashes[n - 1]?) := by
  have hpos := h.pos
  have hle := h.le_length
  obtain ⟨last, hget⟩ : ∃ last, hashes[n - 1]? = some last :=
    ⟨_, List.getElem?_eq_getElem (by omega)⟩
  rw [endedAtClientBoundary_of_root hget hfirst, hget]

/-- A search that forks keeps the law where the node is a first one and nothing can be continued. -/
theorem law_fork_iff (forest : DeltaForest store)
    (h : LongestReading store none hashes n terminal) (hshort : n < hashes.length)
    (ended : endedAtClientBoundary store hashes n terminal = some false) :
    FrontierLaw store hashes
        { index := 0, previousInteractionId := terminal.prevId, allKnown := false,
          matchedClientId := none } ↔
      ReadsLawfully store hashes n terminal := by
  have hno : fullHashes store terminal.id ≠ hashes.take n := by
    intro hfull
    rw [ended_of_history forest h hfull] at ended
    cases ended
  constructor
  · intro law
    have hfirst : terminal.prevId = none := by
      by_contra hprev
      obtain ⟨p, hp⟩ := Option.ne_none_iff_exists'.mp hprev
      obtain ⟨parent, hst, rfl, _⟩ := forest.parent_stored (h.stored forest.indexed) hp
      have hhistory := law.history rfl
      simp only [hp, Option.map_some, Option.getD_some, List.take_zero] at hhistory
      exact forest.fullHashes_ne_nil hst hhistory
    rw [ended_of_first h hfirst, Option.some.injEq, beq_eq_false_iff_ne] at ended
    refine ⟨fun _ => Or.inr ⟨hfirst, ended⟩, ?_⟩
    intro hcontinue
    obtain ⟨node, hnode⟩ := hcontinue
    exact absurd (law.longest ⟨node, hnode⟩).1.symm (hnode.candidate forest).1
  · intro lawful
    obtain ⟨hfirst, _⟩ := (lawful.stops hshort).resolve_left hno
    exact
      { history := fun _ => by simp [hfirst]
        longest := fun hcontinue => absurd (lawful.continues hcontinue).1 hno }

/-- A search that ends at a boundary keeps it where the reading has read the history of its node, as
far as any goes. -/
theorem law_boundary_iff (forest : DeltaForest store)
    (h : LongestReading store none hashes n terminal) (hshort : n < hashes.length)
    (ended : endedAtClientBoundary store hashes n terminal = some true) :
    FrontierLaw store hashes
        { index := n, previousInteractionId := some terminal.id, allKnown := false,
          matchedClientId := none } ↔
      ReadsLawfully store hashes n terminal := by
  have hst := h.stored forest.indexed
  constructor
  · intro law
    have hfull : fullHashes store terminal.id = hashes.take n := law.history rfl
    exact ⟨fun _ => Or.inl hfull, fun hcontinue => ⟨hfull, (law.longest hcontinue).1⟩⟩
  · intro lawful
    have hfull : fullHashes store terminal.id = hashes.take n := by
      refine (lawful.stops hshort).resolve_right ?_
      rintro ⟨hfirst, hlast⟩
      rw [ended_of_first h hfirst, beq_false_of_ne hlast] at ended
      cases ended
    refine ⟨fun _ => hfull, ?_⟩
    intro hcontinue
    have hn := (lawful.continues hcontinue).2
    refine ⟨hn, terminal, ⟨hst, ?_, ?_⟩, rfl⟩
    · rw [← hn]
      exact hfull
    · rw [← hn]
      exact hshort

/-- A search that knows all hashes keeps it where nothing can be continued. -/
theorem law_replay_iff :
    FrontierLaw store hashes
        { index := hashes.length, previousInteractionId := terminal.prevId, allKnown := true,
          matchedClientId := some terminal.id } ↔
      ReadsLawfully store hashes hashes.length terminal := by
  have hnever {node : ClientInteractionNode} (hnode : ContinuesAt store hashes node) :
      hashes.length ≠ agreedLength store hashes := Nat.ne_of_gt hnode.2.2
  constructor
  · intro law
    refine ⟨fun hlt => absurd hlt (Nat.lt_irrefl _), ?_⟩
    intro ⟨node, hnode⟩
    exact absurd (law.longest ⟨node, hnode⟩).1 (hnever hnode)
  · intro lawful
    refine ⟨fun hknown => (nomatch hknown), ?_⟩
    intro ⟨node, hnode⟩
    exact absurd (lawful.continues ⟨node, hnode⟩).2 (hnever hnode)

end

/-! ## Requests that go on -/

/-- **The request goes on with what is stored, or repeats it.** Its first hash stands at the
beginning of chains only, no node has two children, and of the request and a history that begins
like it one is a beginning of the other. -/
structure GoesOn (store : InteractionStore) (hashes : List UInt64) : Prop where
  first : ∀ c i, store.Stored c → c.messageHashes[i]? = hashes.head? → i = 0 ∧ c.prevId = none
  unbranched : ∀ c d p, store.Stored c → store.Stored d → c.prevId = some p →
    d.prevId = some p → c = d
  unchanged : ∀ c, store.Stored c → (fullHashes store c.id).head? = hashes.head? →
    fullHashes store c.id <+: hashes ∨ hashes <+: fullHashes store c.id

section
variable {store : InteractionStore} {hashes : List UInt64} {n : Nat}
  {terminal : ClientInteractionNode}

/-- A child is the one that is read next. -/
theorem GoesOn.next_of_child (h : GoesOn store hashes) (forest : DeltaForest store)
    {c d : ClientInteractionNode} (hd : store.Stored d) (hprev : d.prevId = some c.id) :
    nextNode store c = some d := by
  obtain ⟨id, hid⟩ := forest.remembered hd hprev
  obtain ⟨d', hd', hprev'⟩ := forest.child_stored hid
  obtain rfl := h.unbranched d d' c.id hd (forest.indexed.stored hd') hprev hprev'
  exact Option.bind_eq_some_iff.mpr ⟨id, hid, hd'⟩

/-- **A reading from the root comes to every node of the chain**, over what is before it. -/
theorem GoesOn.reaches (h : GoesOn store hashes) (forest : DeltaForest store)
    {c : ClientInteractionNode} (hc : store.Stored c) :
    ∃ root before, store.Stored root ∧ fullHashes store c.id = before ++ c.messageHashes ∧
      ∀ rest, (read store (before ++ rest) root 0).1 = (read store rest c 0).1 + before.length := by
  obtain ⟨rank, hrank⟩ := forest.wellFormed.ranked
  induction hn : rank c.id using Nat.strong_induction_on generalizing c with
  | _ n ih =>
    cases hp : c.prevId with
    | none =>
      refine ⟨c, [], hc, ?_, fun rest => rfl⟩
      rw [forest.fullHashes_eq hc, hp]
      rfl
    | some p =>
      obtain ⟨parent, hparent, rfl, -⟩ := forest.parent_stored hc hp
      obtain ⟨root, before, hroot, hfull, hread⟩ :=
        ih (rank parent.id) (hn ▸ hrank hc hp) hparent rfl
      refine ⟨root, before ++ parent.messageHashes, hroot, ?_, fun rest => ?_⟩
      · rw [forest.fullHashes_eq hc, hp, Option.map_some, Option.getD_some, hfull]
      · have hboundary := readOn_boundary (h.next_of_child forest hc hp) []
          (forest.nonempty hparent) (List.nil_append _).symm rest
        rw [List.append_assoc, hread]
        unfold read
        rw [List.length_nil] at hboundary
        rw [hboundary, List.length_append]
        dsimp only
        omega

/-- Where a history is a beginning of the request, some reading reads it all. -/
theorem GoesOn.read_history (h : GoesOn store hashes) (forest : DeltaForest store)
    {c : ClientInteractionNode} (hc : store.Stored c) (hfull : fullHashes store c.id <+: hashes) :
    ∃ root, Candidate store none hashes root 0 ∧
      (fullHashes store c.id).length ≤ (read store hashes root 0).1 := by
  obtain ⟨root, before, hroot, htext, hread⟩ := h.reaches forest hc
  obtain ⟨more, hmore⟩ := hfull
  have hle : (fullHashes store c.id).length ≤ (read store hashes root 0).1 := by
    have hown : c.messageHashes.length ≤ (read store (c.messageHashes ++ more) c 0).1 :=
      le_readOn more List.prefix_rfl
    rw [← hmore, htext, List.append_assoc, hread, List.length_append]
    omega
  have hpos : 0 < (read store hashes root 0).1 :=
    Nat.lt_of_lt_of_le (List.length_pos_iff.mpr (forest.fullHashes_ne_nil hc)) hle
  cases hashes with
  | nil => cases hpos
  | cons h0 hs =>
    exact ⟨root, ⟨hroot, readOn_pos_iff.mp hpos, List.cons_ne_nil h0 hs, rfl⟩, hle⟩

theorem le_agreedLength {c : ClientInteractionNode} (hc : store.Stored c) :
    agree hashes (fullHashes store c.id) ≤ agreedLength store hashes :=
  Finset.le_sup (f := fun c => agree hashes (fullHashes store c.id))
    (List.mem_toFinset.mpr (StrMap.mem_values.mpr ⟨c.id, hc⟩))

/-- **Then whatever the search prefers is read lawfully.** -/
theorem GoesOn.readsLawfully (h : GoesOn store hashes) (forest : DeltaForest store)
    (hlongest : LongestReading store none hashes n terminal) :
    ReadsLawfully store hashes n terminal := by
  have hle := hlongest.le_length
  have hpos := hlongest.pos
  have hstored := hlongest.stored forest.indexed
  obtain ⟨⟨c, i, hc, hread⟩, hmax⟩ := hlongest
  obtain ⟨rfl, hroot⟩ := h.first c i hc.1 hc.2.1
  obtain ⟨rest, htext, hmiss, -⟩ := forest.read_text hashes hc.1 hc.index_lt
  rw [hread, hroot] at htext
  rw [hread] at hmiss
  have hfull : fullHashes store terminal.id = hashes.take n ++ rest := htext
  have hhead : (fullHashes store terminal.id).head? = hashes.head? := by
    rw [hfull, List.head?_append, List.head?_take, if_neg (Nat.ne_of_gt hpos)]
    exact Option.or_of_isSome (List.isSome_head?.mpr hc.2.2.1)
  have hall : n < hashes.length → fullHashes store terminal.id = hashes.take n := by
    intro hshort
    have hnone : rest = [] := by
      by_contra hrest
      obtain ⟨x, more, rfl⟩ := List.exists_cons_of_ne_nil hrest
      have hdrop : (fullHashes store terminal.id).drop n = x :: more := by
        rw [hfull]
        exact List.drop_left' (by rw [List.length_take, Nat.min_eq_left hle])
      have hcomparable : x :: more <+: hashes.drop n ∨ hashes.drop n <+: x :: more := by
        rw [← hdrop]
        exact (h.unchanged terminal hstored hhead).imp (List.IsPrefix.drop · n)
          (List.IsPrefix.drop · n)
      rw [List.drop_eq_getElem_cons hshort, List.cons_prefix_cons, List.cons_prefix_cons]
        at hcomparable
      have hsame : x = hashes[n] := hcomparable.elim And.left fun h => h.1.symm
      exact hmiss x (hsame ▸ List.getElem?_eq_getElem hshort) rfl
    rw [hfull, hnone, List.append_nil]
  have hagreed : n ≤ agreedLength store hashes := by
    refine Nat.le_trans (le_agree ?_ hle) (le_agreedLength hstored)
    rw [hfull]
    exact List.prefix_append _ _
  refine ⟨fun hshort => .inl (hall hshort), fun ⟨node, hnode, hhistory, hless⟩ => ?_⟩
  obtain ⟨root, hcandidate, hreads⟩ := h.read_history forest hnode
    (hhistory ▸ List.take_prefix _ _)
  have hfar : agreedLength store hashes ≤ n := by
    rw [hhistory, List.length_take, Nat.min_eq_left (Nat.le_of_lt hless)] at hreads
    refine Nat.le_trans hreads (Nat.not_lt.mp fun hlt => ?_)
    exact absurd (hmax root 0 hcandidate) (not_le.mpr (preference_lt_iff.mpr (.inl hlt)))
  have hsame := Nat.le_antisymm hagreed hfar
  exact ⟨hall (hsame ▸ hless), hsame⟩

end

/-- The law is a matter of the preferred reading. -/
theorem law_iff_reads {store : InteractionStore} (forest : DeltaForest store)
    {hashes : List UInt64} (hne : hashes ≠ []) :
    (∃ frontier, findFrontier store hashes none none = some frontier ∧
        FrontierLaw store hashes frontier) ↔
      ∀ n terminal, LongestReading store none hashes n terminal →
        ReadsLawfully store hashes n terminal := by
  obtain ⟨frontier, found, outcome⟩ := findFrontier_outcome forest.wellFormed hashes none none
  have hlaw : (∃ frontier, findFrontier store hashes none none = some frontier ∧
      FrontierLaw store hashes frontier) ↔ FrontierLaw store hashes frontier := by
    rw [found]
    simp
  rw [hlaw]
  cases outcome with
  | empty h => exact absurd h hne
  | fresh _ hno =>
    refine iff_of_true ⟨fun _ => by simp, ?_⟩ ?_
    · intro ⟨node, hnode⟩
      obtain ⟨_, c, i, hc⟩ := hnode.candidate forest
      exact absurd hc (hno c i)
    · intro n terminal ⟨⟨c, i, hc, _⟩, _⟩
      exact absurd hc (hno c i)
  | @replay n terminal h known =>
    obtain ⟨rfl, _⟩ := isKnown_iff.mp known
    rw [h.forall_iff forest.indexed]
    exact law_replay_iff
  | @boundary n terminal h unknown ended =>
    rw [h.forall_iff forest.indexed]
    refine law_boundary_iff forest h ?_ ended
    rw [isKnown_none, beq_eq_false_iff_ne] at unknown
    exact Nat.lt_of_le_of_ne h.le_length unknown
  | @fork n terminal h unknown ended =>
    rw [h.forall_iff forest.indexed]
    refine law_fork_iff forest h ?_ ended
    rw [isKnown_none, beq_eq_false_iff_ne] at unknown
    exact Nat.lt_of_le_of_ne h.le_length unknown

/-- **When the search keeps the longest-prefix law.** It does for every request that goes on with
what is stored. -/
theorem frontier_law_iff {store : InteractionStore} (forest : DeltaForest store)
    {hashes : List UInt64} (hne : hashes ≠ []) :
    ((∃ frontier, findFrontier store hashes none none = some frontier ∧
        FrontierLaw store hashes frontier) ↔
      ∀ n terminal, LongestReading store none hashes n terminal →
        ReadsLawfully store hashes n terminal) ∧
    (GoesOn store hashes → ∃ frontier, findFrontier store hashes none none = some frontier ∧
      FrontierLaw store hashes frontier) :=
  ⟨law_iff_reads forest hne, fun h => (law_iff_reads forest hne).mpr fun _ _ hlongest =>
    h.readsLawfully forest hlongest⟩

/-- Two turns, the second with the message that is new in it. -/
def twoDeltas : InteractionStore :=
  (InteractionStore.new.insertClient
    { id := "C1", prevId := none, messageHashes := [1], systemInstructionHash := none,
      upstreamIds := ["C1"], lastSeenUtc := 0 }).insertClient
    { id := "C2", prevId := some "C1", messageHashes := [2], systemInstructionHash := none,
      upstreamIds := ["C2"], lastSeenUtc := 0 }

theorem deltaForest_twoDeltas : DeltaForest twoDeltas := by
  refine .insert (.insert .new rfl (fun p hp => by cases hp) (by simp)) (by decide) ?_ (by simp)
  rintro p hp
  cases hp
  rfl

theorem stored_twoDeltas {c : ClientInteractionNode} (h : twoDeltas.Stored c) :
    c.id = "C1" ∧ c.messageHashes = [1] ∧ c.prevId = none ∨
      c.id = "C2" ∧ c.messageHashes = [2] ∧ c.prevId = some "C1" := by
  rcases stored_insertClient.mp h with rfl | ⟨_, h⟩
  · exact .inr ⟨rfl, rfl, rfl⟩
  · rcases stored_insertClient.mp h with rfl | ⟨_, h⟩
    · exact .inl ⟨rfl, rfl, rfl⟩
    · cases h

/-- The request has a third message. -/
theorem goesOn_twoDeltas : GoesOn twoDeltas [1, 2, 3] := by
  refine ⟨fun c i hc hi => ?_, fun c d p hc hd hp hp' => ?_, fun c hc _ => .inl ?_⟩
  · rcases stored_twoDeltas hc with ⟨-, hmessages, hprev⟩ | ⟨-, hmessages, -⟩
    · rw [hmessages] at hi
      cases i with
      | zero => exact ⟨rfl, hprev⟩
      | succ i => cases hi
    · rw [hmessages] at hi
      cases i with
      | zero => exact absurd hi (by decide)
      | succ i => cases hi
  · rcases stored_twoDeltas hc with ⟨-, -, hprev⟩ | ⟨hid, -, -⟩
    · rw [hprev] at hp
      cases hp
    · rcases stored_twoDeltas hd with ⟨-, -, hprev⟩ | ⟨hid', -, -⟩
      · rw [hprev] at hp'
        cases hp'
      · have hlookup : twoDeltas.clients.lookup c.id = some c := hc
        rw [hid, ← hid'] at hlookup
        exact Option.some.inj (hlookup.symm.trans hd)
  · rcases stored_twoDeltas hc with ⟨hid, -, -⟩ | ⟨hid, -, -⟩ <;> rw [hid] <;> decide

theorem frontier_law_iff_twoDeltas :
    ((∃ frontier, findFrontier twoDeltas [1, 2, 3] none none = some frontier ∧
        FrontierLaw twoDeltas [1, 2, 3] frontier) ↔
      ∀ n terminal, LongestReading twoDeltas none [1, 2, 3] n terminal →
        ReadsLawfully twoDeltas [1, 2, 3] n terminal) ∧
    ∃ frontier, findFrontier twoDeltas [1, 2, 3] none none = some frontier ∧
      FrontierLaw twoDeltas [1, 2, 3] frontier :=
  have hlaw := frontier_law_iff deltaForest_twoDeltas (List.cons_ne_nil 1 [2, 3])
  ⟨hlaw.1, hlaw.2 goesOn_twoDeltas⟩

/-- The second message rewritten: the request is continued at the node that holds the old one. -/
theorem frontier_law_fails :
    ¬ ∀ store, DeltaForest store → ∀ hashes : List UInt64, hashes ≠ [] →
      ∃ frontier, findFrontier store hashes none none = some frontier ∧
        FrontierLaw store hashes frontier := by
  intro all
  obtain ⟨frontier, found, law⟩ := all twoDeltas deltaForest_twoDeltas [1, 3] (by simp)
  have hfound : findFrontier twoDeltas [1, 3] none none =
      some { index := 1, previousInteractionId := some "C2", allKnown := false,
             matchedClientId := none } := by decide
  rw [hfound, Option.some.injEq] at found
  subst found
  have hhistory : fullHashes twoDeltas "C2" = [1] := law.history rfl
  exact absurd hhistory (by decide)

end InfSplitter.Session
