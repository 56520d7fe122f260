import InfSplitter.Lib.Reading
import InfSplitter.Session.Chains
import InfSplitter.Session.Frontier
import Mathlib.Data.List.MinMax
import Mathlib.Data.Prod.Lex
import Mathlib.Order.OrderDual

/-!
# What the frontier search selects

`find_frontier` is a loop with an accumulator over index positions, with a second loop inside. This
file says what it computes without either loop: among all readings of the incoming hashes that
start at a stored occurrence of the first one, the greatest in the order *longest, then newest
terminal node, then smallest terminal id*.

Three steps get there. `walkForward` is `readOn` along child links (`walkForward_eq`), and the
`at_boundary && expected_idx == 0` branch after it is never taken (`terminalClient_eq`).
`keepBest` is the fold of `List.argmax` (`keepBest_eq`). And on a well-formed store the positions
the index lists are all the stored occurrences. `findFrontier_eq` and `findFrontier_none` put them
together; what follows reads `findFrontier` through them.

## Well-formed stores

`WellFormed` is what the handlers keep: the index misses no occurrence, and chains end. The second
half is only needed for the search to answer; where two searches are compared the first is enough.
-/

set_option autoImplicit false

namespace InfSplitter.Session

open Lib

structure InteractionStore.WellFormed (store : InteractionStore) : Prop extends
    store.Indexed where
  ranked : ∃ rank : String → Nat, ∀ {c : ClientInteractionNode} {p : String},
    store.Stored c → c.prevId = some p → rank p < rank c.id

variable {store : InteractionStore}

theorem stored_nextNode (keyed : ∀ {k : String} {c : ClientInteractionNode},
    store.clients.lookup k = some c → c.id = k) {c d : ClientInteractionNode}
    (h : nextNode store c = some d) : store.Stored d := by
  obtain ⟨k, _, hd⟩ := Option.bind_eq_some_iff.mp h
  exact stored_of_lookup keyed hd

theorem InteractionStore.Indexed.stored_nextNode (ix : store.Indexed)
    {c d : ClientInteractionNode} (h : nextNode store c = some d) : store.Stored d :=
  Session.stored_nextNode ix.keyed h

namespace InteractionStore.WellFormed

theorem stored_prevNode (wf : store.WellFormed) {c p : ClientInteractionNode}
    (h : prevNode store c = some p) : store.Stored p ∧ c.prevId = some p.id := by
  obtain ⟨k, hk, hp⟩ := Option.bind_eq_some_iff.mp h
  have := wf.keyed hp
  exact ⟨wf.stored hp, by rw [hk, this]⟩

/-- On a well-formed store every backward loop of the search ends. -/
theorem chase_prevNode_isSome (wf : store.WellFormed) (stop : ClientInteractionNode → Bool)
    {c : ClientInteractionNode} (hc : store.Stored c) :
    ∃ r, chase (prevNode store) stop (chainFuel store) c = some r := by
  obtain ⟨rank, hrank⟩ := wf.ranked
  have hlen : chainFuel store = store.clients.values.length + 1 := by
    unfold chainFuel StrMap.values
    rw [List.length_map]
  rw [hlen]
  refine chase_isSome (prevNode store) stop (P := store.Stored) (fun c => rank c.id)
    store.clients.values ?_ hc
  intro a b ha hb
  obtain ⟨hb', hprev⟩ := wf.stored_prevNode hb
  exact ⟨hb', StrMap.mem_values.mpr ⟨b.id, hb'⟩, hrank ha hprev⟩

end InteractionStore.WellFormed

/-! ## The forward walk is a reading -/

section
variable (store)

/-- Read `hashes` along the chain, from position `i` of node `c`. -/
def read (hashes : List UInt64) (c : ClientInteractionNode) (i : Nat) :
    Nat × ClientInteractionNode :=
  readOn ClientInteractionNode.messageHashes (nextNode store) hashes c i

/-- The whole state a forward walk ends in, against the reading it performs. -/
theorem walkForward_eq (hs : List UInt64) (w : Walk)
    (hb : w.atBoundary = true → w.expectedIdx ≠ 0) :
    (walkForward store hs w.prefixLen w).prefixLen =
        w.prefixLen + (read store hs w.currentClient w.expectedIdx).1 ∧
      (walkForward store hs w.prefixLen w).currentClient =
        (read store hs w.currentClient w.expectedIdx).2 ∧
      ((walkForward store hs w.prefixLen w).atBoundary = true →
        (walkForward store hs w.prefixLen w).expectedIdx ≠ 0) := by
  unfold read
  induction hs generalizing w with
  | nil => exact ⟨rfl, rfl, hb⟩
  | cons h hs ih =>
    unfold walkForward
    by_cases hm : w.currentClient.messageHashes[w.expectedIdx]? = some h
    · by_cases hi : w.expectedIdx + 1 = w.currentClient.messageHashes.length
      · cases hn : nextNode store w.currentClient with
        | none =>
          rw [readOn_last hm hi hn]
          simp only [hm, hi, if_true]
          refine ⟨trivial, trivial, fun _ => ?_⟩
          omega
        | some d =>
          rw [readOn_move hm hi hn]
          have := ih { prefixLen := w.prefixLen + 1, expectedIdx := 0, currentClient := d,
                       atBoundary := false } (by simp)
          simp only [hm, hi, if_true]
          refine ⟨?_, this.2.1, this.2.2⟩
          rw [this.1]
          simp only
          omega
      · rw [readOn_inside hm hi]
        have := ih { w with prefixLen := w.prefixLen + 1, expectedIdx := w.expectedIdx + 1,
                            atBoundary := false } (by simp)
        simp only [hm, hi, if_true, if_false]
        refine ⟨?_, this.2.1, this.2.2⟩
        rw [this.1]
        simp only
        omega
    · rw [readOn_miss hm]
      rw [if_neg hm]
      exact ⟨rfl, rfl, hb⟩

/-- A walk never stops on a boundary it has moved across, so its terminal node is the node it
stands in. -/
theorem terminalClient_eq {w : Walk} (hb : w.atBoundary = true → w.expectedIdx ≠ 0) :
    w.terminalClient store = w.currentClient := by
  unfold Walk.terminalClient
  rw [if_neg]
  rw [Bool.and_eq_true, beq_iff_eq]
  intro h
  exact hb h.1 h.2

/-- Where a reading may start: a stored occurrence of the first hash, in a chain whose root passes
the system-instruction check. -/
def Candidate (incomingSystemInstructionHash : Option UInt64) (hashes : List UInt64)
    (c : ClientInteractionNode) (i : Nat) : Prop :=
  store.Stored c ∧ c.messageHashes[i]? = hashes.head? ∧ hashes ≠ [] ∧
    systemMatches store incomingSystemInstructionHash c = some true

end

theorem Candidate.read_pos {sys : Option UInt64} {hashes : List UInt64}
    {c : ClientInteractionNode} {i : Nat} (h : Candidate store sys hashes c i) :
    0 < (read store hashes c i).1 := by
  obtain ⟨_, hget, hne, _⟩ := h
  cases hashes with
  | nil => exact absurd rfl hne
  | cons h0 hs => exact readOn_pos_iff.mpr hget

theorem Candidate.index_lt {sys : Option UInt64} {hashes : List UInt64}
    {c : ClientInteractionNode} {i : Nat} (h : Candidate store sys hashes c i) :
    i < c.messageHashes.length := by
  obtain ⟨_, hget, hne, _⟩ := h
  obtain ⟨h0, hs, rfl⟩ := List.exists_cons_of_ne_nil hne
  exact (List.getElem?_eq_some_iff.mp hget).1

theorem Candidate.stored_stop {sys : Option UInt64} {hashes : List UInt64}
    {c : ClientInteractionNode} {i : Nat} (h : Candidate store sys hashes c i)
    (keyed : ∀ {k : String} {c : ClientInteractionNode},
      store.clients.lookup k = some c → c.id = k) : store.Stored (read store hashes c i).2 :=
  readOn_stop_inv _ _ (P := store.Stored) (fun _ _ _ hn => stored_nextNode keyed hn) hashes i h.1

/-- What one turn of the candidate loop comes to at a candidate. -/
theorem Candidate.assess_eq {sys : Option UInt64} {hashes : List UInt64}
    {c : ClientInteractionNode} {i : Nat} (h : Candidate store sys hashes c i)
    (prev : Option String) :
    assess store hashes prev sys { clientId := c.id, messageIndex := i } =
      some (some { prefixLen := (read store hashes c i).1, node := (read store hashes c i).2,
                   known := isKnown hashes prev (read store hashes c i).1
                     (read store hashes c i).2 }) := by
  have hpos := h.read_pos
  obtain ⟨hst, hget, hne, hsys⟩ := h
  obtain ⟨hlen, hcur, hbd⟩ := walkForward_eq store hashes
    { prefixLen := 0, expectedIdx := i, currentClient := c, atBoundary := false } (by simp)
  simp only [Nat.zero_add] at hlen hcur
  unfold assess
  rw [show store.clients.lookup c.id = some c from hst]
  simp only [hget, hsys, terminalClient_eq store hbd, hlen, hcur]
  rw [if_neg (by simp), if_neg (by omega)]

/-- Conversely, a turn that does not `continue` stands at a candidate. -/
theorem candidate_of_assess (keyed : ∀ {k : String} {c : ClientInteractionNode},
    store.clients.lookup k = some c → c.id = k) {sys : Option UInt64} {prev : Option String}
    {hashes : List UInt64} (hne : hashes ≠ []) {pos : ClientInteractionPosition} {b : Best}
    (h : assess store hashes prev sys pos = some (some b)) :
    ∃ c, c.id = pos.clientId ∧ Candidate store sys hashes c pos.messageIndex := by
  unfold assess at h
  cases hc : store.clients.lookup pos.clientId with
  | none => simp [hc] at h
  | some c =>
    refine ⟨c, keyed hc, stored_of_lookup keyed hc, ?_⟩
    simp only [hc] at h
    by_cases hget : c.messageHashes[pos.messageIndex]? = hashes.head?
    · refine ⟨hget, hne, ?_⟩
      rw [if_neg (by simpa using hget)] at h
      cases hs : systemMatches store sys c with
      | none => simp [hs] at h
      | some ok =>
        cases ok with
        | false => simp [hs] at h
        | true => rfl
    · rw [if_pos hget] at h
      simp at h

/-- The system check of a stored node always answers. -/
theorem systemMatches_isSome (wf : store.WellFormed) (sys : Option UInt64)
    {c : ClientInteractionNode} (hc : store.Stored c) :
    ∃ ok, systemMatches store sys c = some ok := by
  cases sys with
  | none => exact ⟨true, rfl⟩
  | some s =>
    obtain ⟨root, hroot⟩ := wf.chase_prevNode_isSome (fun _ => false) hc
    refine ⟨root.systemInstructionHash == some s, ?_⟩
    unfold systemMatches findChainRoot
    simp only [hroot, Option.map_some]

/-- A turn answers unless it comes to a system check that does not. -/
theorem assess_isSome_iff {sys : Option UInt64} {pos : ClientInteractionPosition}
    {hashes : List UInt64} {prev : Option String} :
    (∃ r, assess store hashes prev sys pos = some r) ↔
      ∀ c, store.clients.lookup pos.clientId = some c →
        c.messageHashes[pos.messageIndex]? = hashes.head? →
          ∃ ok, systemMatches store sys c = some ok := by
  unfold assess
  cases hc : store.clients.lookup pos.clientId with
  | none => exact iff_of_true ⟨none, rfl⟩ (fun c h => by cases h)
  | some c =>
    by_cases hget : c.messageHashes[pos.messageIndex]? = hashes.head?
    · simp only [hget, ne_eq, not_true_eq_false, if_false, Option.some.injEq]
      cases hsys : systemMatches store sys c with
      | none =>
        refine iff_of_false (by simp) fun h => ?_
        obtain ⟨ok, hok⟩ := h c rfl hget
        rw [hsys] at hok
        cases hok
      | some ok =>
        refine iff_of_true ?_ ?_
        · cases ok with
          | false => exact ⟨none, rfl⟩
          | true => exact ⟨_, (apply_ite some _ _ _).symm⟩
        · rintro c' rfl _
          exact ⟨ok, hsys⟩
    · refine iff_of_true ⟨none, if_pos hget⟩ ?_
      intro c' hc' hget'
      cases hc'
      exact absurd hget' hget

theorem assess_isSome_of {sys : Option UInt64} {pos : ClientInteractionPosition}
    (hsys : ∀ c, store.clients.lookup pos.clientId = some c →
      ∃ ok, systemMatches store sys c = some ok) (hashes : List UInt64) (prev : Option String) :
    ∃ r, assess store hashes prev sys pos = some r :=
  assess_isSome_iff.mpr fun c hc _ => hsys c hc

/-- Wherever the search may start, the check of the chain's root answers. -/
def RootsAnswer (store : InteractionStore) (sys : Option UInt64) (hashes : List UInt64) : Prop :=
  ∀ (c : ClientInteractionNode) (i : Nat), store.Stored c →
    c.messageHashes[i]? = hashes.head? → ∃ ok, systemMatches store sys c = some ok

theorem RootsAnswer.assess {sys : Option UInt64} {hashes : List UInt64}
    (h : RootsAnswer store sys hashes) (ix : store.Indexed) (prev : Option String)
    (pos : ClientInteractionPosition) : ∃ r, assess store hashes prev sys pos = some r :=
  assess_isSome_iff.mpr fun c hc hget => h c pos.messageIndex (ix.stored hc) hget

theorem InteractionStore.WellFormed.rootsAnswer (wf : store.WellFormed) (sys : Option UInt64)
    (hashes : List UInt64) : RootsAnswer store sys hashes :=
  fun _ _ hc _ => systemMatches_isSome wf sys hc

/-! ## The candidate loop is an `argmax` -/

/-- The order the search prefers readings in. -/
def preference (r : Nat × ClientInteractionNode) : Lex (Nat × Lex (Nat × OrderDual String)) :=
  toLex (r.1, toLex (r.2.lastSeenUtc.toNat, OrderDual.toDual r.2.id))

def Best.reading (b : Best) : Nat × ClientInteractionNode := (b.prefixLen, b.node)

theorem preference_lt_iff {r s : Nat × ClientInteractionNode} :
    preference r < preference s ↔
      r.1 < s.1 ∨ r.1 = s.1 ∧
        (r.2.lastSeenUtc < s.2.lastSeenUtc ∨
          r.2.lastSeenUtc = s.2.lastSeenUtc ∧ s.2.id < r.2.id) := by
  unfold preference
  rw [Prod.Lex.toLex_lt_toLex, Prod.Lex.toLex_lt_toLex, OrderDual.toDual_lt_toDual,
    ← UInt64.lt_iff_toNat_lt, UInt64.toNat_inj]

/-- Readings the search cannot tell apart end in the same stored node. -/
theorem preference_inj {r s : Nat × ClientInteractionNode} (h : store.Stored r.2)
    (h' : store.Stored s.2) (he : preference r = preference s) : r = s := by
  have hlen : r.1 = s.1 := congrArg (fun x => (ofLex x).1) he
  have hid : r.2.id = s.2.id :=
    congrArg (fun x : Lex (Nat × Lex (Nat × OrderDual String)) =>
      OrderDual.ofDual (ofLex (ofLex x).2).2) he
  unfold InteractionStore.Stored at h h'
  rw [hid, h', Option.some.injEq] at h
  exact Prod.ext hlen h.symm

theorem keepBest_eq (best : Option Best) (cur : Best) :
    keepBest best cur =
      List.argAux (fun b c => preference c.reading < preference b.reading) best cur := by
  cases best with
  | none => rfl
  | some b =>
    show keepBest (some b) cur = if preference b.reading < preference cur.reading then some cur
      else some b
    unfold keepBest
    simp only [preference_lt_iff, Best.reading]
    by_cases h1 : b.prefixLen < cur.prefixLen
    · simp [h1]
    · by_cases h2 : cur.prefixLen = b.prefixLen
      · have hcur : ({ b with node := cur.node, known := cur.known } : Best) = cur := by
          cases cur
          simp_all
        rw [hcur]
        simp only [h2, lt_irrefl, if_true, if_false, false_or, true_and,
          eq_comm (a := cur.node.lastSeenUtc)]
      · simp [h1, h2, Ne.symm h2]

/-- The loop over positions, once every turn of it answers. -/
theorem searchBest_eq {hashes : List UInt64} {prev : Option String} {sys : Option UInt64}
    {positions : List ClientInteractionPosition}
    (h : ∀ pos ∈ positions, ∃ r, assess store hashes prev sys pos = some r) (best : Option Best) :
    searchBest store hashes prev sys positions best =
      some ((positions.filterMap fun pos => (assess store hashes prev sys pos).join).foldl
        keepBest best) := by
  induction positions generalizing best with
  | nil => rfl
  | cons pos rest ih =>
    obtain ⟨⟨r, hr⟩, hrest⟩ := List.forall_mem_cons.mp h
    unfold searchBest
    cases r with
    | none => simp [hr, ih hrest]
    | some cur => simp [hr, ih hrest]

/-- A loop over positions that comes to its end had an answer at each. -/
theorem assess_of_searchBest {hashes : List UInt64} {prev : Option String} {sys : Option UInt64}
    {positions : List ClientInteractionPosition} {best : Option Best} {r : Option Best}
    (h : searchBest store hashes prev sys positions best = some r) :
    ∀ pos ∈ positions, ∃ r, assess store hashes prev sys pos = some r := by
  induction positions generalizing best with
  | nil => exact fun _ hpos => absurd hpos List.not_mem_nil
  | cons pos rest ih =>
    unfold searchBest at h
    cases hr : assess store hashes prev sys pos with
    | none => simp [hr] at h
    | some turn =>
      refine List.forall_mem_cons.mpr ⟨⟨turn, hr⟩, ?_⟩
      cases turn with
      | none => exact ih (by simpa [hr] using h)
      | some cur => exact ih (by simpa [hr] using h)

/-- From no best reading on, the loop keeps an `argmax`. -/
theorem foldl_keepBest (l : List Best) :
    l.foldl keepBest none = l.argmax fun b => preference b.reading := by
  rw [show keepBest = List.argAux fun b c : Best => preference c.reading < preference b.reading
    from funext fun o => funext fun b => keepBest_eq o b]
  rfl

/-! ## The selected reading -/

/-- `(n, terminal)` is the reading the search prefers. -/
def LongestReading (store : InteractionStore) (sys : Option UInt64) (hashes : List UInt64)
    (n : Nat) (terminal : ClientInteractionNode) : Prop :=
  (∃ c i, Candidate store sys hashes c i ∧ read store hashes c i = (n, terminal)) ∧
    ∀ c i, Candidate store sys hashes c i →
      preference (read store hashes c i) ≤ preference (n, terminal)

namespace LongestReading

variable {sys : Option UInt64} {hashes : List UInt64} {n : Nat}
  {terminal : ClientInteractionNode}

theorem stored (h : LongestReading store sys hashes n terminal) (ix : store.Indexed) :
    store.Stored terminal := by
  obtain ⟨⟨c, i, hc, hr⟩, _⟩ := h
  have := hc.stored_stop ix.keyed
  rw [hr] at this
  exact this

theorem pos (h : LongestReading store sys hashes n terminal) : 0 < n := by
  obtain ⟨⟨c, i, hc, hr⟩, _⟩ := h
  have := hc.read_pos
  rw [hr] at this
  exact this

theorem le_length (h : LongestReading store sys hashes n terminal) : n ≤ hashes.length := by
  obtain ⟨⟨c, i, _, hr⟩, _⟩ := h
  have := readOn_le ClientInteractionNode.messageHashes (nextNode store) hashes c i
  unfold read at hr
  rw [hr] at this
  exact this

theorem unique (h : LongestReading store sys hashes n terminal) (ix : store.Indexed)
    {n' : Nat} {terminal' : ClientInteractionNode}
    (h' : LongestReading store sys hashes n' terminal') : n = n' ∧ terminal = terminal' := by
  have hst := h.stored ix
  have hst' := h'.stored ix
  obtain ⟨⟨c, i, hc, hr⟩, hmax⟩ := h
  obtain ⟨⟨c', i', hc', hr'⟩, hmax'⟩ := h'
  have h1 := hmax c' i' hc'
  have h2 := hmax' c i hc
  rw [hr'] at h1
  rw [hr] at h2
  have := preference_inj (r := (n, terminal)) (s := (n', terminal')) hst hst'
    (le_antisymm h2 h1)
  exact Prod.mk.inj this

/-- So what holds of one holds of all. -/
theorem forall_iff (h : LongestReading store sys hashes n terminal) (ix : store.Indexed)
    {P : Nat → ClientInteractionNode → Prop} :
    (∀ n' terminal', LongestReading store sys hashes n' terminal' → P n' terminal') ↔
      P n terminal := by
  constructor
  · intro all
    exact all n terminal h
  · intro one n' terminal' h'
    obtain ⟨rfl, rfl⟩ := h.unique ix h'
    exact one

end LongestReading

/-- What `positions.filterMap assess` lists: the readings from candidates. -/
theorem mem_assessed (keyed : ∀ {k : String} {c : ClientInteractionNode},
    store.clients.lookup k = some c → c.id = k) {hashes : List UInt64} (hne : hashes ≠ [])
    (prev : Option String) (sys : Option UInt64) {positions : List ClientInteractionPosition}
    {b : Best} (hb : b ∈ positions.filterMap fun pos => (assess store hashes prev sys pos).join) :
    ∃ c i, Candidate store sys hashes c i ∧ b.reading = read store hashes c i ∧
      b.known = isKnown hashes prev b.prefixLen b.node := by
  obtain ⟨pos, _, hpos⟩ := List.mem_filterMap.mp hb
  have hpos := Option.join_eq_some_iff.mp hpos
  obtain ⟨c, hid, hc⟩ := candidate_of_assess keyed hne hpos
  have := hc.assess_eq prev
  rw [hid, show ({ clientId := pos.clientId, messageIndex := pos.messageIndex } :
    ClientInteractionPosition) = pos from rfl, hpos] at this
  simp only [Option.some.injEq] at this
  subst this
  exact ⟨c, pos.messageIndex, hc, rfl, rfl⟩

theorem Candidate.assessed {sys : Option UInt64} {h0 : UInt64} {hs : List UInt64}
    {c : ClientInteractionNode} {i : Nat} (h : Candidate store sys (h0 :: hs) c i)
    (ix : store.Indexed) (prev : Option String) :
    ∃ b ∈ (store.lookupHash h0).filterMap fun pos =>
        (assess store (h0 :: hs) prev sys pos).join,
      b.reading = read store (h0 :: hs) c i := by
  refine ⟨{ prefixLen := (read store (h0 :: hs) c i).1, node := (read store (h0 :: hs) c i).2,
            known := isKnown (h0 :: hs) prev (read store (h0 :: hs) c i).1
              (read store (h0 :: hs) c i).2 }, ?_, rfl⟩
  refine List.mem_filterMap.mpr
    ⟨{ clientId := c.id, messageIndex := i }, ix.indexed h.1 h.2.1, ?_⟩
  rw [h.assess_eq]
  rfl

/-- **What is preferred of all that is assessed is the longest reading.** -/
theorem Candidate.preferred {sys : Option UInt64} {h0 : UInt64} {hs : List UInt64}
    {c : ClientInteractionNode} {i : Nat} (h : Candidate store sys (h0 :: hs) c i)
    (ix : store.Indexed) (prev : Option String) :
    ∃ b, ((store.lookupHash h0).filterMap fun pos =>
        (assess store (h0 :: hs) prev sys pos).join).argmax (fun b => preference b.reading) =
          some b ∧
      LongestReading store sys (h0 :: hs) b.prefixLen b.node ∧
      b.known = isKnown (h0 :: hs) prev b.prefixLen b.node := by
  generalize hl : ((store.lookupHash h0).filterMap fun pos =>
    (assess store (h0 :: hs) prev sys pos).join) = l
  obtain ⟨b0, hb0, _⟩ := h.assessed ix prev
  rw [hl] at hb0
  cases hb : l.argmax fun b => preference b.reading with
  | none =>
    rw [List.argmax_eq_none.mp hb] at hb0
    simp at hb0
  | some b =>
    have hmem := List.argmax_mem (Option.mem_def.mpr hb)
    obtain ⟨c', i', hc', hread', hknown⟩ := mem_assessed ix.keyed (by simp) prev sys (hl ▸ hmem)
    refine ⟨b, rfl, ⟨⟨c', i', hc', hread'.symm⟩, fun c'' i'' hc'' => ?_⟩, hknown⟩
    obtain ⟨b', hb', hread''⟩ := hc''.assessed ix prev
    rw [← hread'']
    exact List.le_of_mem_argmax (f := fun b : Best => preference b.reading) (hl ▸ hb')
      (Option.mem_def.mpr hb)

/-- **The search finds the longest reading**, when there is one. -/
theorem findFrontier_longest (ix : store.Indexed) {sys : Option UInt64} {hashes : List UInt64}
    (roots : RootsAnswer store sys hashes) {n : Nat} {terminal : ClientInteractionNode}
    (h : LongestReading store sys hashes n terminal) (prev : Option String) :
    findFrontier store hashes prev sys =
      frontierOf store hashes
        (some { prefixLen := n, node := terminal, known := isKnown hashes prev n terminal }) := by
  cases hashes with
  | nil =>
    obtain ⟨⟨c, i, hc, _⟩, _⟩ := h
    exact absurd rfl hc.2.2.1
  | cons h0 hs =>
    obtain ⟨⟨c, i, hc, _⟩, _⟩ := id h
    obtain ⟨b, hb, hlongest, hknown⟩ := hc.preferred ix prev
    obtain ⟨rfl, rfl⟩ := h.unique ix hlongest
    unfold findFrontier
    simp only [searchBest_eq fun pos _ => roots.assess ix prev pos, Option.bind_some,
      foldl_keepBest, hb]
    rw [← hknown]

theorem findFrontier_eq (wf : store.WellFormed) {sys : Option UInt64} {hashes : List UInt64}
    {n : Nat} {terminal : ClientInteractionNode}
    (h : LongestReading store sys hashes n terminal) (prev : Option String) :
    findFrontier store hashes prev sys =
      frontierOf store hashes
        (some { prefixLen := n, node := terminal, known := isKnown hashes prev n terminal }) :=
  findFrontier_longest wf.toIndexed (wf.rootsAnswer sys hashes) h prev

/-- Without a candidate the search starts a new chain. -/
theorem findFrontier_new (ix : store.Indexed) {sys : Option UInt64} {hashes : List UInt64}
    (roots : RootsAnswer store sys hashes) (hne : hashes ≠ [])
    (h : ∀ c i, ¬ Candidate store sys hashes c i) (prev : Option String) :
    findFrontier store hashes prev sys =
      some { index := 0, previousInteractionId := none, allKnown := false,
             matchedClientId := none } := by
  cases hashes with
  | nil => exact absurd rfl hne
  | cons h0 hs =>
    unfold findFrontier
    simp only [searchBest_eq fun pos _ => roots.assess ix prev pos, Option.bind_some]
    generalize hl : (store.lookupHash h0).filterMap _ = l
    cases l with
    | nil => rfl
    | cons b l =>
      obtain ⟨c, i, hc, _⟩ := mem_assessed ix.keyed (by simp) prev sys
        (hl ▸ List.mem_cons_self : b ∈ (store.lookupHash h0).filterMap _)
      exact absurd hc (h c i)

theorem findFrontier_none (wf : store.WellFormed) {sys : Option UInt64} {hashes : List UInt64}
    (hne : hashes ≠ []) (h : ∀ c i, ¬ Candidate store sys hashes c i) (prev : Option String) :
    findFrontier store hashes prev sys =
      some { index := 0, previousInteractionId := none, allKnown := false,
             matchedClientId := none } :=
  findFrontier_new wf.toIndexed (wf.rootsAnswer sys hashes) hne h prev

/-- There is a longest reading as soon as there is a candidate. -/
theorem Candidate.longest (ix : store.Indexed) {sys : Option UInt64} {hashes : List UInt64}
    {c : ClientInteractionNode} {i : Nat} (h : Candidate store sys hashes c i) :
    ∃ n terminal, LongestReading store sys hashes n terminal := by
  cases hashes with
  | nil => exact absurd rfl h.2.2.1
  | cons h0 hs =>
    obtain ⟨b, _, hlongest, _⟩ := h.preferred ix none
    exact ⟨b.prefixLen, b.node, hlongest⟩

/-! ## The five outcomes -/

/-- What a search can come to, with everything that is true when it does. -/
inductive Outcome (store : InteractionStore) (hashes : List UInt64) (prev : Option String)
    (sys : Option UInt64) : Frontier → Prop
  | empty (h : hashes = []) :
      Outcome store hashes prev sys
        { index := 0, previousInteractionId := prev, allKnown := false, matchedClientId := none }
  | fresh (hne : hashes ≠ []) (h : ∀ c i, ¬ Candidate store sys hashes c i) :
      Outcome store hashes prev sys
        { index := 0, previousInteractionId := none, allKnown := false, matchedClientId := none }
  | replay {n : Nat} {terminal : ClientInteractionNode}
      (h : LongestReading store sys hashes n terminal)
      (known : isKnown hashes prev n terminal = true) :
      Outcome store hashes prev sys
        { index := n, previousInteractionId := terminal.prevId, allKnown := true,
          matchedClientId := some terminal.id }
  | boundary {n : Nat} {terminal : ClientInteractionNode}
      (h : LongestReading store sys hashes n terminal)
      (unknown : isKnown hashes prev n terminal = false)
      (ended : endedAtClientBoundary store hashes n terminal = some true) :
      Outcome store hashes prev sys
        { index := n, previousInteractionId := some terminal.id, allKnown := false,
          matchedClientId := none }
  | fork {n : Nat} {terminal : ClientInteractionNode}
      (h : LongestReading store sys hashes n terminal)
      (unknown : isKnown hashes prev n terminal = false)
      (ended : endedAtClientBoundary store hashes n terminal = some false) :
      Outcome store hashes prev sys
        { index := 0, previousInteractionId := terminal.prevId, allKnown := false,
          matchedClientId := none }

theorem endedAtClientBoundary_isSome (wf : store.WellFormed) (hashes : List UInt64) (n : Nat)
    {terminal : ClientInteractionNode} (hst : store.Stored terminal) :
    ∃ ended, endedAtClientBoundary store hashes n terminal = some ended := by
  unfold endedAtClientBoundary
  cases hashes[n - 1]? with
  | none => exact ⟨false, rfl⟩
  | some last =>
    obtain ⟨found, hf⟩ :=
      wf.chase_prevNode_isSome (fun node => node.messageHashes.contains last) hst
    simp only [hf, Option.map_some, Option.some.injEq]
    exact ⟨_, rfl⟩

/-- A terminal node that contains the last hash read is the node looked for. -/
theorem endedAtClientBoundary_of_mem {hashes : List UInt64} {n : Nat} {last : UInt64}
    {terminal : ClientInteractionNode} (hlast : hashes[n - 1]? = some last)
    (hmem : last ∈ terminal.messageHashes) :
    endedAtClientBoundary store hashes n terminal =
      some (terminal.messageHashes.getLast? == some last) := by
  have hc : terminal.messageHashes.contains last = true := List.contains_iff_mem.mpr hmem
  have hfound : chase (prevNode store) (fun node => node.messageHashes.contains last)
      (chainFuel store) terminal = some terminal := chase_stop hc
  unfold endedAtClientBoundary
  simp only [hlast, hfound, Option.map_some, ite_self]

/-- So is a terminal node with nothing before it. -/
theorem endedAtClientBoundary_of_root {hashes : List UInt64} {n : Nat} {last : UInt64}
    {terminal : ClientInteractionNode} (hlast : hashes[n - 1]? = some last)
    (hroot : terminal.prevId = none) :
    endedAtClientBoundary store hashes n terminal =
      some (terminal.messageHashes.getLast? == some last) := by
  have hprev : prevNode store terminal = none := by
    unfold prevNode
    rw [hroot]
    rfl
  have hfound : chase (prevNode store) (fun node => node.messageHashes.contains last)
      (chainFuel store) terminal = some terminal := chase_end hprev
  unfold endedAtClientBoundary
  simp only [hlast, hfound, Option.map_some, ite_self]

theorem isKnown_none (hashes : List UInt64) (n : Nat) (terminal : ClientInteractionNode) :
    isKnown hashes none n terminal = (n == hashes.length) := by
  simp [isKnown]

/-- **On a well-formed store the search ends, in one of its five outcomes.** -/
theorem findFrontier_outcome (wf : store.WellFormed) (hashes : List UInt64)
    (prev : Option String) (sys : Option UInt64) :
    ∃ frontier, findFrontier store hashes prev sys = some frontier ∧
      Outcome store hashes prev sys frontier := by
  by_cases hne : hashes = []
  · subst hne
    exact ⟨_, rfl, Outcome.empty rfl⟩
  by_cases hc : ∃ c i, Candidate store sys hashes c i
  · obtain ⟨c, i, hc⟩ := hc
    obtain ⟨n, terminal, hl⟩ := hc.longest wf.toIndexed
    rw [findFrontier_eq wf hl]
    unfold frontierOf
    cases hk : isKnown hashes prev n terminal with
    | true => exact ⟨_, rfl, Outcome.replay hl hk⟩
    | false =>
      obtain ⟨ended, he⟩ := endedAtClientBoundary_isSome wf hashes n (hl.stored wf.toIndexed)
      have hn : n ≠ 0 := Nat.pos_iff_ne_zero.mp hl.pos
      simp only [Bool.false_eq_true, if_false, if_neg hn, he, Option.map_some]
      cases ended with
      | true => exact ⟨_, rfl, Outcome.boundary hl hk he⟩
      | false => exact ⟨_, rfl, Outcome.fork hl hk he⟩
  · have hno : ∀ c i, ¬ Candidate store sys hashes c i := fun c i hci => hc ⟨c, i, hci⟩
    exact ⟨_, findFrontier_none wf hne hno prev, Outcome.fresh hne hno⟩

theorem Outcome.of_findFrontier (wf : store.WellFormed) {hashes : List UInt64}
    {prev : Option String} {sys : Option UInt64} {frontier : Frontier}
    (found : findFrontier store hashes prev sys = some frontier) :
    Outcome store hashes prev sys frontier := by
  obtain ⟨f, hf, ho⟩ := findFrontier_outcome wf hashes prev sys
  rw [found, Option.some.injEq] at hf
  exact hf ▸ ho

/-! ## Answers that are stored -/

theorem isKnown_iff {hashes : List UInt64} {prev : Option String} {n : Nat}
    {terminal : ClientInteractionNode} :
    isKnown hashes prev n terminal = true ↔
      n = hashes.length ∧ (prev = none ∨ prev = terminal.prevId) := by
  simp [isKnown]

/-- A search that ends has checked the root of every chain it could start in. -/
theorem rootsAnswer_of_found (ix : store.Indexed) {hashes : List UInt64} (hne : hashes ≠ [])
    {prev : Option String} {sys : Option UInt64} {frontier : Frontier}
    (found : findFrontier store hashes prev sys = some frontier) :
    RootsAnswer store sys hashes := by
  cases hashes with
  | nil => exact absurd rfl hne
  | cons h0 hs =>
    obtain ⟨best, hbest, _⟩ := Option.bind_eq_some_iff.mp found
    intro c i hc hget
    have hpos := ix.indexed hc hget
    exact assess_isSome_iff.mp (assess_of_searchBest hbest _ hpos) c hc hget

/-- **All hashes are known with a node exactly if the longest reading is complete and stops there**,
and the previous id is the node's, if one is given. -/
theorem findFrontier_known_iff (ix : store.Indexed) {hashes : List UInt64}
    {prev : Option String} {sys : Option UInt64} {matched : ClientInteractionNode}
    (hmatched : store.Stored matched) :
    (∃ frontier, findFrontier store hashes prev sys = some frontier ∧ frontier.allKnown = true ∧
        frontier.matchedClientId = some matched.id) ↔
      RootsAnswer store sys hashes ∧ LongestReading store sys hashes hashes.length matched ∧
        (prev = none ∨ prev = matched.prevId) := by
  constructor
  · rintro ⟨frontier, found, known, hid⟩
    have hne : hashes ≠ [] := by
      rintro rfl
      cases found
      cases known
    have roots := rootsAnswer_of_found ix hne found
    refine ⟨roots, ?_⟩
    by_cases hc : ∃ c i, Candidate store sys hashes c i
    · obtain ⟨c, i, hc⟩ := hc
      obtain ⟨n, terminal, hl⟩ := hc.longest ix
      rw [findFrontier_longest ix roots hl] at found
      unfold frontierOf at found
      simp only at found
      by_cases hk : isKnown hashes prev n terminal = true
      · rw [if_pos hk, Option.some.injEq] at found
        subst found
        have hsame : store.Stored terminal := hl.stored ix
        unfold InteractionStore.Stored at hsame hmatched
        rw [Option.some.inj hid, hmatched, Option.some.injEq] at hsame
        subst hsame
        obtain ⟨rfl, hprev⟩ := isKnown_iff.mp hk
        exact ⟨hl, hprev⟩
      · rw [if_neg hk, if_neg (Nat.pos_iff_ne_zero.mp hl.pos)] at found
        obtain ⟨ended, _, rfl⟩ := Option.map_eq_some_iff.mp found
        cases ended <;> cases known
    · rw [findFrontier_new ix roots hne (fun c i hci => hc ⟨c, i, hci⟩)] at found
      cases found
      cases known
  · rintro ⟨roots, hl, hprev⟩
    refine ⟨{ index := hashes.length, previousInteractionId := matched.prevId, allKnown := true,
              matchedClientId := some matched.id }, ?_, rfl, rfl⟩
    rw [findFrontier_longest ix roots hl]
    unfold frontierOf
    simp only
    rw [if_pos (isKnown_iff.mpr ⟨rfl, hprev⟩)]

end InfSplitter.Session
