import InfSplitter.Lib.Links

/-!
# Reading a word along linked words

Every node carries a word, and some nodes link to a next node. Reading `hs` from position `i` of a
node compares letter by letter; on reaching the end of the node's word the reading moves to the
start of the linked node, if there is one, and otherwise stays where it is and stops.

`readOn` answers how many letters were read and which node the reading stopped in. The second answer
is the delicate one: a reading that ends exactly at the end of a linked node has already *moved on*,
so it stops in the next node although it has read no letter of it (`readOn_boundary`).

Where the links end, all the words along them can be put together. Reading is then comparing with
that text (`readOn_eq_agree`), as long as no word is empty.
-/

set_option autoImplicit false

namespace InfSplitter.Lib

variable {ν α : Type} [DecidableEq α]

/-- Read `hs` from position `i` of node `c`: the number of letters read, and the node the reading
stops in. -/
def readOn (word : ν → List α) (next : ν → Option ν) : List α → ν → Nat → Nat × ν
  | [], c, _ => (0, c)
  | h :: hs, c, i =>
    if (word c)[i]? = some h then
      if i + 1 = (word c).length then
        match next c with
        | some d => ((readOn word next hs d 0).1 + 1, (readOn word next hs d 0).2)
        | none => (1, c)
      else ((readOn word next hs c (i + 1)).1 + 1, (readOn word next hs c (i + 1)).2)
    else (0, c)

section
variable {word : ν → List α} {next : ν → Option ν}

theorem readOn_miss {h : α} {hs : List α} {c : ν} {i : Nat} (hm : (word c)[i]? ≠ some h) :
    readOn word next (h :: hs) c i = (0, c) := by
  simp [readOn, hm]

theorem readOn_inside {h : α} {hs : List α} {c : ν} {i : Nat} (hm : (word c)[i]? = some h)
    (hi : i + 1 ≠ (word c).length) :
    readOn word next (h :: hs) c i =
      ((readOn word next hs c (i + 1)).1 + 1, (readOn word next hs c (i + 1)).2) := by
  simp [readOn, hm, hi]

theorem readOn_move {h : α} {hs : List α} {c d : ν} {i : Nat} (hm : (word c)[i]? = some h)
    (hi : i + 1 = (word c).length) (hn : next c = some d) :
    readOn word next (h :: hs) c i =
      ((readOn word next hs d 0).1 + 1, (readOn word next hs d 0).2) := by
  simp [readOn, hm, hi, hn]

theorem readOn_last {h : α} {hs : List α} {c : ν} {i : Nat} (hm : (word c)[i]? = some h)
    (hi : i + 1 = (word c).length) (hn : next c = none) :
    readOn word next (h :: hs) c i = (1, c) := by
  simp [readOn, hm, hi, hn]

/-- The four things one letter can do; every fact about `readOn` is an induction over them. -/
theorem readOn_cons_cases (word : ν → List α) (next : ν → Option ν) (h : α) (hs : List α) (c : ν)
    (i : Nat) :
    ((word c)[i]? ≠ some h ∧ readOn word next (h :: hs) c i = (0, c)) ∨
    ((word c)[i]? = some h ∧ i + 1 ≠ (word c).length ∧ readOn word next (h :: hs) c i =
      ((readOn word next hs c (i + 1)).1 + 1, (readOn word next hs c (i + 1)).2)) ∨
    (∃ d, (word c)[i]? = some h ∧ i + 1 = (word c).length ∧ next c = some d ∧
      readOn word next (h :: hs) c i =
        ((readOn word next hs d 0).1 + 1, (readOn word next hs d 0).2)) ∨
    ((word c)[i]? = some h ∧ i + 1 = (word c).length ∧ next c = none ∧
      readOn word next (h :: hs) c i = (1, c)) := by
  by_cases hm : (word c)[i]? = some h
  · by_cases hi : i + 1 = (word c).length
    · cases hn : next c with
      | none => exact Or.inr (Or.inr (Or.inr ⟨hm, hi, rfl, readOn_last hm hi hn⟩))
      | some d => exact Or.inr (Or.inr (Or.inl ⟨d, hm, hi, rfl, readOn_move hm hi hn⟩))
    · exact Or.inr (Or.inl ⟨hm, hi, readOn_inside hm hi⟩)
  · exact Or.inl ⟨hm, readOn_miss hm⟩

theorem readOn_le (word : ν → List α) (next : ν → Option ν) (hs : List α) (c : ν) (i : Nat) :
    (readOn word next hs c i).1 ≤ hs.length := by
  induction hs generalizing c i with
  | nil => simp [readOn]
  | cons h hs ih =>
    rcases readOn_cons_cases word next h hs c i with
      ⟨_, he⟩ | ⟨_, _, he⟩ | ⟨d, _, _, _, he⟩ | ⟨_, _, _, he⟩
    · rw [he]; simp
    · rw [he]; simpa using ih c (i + 1)
    · rw [he]; simpa using ih d 0
    · rw [he]; simp

/-- A reading reads something exactly when its first letter is there. -/
theorem readOn_pos_iff {h : α} {hs : List α} {c : ν} {i : Nat} :
    0 < (readOn word next (h :: hs) c i).1 ↔ (word c)[i]? = some h := by
  rcases readOn_cons_cases word next h hs c i with
    ⟨hm, he⟩ | ⟨hm, _, he⟩ | ⟨d, hm, _, _, he⟩ | ⟨hm, _, _, he⟩ <;> simp [he, hm]

/-- Where a reading stops is the start node or a linked one, so whatever the start has and links
keep, the stop has. -/
theorem readOn_stop_inv (word : ν → List α) (next : ν → Option ν) {P : ν → Prop}
    (hstep : ∀ c d, P c → next c = some d → P d) (hs : List α) {c : ν} (i : Nat) (hc : P c) :
    P (readOn word next hs c i).2 := by
  induction hs generalizing c i with
  | nil => simpa [readOn] using hc
  | cons h hs ih =>
    rcases readOn_cons_cases word next h hs c i with
      ⟨_, he⟩ | ⟨_, _, he⟩ | ⟨d, _, _, hn, he⟩ | ⟨_, _, _, he⟩
    · rw [he]; exact hc
    · rw [he]; exact ih (i + 1) hc
    · rw [he]; exact ih 0 (hstep c d hc hn)
    · rw [he]; exact hc

/-- **A reading that stops in a node no link leads to has stayed there**: what it has read is in the
node's word. -/
theorem readOn_stay {hs : List α} {c : ν} (hfirst : ∀ d, next d ≠ some c) {i : Nat}
    (hi : i < (word c).length) (hstop : (readOn word next hs c i).2 = c) :
    hs.take (readOn word next hs c i).1 <+: (word c).drop i := by
  induction hs generalizing i with
  | nil => exact List.nil_prefix
  | cons h hs ih =>
    rcases readOn_cons_cases word next h hs c i with
      ⟨_, he⟩ | ⟨hm, hend, he⟩ | ⟨d, _, _, hn, he⟩ | ⟨hm, _, _, he⟩
    · rw [he, List.take_zero]
      exact List.nil_prefix
    · obtain ⟨_, hget⟩ := List.getElem?_eq_some_iff.mp hm
      rw [he] at hstop
      rw [he, List.take_succ_cons, List.drop_eq_getElem_cons hi, hget]
      exact (List.prefix_cons_inj h).mpr (ih (by omega) hstop)
    · -- it has moved on, and what it stops in is linked
      have hlinked : ∃ e, next e = some (readOn word next hs d 0).2 :=
        readOn_stop_inv word next (P := fun a => ∃ e, next e = some a) (fun a b _ hb => ⟨a, hb⟩) hs
          0 ⟨c, hn⟩
      rw [he] at hstop
      obtain ⟨e, hnext⟩ := hlinked
      exact absurd (hstop ▸ hnext) (hfirst e)
    · obtain ⟨_, hget⟩ := List.getElem?_eq_some_iff.mp hm
      rw [he, List.drop_eq_getElem_cons hi, hget]
      simp

/-- A reading sees the links only of what it passes. -/
theorem readOn_congr {next' : ν → Option ν} {P : ν → Prop} (hnext : ∀ c, P c → next' c = next c)
    (hstep : ∀ c d, P c → next c = some d → P d) (hs : List α) {c : ν} (i : Nat) (hc : P c) :
    readOn word next' hs c i = readOn word next hs c i := by
  induction hs generalizing c i with
  | nil => rfl
  | cons h hs ih =>
    unfold readOn
    rw [hnext c hc, ih (i + 1) hc]
    cases hn : next c with
    | none => rfl
    | some d => simp only [ih 0 (hstep c d hc hn)]

/-- Reading through the rest of a node's word and on to the next node: the letters of the rest are
counted, and the reading goes on at the start of the next node. -/
theorem readOn_boundary {c d : ν} (hn : next c = some d) (pre : List α) {w : List α} (hw : w ≠ [])
    (hword : word c = pre ++ w) (hs : List α) :
    readOn word next (w ++ hs) c pre.length =
      ((readOn word next hs d 0).1 + w.length, (readOn word next hs d 0).2) := by
  induction w generalizing pre with
  | nil => exact absurd rfl hw
  | cons x w ih =>
    have hm : (word c)[pre.length]? = some x := by simp [hword]
    cases w with
    | nil => exact readOn_move hm (by simp [hword]) hn
    | cons y w =>
      rw [List.cons_append, readOn_inside hm (by simp [hword])]
      have := ih (pre ++ [x]) (by simp) (by simp [hword])
      rw [List.length_append, List.length_singleton] at this
      rw [this]
      simp [Nat.add_assoc]

/-- Reading through the rest of a node's word where nothing follows: all of it is read, and the
reading stops there. -/
theorem readOn_rest {c : ν} (hn : next c = none) (pre : List α) {w : List α} (hw : w ≠ [])
    (hword : word c = pre ++ w) : readOn word next w c pre.length = (w.length, c) := by
  induction w generalizing pre with
  | nil => exact absurd rfl hw
  | cons x w ih =>
    have hm : (word c)[pre.length]? = some x := by simp [hword]
    cases w with
    | nil => exact readOn_last hm (by simp [hword]) hn
    | cons y w =>
      rw [readOn_inside hm (by simp [hword])]
      have := ih (pre ++ [x]) (by simp) (by simp [hword])
      rw [List.length_append, List.length_singleton] at this
      rw [this]
      rfl

/-- A reading reads at least what is a beginning of the rest of the node's word. -/
theorem le_readOn {w : List α} (hs : List α) {c : ν} {i : Nat} (hw : w <+: (word c).drop i) :
    w.length ≤ (readOn word next (w ++ hs) c i).1 := by
  induction w generalizing i with
  | nil => exact Nat.zero_le _
  | cons x w ih =>
    obtain ⟨more, hmore⟩ := hw
    have hm : (word c)[i]? = some x := by
      rw [← List.head?_drop, ← hmore]
      rfl
    have hrest : w <+: (word c).drop (i + 1) := by
      refine ⟨more, ?_⟩
      rw [← List.drop_drop, ← hmore]
      rfl
    rcases readOn_cons_cases word next x (w ++ hs) c i with
      ⟨hno, _⟩ | ⟨_, _, he⟩ | ⟨d, _, hend, _, he⟩ | ⟨_, hend, _, he⟩
    · exact absurd hm hno
    · rw [List.cons_append, he]
      exact Nat.succ_le_succ (ih hrest)
    all_goals
      -- nothing of the word is left
      rw [hend, List.drop_length, List.prefix_nil] at hrest
      rw [List.cons_append, he, hrest]
      simp

/-- Where every node's text is the text up to it and its own word, the text up to the stop is what
comes before the start, what is read, and what the stop has left, which does not go on with the next
letter. A stop with nothing left is an end. -/
theorem readOn_text {P : ν → Prop} {full : ν → List α}
    (hstep : ∀ c d, P c → next c = some d → P d) (nonempty : ∀ c, P c → word c ≠ [])
    (hfull : ∀ c d, P c → next c = some d → full d = full c ++ word d) (hs : List α) {c : ν}
    (hc : P c) {before : List α} {i : Nat} (hi : i < (word c).length)
    (htext : full c = before ++ (word c).drop i) :
    ∃ rest, full (readOn word next hs c i).2 =
        before ++ hs.take (readOn word next hs c i).1 ++ rest ∧
      (∀ x, hs[(readOn word next hs c i).1]? = some x → rest.head? ≠ some x) ∧
      (rest = [] → next (readOn word next hs c i).2 = none) := by
  have hleft : (word c).drop i ≠ [] := by simpa using hi
  induction hs generalizing c before i with
  | nil =>
    exact ⟨(word c).drop i, by simpa [readOn] using htext, by simp, fun h => absurd h hleft⟩
  | cons h hs ih =>
    rcases readOn_cons_cases word next h hs c i with
      ⟨hm, he⟩ | ⟨hm, hend, he⟩ | ⟨d, hm, hend, hn, he⟩ | ⟨hm, hend, hn, he⟩
    · rw [he]
      refine ⟨(word c).drop i, by simpa using htext, fun x hx => ?_, fun h => absurd h hleft⟩
      obtain rfl : h = x := by simpa using hx
      rwa [List.head?_drop]
    all_goals
      obtain ⟨_, hget⟩ := List.getElem?_eq_some_iff.mp hm
      rw [List.drop_eq_getElem_cons hi, hget] at htext
    · have hi' : i + 1 < (word c).length := by omega
      have htext' : full c = before ++ [h] ++ (word c).drop (i + 1) := by simpa using htext
      obtain ⟨rest, hrest, hmiss, hlast⟩ := ih hc hi' htext' (by simpa using hi')
      rw [he]
      exact ⟨rest, by simpa using hrest, hmiss, hlast⟩
    · rw [hend, List.drop_length] at htext
      have hd := hstep c d hc hn
      have hword := nonempty d hd
      have htext' : full d = before ++ [h] ++ (word d).drop 0 := by
        simpa [htext] using hfull c d hc hn
      obtain ⟨rest, hrest, hmiss, hlast⟩ :=
        ih hd (List.length_pos_of_ne_nil hword) htext' (by simpa using hword)
      rw [he]
      exact ⟨rest, by simpa using hrest, hmiss, hlast⟩
    · rw [hend, List.drop_length] at htext
      rw [he]
      exact ⟨[], by simpa using htext, by simp, fun _ => hn⟩

/-! ## Against the whole text -/

/-- How far two lists agree. -/
def agree : List α → List α → Nat
  | a :: l, b :: l' => if a = b then agree l l' + 1 else 0
  | _, _ => 0

theorem le_agree {l m : List α} {k : Nat} (h : l.take k <+: m) (hk : k ≤ l.length) :
    k ≤ agree l m := by
  induction l generalizing m k with
  | nil => exact Nat.le_trans hk (Nat.zero_le _)
  | cons x l ih =>
    cases k with
    | zero => exact Nat.zero_le _
    | succ k =>
      obtain ⟨rest, hrest⟩ := h
      cases m with
      | nil => cases hrest
      | cons y m =>
        rw [List.take_succ_cons, List.cons_append, List.cons.injEq] at hrest
        obtain ⟨rfl, hrest⟩ := hrest
        rw [agree, if_pos rfl]
        exact Nat.succ_le_succ (ih ⟨rest, hrest⟩ (Nat.le_of_succ_le_succ hk))

/-- A reading stops in a node it passes. -/
theorem readOn_mem_trail (hs : List α) (i : Nat) {fuel : Nat} {c : ν} {l : List ν}
    (htrail : trail next fuel c = some l) : (readOn word next hs c i).2 ∈ l := by
  induction hs generalizing fuel c l i with
  | nil =>
    obtain ⟨rest, rfl⟩ := trail_head htrail
    exact List.mem_cons_self
  | cons h hs ih =>
    have hself : c ∈ l := by
      obtain ⟨rest, rfl⟩ := trail_head htrail
      exact List.mem_cons_self
    rcases readOn_cons_cases word next h hs c i with
      ⟨_, he⟩ | ⟨_, _, he⟩ | ⟨d, _, _, hn, he⟩ | ⟨_, _, _, he⟩
    · rw [he]; exact hself
    · rw [he]; exact ih (i + 1) htrail
    · obtain ⟨l', fuel', hl', rfl⟩ := trail_next htrail hn
      rw [he]
      exact List.mem_cons_of_mem c (ih 0 hl')
    · rw [he]; exact hself

/-- **A reading goes as far as the letters agree with the text of what it passes.** -/
theorem readOn_eq_agree {P : ν → Prop} (hstep : ∀ c d, P c → next c = some d → P d)
    (nonempty : ∀ c, P c → word c ≠ []) (hs : List α) {fuel : Nat} {c : ν} {l : List ν}
    (htrail : trail next fuel c = some l) (hc : P c) {i : Nat} (hi : i < (word c).length) :
    (readOn word next hs c i).1 = agree hs ((l.flatMap word).drop i) := by
  induction hs generalizing fuel c l i with
  | nil => rfl
  | cons h hs ih =>
    -- the text begins with the rest of the node's own word
    obtain ⟨rest, hl⟩ := trail_head htrail
    have htext : (l.flatMap word).drop i = (word c)[i] :: (l.flatMap word).drop (i + 1) := by
      have hlen : i < (l.flatMap word).length := by
        rw [hl, List.flatMap_cons, List.length_append]
        omega
      rw [List.drop_eq_getElem_cons hlen]
      simp only [hl, List.flatMap_cons, List.getElem_append_left hi]
    rw [htext]
    rcases readOn_cons_cases word next h hs c i with
      ⟨hm, he⟩ | ⟨hm, hend, he⟩ | ⟨d, hm, hend, hn, he⟩ | ⟨hm, hend, hn, he⟩
    · rw [he, agree, if_neg]
      rintro rfl
      exact hm (List.getElem?_eq_getElem hi)
    all_goals
      obtain ⟨_, rfl⟩ := List.getElem?_eq_some_iff.mp hm
      rw [he, agree, if_pos rfl]
    · rw [ih htrail hc (by omega)]
    · obtain ⟨l', fuel', hl', rfl⟩ := trail_next htrail hn
      have hd := hstep c d hc hn
      rw [ih hl' hd (List.length_pos_of_ne_nil (nonempty d hd)), hend, List.flatMap_cons,
        List.drop_left, List.drop_zero]
    · rw [trail_last htrail hn, hend]
      simp [agree]

end

end InfSplitter.Lib
