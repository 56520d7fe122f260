import Mathlib.Data.List.Induction

/-!
# Keys seen for the first time

Some entries of a list have a key, and an entry is new if no entry before it has the same one. A
reader that remembers the keys it has met acts on the new entries and on no others.

Newness is settled by what stands before: a list that grows keeps its new entries, and has one
behind its old end exactly if the added part brings a key (`exists_isNew_iff`).
-/

set_option autoImplicit false

namespace InfSplitter.Lib

variable {α κ : Type} (key : α → Option κ)

def keysOf (l : List α) : List κ := l.filterMap key

/-- The entry at `i` has a key that no entry before it has. -/
def IsNew (l : List α) (i : Nat) : Prop :=
  ∃ k, l[i]?.bind key = some k ∧ k ∉ keysOf key (l.take i)

def IsLastNew (l : List α) (i : Nat) : Prop := IsNew key l i ∧ ∀ j, i < j → ¬ IsNew key l j

/-- `added` has a key that `l` has not. -/
def Brings (l added : List α) : Prop := ∃ a ∈ added, ∃ k, key a = some k ∧ k ∉ keysOf key l

section
variable {key} {l added : List α} {i : Nat}

theorem keysOf_append : keysOf key (l ++ added) = keysOf key l ++ keysOf key added :=
  List.filterMap_append ..

theorem mem_keysOf {k : κ} : k ∈ keysOf key l ↔ ∃ a ∈ l, key a = some k :=
  List.mem_filterMap

theorem IsNew.lt (h : IsNew key l i) : i < l.length := by
  obtain ⟨k, hk, _⟩ := h
  by_contra hge
  rw [List.getElem?_eq_none (Nat.le_of_not_lt hge)] at hk
  exact absurd hk (by simp)

theorem isNew_append (hi : i < l.length) (added : List α) :
    IsNew key (l ++ added) i ↔ IsNew key l i := by
  unfold IsNew
  rw [List.getElem?_append_left hi, List.take_append_of_le_length (Nat.le_of_lt hi)]

theorem isNew_length_iff (l : List α) (a : α) (added : List α) :
    IsNew key (l ++ a :: added) l.length ↔ ∃ k, key a = some k ∧ k ∉ keysOf key l := by
  unfold IsNew
  simp

/-- **A list has a new entry behind its old end** exactly if the added part brings a key. -/
theorem exists_isNew_iff :
    (∃ i, l.length ≤ i ∧ IsNew key (l ++ added) i) ↔ Brings key l added := by
  induction added generalizing l with
  | nil =>
    constructor
    · intro ⟨i, hi, hnew⟩
      have hlt := hnew.lt
      rw [List.append_nil] at hlt
      omega
    · intro ⟨a, ha, _⟩
      exact absurd ha List.not_mem_nil
  | cons a added ih =>
    have hassoc : l ++ a :: added = (l ++ [a]) ++ added := by simp
    by_cases ha : ∃ k, key a = some k ∧ k ∉ keysOf key l
    · refine iff_of_true ⟨l.length, Nat.le_refl _, (isNew_length_iff l a added).mpr ha⟩ ?_
      exact ⟨a, List.mem_cons_self, ha⟩
    · have hkeys : ∀ k, k ∈ keysOf key (l ++ [a]) ↔ k ∈ keysOf key l := by
        intro k
        rw [keysOf_append, List.mem_append]
        refine ⟨fun h => h.elim id fun h => ?_, Or.inl⟩
        obtain ⟨b, hb, hk⟩ := mem_keysOf.mp h
        rw [List.mem_singleton.mp hb] at hk
        by_contra hmem
        exact ha ⟨k, hk, hmem⟩
      have hbrings : Brings key l (a :: added) ↔ Brings key (l ++ [a]) added := by
        unfold Brings
        simp only [hkeys, List.mem_cons, exists_eq_or_imp, ha, false_or]
      rw [hbrings, ← ih, ← hassoc]
      constructor
      · intro ⟨i, hi, hnew⟩
        refine ⟨i, ?_, hnew⟩
        rw [List.length_append, List.length_singleton]
        rcases Nat.lt_or_eq_of_le hi with hlt | heq
        · exact hlt
        · exact absurd ((isNew_length_iff l a added).mp (heq ▸ hnew)) ha
      · intro ⟨i, hi, hnew⟩
        rw [List.length_append, List.length_singleton] at hi
        exact ⟨i, by omega, hnew⟩

theorem IsLastNew.unique {i' : Nat} (h : IsLastNew key l i) (h' : IsLastNew key l i') : i = i' := by
  rcases Nat.lt_trichotomy i i' with hlt | heq | hlt
  · exact absurd h'.1 (h.2 i' hlt)
  · exact heq
  · exact absurd h.1 (h'.2 i hlt)

/-- A part that brings no key leaves the last new entry where it is. -/
theorem isLastNew_append (h : ¬ Brings key l added) (i : Nat) :
    IsLastNew key (l ++ added) i ↔ IsLastNew key l i := by
  have hold : ∀ j, IsNew key (l ++ added) j ↔ IsNew key l j := by
    intro j
    by_cases hj : j < l.length
    · exact isNew_append hj added
    · refine iff_of_false (fun hnew => ?_) fun hnew => hj hnew.lt
      exact h (exists_isNew_iff.mp ⟨j, Nat.le_of_not_lt hj, hnew⟩)
  unfold IsLastNew
  simp only [hold]

theorem exists_isLastNew (h : keysOf key l ≠ []) : ∃ i, IsLastNew key l i := by
  induction l using List.reverseRecOn with
  | nil => exact absurd rfl h
  | append_singleton l a ih =>
    by_cases hbrings : Brings key l [a]
    · obtain ⟨i, hi, hnew⟩ := exists_isNew_iff.mpr hbrings
      refine ⟨i, hnew, fun j hj hnew' => ?_⟩
      have hlt := hnew'.lt
      rw [List.length_append, List.length_singleton] at hlt
      omega
    · have hkeys : keysOf key l ≠ [] := by
        intro hnil
        obtain ⟨k, hk⟩ := List.exists_mem_of_ne_nil _ h
        rw [keysOf_append, hnil, List.nil_append] at hk
        obtain ⟨b, hb, hb'⟩ := mem_keysOf.mp hk
        exact hbrings ⟨b, hb, k, hb', hnil ▸ List.not_mem_nil⟩
      obtain ⟨i, hi⟩ := ih hkeys
      exact ⟨i, (isLastNew_append hbrings i).mpr hi⟩

end

end InfSplitter.Lib
