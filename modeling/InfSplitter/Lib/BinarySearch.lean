import Mathlib.Data.List.Basic
import Mathlib.Order.Lattice

/-!
# Binary search in a sorted list

`binary_search` on a slice: the loop halves the range `base .. base + size` until one element is
left, and that element decides. On a list that goes up strictly the answer is the position of the
key, or else the position where it would have to be inserted (`binarySearch_ok`,
`binarySearch_error`).
-/

set_option autoImplicit false

namespace InfSplitter.Lib

variable {α : Type} [LinearOrder α]

/-- The position that is left when the range has been halved down to one element. -/
def narrow (keys : List α) (key : α) (base size : Nat) : Nat :=
  if size ≤ 1 then base
  else
    match keys[base + size / 2]? with
    | some k =>
      if key < k then narrow keys key base (size - size / 2)
      else narrow keys key (base + size / 2) (size - size / 2)
    | none => base
termination_by size

/-- `ok` is the position of the key, `error` the position to insert it at. -/
def binarySearch (keys : List α) (key : α) : Except Nat Nat :=
  match keys[narrow keys key 0 keys.length]? with
  | none => .error 0
  | some k =>
    if k = key then .ok (narrow keys key 0 keys.length)
    else .error (if k < key then narrow keys key 0 keys.length + 1 else narrow keys key 0 keys.length)

section
variable {keys : List α} {key : α}

theorem getElem_lt_of_sorted (sorted : keys.Pairwise (· < ·)) {i j : Nat} {k k' : α} (hij : i < j)
    (hi : keys[i]? = some k) (hj : keys[j]? = some k') : k < k' := by
  obtain ⟨hi', rfl⟩ := List.getElem?_eq_some_iff.mp hi
  obtain ⟨hj', rfl⟩ := List.getElem?_eq_some_iff.mp hj
  exact List.pairwise_iff_getElem.mp sorted i j hi' hj' hij

/-- **The loop keeps the key in its range**: nothing from the end of the range on is as small as the
key, and the element at its beginning is no greater, unless that is the first of all. -/
theorem narrow_spec (sorted : keys.Pairwise (· < ·)) {base size : Nat} (hpos : 0 < size)
    (hin : base + size ≤ keys.length)
    (hbase : base = 0 ∨ ∃ k, keys[base]? = some k ∧ k ≤ key)
    (hend : ∀ i k, base + size ≤ i → keys[i]? = some k → key < k) :
    narrow keys key base size < keys.length ∧
      (narrow keys key base size = 0 ∨
        ∃ k, keys[narrow keys key base size]? = some k ∧ k ≤ key) ∧
      ∀ i k, narrow keys key base size < i → keys[i]? = some k → key < k := by
  fun_induction narrow keys key base size with
  | case1 base size hsize => exact ⟨by omega, hbase, fun i k hi => hend i k (by omega)⟩
  | case2 base size hsize k hk hlt ih =>
    refine ih (by omega) (by omega) hbase ?_
    intro i k' hi hk'
    rcases Nat.eq_or_lt_of_le (show base + size / 2 ≤ i by omega) with rfl | hafter
    · rw [hk, Option.some.injEq] at hk'
      exact hk' ▸ hlt
    · exact lt_trans hlt (getElem_lt_of_sorted sorted hafter hk hk')
  | case3 base size hsize k hk hlt ih =>
    refine ih (by omega) (by omega) (Or.inr ⟨k, hk, not_lt.mp hlt⟩) ?_
    exact fun i k' hi => hend i k' (by omega)
  | case4 base size hsize hnone =>
    have := List.getElem?_eq_none_iff.mp hnone
    omega

theorem narrow_all (key : α) (sorted : keys.Pairwise (· < ·)) (hne : keys ≠ []) :
    narrow keys key 0 keys.length < keys.length ∧
      (narrow keys key 0 keys.length = 0 ∨
        ∃ k, keys[narrow keys key 0 keys.length]? = some k ∧ k ≤ key) ∧
      ∀ i k, narrow keys key 0 keys.length < i → keys[i]? = some k → key < k := by
  apply narrow_spec sorted (List.length_pos_of_ne_nil hne) (by omega) (Or.inl rfl)
  intro i k hi hk
  have := (List.getElem?_eq_some_iff.mp hk).1
  omega

/-- **A key that is found stands at the position.** -/
theorem binarySearch_ok {pos : Nat} (h : binarySearch keys key = .ok pos) :
    keys[pos]? = some key := by
  unfold binarySearch at h
  cases hk : keys[narrow keys key 0 keys.length]? with
  | none =>
    rw [hk] at h
    cases h
  | some k =>
    simp only [hk] at h
    split at h
    · next hkey =>
      cases h
      rw [hk, hkey]
    · cases h

/-- **A key that is not found belongs between what is smaller and what is greater.** -/
theorem binarySearch_error (sorted : keys.Pairwise (· < ·)) {pos : Nat}
    (h : binarySearch keys key = .error pos) :
    (∀ i k, i < pos → keys[i]? = some k → k < key) ∧
      (∀ i k, pos ≤ i → keys[i]? = some k → key < k) ∧ pos ≤ keys.length := by
  unfold binarySearch at h
  cases hk : keys[narrow keys key 0 keys.length]? with
  | none =>
    rw [hk] at h
    cases h
    refine ⟨fun i k hi => absurd hi (Nat.not_lt_zero i), ?_, Nat.zero_le _⟩
    intro i k _ hi
    -- nothing stands there, so the list is empty
    by_contra _
    have hne : keys ≠ [] := by
      rintro rfl
      cases hi
    have := List.getElem?_eq_none_iff.mp hk
    have := (narrow_all key sorted hne).1
    omega
  | some k =>
    simp only [hk] at h
    have hne : keys ≠ [] := by
      rintro rfl
      cases hk
    obtain ⟨hlt, hbase, hend⟩ := narrow_all key sorted hne
    split at h
    · cases h
    · next hkey =>
      by_cases hless : k < key
      · rw [if_pos hless] at h
        cases h
        refine ⟨?_, fun i k' hi => hend i k' hi, hlt⟩
        intro i k' hi hk'
        rcases Nat.eq_or_lt_of_le (Nat.le_of_lt_succ hi) with rfl | hbefore
        · rw [hk, Option.some.injEq] at hk'
          exact hk' ▸ hless
        · exact lt_trans (getElem_lt_of_sorted sorted hbefore hk' hk) hless
      · rw [if_neg hless] at h
        cases h
        have hgreater : key < k := lt_of_le_of_ne (not_lt.mp hless) (Ne.symm hkey)
        have hzero : narrow keys key 0 keys.length = 0 := by
          apply hbase.resolve_right
          rintro ⟨k', hk', hle⟩
          rw [hk, Option.some.injEq] at hk'
          exact absurd (hk' ▸ hle) (not_le.mpr hgreater)
        rw [hzero] at hk hend ⊢
        refine ⟨fun i k hi => absurd hi (Nat.not_lt_zero i), ?_, Nat.zero_le _⟩
        intro i k' _ hk'
        rcases Nat.eq_zero_or_pos i with rfl | hafter
        · rw [hk, Option.some.injEq] at hk'
          exact hk' ▸ hgreater
        · exact hend i k' hafter hk'

end

end InfSplitter.Lib
