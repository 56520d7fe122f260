import Mathlib.Algebra.GroupWithZero.Nat
import Mathlib.Algebra.Order.BigOperators.Group.List
import Mathlib.Algebra.Order.Group.Nat

/-!
# Joined texts

The length in bytes of texts joined with a separator, what can be read off it, and taking a text
apart behind its longest start of one kind, at its last separator or at its white space.
-/

set_option autoImplicit false

namespace InfSplitter.Lib

/-- Every text is there once, and the separator once between any two. -/
theorem utf8ByteSize_intercalate (sep : String) (texts : List String) :
    (sep.intercalate texts).utf8ByteSize =
      (texts.map String.utf8ByteSize).sum + sep.utf8ByteSize * (texts.length - 1) := by
  induction texts with
  | nil => simp
  | cons t rest ih =>
    by_cases hne : rest = []
    · subst hne
      simp
    · have hpos : 0 < rest.length := List.length_pos_of_ne_nil hne
      rw [String.intercalate_cons_of_ne_nil hne, String.utf8ByteSize_append,
        String.utf8ByteSize_append, ih, List.map_cons, List.sum_cons, List.length_cons,
        Nat.add_sub_cancel, Nat.add_assoc, Nat.add_assoc]
      congr 1
      rw [Nat.add_comm, Nat.add_assoc]
      congr 1
      obtain ⟨n, hn⟩ := Nat.exists_eq_succ_of_ne_zero (Nat.pos_iff_ne_zero.mp hpos)
      rw [hn, Nat.succ_sub_one, Nat.mul_succ]

/-- A text that is the join of a list it occurs in is the only element of that list. -/
theorem eq_singleton_of_intercalate_eq {s t : String} (hs : 0 < s.utf8ByteSize)
    {texts : List String} (hmem : t ∈ texts) (h : s.intercalate texts = t) : texts = [t] := by
  have hlen := congrArg String.utf8ByteSize h
  rw [utf8ByteSize_intercalate] at hlen
  have hle : t.utf8ByteSize ≤ (texts.map String.utf8ByteSize).sum :=
    List.le_sum_of_mem (List.mem_map_of_mem hmem)
  have hone : texts.length - 1 = 0 := by
    rcases Nat.mul_eq_zero.mp (by omega : s.utf8ByteSize * (texts.length - 1) = 0) with h0 | h0
    · omega
    · exact h0
  cases texts with
  | nil => exact absurd hmem (by simp)
  | cons a rest =>
    have hrest : rest = [] := List.length_eq_zero_iff.mp (by simpa using hone)
    subst hrest
    rw [List.mem_singleton.mp hmem]

theorem takeWhile_append_of_all {α : Type} {p : α → Bool} {start rest : List α}
    (hstart : ∀ c ∈ start, p c = true) (hrest : ∀ c ∈ rest.head?, p c = false) :
    (start ++ rest).takeWhile p = start := by
  rw [List.takeWhile_append_of_pos hstart]
  cases rest with
  | nil => simp
  | cons c rest =>
    have hc := hrest c rfl
    rw [List.takeWhile_cons_of_neg (by simp [hc]), List.append_nil]

theorem drop_takeWhile {α : Type} (p : α → Bool) (l : List α) :
    l.drop (l.takeWhile p).length = l.dropWhile p := by
  have h := congrArg (List.drop (l.takeWhile p).length)
    (List.takeWhile_append_dropWhile (p := p) (l := l))
  rwa [List.drop_left, eq_comm] at h

/-- The last separator of a text is where the tail without one begins. -/
theorem append_sep_inj {α : Type} {x : α} {l l' r r' : List α} (hr : x ∉ r) (hr' : x ∉ r')
    (h : l ++ x :: r = l' ++ x :: r') : l = l' ∧ r = r' := by
  rcases List.append_eq_append_iff.mp h with ⟨m, hl, hm⟩ | ⟨m, hl, hm⟩
  · cases m with
    | nil => exact ⟨by simpa using hl.symm, (List.cons.inj hm).2⟩
    | cons y m =>
      rw [List.cons_append, List.cons.injEq] at hm
      exact absurd (hm.2 ▸ by simp) hr
  · cases m with
    | nil => exact ⟨by simpa using hl, (List.cons.inj hm).2.symm⟩
    | cons y m =>
      rw [List.cons_append, List.cons.injEq] at hm
      exact absurd (hm.2 ▸ by simp) hr'

theorem toString_nat_inj {m n : Nat} (h : toString m = toString n) : m = n := by
  have hd : Nat.toDigits 10 m = Nat.toDigits 10 n := String.ofList_injective h
  rw [← Nat.ofDigitChars_toDigits (n := m) (by decide : 1 < 10) (by decide), hd,
    Nat.ofDigitChars_toDigits (by decide) (by decide)]

/-! ## White space -/

/-- `char::is_whitespace`. -/
def isWhitespace (c : Char) : Bool :=
  (0x09 ≤ c.toNat && c.toNat ≤ 0x0D) ||
  [0x20, 0x85, 0xA0, 0x1680, 0x2028, 0x2029, 0x202F, 0x205F, 0x3000].contains c.toNat ||
  (0x2000 ≤ c.toNat && c.toNat ≤ 0x200A)

/-- `str::split_whitespace`. -/
def splitWhitespace (text : String) : List String :=
  ((text.toList.splitOnP isWhitespace).filter (· ≠ [])).map String.ofList

end InfSplitter.Lib
