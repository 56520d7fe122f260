import InfSplitter.Lib.Text
import Mathlib.Data.List.TakeWhile

/-!
# Names of files, and the numbers in them

A name is the list of its characters. What is behind its last dot is the extension, and what is
before it the stem, unless the dot is the first character: then all of it is the stem. This is
`Path::file_stem` and `Path::extension`, with the empty text where there is no extension.

A number is written with a least width (`{n:03}`) and read back by `parse`, which also takes a sign
and zeros in front (`parseUnsigned_padded`).
-/

set_option autoImplicit false

namespace InfSplitter.Lib

/-! ## Stem and extension -/

abbrev FileName := List Char

/-- The characters behind the last dot, the whole name if it has none. -/
def afterDot (name : FileName) : FileName := (name.reverse.takeWhile (· ≠ '.')).reverse

/-- The characters before the last dot. -/
def beforeDot (name : FileName) : FileName := name.take (name.length - (afterDot name).length - 1)

def fileStem (name : FileName) : FileName :=
  if beforeDot name = [] then name else beforeDot name

def extension (name : FileName) : FileName :=
  if beforeDot name = [] then [] else afterDot name

/-- `Path::with_extension`. -/
def withExtension (name ext : FileName) : FileName :=
  if ext = [] then fileStem name else fileStem name ++ '.' :: ext

theorem dot_not_mem_extension (name : FileName) : '.' ∉ extension name := by
  unfold extension afterDot
  split
  · simp
  · intro hdot
    rw [List.mem_reverse] at hdot
    simpa using List.mem_takeWhile_imp hdot

theorem length_le_stem_extension (name : FileName) :
    name.length ≤ (fileStem name).length + 1 + (extension name).length := by
  unfold fileStem extension
  split
  · simp only [List.length_nil]
    omega
  · have hlength : (beforeDot name).length = name.length - (afterDot name).length - 1 := by
      rw [beforeDot, List.length_take, Nat.min_eq_left (by omega)]
    omega

section
variable {stem ext : FileName}

theorem afterDot_append (hext : '.' ∉ ext) : afterDot (stem ++ '.' :: ext) = ext := by
  have hreverse : (stem ++ '.' :: ext).reverse = ext.reverse ++ '.' :: stem.reverse := by simp
  have hbefore : ∀ c ∈ ext.reverse, decide (c ≠ '.') = true := by
    intro c hc
    have hne : c ≠ '.' := ne_of_mem_of_not_mem (List.mem_reverse.mp hc) hext
    simpa using hne
  rw [afterDot, hreverse, takeWhile_append_of_all hbefore (by simp), List.reverse_reverse]

theorem beforeDot_append (hext : '.' ∉ ext) : beforeDot (stem ++ '.' :: ext) = stem := by
  unfold beforeDot
  rw [afterDot_append hext]
  have hlength : (stem ++ '.' :: ext).length - ext.length - 1 = stem.length := by simp; omega
  rw [hlength, List.take_left]

theorem fileStem_append (hstem : stem ≠ []) (hext : '.' ∉ ext) :
    fileStem (stem ++ '.' :: ext) = stem := by
  simp [fileStem, beforeDot_append hext, hstem]

theorem extension_append (hstem : stem ≠ []) (hext : '.' ∉ ext) :
    extension (stem ++ '.' :: ext) = ext := by
  simp [extension, beforeDot_append hext, afterDot_append hext, hstem]

end

/-! ## Numbers -/

/-- `parse` of an unsigned number: a sign is allowed, but not alone. -/
def parseUnsigned (bits : Nat) (text : List Char) : Option Nat :=
  let digits := if ['+'] <+: text then text.drop 1 else text
  let value := Nat.ofDigitChars 10 digits 0
  if digits = [] ∨ digits.all Char.isDigit = false ∨ 2 ^ bits ≤ value then none else some value

theorem parseUnsigned_lt {bits n : Nat} {text : List Char} (h : parseUnsigned bits text = some n) :
    n < 2 ^ bits := by
  unfold parseUnsigned at h
  extract_lets digits value at h
  split at h
  · cases h
  · next hvalid =>
    rw [← Option.some.inj h]
    simp only [not_or] at hvalid
    exact Nat.not_le.mp hvalid.2.2

/-- `{n:0width}`. -/
def padded (width n : Nat) : List Char :=
  List.replicate (width - (Nat.toDigits 10 n).length) '0' ++ Nat.toDigits 10 n

theorem isDigit_of_mem_padded {width n : Nat} {c : Char} (h : c ∈ padded width n) :
    c.isDigit = true := by
  rcases List.mem_append.mp h with h | h
  · rw [List.eq_of_mem_replicate h]
    decide
  · exact Nat.isDigit_of_mem_toDigits (by simp) (by simp) h

theorem padded_ne_nil (width n : Nat) : padded width n ≠ [] := by
  simp [padded, Nat.toDigits_ne_nil]

theorem not_mem_padded {c : Char} (hc : c.isDigit = false) (width n : Nat) :
    c ∉ padded width n := by
  intro hmem
  rw [isDigit_of_mem_padded hmem] at hc
  cases hc

theorem length_padded {width n : Nat} (hwidth : 0 < width) (hn : n < 10 ^ width) :
    (padded width n).length = width := by
  have hle := (Nat.length_toDigits_le_iff (by decide) hwidth).mpr hn
  simp only [padded, List.length_append, List.length_replicate]
  omega

theorem parseUnsigned_padded {bits width n : Nat} (hn : n < 2 ^ bits) :
    parseUnsigned bits (padded width n) = some n := by
  have hdigits : ∀ c ∈ padded width n, c.isDigit = true := fun c => isDigit_of_mem_padded
  have hsign : ¬ ['+'] <+: padded width n := by
    rintro ⟨rest, hrest⟩
    simpa using hdigits '+' (hrest ▸ by simp)
  have hvalue : Nat.ofDigitChars 10 (padded width n) 0 = n := by
    simp [padded, Nat.ofDigitChars_append]
  have hall : (padded width n).all Char.isDigit = true := List.all_eq_true.mpr hdigits
  simp [parseUnsigned, hsign, padded_ne_nil, hall, hvalue, hn]

theorem padded_injective {width m n : Nat} (h : padded width m = padded width n) : m = n := by
  have hvalue := congrArg (Nat.ofDigitChars 10 · 0) h
  simpa [padded, Nat.ofDigitChars_append] using hvalue

/-! ## The order of texts -/

/-- Shorter texts first, and texts of one length by their characters. -/
def TextBefore (s t : List Char) : Prop := s.length < t.length ∨ s.length = t.length ∧ s < t

theorem lt_append {s t u v : List Char} (hlength : s.length = t.length) (h : s < t) :
    s ++ u < t ++ v := by
  induction s generalizing t with
  | nil =>
    rw [List.eq_nil_of_length_eq_zero hlength.symm] at h
    exact absurd h (List.lt_irrefl [])
  | cons c s ih =>
    cases t with
    | nil => cases hlength
    | cons d t =>
      rw [List.cons_append, List.cons_append, List.cons_lt_cons_iff]
      rcases List.cons_lt_cons_iff.mp h with hlt | ⟨heq, hlt⟩
      · exact .inl hlt
      · exact .inr ⟨heq, ih (by simpa using hlength) hlt⟩

/-- Texts of one length that go on with texts of one length. -/
theorem TextBefore.append {s t u v : List Char} (h : TextBefore s t)
    (hlength : u.length = v.length) : TextBefore (s ++ u) (t ++ v) := by
  unfold TextBefore
  rw [List.length_append, List.length_append, hlength]
  rcases h with hlt | ⟨heq, hlt⟩
  · exact .inl (by omega)
  · exact .inr ⟨by omega, lt_append heq hlt⟩

theorem TextBefore.append_left {u v : List Char} (s : List Char) (h : TextBefore u v) :
    TextBefore (s ++ u) (s ++ v) := by
  unfold TextBefore
  rw [List.length_append, List.length_append]
  rcases h with hlt | ⟨heq, hlt⟩
  · exact .inl (by omega)
  · exact .inr ⟨by omega, List.append_left_lt hlt⟩

theorem digit_le {c : Char} (h : c.isDigit = true) : 48 ≤ c.toNat ∧ c.toNat ≤ 57 := by
  simpa [Char.isDigit, UInt32.le_iff_toNat_le] using h

theorem ofDigitChars_lt_pow {s : List Char} (h : ∀ c ∈ s, c.isDigit = true) :
    Nat.ofDigitChars 10 s 0 < 10 ^ s.length := by
  induction s with
  | nil => simp
  | cons c s ih =>
    have hdigit := digit_le (h c (by simp))
    have hrest := ih fun d hd => h d (by simp [hd])
    rw [Nat.ofDigitChars_cons, Nat.ofDigitChars_eq_ofDigitChars_zero, List.length_cons,
      Nat.pow_succ]
    have hle : 10 ^ s.length * (10 * 0 + (c.toNat - '0'.toNat)) ≤ 10 ^ s.length * 9 :=
      Nat.mul_le_mul_left _ (by simp; omega)
    omega

/-- Among digits, the greater number is the later text. -/
theorem lt_of_ofDigitChars_lt {s t : List Char} (hs : ∀ c ∈ s, c.isDigit = true)
    (ht : ∀ c ∈ t, c.isDigit = true) (hlength : s.length = t.length) {n : Nat}
    (h : Nat.ofDigitChars 10 s n < Nat.ofDigitChars 10 t n) : s < t := by
  induction s generalizing t n with
  | nil =>
    rw [List.eq_nil_of_length_eq_zero hlength.symm] at h
    exact absurd h (lt_irrefl _)
  | cons c s ih =>
    cases t with
    | nil => cases hlength
    | cons d t =>
      have hc := digit_le (hs c (by simp))
      have hd := digit_le (ht d (by simp))
      have hrest : s.length = t.length := by simpa using hlength
      rw [List.cons_lt_cons_iff]
      rw [Nat.ofDigitChars_cons, Nat.ofDigitChars_cons] at h
      rcases lt_trichotomy c.toNat d.toNat with hlt | heq | hgt
      · exact .inl hlt
      · have hcd : c = d := Char.toNat_inj.mp heq
        subst hcd
        exact .inr ⟨rfl, ih (fun e he => hs e (by simp [he])) (fun e he => ht e (by simp [he]))
          hrest h⟩
      · -- what follows a smaller digit does not make up for it
        have hbound := ofDigitChars_lt_pow fun e he => ht e (List.mem_cons_of_mem d he)
        rw [Nat.ofDigitChars_eq_ofDigitChars_zero (l := s),
          Nat.ofDigitChars_eq_ofDigitChars_zero (l := t), hrest] at h
        have hmul := Nat.mul_le_mul_left (10 ^ t.length)
          (show 10 * n + (d.toNat - '0'.toNat) + 1 ≤ 10 * n + (c.toNat - '0'.toNat) by
            simp; omega)
        rw [Nat.mul_add _ _ 1] at hmul
        omega

/-- **Padded numbers order like the numbers.** -/
theorem textBefore_padded (width : Nat) {m n : Nat} (h : m < n) :
    TextBefore (padded width m) (padded width n) := by
  have hdigits : (Nat.toDigits 10 m).length ≤ (Nat.toDigits 10 n).length := by
    rw [Nat.length_toDigits_le_iff (by decide) Nat.length_toDigits_pos]
    exact h.trans ((Nat.length_toDigits_le_iff (by decide) Nat.length_toDigits_pos).mp le_rfl)
  have hle : (padded width m).length ≤ (padded width n).length := by
    simp only [padded, List.length_append, List.length_replicate]
    omega
  refine hle.lt_or_eq.imp_right fun heq => ⟨heq, ?_⟩
  have hvalue : ∀ k, Nat.ofDigitChars 10 (padded width k) 0 = k := by
    simp [padded, Nat.ofDigitChars_append]
  refine lt_of_ofDigitChars_lt (fun c => isDigit_of_mem_padded) (fun c => isDigit_of_mem_padded)
    heq (n := 0) ?_
  rwa [hvalue, hvalue]

end InfSplitter.Lib
