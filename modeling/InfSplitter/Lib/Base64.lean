import Mathlib.Data.List.Basic

/-!
# Base64

Three bytes are written as four digits of six bits. What is left over at the end, one byte or two,
is filled up with zero bits to two digits or three, and `=` stands for the digits that are missing.

The text is read back (`decode_encode`), and it has no other characters than the digits and `=`.
-/

set_option autoImplicit false

namespace InfSplitter.Lib.Base64

/-- The digits in their order: letters, numbers, `+` and `/`. -/
def digit (n : Nat) : Char :=
  if n < 26 then Char.ofNat (65 + n)
  else if n < 52 then Char.ofNat (71 + n)
  else if n < 62 then Char.ofNat (n - 4)
  else if n = 62 then '+'
  else '/'

def digitValue (c : Char) : Option Nat :=
  if 65 ≤ c.toNat ∧ c.toNat ≤ 90 then some (c.toNat - 65)
  else if 97 ≤ c.toNat ∧ c.toNat ≤ 122 then some (c.toNat - 71)
  else if 48 ≤ c.toNat ∧ c.toNat ≤ 57 then some (c.toNat + 4)
  else if c = '+' then some 62
  else if c = '/' then some 63
  else none

def encode : List UInt8 → List Char
  | [] => []
  | [a] => [digit (a.toNat / 4), digit (a.toNat % 4 * 16), '=', '=']
  | [a, b] =>
    [digit (a.toNat / 4), digit (a.toNat % 4 * 16 + b.toNat / 16), digit (b.toNat % 16 * 4), '=']
  | a :: b :: c :: rest =>
    digit (a.toNat / 4) :: digit (a.toNat % 4 * 16 + b.toNat / 16) ::
      digit (b.toNat % 16 * 4 + c.toNat / 64) :: digit (c.toNat % 64) :: encode rest

/-- The byte that begins with the last bits of one digit and ends with the first of the next. -/
def byte (high low : Nat) : UInt8 := UInt8.ofNat (high + low)

def decode : List Char → Option (List UInt8)
  | [] => some []
  | [w, x, '=', '='] =>
    (digitValue w).bind fun w => (digitValue x).map fun x => [byte (w * 4) (x / 16)]
  | [w, x, y, '='] =>
    (digitValue w).bind fun w => (digitValue x).bind fun x => (digitValue y).map fun y =>
      [byte (w * 4) (x / 16), byte (x % 16 * 16) (y / 4)]
  | w :: x :: y :: z :: rest =>
    (digitValue w).bind fun w => (digitValue x).bind fun x => (digitValue y).bind fun y =>
      (digitValue z).bind fun z => (decode rest).map fun bytes =>
        byte (w * 4) (x / 16) :: byte (x % 16 * 16) (y / 4) :: byte (y % 4 * 64) z :: bytes
  | _ => none

/-! ## Digits -/

theorem digitValue_digit : ∀ n < 64, digitValue (digit n) = some n := by decide

theorem digit_ne_equals : ∀ n < 64, digit n ≠ '=' := by decide

theorem digit_printable (n : Nat) : 32 < (digit n).toNat := by
  unfold digit
  split_ifs
  · next h => exact (by decide : ∀ n < 26, 32 < (Char.ofNat (65 + n)).toNat) n h
  · next h => exact (by decide : ∀ n < 52, 32 < (Char.ofNat (71 + n)).toNat) n h
  · next h hn =>
    exact (by decide : ∀ n < 62, ¬ n < 52 → 32 < (Char.ofNat (n - 4)).toNat) n hn h
  · decide
  · decide

theorem encode_printable (bytes : List UInt8) : ∀ c ∈ encode bytes, 32 < c.toNat := by
  induction bytes using encode.induct with
  | case1 => simp [encode]
  | case2 a => simp [encode, digit_printable]
  | case3 a b => simp [encode, digit_printable]
  | case4 a b c rest ih => simpa [encode, digit_printable] using ih

/-! ## Reading -/

theorem byte_eq (a : UInt8) {high low : Nat} (h : high + low = a.toNat) : byte high low = a := by
  rw [byte, h, UInt8.ofNat_toNat]

/-- **The bytes are read back.** -/
theorem decode_encode (bytes : List UInt8) : decode (encode bytes) = some bytes := by
  induction bytes using encode.induct with
  | case1 => rfl
  | case2 a =>
    have ha := a.toNat_lt
    rw [encode, decode, digitValue_digit _ (by omega), digitValue_digit _ (by omega)]
    simp only [Option.bind_some, Option.map_some]
    rw [byte_eq a (by omega)]
  | case3 a b =>
    have ha := a.toNat_lt
    have hb := b.toNat_lt
    rw [encode, decode]
    · simp only [digitValue_digit _ (show a.toNat / 4 < 64 by omega),
        digitValue_digit _ (show a.toNat % 4 * 16 + b.toNat / 16 < 64 by omega),
        digitValue_digit _ (show b.toNat % 16 * 4 < 64 by omega), Option.bind_some, Option.map_some]
      rw [byte_eq a (by omega), byte_eq b (by omega)]
    · exact digit_ne_equals _ (by omega)
  | case4 a b c rest ih =>
    have ha := a.toNat_lt
    have hb := b.toNat_lt
    have hc := c.toNat_lt
    rw [encode, decode]
    · simp only [digitValue_digit _ (show a.toNat / 4 < 64 by omega),
        digitValue_digit _ (show a.toNat % 4 * 16 + b.toNat / 16 < 64 by omega),
        digitValue_digit _ (show b.toNat % 16 * 4 + c.toNat / 64 < 64 by omega),
        digitValue_digit _ (show c.toNat % 64 < 64 by omega), Option.bind_some, Option.map_some, ih]
      rw [byte_eq a (by omega), byte_eq b (by omega), byte_eq c (by omega)]
    · intro _ h
      exact absurd h (digit_ne_equals _ (by omega))
    · intro h
      exact absurd h (digit_ne_equals _ (by omega))

end InfSplitter.Lib.Base64
