import Mathlib.Data.List.Basic

/-!
# UTF-8 on lists of bytes

Strict decoding takes one character after another off the front and fails if the rest does not start
with one; it succeeds exactly on encodings (`fromUtf8_eq_some_iff`). Lossy decoding puts a
replacement character where the strict one fails and goes on behind the longest start of a character
that stands there.

The single characters are those of `ByteArray.utf8DecodeChar?` and `String.utf8EncodeChar`.
-/

set_option autoImplicit false

namespace InfSplitter.Lib

def encodeUtf8 (text : List Char) : List UInt8 := text.flatMap String.utf8EncodeChar

/-- The character at the front. -/
def takeChar (bytes : List UInt8) : Option (Char × List UInt8) :=
  (bytes.toByteArray.utf8DecodeChar? 0).map fun c => (c, bytes.drop c.utf8Size)

def decodeFrom : Nat → List UInt8 → Option (List Char)
  | _, [] => some []
  | 0, _ :: _ => none
  | n + 1, b :: bytes =>
    (takeChar (b :: bytes)).bind fun p => (decodeFrom n p.2).map (p.1 :: ·)

/-- `str::from_utf8`. -/
def fromUtf8 (bytes : List UInt8) : Option (List Char) := decodeFrom bytes.length bytes

/-! ## Lossy decoding -/

def isContinuation (b : UInt8) : Bool := 0x80 ≤ b && b ≤ 0xBF

/-- How many bytes may follow the first one, and what the first of them may be. -/
def following (b : UInt8) : Option (Nat × UInt8 × UInt8) :=
  if 0xC2 ≤ b ∧ b ≤ 0xDF then some (0, 0x80, 0xBF)
  else if b = 0xE0 then some (1, 0xA0, 0xBF)
  else if b = 0xED then some (1, 0x80, 0x9F)
  else if 0xE1 ≤ b ∧ b ≤ 0xEF then some (1, 0x80, 0xBF)
  else if b = 0xF0 then some (2, 0x90, 0xBF)
  else if 0xF1 ≤ b ∧ b ≤ 0xF3 then some (2, 0x80, 0xBF)
  else if b = 0xF4 then some (2, 0x80, 0x8F)
  else none

/-- What is behind the longest start of a character at the front, or behind the first byte. -/
def afterInvalid : List UInt8 → List UInt8
  | [] => []
  | b :: rest =>
    match following b, rest with
    | some (more, low, high), c :: rest =>
      if low ≤ c ∧ c ≤ high then
        rest.drop ((rest.take more).takeWhile isContinuation).length
      else c :: rest
    | _, rest => rest

def lossyFrom : Nat → List UInt8 → List Char
  | _, [] => []
  | 0, _ :: _ => []
  | n + 1, b :: bytes =>
    match takeChar (b :: bytes) with
    | some (c, rest) => c :: lossyFrom n rest
    | none => Char.ofNat 0xFFFD :: lossyFrom n (afterInvalid (b :: bytes))

/-- `String::from_utf8_lossy`. -/
def fromUtf8Lossy (bytes : List UInt8) : List Char := lossyFrom bytes.length bytes

/-! ## Encoding and decoding -/

theorem encodeUtf8_append (a b : List Char) :
    encodeUtf8 (a ++ b) = encodeUtf8 a ++ encodeUtf8 b := List.flatMap_append

theorem flatten_map_encode (texts : List (List Char)) :
    (texts.map encodeUtf8).flatten = encodeUtf8 texts.flatten := by
  induction texts with
  | nil => rfl
  | cons text texts ih =>
    rw [List.map_cons, List.flatten_cons, ih, List.flatten_cons, encodeUtf8_append]

theorem utf8EncodeChar_ne_nil (c : Char) : String.utf8EncodeChar c ≠ [] := by
  intro h
  have hlen := String.length_utf8EncodeChar c
  rw [h, List.length_nil] at hlen
  have := c.utf8Size_pos
  omega

theorem takeChar_encode (c : Char) (rest : List UInt8) :
    takeChar (String.utf8EncodeChar c ++ rest) = some (c, rest) := by
  unfold takeChar
  rw [List.toByteArray_append, ByteArray.utf8DecodeChar?_utf8EncodeChar_append, Option.map_some,
    List.drop_left' (String.length_utf8EncodeChar c)]

theorem utf8EncodeChar_injective : Function.Injective String.utf8EncodeChar := by
  intro c d h
  have hc := takeChar_encode c []
  rw [h, takeChar_encode] at hc
  exact (Prod.mk.inj (Option.some.inj hc)).1.symm

/-- A byte below 128 is a character of its own. -/
theorem utf8EncodeChar_of_narrow_mem {b : UInt8} {c : Char} (h : b ∈ String.utf8EncodeChar c)
    (hb : b.toNat < 128) : String.utf8EncodeChar c = [b] := by
  have hhigh : ∀ (x : UInt8) (m : UInt8), 128 ≤ m.toNat → b ≠ x ||| m := by
    intro x m hm heq
    have hle : m.toNat ≤ b.toNat := by
      rw [heq, UInt8.toNat_or]
      exact Nat.right_le_or
    omega
  rcases c.utf8Size_eq with hsize | hsize | hsize | hsize
  · rw [String.utf8EncodeChar_eq_singleton hsize] at h ⊢
    rw [List.mem_singleton.mp h]
  · rw [String.utf8EncodeChar_eq_cons_cons hsize] at h
    simp only [List.mem_cons, List.not_mem_nil, or_false] at h
    rcases h with h | h
    all_goals exact absurd h (hhigh _ _ (by decide))
  · rw [String.utf8EncodeChar_eq_cons_cons_cons hsize] at h
    simp only [List.mem_cons, List.not_mem_nil, or_false] at h
    rcases h with h | h | h
    all_goals exact absurd h (hhigh _ _ (by decide))
  · rw [String.utf8EncodeChar_eq_cons_cons_cons_cons hsize] at h
    simp only [List.mem_cons, List.not_mem_nil, or_false] at h
    rcases h with h | h | h | h
    all_goals exact absurd h (hhigh _ _ (by decide))

theorem eq_of_takeChar {bytes rest : List UInt8} {c : Char} (h : takeChar bytes = some (c, rest)) :
    bytes = String.utf8EncodeChar c ++ rest := by
  obtain ⟨c', hc, heq⟩ := Option.map_eq_some_iff.mp h
  cases heq
  obtain ⟨l, hl⟩ := ByteArray.exists_of_utf8DecodeChar?_eq_some hc
  have hbytes : bytes = String.utf8EncodeChar c ++ l.data.toList := by
    have := congrArg (fun b => b.data.toList) hl
    simpa using this
  have hdrop : bytes.drop c.utf8Size = l.data.toList := by
    rw [hbytes, List.drop_left' (String.length_utf8EncodeChar c)]
  rw [hdrop]
  exact hbytes

theorem decodeFrom_encode (text : List Char) {n : Nat} (hn : (encodeUtf8 text).length ≤ n) :
    decodeFrom n (encodeUtf8 text) = some text := by
  induction text generalizing n with
  | nil => cases n <;> rfl
  | cons c text ih =>
    have hcons : encodeUtf8 (c :: text) = String.utf8EncodeChar c ++ encodeUtf8 text := rfl
    obtain ⟨b, tail, hb⟩ := List.exists_cons_of_ne_nil (utf8EncodeChar_ne_nil c)
    have htake := takeChar_encode c (encodeUtf8 text)
    rw [hb, List.cons_append] at htake
    rw [hcons, hb, List.cons_append] at hn ⊢
    cases n with
    | zero => exact absurd hn (by simp)
    | succ n =>
      rw [List.length_cons, List.length_append] at hn
      rw [decodeFrom, htake, Option.bind_some, ih (by omega), Option.map_some]

theorem encode_of_decodeFrom {n : Nat} {bytes : List UInt8} {text : List Char}
    (h : decodeFrom n bytes = some text) : bytes = encodeUtf8 text := by
  induction n generalizing bytes text with
  | zero =>
    cases bytes with
    | nil =>
      cases h
      rfl
    | cons b bytes => exact absurd h (by simp [decodeFrom])
  | succ n ih =>
    cases bytes with
    | nil =>
      cases h
      rfl
    | cons b bytes =>
      obtain ⟨⟨c, rest⟩, htake, hrest⟩ := Option.bind_eq_some_iff.mp h
      obtain ⟨text', htext, heq⟩ := Option.map_eq_some_iff.mp hrest
      have hih : rest = encodeUtf8 text' := ih htext
      rw [← heq, eq_of_takeChar htake, hih]
      rfl

/-- **Strict decoding succeeds exactly on encodings**, and gives back the text. -/
theorem fromUtf8_eq_some_iff {bytes : List UInt8} {text : List Char} :
    fromUtf8 bytes = some text ↔ bytes = encodeUtf8 text := by
  constructor
  · exact encode_of_decodeFrom
  · intro h
    rw [h]
    exact decodeFrom_encode text (Nat.le_refl _)

/-! ## Cuts -/

/-- The bytes from 248 on are not used. -/
theorem toNat_lt_of_mem_utf8EncodeChar {b : UInt8} {c : Char} (h : b ∈ String.utf8EncodeChar c) :
    b.toNat < 248 := by
  simp only [String.utf8EncodeChar] at h
  split_ifs at h
  all_goals
    simp only [List.mem_cons, List.not_mem_nil, or_false] at h
    rcases h with rfl | rfl | rfl | rfl
  all_goals
    rw [UInt8.toNat_ofNat']
    omega

theorem fromUtf8_invalid {b : UInt8} (hb : 248 ≤ b.toNat) (rest : List UInt8) :
    fromUtf8 (b :: rest) = none := by
  cases h : fromUtf8 (b :: rest) with
  | none => rfl
  | some text =>
    have hmem : b ∈ encodeUtf8 text := by
      rw [← fromUtf8_eq_some_iff.mp h]
      exact List.mem_cons_self
    obtain ⟨c, _, hc⟩ := List.mem_flatMap.mp hmem
    exact absurd (toNat_lt_of_mem_utf8EncodeChar hc) (Nat.not_lt.mpr hb)

theorem length_encode_cons (c : Char) (text : List Char) :
    (encodeUtf8 (c :: text)).length = c.utf8Size + (encodeUtf8 text).length := by
  have hcons : encodeUtf8 (c :: text) = String.utf8EncodeChar c ++ encodeUtf8 text := rfl
  rw [hcons, List.length_append, String.length_utf8EncodeChar]

/-- Bytes cut off inside a character are no text, whatever stands before. -/
theorem fromUtf8_cut_inside {c : Char} {b : UInt8} {tail : List UInt8}
    (hc : String.utf8EncodeChar c = b :: tail) (htail : tail ≠ []) (before : List Char) :
    fromUtf8 (encodeUtf8 before ++ [b]) = none := by
  rw [Option.eq_none_iff_forall_not_mem]
  intro text htext
  have heq := fromUtf8_eq_some_iff.mp htext
  clear htext
  induction before generalizing text with
  | nil =>
    cases text with
    | nil => exact absurd heq (by simp [encodeUtf8])
    | cons d text =>
      have hcons : [b] = String.utf8EncodeChar d ++ encodeUtf8 text := heq
      have hd : String.utf8EncodeChar d = [b] := by
        obtain ⟨x, xs, hx⟩ := List.exists_cons_of_ne_nil (utf8EncodeChar_ne_nil d)
        rw [hx, List.cons_append, List.cons.injEq, eq_comm (a := []), List.append_eq_nil_iff] at hcons
        rw [hx, ← hcons.1, hcons.2.1]
      have hshort := takeChar_encode d tail
      have hlong := takeChar_encode c []
      rw [hd] at hshort
      rw [hc, List.append_nil] at hlong
      rw [List.singleton_append, hlong] at hshort
      exact htail (congrArg Prod.snd (Option.some.inj hshort)).symm
  | cons x before ih =>
    cases text with
    | nil =>
      have hnil := congrArg List.length heq
      simp [encodeUtf8] at hnil
    | cons d text =>
      have hcons : String.utf8EncodeChar x ++ (encodeUtf8 before ++ [b]) =
          String.utf8EncodeChar d ++ encodeUtf8 text := by
        rw [← List.append_assoc]
        exact heq
      have hx := takeChar_encode x (encodeUtf8 before ++ [b])
      rw [hcons, takeChar_encode] at hx
      exact ih text (congrArg Prod.snd (Option.some.inj hx)).symm

theorem encodeUtf8_narrow {text : List Char} (h : ∀ c ∈ text, c.utf8Size = 1) :
    encodeUtf8 text = text.map fun c => (String.utf8EncodeChar c).headD 0 := by
  induction text with
  | nil => rfl
  | cons c text ih =>
    rw [List.forall_mem_cons] at h
    have hone : (String.utf8EncodeChar c).length = 1 := by
      rw [String.length_utf8EncodeChar, h.1]
    obtain ⟨b, hb⟩ := List.length_eq_one_iff.mp hone
    have hcons : encodeUtf8 (c :: text) = String.utf8EncodeChar c ++ encodeUtf8 text := rfl
    rw [hcons, ih h.2, List.map_cons, hb]
    rfl

/-- Text of one-byte characters is cut into such texts, wherever it is cut. -/
theorem exists_texts_of_flatten {text : List Char} (h : ∀ c ∈ text, c.utf8Size = 1)
    {chunks : List (List UInt8)} (hchunks : chunks.flatten = encodeUtf8 text) :
    ∃ texts : List (List Char), texts.flatten = text ∧ chunks = texts.map encodeUtf8 := by
  induction chunks generalizing text with
  | nil =>
    cases text with
    | nil => exact ⟨[], rfl, rfl⟩
    | cons c text =>
      have hlen := congrArg List.length hchunks
      rw [length_encode_cons] at hlen
      have := c.utf8Size_pos
      simp at hlen
      omega
  | cons chunk chunks ih =>
    rw [List.flatten_cons] at hchunks
    have hsplit : ∃ first rest, text = first ++ rest ∧ chunk = encodeUtf8 first := by
      have hbytes := hchunks
      rw [encodeUtf8_narrow h, List.append_eq_map_iff] at hbytes
      obtain ⟨first, rest, htext, hfirst, _⟩ := hbytes
      refine ⟨first, rest, htext, ?_⟩
      rw [encodeUtf8_narrow fun c hc => h c (htext ▸ List.mem_append_left _ hc), hfirst]
    obtain ⟨first, rest, rfl, rfl⟩ := hsplit
    rw [encodeUtf8_append] at hchunks
    rw [List.forall_mem_append] at h
    obtain ⟨texts, htexts, hmap⟩ := ih h.2 (List.append_cancel_left hchunks)
    exact ⟨first :: texts, by rw [List.flatten_cons, htexts], by rw [List.map_cons, hmap]⟩

/-! ## Bytes below 128 -/

theorem toNat_ofNat_byte (b : UInt8) : (Char.ofNat b.toNat).toNat = b.toNat := by
  have hvalid : b.toNat.isValidChar := Or.inl (by have := b.toNat_lt; omega)
  unfold Char.ofNat
  rw [dif_pos hvalid]
  rfl

/-- A byte below 128 is the character it stands for. -/
theorem utf8EncodeChar_ofNat {b : UInt8} (hb : b.toNat < 128) :
    String.utf8EncodeChar (Char.ofNat b.toNat) = [b] := by
  have hc := toNat_ofNat_byte b
  have hsize : (Char.ofNat b.toNat).utf8Size = 1 := by
    rw [Char.utf8Size_eq_one_iff]
    exact UInt32.le_iff_toNat_le.mpr (by rw [← Char.toNat, hc]; exact Nat.le_of_lt_succ hb)
  rw [String.utf8EncodeChar_eq_singleton hsize]
  congr 1
  apply UInt8.toNat_inj.mp
  rw [UInt32.toNat_toUInt8, ← Char.toNat, hc]
  exact Nat.mod_eq_of_lt b.toNat_lt

theorem encodeUtf8_ascii {bytes : List UInt8} (h : ∀ b ∈ bytes, b.toNat < 128) :
    encodeUtf8 (bytes.map fun b => Char.ofNat b.toNat) = bytes := by
  induction bytes with
  | nil => rfl
  | cons b bytes ih =>
    rw [List.forall_mem_cons] at h
    have hcons : encodeUtf8 ((b :: bytes).map fun b => Char.ofNat b.toNat) =
        String.utf8EncodeChar (Char.ofNat b.toNat) ++
          encodeUtf8 (bytes.map fun b => Char.ofNat b.toNat) := rfl
    rw [hcons, utf8EncodeChar_ofNat h.1, ih h.2]
    rfl

theorem decode_ascii {text : List Char} (h : ∀ b ∈ encodeUtf8 text, b.toNat < 128) :
    (encodeUtf8 text).map (fun b => Char.ofNat b.toNat) = text := by
  induction text with
  | nil => rfl
  | cons c text ih =>
    have hcons : encodeUtf8 (c :: text) = String.utf8EncodeChar c ++ encodeUtf8 text := rfl
    rw [hcons, List.forall_mem_append] at h
    obtain ⟨b, hb⟩ := List.exists_mem_of_ne_nil _ (utf8EncodeChar_ne_nil c)
    have hone := utf8EncodeChar_of_narrow_mem hb (h.1 b hb)
    have hchar : Char.ofNat b.toNat = c :=
      utf8EncodeChar_injective ((utf8EncodeChar_ofNat (h.1 b hb)).trans hone.symm)
    rw [hcons, hone, List.map_append, ih h.2, List.map_singleton, hchar]
    rfl

end InfSplitter.Lib
