import InfSplitter.Json.Value

/-!
# JSON texts are read back

What `serde_json` writes is compact JSON. Here is a reader of it, and the proof that it gives back
the value that was written (`parse_render`), if the numbers in it are written with the characters of
numbers (`Numeric`). So a text belongs to one value only.

Such a text has no control characters (`render_printable`), and its bytes are one line.
-/

set_option autoImplicit false

namespace InfSplitter.Json

open Lib

/-! ## Values that can be written -/

def isNumeric (c : Char) : Bool := c.isDigit || ['+', '-', '.', 'e', 'E'].contains c

/-- Every number in the value is written as a number. -/
inductive Numeric : Json → Prop
  | null : Numeric .null
  | bool (b : Bool) : Numeric (.bool b)
  | num {text : String} (nonempty : text.toList ≠ [])
      (digits : ∀ c ∈ text.toList, isNumeric c = true) : Numeric (.num text)
  | str (s : String) : Numeric (.str s)
  | arr {elems : List Json} (h : ∀ j ∈ elems, Numeric j) : Numeric (.arr elems)
  | obj {members : List (String × Json)} (h : ∀ m ∈ members, Numeric m.2) : Numeric (.obj members)

theorem Numeric.nat (n : Nat) : Numeric (.num (toString n)) := by
  have hdigits : (toString n).toList = Nat.toDigits 10 n := String.toList_ofList
  refine .num (by simp [Nat.toDigits_ne_nil]) fun c hc => ?_
  rw [hdigits] at hc
  simp [isNumeric, Nat.isDigit_of_mem_toDigits (by decide) (by decide) hc]

/-! ## Reading -/

def hexValue (c : Char) : Nat := if c.isDigit then c.toNat - 48 else c.toNat - 87

/-- What a backslash with this letter stands for. -/
def unescape (c : Char) : Option Char :=
  match c with
  | '"' => some '"'
  | '\\' => some '\\'
  | 'b' => some (Char.ofNat 8)
  | 't' => some (Char.ofNat 9)
  | 'n' => some (Char.ofNat 10)
  | 'f' => some (Char.ofNat 12)
  | 'r' => some (Char.ofNat 13)
  | _ => none

/-- A string behind its first quote. -/
def readString : List Char → Option (List Char × List Char)
  | [] => none
  | c :: rest =>
    if c = '"' then some ([], rest)
    else if c = '\\' then
      match rest with
      | 'u' :: '0' :: '0' :: a :: b :: rest =>
        (readString rest).map fun p => (Char.ofNat (16 * hexValue a + hexValue b) :: p.1, p.2)
      | e :: rest => (unescape e).bind fun d => (readString rest).map fun p => (d :: p.1, p.2)
      | [] => none
    else (readString rest).map fun p => (c :: p.1, p.2)

def readNumber (text : List Char) : Option (Json × List Char) :=
  if text.takeWhile isNumeric = [] then none
  else some (.num (String.ofList (text.takeWhile isNumeric)), text.dropWhile isNumeric)

mutual
def readValue : Nat → List Char → Option (Json × List Char)
  | 0, _ => none
  | n + 1, text =>
    match text with
    | 'n' :: 'u' :: 'l' :: 'l' :: rest => some (.null, rest)
    | 't' :: 'r' :: 'u' :: 'e' :: rest => some (.bool true, rest)
    | 'f' :: 'a' :: 'l' :: 's' :: 'e' :: rest => some (.bool false, rest)
    | '"' :: rest => (readString rest).map fun p => (.str (String.ofList p.1), p.2)
    | '[' :: ']' :: rest => some (.arr [], rest)
    | '[' :: rest => (readElems n rest).map fun p => (.arr p.1, p.2)
    | '\x7b' :: '\x7d' :: rest => some (.obj [], rest)
    | '\x7b' :: rest => (readMembers n rest).map fun p => (.obj p.1, p.2)
    | text => readNumber text

/-- The elements of an array, up to its end. -/
def readElems : Nat → List Char → Option (List Json × List Char)
  | 0, _ => none
  | n + 1, text =>
    (readValue n text).bind fun p =>
      match p.2 with
      | ',' :: rest => (readElems n rest).map fun q => (p.1 :: q.1, q.2)
      | ']' :: rest => some ([p.1], rest)
      | _ => none

/-- The members of an object, up to its end. -/
def readMembers : Nat → List Char → Option (List (String × Json) × List Char)
  | 0, _ => none
  | n + 1, text =>
    match text with
    | '"' :: text =>
      (readString text).bind fun k =>
        match k.2 with
        | ':' :: text =>
          (readValue n text).bind fun p =>
            match p.2 with
            | ',' :: rest =>
              (readMembers n rest).map fun q => ((String.ofList k.1, p.1) :: q.1, q.2)
            | '\x7d' :: rest => some ([(String.ofList k.1, p.1)], rest)
            | _ => none
        | _ => none
    | _ => none
end

/-- The value of a whole text. -/
def parse (text : String) : Option Json :=
  (readValue text.toList.length text.toList).bind fun p => if p.2 = [] then some p.1 else none

/-! ## Strings -/

theorem hexValue_hexDigit : ∀ n < 16, hexValue (hexDigit n) = n := by decide

theorem readString_quote (rest : List Char) : readString ('"' :: rest) = some ([], rest) := by
  rw [readString.eq_def]
  rfl

theorem readString_other {c : Char} (hquote : c ≠ '"') (hbackslash : c ≠ '\\') (rest : List Char) :
    readString (c :: rest) = (readString rest).map fun p => (c :: p.1, p.2) := by
  rw [readString.eq_def]
  simp only [hquote, hbackslash, if_false]

theorem readString_escapeChar (c : Char) (text : List Char) :
    readString ((escapeChar c).toList ++ text) =
      (readString text).map fun p => (c :: p.1, p.2) := by
  -- the letters that stand for a control character
  have hcontrol : ∀ e d, unescape e = some d → e ≠ 'u' → c = d →
      readString ('\\' :: e :: text) = (readString text).map fun p => (c :: p.1, p.2) := by
    rintro e d he hu rfl
    rw [readString.eq_def]
    simp [he, hu]
  have hchar : ∀ n, c.toNat = n → c = Char.ofNat n := fun n hn => by
    rw [← hn, Char.ofNat_toNat]
  unfold escapeChar
  split_ifs with hquote hbackslash h8 h9 h10 h12 h13 h32
  · exact hcontrol '"' _ rfl (by decide) hquote
  · exact hcontrol '\\' _ rfl (by decide) hbackslash
  · exact hcontrol 'b' _ rfl (by decide) (hchar 8 h8)
  · exact hcontrol 't' _ rfl (by decide) (hchar 9 h9)
  · exact hcontrol 'n' _ rfl (by decide) (hchar 10 h10)
  · exact hcontrol 'f' _ rfl (by decide) (hchar 12 h12)
  · exact hcontrol 'r' _ rfl (by decide) (hchar 13 h13)
  · have h1 := hexValue_hexDigit (c.toNat / 16) (by omega)
    have h2 := hexValue_hexDigit (c.toNat % 16) (by omega)
    have hvalue : 16 * (c.toNat / 16) + c.toNat % 16 = c.toNat := by omega
    simp [readString, h1, h2, hvalue, Char.ofNat_toNat]
  · simpa using readString_other hquote hbackslash text

theorem readString_escape (s : List Char) (rest : List Char) :
    readString (s.flatMap (fun c => (escapeChar c).toList) ++ '"' :: rest) = some (s, rest) := by
  induction s with
  | nil => exact readString_quote rest
  | cons c s ih => rw [List.flatMap_cons, List.append_assoc, readString_escapeChar, ih]; rfl

theorem toList_escape (s : String) :
    (escape s).toList = s.toList.flatMap fun c => (escapeChar c).toList := by
  simp [escape, String.toList_join, List.flatMap_map]

theorem readString_toList (s : String) (rest : List Char) :
    readString ((escape s).toList ++ '"' :: rest) = some (s.toList, rest) := by
  rw [toList_escape, readString_escape]

/-! ## Numbers -/

/-- Behind a number there is no further character of a number. -/
def EndsNumber (rest : List Char) : Prop := ∀ c ∈ rest.head?, isNumeric c = false

theorem endsNumber_cons {c : Char} (h : isNumeric c = false) (rest : List Char) :
    EndsNumber (c :: rest) := by
  intro d hd
  obtain rfl : c = d := Option.some.inj hd
  exact h

theorem readNumber_append {text rest : List Char} (hne : text ≠ [])
    (hdigits : ∀ c ∈ text, isNumeric c = true) (hrest : EndsNumber rest) :
    readNumber (text ++ rest) = some (.num (String.ofList text), rest) := by
  have htake := takeWhile_append_of_all hdigits hrest
  rw [readNumber, htake, if_neg hne, ← drop_takeWhile, htake, List.drop_left]

theorem readValue_number {c : Char} (h : isNumeric c = true) (n : Nat) (text : List Char) :
    readValue (n + 1) (c :: text) = readNumber (c :: text) := by
  unfold readValue
  split
  all_goals first
    | rfl
    | next heq => rw [(List.cons.inj heq).1] at h; exact absurd h (by decide)

/-! ## Values -/

theorem toList_intercalate (sep t : String) (texts : List String) :
    (sep.intercalate (t :: texts)).toList =
      t.toList ++ texts.flatMap fun t => sep.toList ++ t.toList := by
  induction texts generalizing t with
  | nil => simp
  | cons u texts ih =>
    rw [String.intercalate_cons_of_ne_nil (by simp), String.toList_append, String.toList_append,
      ih, List.flatMap_cons]
    simp

/-- The value is read off the front of every text that starts with it. -/
def Readable (j : Json) : Prop :=
  ∀ n rest, (render j).toList.length ≤ n → EndsNumber rest →
    readValue n ((render j).toList ++ rest) = some (j, rest)

theorem readElems_render {j : Json} {elems : List Json} (hj : Readable j)
    (helems : ∀ e ∈ elems, Readable e) {n : Nat} (rest : List Char)
    (hn : ((render j).toList ++ elems.flatMap fun e => ',' :: (render e).toList).length < n) :
    readElems n ((render j).toList ++ (elems.flatMap fun e => ',' :: (render e).toList) ++
      ']' :: rest) = some (j :: elems, rest) := by
  induction elems generalizing j n with
  | nil =>
    obtain ⟨n, rfl⟩ := Nat.exists_eq_succ_of_ne_zero (Nat.ne_zero_of_lt hn)
    simp only [List.flatMap_nil, List.append_nil] at hn ⊢
    rw [readElems, hj n _ (by omega) (endsNumber_cons (by decide) _)]
    rfl
  | cons e elems ih =>
    obtain ⟨n, rfl⟩ := Nat.exists_eq_succ_of_ne_zero (Nat.ne_zero_of_lt hn)
    simp only [List.flatMap_cons, List.length_append, List.length_cons] at hn
    have htail := ih (helems e (by simp)) (fun e he => helems e (by simp [he])) (n := n)
      (by simp only [List.length_append]; omega)
    simp only [List.flatMap_cons, List.cons_append, List.append_assoc] at htail ⊢
    rw [readElems, hj n _ (by omega) (endsNumber_cons (by decide) _)]
    simp [htail]

/-- A member of an object, as it is written. -/
def memberText (m : String × Json) : List Char :=
  '"' :: (escape m.1).toList ++ '"' :: ':' :: (render m.2).toList

theorem readMembers_render {m : String × Json} {members : List (String × Json)}
    (hm : Readable m.2) (hmembers : ∀ e ∈ members, Readable e.2) {n : Nat} (rest : List Char)
    (hn : (memberText m ++ members.flatMap fun e => ',' :: memberText e).length < n) :
    readMembers n (memberText m ++ (members.flatMap fun e => ',' :: memberText e) ++
      '\x7d' :: rest) = some (m :: members, rest) := by
  induction members generalizing m n with
  | nil =>
    obtain ⟨n, rfl⟩ := Nat.exists_eq_succ_of_ne_zero (Nat.ne_zero_of_lt hn)
    simp only [List.flatMap_nil, List.append_nil, memberText, List.cons_append, List.length_cons,
      List.length_append, List.append_assoc] at hn ⊢
    rw [readMembers, readString_toList]
    simp only [Option.bind_some]
    rw [hm n _ (by omega) (endsNumber_cons (by decide) _)]
    simp
  | cons e members ih =>
    obtain ⟨n, rfl⟩ := Nat.exists_eq_succ_of_ne_zero (Nat.ne_zero_of_lt hn)
    have htail := ih (m := e) (hmembers e (by simp)) (fun e he => hmembers e (by simp [he]))
      (n := n) (by
        simp only [List.flatMap_cons, List.length_append, List.length_cons] at hn ⊢
        omega)
    simp only [memberText, List.flatMap_cons, List.cons_append, List.length_cons,
      List.length_append, List.append_assoc] at hn htail ⊢
    rw [readMembers, readString_toList]
    simp only [Option.bind_some]
    rw [hm n _ (by omega) (endsNumber_cons (by decide) _)]
    simp [htail]

theorem toList_renderArr (j : Json) (elems : List Json) :
    (render (.arr (j :: elems))).toList =
      '[' :: (render j).toList ++ (elems.flatMap fun e => ',' :: (render e).toList) ++ [']'] := by
  rw [render, renderElems_eq, List.map_cons, String.toList_append, String.toList_append,
    toList_intercalate, List.flatMap_map]
  simp

theorem toList_renderObj (m : String × Json) (members : List (String × Json)) :
    (render (.obj (m :: members))).toList =
      '\x7b' :: memberText m ++ (members.flatMap fun e => ',' :: memberText e) ++ ['\x7d'] := by
  rw [render, renderMembers_eq, List.map_cons, String.toList_append, String.toList_append,
    toList_intercalate, List.flatMap_map]
  simp [memberText]

theorem isNumeric_ne {c d : Char} (h : isNumeric c = true) (hd : isNumeric d = false) : c ≠ d := by
  rintro rfl
  rw [h] at hd
  cases hd

/-- No value begins with the end of an array. -/
theorem render_head {j : Json} (h : Numeric j) : ∃ c text, (render j).toList = c :: text ∧
    c ≠ ']' := by
  cases h with
  | null => exact ⟨'n', _, rfl, by decide⟩
  | bool b => cases b <;> exact ⟨_, _, rfl, by decide⟩
  | @num text nonempty digits =>
    obtain ⟨c, rest, hc⟩ := List.exists_cons_of_ne_nil nonempty
    exact ⟨c, rest, hc, isNumeric_ne (digits c (by simp [hc])) (by decide)⟩
  | str s => exact ⟨'"', _, by simp [render]; rfl, by decide⟩
  | arr h => exact ⟨'[', _, by simp [render]; rfl, by decide⟩
  | obj h => exact ⟨'\x7b', _, by simp [render]; rfl, by decide⟩

/-- **A value is read off the front.** -/
theorem readable {j : Json} (h : Numeric j) : Readable j := by
  induction h with
  | null =>
    intro n rest hn _
    obtain ⟨n, rfl⟩ := Nat.exists_eq_succ_of_ne_zero (Nat.ne_zero_of_lt hn)
    rfl
  | bool b =>
    intro n rest hn _
    have hpos : n ≠ 0 := by cases b <;> simp [render] at hn <;> omega
    obtain ⟨n, rfl⟩ := Nat.exists_eq_succ_of_ne_zero hpos
    cases b <;> rfl
  | @num text nonempty digits =>
    intro n rest hn hrest
    have hread := readNumber_append nonempty digits hrest
    obtain ⟨c, digits', hc⟩ := List.exists_cons_of_ne_nil nonempty
    obtain ⟨n, rfl⟩ := Nat.exists_eq_succ_of_ne_zero (n := n) (by simp [render, hc] at hn; omega)
    rw [String.ofList_toList, hc] at hread
    rw [render, hc, List.cons_append, readValue_number (digits c (by simp [hc]))]
    exact hread
  | str s =>
    intro n rest hn _
    obtain ⟨n, rfl⟩ := Nat.exists_eq_succ_of_ne_zero (n := n) (by simp [render] at hn; omega)
    simp [render, readValue, readString_toList]
  | @arr elems h ih =>
    intro n rest hn _
    cases elems with
    | nil =>
      obtain ⟨n, rfl⟩ := Nat.exists_eq_succ_of_ne_zero (n := n) (by simp [render] at hn; omega)
      rfl
    | cons j elems =>
      rw [toList_renderArr] at hn ⊢
      obtain ⟨n, rfl⟩ := Nat.exists_eq_succ_of_ne_zero (n := n) (by simp at hn; omega)
      have hread := readElems_render (ih j (by simp))
        (fun e he => ih e (List.mem_cons_of_mem j he)) rest (n := n) (by simp at hn ⊢; omega)
      obtain ⟨c, text, hc, hne⟩ := render_head (h j (by simp))
      simp only [List.append_assoc, List.cons_append, List.nil_append, hc] at hread ⊢
      rw [readValue]
      · rw [hread]; rfl
      · intro rest' heq
        exact hne (List.cons.inj heq).1
  | @obj members h ih =>
    intro n rest hn _
    cases members with
    | nil =>
      obtain ⟨n, rfl⟩ := Nat.exists_eq_succ_of_ne_zero (n := n) (by simp [render] at hn; omega)
      rfl
    | cons m members =>
      rw [toList_renderObj] at hn ⊢
      obtain ⟨n, rfl⟩ := Nat.exists_eq_succ_of_ne_zero (n := n) (by simp at hn; omega)
      have hread := readMembers_render (ih m (by simp))
        (fun e he => ih e (List.mem_cons_of_mem m he)) rest (n := n) (by simp at hn ⊢; omega)
      simp only [memberText, List.append_assoc, List.cons_append, List.nil_append] at hread ⊢
      rw [readValue]
      · rw [hread]; rfl
      · intro rest' heq
        simp at heq

/-- **What is written is read back.** -/
theorem parse_render {j : Json} (h : Numeric j) : parse (render j) = some j := by
  have hread := readable h _ [] (Nat.le_refl _) (by simp [EndsNumber])
  rw [List.append_nil] at hread
  rw [parse, hread]
  rfl

/-! ## Control characters -/

def Printable (text : List Char) : Prop := ∀ c ∈ text, 32 ≤ c.toNat

theorem Printable.append {s t : List Char} (hs : Printable s) (ht : Printable t) :
    Printable (s ++ t) := by
  intro c hc
  rcases List.mem_append.mp hc with hc | hc
  · exact hs c hc
  · exact ht c hc

theorem Printable.cons {c : Char} {t : List Char} (hc : 32 ≤ c.toNat) (ht : Printable t) :
    Printable (c :: t) := by
  intro d hd
  rcases List.mem_cons.mp hd with rfl | hd
  · exact hc
  · exact ht d hd

theorem Printable.nil : Printable [] := by simp [Printable]

theorem Printable.flatMap {β : Type} {l : List β} {f : β → List Char}
    (h : ∀ b ∈ l, Printable (f b)) : Printable (l.flatMap f) := by
  intro c hc
  obtain ⟨b, hb, hc⟩ := List.mem_flatMap.mp hc
  exact h b hb c hc

theorem hexDigit_printable : ∀ n < 16, 32 ≤ (hexDigit n).toNat := by decide

theorem escapeChar_printable (c : Char) : Printable (escapeChar c).toList := by
  unfold escapeChar Printable
  split_ifs with hquote hbackslash h8 h9 h10 h12 h13 h32
  on_goal 9 => simpa using Nat.not_lt.mp h32
  on_goal 8 =>
    have h1 := hexDigit_printable (c.toNat / 16) (by omega)
    have h2 := hexDigit_printable (c.toNat % 16) (by omega)
    simp [h1, h2]
  all_goals simp

theorem escape_printable (s : String) : Printable (escape s).toList := by
  rw [toList_escape]
  exact .flatMap fun c _ => escapeChar_printable c

theorem isNumeric_printable {c : Char} (h : isNumeric c = true) : 32 ≤ c.toNat := by
  rcases Bool.or_eq_true_iff.mp h with hdigit | hsign
  · simp [Char.isDigit, UInt32.le_iff_toNat_le] at hdigit
    omega
  · simp at hsign
    rcases hsign with rfl | rfl | rfl | rfl | rfl <;> decide

theorem memberText_printable {m : String × Json} (h : Printable (render m.2).toList) :
    Printable (memberText m) :=
  (Printable.cons (by decide) (escape_printable m.1)).append
    (.cons (by decide) (.cons (by decide) h))

/-- **No control characters are written.** -/
theorem render_printable {j : Json} (h : Numeric j) : Printable (render j).toList := by
  induction h with
  | null => simp [render, Printable]
  | bool b => cases b <;> simp [render, Printable]
  | num _ digits => exact fun c hc => isNumeric_printable (digits c hc)
  | str s =>
    have hquoted := (Printable.cons (c := '"') (by decide) (escape_printable s)).append
      (.cons (c := '"') (by decide) .nil)
    simpa [render] using hquoted
  | @arr elems _ ih =>
    cases elems with
    | nil => simp [render, renderElems, Printable]
    | cons j elems =>
      rw [toList_renderArr]
      refine ((Printable.cons (by decide) (ih j (by simp))).append (.flatMap fun e he => ?_)).append
        (.cons (by decide) .nil)
      exact .cons (by decide) (ih e (List.mem_cons_of_mem j he))
  | @obj members _ ih =>
    cases members with
    | nil => simp [render, renderMembers, Printable]
    | cons m members =>
      rw [toList_renderObj]
      have hfirst := Printable.cons (c := '\x7b') (by decide)
        (memberText_printable (ih m (by simp)))
      refine (hfirst.append (.flatMap fun e he => ?_)).append (.cons (by decide) .nil)
      exact .cons (by decide) (memberText_printable (ih e (List.mem_cons_of_mem m he)))

end InfSplitter.Json
