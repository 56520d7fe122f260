import InfSplitter.Lib.Text
import Mathlib.Tactic.SplitIfs

/-!
# JSON values and their compact text

`serde_json::Value` as far as the proxy uses it: looking into a parsed body, and writing a value
with `serde_json::to_vec`. An object is the list of its members in the order they are written, which
for a parsed or converted value is the order of the keys. A number is the text `serde_json` prints
for it, since nothing here calculates with one.

What the proofs need of the text is its length in bytes. It is additive over members and elements,
with one byte for each comma (`size_obj`, `size_arr`), and a string costs its escaped length
and two quotes (`size_str`).
-/

set_option autoImplicit false

namespace InfSplitter

inductive Json
  | null
  | bool (b : Bool)
  | num (text : String)
  | str (s : String)
  | arr (elems : List Json)
  | obj (members : List (String × Json))
deriving Repr

namespace Json

open Lib

/-! ## Looking into a value -/

/-- `Value::get` with a string index. -/
def get (j : Json) (key : String) : Option Json :=
  match j with
  | .obj members => members.lookup key
  | _ => none

def asStr : Json → Option String
  | .str s => some s
  | _ => none

def asArray : Json → Option (List Json)
  | .arr elems => some elems
  | _ => none

/-! ## Writing a value -/

def hexDigit (n : Nat) : Char :=
  if n < 10 then Char.ofNat (48 + n) else Char.ofNat (87 + n)

/-- One character inside a JSON string. Everything from the space on is written as it is, except
for the quote and the backslash. -/
def escapeChar (c : Char) : String :=
  if c = '"' then "\\\""
  else if c = '\\' then "\\\\"
  else if c.toNat = 8 then "\\b"
  else if c.toNat = 9 then "\\t"
  else if c.toNat = 10 then "\\n"
  else if c.toNat = 12 then "\\f"
  else if c.toNat = 13 then "\\r"
  else if c.toNat < 32 then
    "\\u00" ++ String.ofList [hexDigit (c.toNat / 16), hexDigit (c.toNat % 16)]
  else String.ofList [c]

def escape (s : String) : String := String.join (s.toList.map escapeChar)

mutual
/-- `serde_json::to_string`. -/
def render : Json → String
  | .null => "null"
  | .bool true => "true"
  | .bool false => "false"
  | .num text => text
  | .str s => "\"" ++ escape s ++ "\""
  | .arr elems => "[" ++ ",".intercalate (renderElems elems) ++ "]"
  | .obj members => "\x7b" ++ ",".intercalate (renderMembers members) ++ "\x7d"

def renderElems : List Json → List String
  | [] => []
  | j :: rest => render j :: renderElems rest

def renderMembers : List (String × Json) → List String
  | [] => []
  | (key, j) :: rest => ("\"" ++ escape key ++ "\":" ++ render j) :: renderMembers rest
end

/-- `serde_json::to_vec(..).len()`. -/
def size (j : Json) : Nat := (render j).utf8ByteSize

/-- `serde_json::to_vec`. -/
def toVec (j : Json) : List UInt8 := (render j).toList.flatMap String.utf8EncodeChar

/-! ## The length of the text -/

def escapedSize (s : String) : Nat := (escape s).utf8ByteSize

def memberSize (m : String × Json) : Nat := escapedSize m.1 + 3 + m.2.size

/-- The bytes of the text are as many as its length says. -/
theorem length_toVec (j : Json) : j.toVec.length = j.size := by
  have h := congrArg ByteArray.size (String.utf8Encode_toList (b := j.render))
  unfold List.utf8Encode at h
  rw [List.size_toByteArray] at h
  exact h

theorem renderElems_eq (elems : List Json) : renderElems elems = elems.map render := by
  induction elems with
  | nil => rfl
  | cons j rest ih => rw [renderElems, ih, List.map_cons]

theorem renderMembers_eq (members : List (String × Json)) :
    renderMembers members =
      members.map fun m => "\"" ++ escape m.1 ++ "\":" ++ render m.2 := by
  induction members with
  | nil => rfl
  | cons m rest ih => rw [renderMembers, ih, List.map_cons]

@[simp] theorem size_str (s : String) : (Json.str s).size = escapedSize s + 2 := by
  unfold size escapedSize
  rw [render, String.utf8ByteSize_append, String.utf8ByteSize_append,
    show "\"".utf8ByteSize = 1 from rfl]
  omega

@[simp] theorem size_true : (Json.bool true).size = 4 := rfl

@[simp] theorem size_false : (Json.bool false).size = 5 := rfl

theorem size_obj (members : List (String × Json)) :
    (Json.obj members).size = (members.map memberSize).sum + (members.length - 1) + 2 := by
  have hmap : (members.map fun m => "\"" ++ escape m.1 ++ "\":" ++ render m.2).map
      String.utf8ByteSize = members.map memberSize := by
    rw [List.map_map]
    apply List.map_congr_left
    intro m _
    show ("\"" ++ escape m.1 ++ "\":" ++ render m.2).utf8ByteSize = memberSize m
    rw [String.utf8ByteSize_append, String.utf8ByteSize_append, String.utf8ByteSize_append,
      show "\"".utf8ByteSize = 1 from rfl, show "\":".utf8ByteSize = 2 from rfl]
    unfold memberSize escapedSize size
    omega
  show (render (.obj members)).utf8ByteSize = _
  rw [render, String.utf8ByteSize_append, String.utf8ByteSize_append, utf8ByteSize_intercalate,
    renderMembers_eq, hmap, List.length_map, show "\x7b".utf8ByteSize = 1 from rfl,
    show "\x7d".utf8ByteSize = 1 from rfl, show ",".utf8ByteSize = 1 from rfl]
  omega

theorem size_arr (elems : List Json) :
    (Json.arr elems).size = (elems.map size).sum + (elems.length - 1) + 2 := by
  have hmap : (elems.map render).map String.utf8ByteSize = elems.map size := by
    rw [List.map_map]
    rfl
  show (render (.arr elems)).utf8ByteSize = _
  rw [render, String.utf8ByteSize_append, String.utf8ByteSize_append, utf8ByteSize_intercalate,
    renderElems_eq, hmap, List.length_map, show "[".utf8ByteSize = 1 from rfl,
    show "]".utf8ByteSize = 1 from rfl, show ",".utf8ByteSize = 1 from rfl]
  omega

/-- Members with a comma each. -/
def membersCost (members : List (String × Json)) : Nat :=
  (members.map fun m => memberSize m + 1).sum

@[simp] theorem membersCost_append (l l' : List (String × Json)) :
    membersCost (l ++ l') = membersCost l + membersCost l' := by
  simp [membersCost]

@[simp] theorem membersCost_nil : membersCost [] = 0 := rfl

@[simp] theorem membersCost_cons (m : String × Json) (l : List (String × Json)) :
    membersCost (m :: l) = memberSize m + 1 + membersCost l := by
  simp [membersCost]

theorem size_obj_of_ne_nil {members : List (String × Json)} (h : members ≠ []) :
    (Json.obj members).size = membersCost members + 1 := by
  have hcost : membersCost members = (members.map memberSize).sum + members.length := by
    induction members with
    | nil => rfl
    | cons m rest ih =>
      by_cases hr : rest = []
      · subst hr
        simp
      · rw [membersCost_cons, ih hr, List.map_cons, List.sum_cons, List.length_cons]
        omega
  have := List.length_pos_of_ne_nil h
  rw [size_obj, hcost]
  omega

/-! ## Escapes -/

/-- The bytes the escapes of a text add to it. -/
def escapes (s : String) : Nat := escapedSize s - s.utf8ByteSize

theorem escapedSize_append (s t : String) :
    escapedSize (s ++ t) = escapedSize s + escapedSize t := by
  unfold escapedSize escape
  rw [String.toList_append, List.map_append, String.join_append, String.utf8ByteSize_append]

theorem utf8Size_of_ascii {c : Char} (h : c.toNat < 128) : c.utf8Size = 1 := by
  have hval : c.val ≤ 0x7F := by
    rw [UInt32.le_iff_toNat_le]
    exact Nat.le_of_lt_succ h
  exact if_pos hval

/-- No character gets shorter. -/
theorem utf8Size_le_escapeChar (c : Char) : c.utf8Size ≤ (escapeChar c).utf8ByteSize := by
  unfold escapeChar
  split_ifs with h1 h2 h3 h4 h5 h6 h7 h8
  · rw [h1]; decide
  · rw [h2]; decide
  · rw [utf8Size_of_ascii (by omega)]; decide
  · rw [utf8Size_of_ascii (by omega)]; decide
  · rw [utf8Size_of_ascii (by omega)]; decide
  · rw [utf8Size_of_ascii (by omega)]; decide
  · rw [utf8Size_of_ascii (by omega)]; decide
  · rw [utf8Size_of_ascii (by omega), String.utf8ByteSize_append]
    exact Nat.le_trans (by decide : 1 ≤ "\\u00".utf8ByteSize) (Nat.le_add_right _ _)
  · exact Nat.le_of_eq String.utf8ByteSize_singleton.symm

theorem escapedSize_singleton (c : Char) :
    escapedSize (String.singleton c) = (escapeChar c).utf8ByteSize := by
  unfold escapedSize escape
  simp

theorem utf8ByteSize_le_escapedSize (s : String) : s.utf8ByteSize ≤ escapedSize s := by
  induction s using String.push_induction with
  | empty => exact Nat.zero_le _
  | push s c ih =>
    have hc : c.utf8Size ≤ escapedSize (String.singleton c) := by
      rw [escapedSize_singleton]
      exact utf8Size_le_escapeChar c
    rw [← String.append_singleton, escapedSize_append, String.utf8ByteSize_append,
      String.utf8ByteSize_singleton]
    exact Nat.add_le_add ih hc

theorem escapedSize_eq (s : String) : escapedSize s = s.utf8ByteSize + escapes s := by
  have := utf8ByteSize_le_escapedSize s
  unfold escapes
  omega

@[simp] theorem escapes_append (s t : String) : escapes (s ++ t) = escapes s + escapes t := by
  have hs := escapedSize_eq s
  have ht := escapedSize_eq t
  have happend := escapedSize_eq (s ++ t)
  rw [escapedSize_append, String.utf8ByteSize_append] at happend
  omega

/-- Leaving characters out adds no escapes. -/
theorem escapes_le_of_sublist {l l' : List Char} (h : l.Sublist l') :
    escapes (String.ofList l) ≤ escapes (String.ofList l') := by
  have hcons : ∀ (c : Char) (l : List Char), escapes (String.ofList (c :: l)) =
      escapes (String.ofList [c]) + escapes (String.ofList l) := by
    intro c l
    rw [← escapes_append, ← String.ofList_append]
    rfl
  induction h with
  | slnil => exact Nat.le_refl _
  | cons c _ ih =>
    rw [hcons]
    exact Nat.le_trans ih (Nat.le_add_left _ _)
  | @cons_cons l l' c _ ih =>
    rw [hcons c l, hcons c l']
    exact Nat.add_le_add_left ih _

end Json

end InfSplitter
