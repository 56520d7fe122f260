import Mathlib.Data.List.AList

/-!
# TOML documents and serde's data model over them

A TOML document as a value tree, and the two directions in which a program's types are written to it
and read from it. The one place where writing can fail is an integer: TOML's are signed and 64 bits
wide, so an unsigned 64-bit value above `i64Max` is refused. Reading fails on a missing key, a value
of another kind, or an integer that does not fit the type read.

A `Codec` carries its round trip: what could be written is read back. `Fields` is the same for the
part of a table a record's fields make up, and its law is about any lookup function that agrees with
the written entries on the fields' own names, so that fields can be put side by side in one table.

`Accepts` says when writing succeeds. Its simp set takes the question of a whole document down to
the integers in it.
-/

set_option autoImplicit false

namespace InfSplitter.Lib

inductive Toml
  | integer (n : Int)
  | string (s : String)
  | array (items : List Toml)
  | table (entries : List (String × Toml))

namespace Toml

/-- `i64::MAX`. -/
def i64Max : Nat := 9223372036854775807

structure Codec (α : Type) where
  encode : α → Option Toml
  decode : Toml → Option α
  decode_encode : ∀ {a : α} {t : Toml}, encode a = some t → decode t = some a

/-- A record's fields, as entries of a table that may hold others. -/
structure Fields (α : Type) where
  names : List String
  encode : α → Option (List (String × Toml))
  decode : (String → Option Toml) → Option α
  names_encode : ∀ {a : α} {es : List (String × Toml)},
    encode a = some es → ∀ e ∈ es, e.1 ∈ names
  decode_encode : ∀ {a : α} {es : List (String × Toml)} {look : String → Option Toml},
    encode a = some es → (∀ n ∈ names, look n = es.lookup n) → decode look = some a

def Codec.Accepts {α : Type} (c : Codec α) (a : α) : Prop := (c.encode a).isSome = true

def Fields.Accepts {α : Type} (fs : Fields α) (a : α) : Prop := (fs.encode a).isSome = true

instance {α : Type} (c : Codec α) (a : α) : Decidable (c.Accepts a) :=
  inferInstanceAs (Decidable (_ = _))

/-! ## Lists of results -/

/-- Undo a `mapM` element by element. -/
theorem mapM_inverse {α β : Type} {f : α → Option β} {g : β → Option α}
    (h : ∀ {a b}, f a = some b → g b = some a) {l : List α} {r : List β}
    (hr : l.mapM f = some r) : r.mapM g = some l := by
  induction l generalizing r with
  | nil =>
    simp only [List.mapM_nil, Option.pure_def, Option.some.injEq] at hr
    subst hr
    rfl
  | cons a l ih =>
    simp only [List.mapM_cons, Option.bind_eq_bind, Option.bind_eq_some_iff, Option.pure_def,
      Option.some.injEq] at hr
    obtain ⟨b, hb, r', hr', rfl⟩ := hr
    simp [List.mapM_cons, h hb, ih hr']

theorem mapM_isSome {α β : Type} {f : α → Option β} {l : List α} :
    (l.mapM f).isSome = true ↔ ∀ a ∈ l, (f a).isSome = true := by
  induction l with
  | nil => simp
  | cons a l ih =>
    rw [List.forall_mem_cons, ← ih]
    cases hf : f a with
    | none => simp [List.mapM_cons, hf]
    | some b => cases hl : l.mapM f <;> simp [List.mapM_cons, hf, hl]

theorem dedupKeys_of_nodupKeys {V : Type} {l : List (Sigma fun _ : String => V)}
    (h : l.NodupKeys) : l.dedupKeys = l := by
  induction l with
  | nil => rfl
  | cons e l ih =>
    obtain ⟨hnot, hl⟩ := List.nodupKeys_cons.mp h
    rw [List.dedupKeys_cons, ih hl, List.kinsert_def, List.kerase_of_notMem_keys hnot]

theorem toAList_entries {V : Type} (m : AList fun _ : String => V) : m.entries.toAList = m := by
  apply AList.ext
  rw [AList.entries_toAList, dedupKeys_of_nodupKeys m.nodupKeys]

/-! ## Values -/

namespace Codec

variable {α β : Type}

def string : Codec String where
  encode s := some (.string s)
  decode
    | .string s => some s
    | _ => none
  decode_encode h := by
    rw [← Option.some.inj h]

/-- An unsigned integer type, `ofNat` refusing what is too large for it. -/
def unsigned (toNat : α → Nat) (ofNat : Nat → Option α) (h : ∀ a, ofNat (toNat a) = some a) :
    Codec α where
  encode a := if toNat a ≤ i64Max then some (.integer (toNat a)) else none
  decode
    | .integer (.ofNat n) => ofNat n
    | _ => none
  decode_encode {a t} ht := by
    by_cases ha : toNat a ≤ i64Max
    · rw [if_pos ha] at ht
      rw [← Option.some.inj ht]
      exact h a
    · rw [if_neg ha] at ht
      exact absurd ht (by simp)

def uint64 : Codec UInt64 :=
  unsigned UInt64.toNat (fun n => if n < UInt64.size then some (UInt64.ofNat n) else none)
    fun a => by rw [if_pos a.toNat_lt, UInt64.ofNat_toNat]

def uint32 : Codec UInt32 :=
  unsigned UInt32.toNat (fun n => if n < UInt32.size then some (UInt32.ofNat n) else none)
    fun a => by rw [if_pos a.toNat_lt, UInt32.ofNat_toNat]

def uint8 : Codec UInt8 :=
  unsigned UInt8.toNat (fun n => if n < UInt8.size then some (UInt8.ofNat n) else none)
    fun a => by rw [if_pos a.toNat_lt, UInt8.ofNat_toNat]

/-- A `usize` of 64 bits: whatever TOML can hold fits. -/
def usize : Codec Nat := unsigned id some fun _ => rfl

def list (c : Codec α) : Codec (List α) where
  encode l := (l.mapM c.encode).map .array
  decode
    | .array items => items.mapM c.decode
    | _ => none
  decode_encode h := by
    obtain ⟨r, hr, rfl⟩ := Option.map_eq_some_iff.mp h
    exact mapM_inverse c.decode_encode hr

/-- A map with string keys. Of two entries with one key a reader keeps one. -/
def stringMap (c : Codec α) : Codec (AList fun _ : String => α) where
  encode m := (m.entries.mapM fun e => (c.encode e.2).map (Prod.mk e.1)).map .table
  decode
    | .table entries =>
      (entries.mapM fun e => (c.decode e.2).map (Sigma.mk e.1)).map List.toAList
    | _ => none
  decode_encode {m t} h := by
    obtain ⟨r, hr, rfl⟩ := Option.map_eq_some_iff.mp h
    have := mapM_inverse (g := fun e : String × Toml =>
      (c.decode e.2).map (Sigma.mk (β := fun _ : String => α) e.1)) (fun {e t} he => by
        obtain ⟨v, hv, rfl⟩ := Option.map_eq_some_iff.mp he
        simp [c.decode_encode hv]) hr
    simp [this, toAList_entries]

/-- A struct: its fields as a table, other keys ignored. -/
def record (fs : Fields α) (pack : α → β) (unpack : β → α) (h : ∀ b, pack (unpack b) = b) :
    Codec β where
  encode b := (fs.encode (unpack b)).map .table
  decode
    | .table entries => (fs.decode fun n => entries.lookup n).map pack
    | _ => none
  decode_encode {b t} hb := by
    obtain ⟨es, hes, rfl⟩ := Option.map_eq_some_iff.mp hb
    simp [fs.decode_encode hes fun _ _ => rfl, h]

end Codec

/-! ## Fields -/

namespace Fields

variable {α β : Type}

def required (name : String) (c : Codec α) : Fields α where
  names := [name]
  encode a := (c.encode a).map fun t => [(name, t)]
  decode look := (look name).bind c.decode
  names_encode h := by
    obtain ⟨t, _, rfl⟩ := Option.map_eq_some_iff.mp h
    simp
  decode_encode h hlook := by
    obtain ⟨t, ht, rfl⟩ := Option.map_eq_some_iff.mp h
    rw [hlook name (by simp)]
    simp [c.decode_encode ht]

/-- A field of type `Option`: left out when it is `None`. -/
def optional (name : String) (c : Codec α) : Fields (Option α) where
  names := [name]
  encode
    | none => some []
    | some a => (c.encode a).map fun t => [(name, t)]
  decode look :=
    match look name with
    | none => some none
    | some t => (c.decode t).map some
  names_encode {a es} h := by
    cases a with
    | none => simp_all
    | some a =>
      obtain ⟨t, _, rfl⟩ := Option.map_eq_some_iff.mp h
      simp
  decode_encode {a es look} h hlook := by
    rw [hlook name (by simp)]
    cases a with
    | none =>
      rw [← Option.some.inj h]
      rfl
    | some a =>
      obtain ⟨t, ht, rfl⟩ := Option.map_eq_some_iff.mp h
      simp [c.decode_encode ht]

/-- A field with `#[serde(default)]`: always written, and `d` when it is missing. -/
def defaulted (name : String) (c : Codec α) (d : α) : Fields α where
  names := [name]
  encode := (required name c).encode
  decode look :=
    match look name with
    | none => some d
    | some t => c.decode t
  names_encode := (required name c).names_encode
  decode_encode h hlook := by
    obtain ⟨t, ht, rfl⟩ := Option.map_eq_some_iff.mp h
    rw [hlook name (by simp)]
    simp [c.decode_encode ht]

theorem lookup_eq_none {es : List (String × Toml)} {n : String} (h : ∀ e ∈ es, e.1 ≠ n) :
    es.lookup n = none := by
  rw [List.lookup_eq_none_iff]
  intro e he
  exact bne_iff_ne.mpr (h e he).symm

/-- Two groups of fields in one table. -/
def and (as : Fields α) (bs : Fields β)
    (disjoint : ∀ n ∈ as.names, n ∉ bs.names := by decide) : Fields (α × β) where
  names := as.names ++ bs.names
  encode p := (as.encode p.1).bind fun es => (bs.encode p.2).map (es ++ ·)
  decode look := (as.decode look).bind fun a => (bs.decode look).map (Prod.mk a)
  names_encode {p es} h := by
    obtain ⟨xs, hx, hxs⟩ := Option.bind_eq_some_iff.mp h
    obtain ⟨ys, hy, rfl⟩ := Option.map_eq_some_iff.mp hxs
    intro e he
    rw [List.mem_append]
    exact (List.mem_append.mp he).imp (as.names_encode hx e) (bs.names_encode hy e)
  decode_encode {p es look} h hlook := by
    obtain ⟨xs, hx, hxs⟩ := Option.bind_eq_some_iff.mp h
    obtain ⟨ys, hy, rfl⟩ := Option.map_eq_some_iff.mp hxs
    have ha : as.decode look = some p.1 := by
      apply as.decode_encode hx
      intro n hn
      have hys : ys.lookup n = none := lookup_eq_none fun e he hen =>
        disjoint n hn (hen ▸ bs.names_encode hy e he : n ∈ bs.names)
      rw [hlook n (List.mem_append_left _ hn), List.lookup_append, hys, Option.or_none]
    have hb : bs.decode look = some p.2 := by
      apply bs.decode_encode hy
      intro n hn
      have hxs : xs.lookup n = none := lookup_eq_none fun e he hen =>
        disjoint n (hen ▸ as.names_encode hx e he : n ∈ as.names) hn
      rw [hlook n (List.mem_append_right _ hn), List.lookup_append, hxs, Option.none_or]
    simp [ha, hb]

end Fields

/-! ## When writing succeeds -/

section
variable {α β : Type}

@[simp] theorem accepts_string (s : String) : Codec.string.Accepts s := rfl

theorem accepts_unsigned {toNat : α → Nat} {ofNat : Nat → Option α}
    {h : ∀ a, ofNat (toNat a) = some a} {a : α} :
    (Codec.unsigned toNat ofNat h).Accepts a ↔ toNat a ≤ i64Max := by
  unfold Codec.Accepts Codec.unsigned
  by_cases ha : toNat a ≤ i64Max <;> simp [ha]

theorem encode_unsigned {toNat : α → Nat} {ofNat : Nat → Option α}
    {h : ∀ a, ofNat (toNat a) = some a} {a : α} (ha : toNat a ≤ i64Max) :
    (Codec.unsigned toNat ofNat h).encode a = some (.integer (toNat a)) := if_pos ha

@[simp] theorem accepts_uint64 {a : UInt64} : Codec.uint64.Accepts a ↔ a.toNat ≤ i64Max :=
  accepts_unsigned

@[simp] theorem accepts_usize {n : Nat} : Codec.usize.Accepts n ↔ n ≤ i64Max := accepts_unsigned

@[simp] theorem accepts_uint32 (a : UInt32) : Codec.uint32.Accepts a := by
  have ha : a.toNat < UInt32.size := a.toNat_lt
  apply accepts_unsigned.mpr
  unfold i64Max
  have : UInt32.size = 4294967296 := rfl
  omega

@[simp] theorem accepts_uint8 (a : UInt8) : Codec.uint8.Accepts a := by
  have ha : a.toNat < UInt8.size := a.toNat_lt
  apply accepts_unsigned.mpr
  unfold i64Max
  have : UInt8.size = 256 := rfl
  omega

@[simp] theorem accepts_list {c : Codec α} {l : List α} :
    c.list.Accepts l ↔ ∀ a ∈ l, c.Accepts a := by
  unfold Codec.Accepts Codec.list
  rw [Option.isSome_map, mapM_isSome]

@[simp] theorem accepts_stringMap {c : Codec α} {m : AList fun _ : String => α} :
    c.stringMap.Accepts m ↔ ∀ e ∈ m.entries, c.Accepts e.2 := by
  unfold Codec.Accepts Codec.stringMap
  rw [Option.isSome_map, mapM_isSome]
  simp only [Option.isSome_map]

@[simp] theorem accepts_record {fs : Fields α} {pack : α → β} {unpack : β → α}
    {h : ∀ b, pack (unpack b) = b} {b : β} :
    (Codec.record fs pack unpack h).Accepts b ↔ fs.Accepts (unpack b) := by
  unfold Codec.Accepts Codec.record Fields.Accepts
  rw [Option.isSome_map]

@[simp] theorem accepts_required {name : String} {c : Codec α} {a : α} :
    (Fields.required name c).Accepts a ↔ c.Accepts a := by
  unfold Fields.Accepts Fields.required Codec.Accepts
  rw [Option.isSome_map]

@[simp] theorem accepts_defaulted {name : String} {c : Codec α} {d a : α} :
    (Fields.defaulted name c d).Accepts a ↔ c.Accepts a := accepts_required

@[simp] theorem accepts_optional {name : String} {c : Codec α} {a : Option α} :
    (Fields.optional name c).Accepts a ↔ ∀ v ∈ a, c.Accepts v := by
  unfold Fields.Accepts Fields.optional Codec.Accepts
  cases a <;> simp

@[simp] theorem accepts_and {as : Fields α} {bs : Fields β}
    {disjoint : ∀ n ∈ as.names, n ∉ bs.names} {p : α × β} :
    (as.and bs disjoint).Accepts p ↔ as.Accepts p.1 ∧ bs.Accepts p.2 := by
  unfold Fields.Accepts Fields.and
  cases ha : as.encode p.1 <;> simp [ha]

end

end Toml

end InfSplitter.Lib
