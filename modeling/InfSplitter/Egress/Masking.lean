import InfSplitter.Diagnostics.Guard
import InfSplitter.Egress.Headers

/-!
# What a dump shows of the headers

The dumps of a request have its headers as they came in and as they are sent on.
`mask_header_values` writes over the values of a few of them, and a value that is not text is left
out.

Two header maps are alike if they differ in such values only (`Alike`). Nothing of the difference is
in a dump (`headerPairsWithMasking_alike`), and what `forward_request_headers_map` makes of them is
alike again, also with another key in the place of the route's own
(`forwardRequestHeadersMap_alike`).
-/

set_option autoImplicit false

namespace InfSplitter.Egress

open Diagnostics Lib
open Interactions (Protocol)

/-! ## Values -/

def isValueByte (b : UInt8) : Bool := (32 ≤ b.toNat && b.toNat ≠ 127) || b.toNat = 9

def isVisibleAscii (b : UInt8) : Bool := (32 ≤ b.toNat && b.toNat < 127) || b.toNat = 9

structure HeaderValue where
  bytes : List UInt8
  valid : bytes.all isValueByte = true
deriving DecidableEq

namespace HeaderValue

def toStr (v : HeaderValue) : Option String :=
  if v.bytes.all isVisibleAscii then
    some (String.ofList (v.bytes.map fun b => Char.ofNat b.toNat))
  else none

def fromStr (text : String) : Option HeaderValue :=
  if h : (encodeUtf8 text.toList).all isValueByte = true then some ⟨_, h⟩ else none

/-- The source panics on a text that is no value. -/
def fromStatic (text : String) : HeaderValue := (fromStr text).getD ⟨[], rfl⟩

theorem isSome_toStr (v : HeaderValue) : v.toStr.isSome = v.bytes.all isVisibleAscii := by
  unfold toStr
  split
  · next h => rw [h]; rfl
  · next h => rw [Bool.eq_false_iff.mpr h]; rfl

theorem encode_bearer (key : String) :
    encodeUtf8 ("Bearer " ++ key).toList =
      encodeUtf8 "Bearer ".toList ++ encodeUtf8 key.toList := by
  rw [String.toList_append, encodeUtf8_append]

theorem all_bearer {p : UInt8 → Bool} (h : (encodeUtf8 "Bearer ".toList).all p = true)
    (key : String) :
    (encodeUtf8 ("Bearer " ++ key).toList).all p = (encodeUtf8 key.toList).all p := by
  rw [encode_bearer, List.all_append, h, Bool.true_and]

theorem fromStr_bearer (key : String) (h : (fromStr key).isSome) :
    (fromStr ("Bearer " ++ key)).isSome := by
  have hall := all_bearer (p := isValueByte) (by decide) key
  unfold fromStr at h ⊢
  split at h
  · next hkey => rw [dif_pos (hall.trans hkey)]; rfl
  · cases h

end HeaderValue

abbrev Headers := EntryMap HeaderName HeaderValue

def headerHttp : Http HeaderValue Headers where
  toValueMap := EntryMap.valueMap
  fromStr := HeaderValue.fromStr
  fromStatic := HeaderValue.fromStatic
  fromStr_bearer := HeaderValue.fromStr_bearer

/-- The map as the dumps go through it. -/
def Headers.iter (m : Headers) : HeaderMap :=
  (EntryMap.valueMap.iter m).map fun e => (e.1.asStr, e.2.toStr)

/-! ## Alike -/

/-- The values of a name differ if that is sensitive only, and then both are text or none is. -/
def AlikeValue (name : HeaderName) (v v' : HeaderValue) : Prop :=
  v.toStr.isSome = v'.toStr.isSome ∧ (isSensitiveHeader name.asStr = false → v = v')

def Alike (m m' : Headers) : Prop := EntryMap.Rel AlikeValue m m'

/-- The value a key is sent as. -/
def keyValue (key : String) : HeaderValue :=
  (HeaderValue.fromStr key).getD (HeaderValue.fromStatic "")

/-- Two keys, both of which are text or none is. -/
def AlikeKeys (key key' : Option String) : Prop :=
  Option.Rel (fun k k' => (keyValue k).toStr.isSome = (keyValue k').toStr.isSome) key key'

theorem AlikeValue.refl (name : HeaderName) (v : HeaderValue) : AlikeValue name v v :=
  ⟨rfl, fun _ => rfl⟩

theorem isSome_keyValue (key : String) :
    (keyValue key).toStr.isSome =
      (!(encodeUtf8 key.toList).all isValueByte || (encodeUtf8 key.toList).all isVisibleAscii) := by
  unfold keyValue HeaderValue.fromStr
  split
  · next h =>
    rw [Option.getD_some, HeaderValue.isSome_toStr, h]
    rfl
  · next h =>
    rw [Bool.eq_false_iff.mpr h]
    rfl

/-- A key is text behind `Bearer` if it is text. -/
theorem isSome_keyValue_bearer (key : String) :
    (keyValue ("Bearer " ++ key)).toStr.isSome = (keyValue key).toStr.isSome := by
  rw [isSome_keyValue, isSome_keyValue, HeaderValue.all_bearer (by decide),
    HeaderValue.all_bearer (by decide)]

/-- **A dump has nothing of the difference.** -/
theorem headerPairsWithMasking_alike {m m' : Headers} (h : Alike m m') :
    headerPairsWithMasking m.iter = headerPairsWithMasking m'.iter := by
  have hiter := h.iter
  unfold Headers.iter headerPairsWithMasking maskHeaderValues
  generalize EntryMap.valueMap.iter m = kvs at hiter ⊢
  generalize EntryMap.valueMap.iter m' = kvs' at hiter ⊢
  induction hiter with
  | nil => rfl
  | @cons e e' rest rest' he _ ih =>
    obtain ⟨hname, htext, hplain⟩ := he
    rw [List.map_cons, List.map_cons, List.filterMap_cons, List.filterMap_cons, ← hname]
    by_cases hsensitive : isSensitiveHeader e.1.asStr = true
    · cases hv : e.2.toStr with
      | none =>
        rw [hv] at htext
        have hv' : e'.2.toStr = none :=
          Option.isNone_iff_eq_none.mp (Option.isSome_eq_false_iff.mp htext.symm)
        rw [hv']
        exact ih
      | some text =>
        rw [hv] at htext
        obtain ⟨text', hv'⟩ := Option.isSome_iff_exists.mp htext.symm
        rw [hv']
        simp only [Option.map_some, List.map_cons, hsensitive, if_true, ih]
    · rw [hplain (Bool.eq_false_iff.mpr hsensitive)]
      cases e'.2.toStr with
      | none => exact ih
      | some text => simp only [Option.map_some, List.map_cons, ih]

/-! ## What is sent on -/

section
variable {key key' : Option String} {m m' : Headers}

theorem authHeaders_alike (hkey : AlikeKeys key key') :
    Alike (authHeaders headerHttp key) (authHeaders headerHttp key') := by
  cases hkey with
  | none => exact EntryMap.rel_empty
  | @some k k' hk =>
    have hsensitive : isSensitiveHeader (HeaderName.fromText "x-api-key").asStr = true ∧
        isSensitiveHeader (HeaderName.fromText "Authorization").asStr = true := by decide
    refine EntryMap.Rel.insert (EntryMap.Rel.insert EntryMap.rel_empty ⟨hk, ?_⟩) ⟨?_, ?_⟩
    · intro h
      rw [hsensitive.1] at h
      cases h
    · exact ((isSome_keyValue_bearer k).trans hk).trans (isSome_keyValue_bearer k').symm
    · intro h
      rw [hsensitive.2] at h
      cases h

theorem forwardedHeaders_alike (hkey : AlikeKeys key key') (h : Alike m m') :
    Alike (forwardedHeaders headerHttp key m) (forwardedHeaders headerHttp key' m') := by
  have hforwarded : forwarded key = forwarded key' := by
    funext name
    cases hkey <;> rfl
  unfold forwardedHeaders
  rw [hforwarded]
  exact EntryMap.Rel.foldl h (authHeaders_alike hkey) (forwarded key')

theorem get_alike (h : Alike m m') {name : HeaderName}
    (hplain : isSensitiveHeader name.asStr = false) :
    headerHttp.get m name = headerHttp.get m' name := by
  have hget := EntryMap.Rel.get h name
  show EntryMap.valueMap.get m name = EntryMap.valueMap.get m' name
  cases hv : EntryMap.valueMap.get m name with
  | none =>
    rw [hv] at hget
    cases hget' : EntryMap.valueMap.get m' name with
    | none => rfl
    | some v' =>
      rw [hget'] at hget
      cases hget
  | some v =>
    rw [hv] at hget
    cases hget' : EntryMap.valueMap.get m' name with
    | none =>
      rw [hget'] at hget
      cases hget
    | some v' =>
      rw [hget'] at hget
      cases hget with
      | some hr => rw [hr.2 hplain]

/-- **What is sent on is alike.** -/
theorem forwardRequestHeadersMap_alike (hkey : AlikeKeys key key') (h : Alike m m')
    (protocol : Protocol) :
    Alike (forwardRequestHeadersMap headerHttp key m protocol)
      (forwardRequestHeadersMap headerHttp key' m' protocol) := by
  have hloop := forwardedHeaders_alike hkey h
  have hcorrelation : correlation headerHttp key m = correlation headerHttp key' m' := by
    unfold correlation
    rw [get_alike hloop (by decide), get_alike h (by decide), get_alike h (by decide)]
  rw [forwardRequestHeadersMap_eq, forwardRequestHeadersMap_eq, hcorrelation]
  cases correlation headerHttp key' m' with
  | none => exact hloop
  | some val => exact EntryMap.Rel.insert hloop (.refl _ val)

end

end InfSplitter.Egress
