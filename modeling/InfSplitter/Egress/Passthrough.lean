import InfSplitter.SplitSend.Send

/-!
# The passthrough path

A request whose upstream speaks the client's own protocol is not translated. The router looks at its
model, and `apply_egress_transforms` puts the caps of the route into it and takes the dropped fields
out.

The two have different ideas of a body. The router reads a struct with one field, which serde takes
from an object, but from an array of one element as well. The caps are set through a mutable string
index, which makes an object of `null`, sets a member of an object, and panics on anything else.
`applyEgressTransforms` answers `none` where the source panics.
-/

set_option autoImplicit false

namespace InfSplitter.Egress

open SplitSend

/-! ## The body as the router reads it -/

/-- `MessagePeek` from a text: the model. A second member under its key is refused. -/
def messagePeek : Json → Option String
  | .obj members =>
    match members.filter fun m => m.1 == "model" with
    | [(_, .str model)] => some model
    | _ => none
  | .arr [.str model] => some model
  | _ => none

/-- `dispatch_messages` goes on to a handler, where there is a route. -/
def Accepted (body : Json) : Prop :=
  ∃ model, messagePeek body = some model ∧ ¬ model.toList.all Lib.isWhitespace

mutual
/-- `serde_json::Value` from a text: of several members under a key the last one stays. -/
def fromText : Json → Json
  | .null => .null
  | .bool b => .bool b
  | .num text => .num text
  | .str s => .str s
  | .arr elems => .arr (fromTextElems elems)
  | .obj members => .obj (fromTextMembers members)

def fromTextElems : List Json → List Json
  | [] => []
  | j :: rest => fromText j :: fromTextElems rest

def fromTextMembers : List (String × Json) → List (String × Json)
  | [] => []
  | (key, j) :: rest =>
    let later := fromTextMembers rest
    if later.any fun m => m.1 == key then later else (key, fromText j) :: later
end

/-! ## The route -/

inductive DropFields
  | all (fields : List String)
  | perModel (shared : List String) (byModel : List (String × List String))
deriving DecidableEq, Repr

def DropFields.forModel (model : String) : DropFields → List String
  | .all fields => fields
  | .perModel shared byModel => shared ++ (byModel.lookup model).getD []

/-- The fields of a route the passthrough path depends on. -/
structure RouteTarget where
  maxTokens : Option UInt32
  maxOutputTokens : Option UInt32
  maxCompletionTokens : Option UInt32
  dropFields : DropFields
deriving DecidableEq, Repr

def RouteTarget.hasCaps (route : RouteTarget) : Bool :=
  route.maxTokens.isSome || route.maxOutputTokens.isSome || route.maxCompletionTokens.isSome

/-! ## The transforms -/

/-- `Value::as_u64`; what is not an unsigned number is printed with a sign, a point or an
exponent. -/
def asU64 : Json → Option Nat
  | .num text =>
    if text.toList.all Char.isDigit then
      some (text.toList.foldl (fun n c => 10 * n + (c.toNat - '0'.toNat)) 0)
    else none
  | _ => none

/-- A member set to a value; where there was none, the order of the keys is not looked at. -/
def setMember (members : List (String × Json)) (key : String) (v : Json) :
    List (String × Json) :=
  if members.any fun m => m.1 == key then
    members.map fun m => if m.1 == key then (key, v) else m
  else members ++ [(key, v)]

/-- `body[field] = v`; the panic is "cannot access key {field} in JSON {kind}". -/
def setIndex (body : Json) (field : String) (v : Json) : Option Json :=
  match body with
  | .null => some (.obj [(field, v)])
  | .obj members => some (.obj (setMember members field v))
  | _ => none

def capNumericField (body : Json) (field : String) (limit : UInt32) : Option Json :=
  let limitVal := Json.num (toString limit)
  match (body.get field).bind asU64 with
  | some existing => if limit.toNat < existing then setIndex body field limitVal else some body
  | none => setIndex body field limitVal

/-- One cap of the route, if it has it. -/
def capField (field : String) (limit : Option UInt32) (body : Json) : Option Json :=
  match limit with
  | some limit => capNumericField body field limit
  | none => some body

def applyTokenCapsToValue (value : Json) (route : RouteTarget) : Option Json :=
  ((capField "max_tokens" route.maxTokens value).bind
    (capField "max_output_tokens" route.maxOutputTokens)).bind
      (capField "max_completion_tokens" route.maxCompletionTokens)

def applyEgressTransforms (value : Json) (model : String) (route : RouteTarget) : Option Json :=
  (applyTokenCapsToValue value route).map fun capped =>
    dropFieldsFromValue capped (route.dropFields.forModel model)

/-! ## Where it panics -/

def IsObject (j : Json) : Prop := ∃ members, j = .obj members

theorem isObject_fromText {j : Json} : IsObject (fromText j) ↔ IsObject j := by
  unfold IsObject
  cases j <;> simp [fromText]

/-- Every cap takes an object to an object. -/
theorem capField_object (field : String) (limit : Option UInt32) {body : Json}
    (h : IsObject body) : ∃ capped, capField field limit body = some capped ∧ IsObject capped := by
  obtain ⟨members, rfl⟩ := h
  have hset : ∀ v, ∃ capped, setIndex (.obj members) field v = some capped ∧ IsObject capped :=
    fun v => ⟨_, rfl, _, rfl⟩
  unfold capField capNumericField
  cases limit with
  | none => exact ⟨_, rfl, members, rfl⟩
  | some limit =>
    simp only
    split
    · split
      · exact hset _
      · exact ⟨_, rfl, members, rfl⟩
    · exact hset _

/-- An array has no members, so a cap is always missing there. -/
theorem capField_array (field : String) (limit : Option UInt32) (elems : List Json) :
    capField field limit (.arr elems) = if limit.isSome then none else some (.arr elems) := by
  cases limit with
  | none => rfl
  | some limit => rfl

theorem applyTokenCaps_object {value : Json} (h : IsObject value) (route : RouteTarget) :
    ∃ capped, applyTokenCapsToValue value route = some capped ∧ IsObject capped := by
  obtain ⟨v1, h1, ho1⟩ := capField_object "max_tokens" route.maxTokens h
  obtain ⟨v2, h2, ho2⟩ := capField_object "max_output_tokens" route.maxOutputTokens ho1
  obtain ⟨v3, h3, ho3⟩ := capField_object "max_completion_tokens" route.maxCompletionTokens ho2
  refine ⟨v3, ?_, ho3⟩
  unfold applyTokenCapsToValue
  rw [h1, Option.bind_some, h2, Option.bind_some, h3]

theorem applyTokenCaps_array (elems : List Json) (route : RouteTarget) :
    applyTokenCapsToValue (.arr elems) route =
      if route.hasCaps then none else some (.arr elems) := by
  unfold applyTokenCapsToValue RouteTarget.hasCaps
  rw [capField_array]
  cases route.maxTokens with
  | some limit => rfl
  | none =>
    simp only [Option.isSome_none, Bool.false_eq_true, if_false, Option.bind_some, capField_array]
    cases route.maxOutputTokens with
    | some limit => rfl
    | none =>
      simp only [Option.isSome_none, Bool.false_eq_true, if_false, Option.bind_some,
        capField_array, Bool.false_or]

/-- What the router accepts is an object or an array. -/
theorem Accepted.shape {body : Json} (h : Accepted body) :
    IsObject body ∨ ∃ model, body = .arr [.str model] := by
  obtain ⟨model, hpeek, _⟩ := h
  unfold messagePeek at hpeek
  split at hpeek
  · exact Or.inl ⟨_, rfl⟩
  · exact Or.inr ⟨_, rfl⟩
  · simp at hpeek

/-- **The transforms of an accepted body return exactly if it is an object or the route has no
caps.** -/
theorem transforms_return_iff {body : Json} (accepted : Accepted body) (model : String)
    (route : RouteTarget) :
    (∃ value, applyEgressTransforms (fromText body) model route = some value) ↔
      IsObject body ∨ route.hasCaps = false := by
  unfold applyEgressTransforms
  rcases accepted.shape with hobj | ⟨name, rfl⟩
  · obtain ⟨capped, hcapped, _⟩ := applyTokenCaps_object (isObject_fromText.mpr hobj) route
    rw [hcapped]
    exact iff_of_true ⟨_, rfl⟩ (Or.inl hobj)
  · have harr : fromText (.arr [.str name]) = .arr [.str name] := by
      simp only [fromText, fromTextElems]
    have hnot : ¬ IsObject (.arr [.str name]) := fun ⟨_, h⟩ => by simp at h
    rw [harr, applyTokenCaps_array, or_iff_right hnot]
    cases route.hasCaps <;> simp

/-- A route with a cap. -/
def cappedRoute : RouteTarget :=
  { maxTokens := some 4096, maxOutputTokens := none, maxCompletionTokens := none
    dropFields := .all [] }

theorem accepted_modelAlone : Accepted (.arr [.str "gpt-4"]) :=
  ⟨"gpt-4", rfl, by decide⟩

/-- A body that is the model in an array. -/
theorem transforms_not_always_return :
    ¬ ∀ body, Accepted body → ∀ model route,
      ∃ value, applyEgressTransforms (fromText body) model route = some value := by
  intro h
  obtain ⟨value, hvalue⟩ := h _ accepted_modelAlone "?" cappedRoute
  have hnone : applyEgressTransforms (fromText (.arr [.str "gpt-4"])) "?" cappedRoute = none := by
    simp only [fromText, fromTextElems]
    rfl
  rw [hnone] at hvalue
  simp at hvalue

/-- A body with nothing but a model in it. -/
theorem transforms_return_iff_modelOnly :
    (∃ value, applyEgressTransforms (fromText (.obj [("model", .str "gpt-4")])) "gpt-4"
        cappedRoute = some value) ↔
      IsObject (.obj [("model", .str "gpt-4")]) ∨ cappedRoute.hasCaps = false :=
  transforms_return_iff ⟨"gpt-4", rfl, by decide⟩ "gpt-4" cappedRoute

end InfSplitter.Egress
