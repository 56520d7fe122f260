import InfSplitter.Diagnostics.Records
import InfSplitter.Egress.Passthrough

/-!
# What the statistics say of the messages

A request's messages go into its event as their roles and the kinds and sizes of their parts
(`messages_detail_from_value`), once as they came in and once as they are sent on.

The texts themselves are not part of that. `maskBody` writes over them, over the data of the images,
the URLs and the inputs of the tools, and leaves away whatever the details do not look at; the
details of a body are those of what is left (`messagesDetail_maskBody`), also behind the transforms
of the route (`messagesDetail_transforms`).
-/

set_option autoImplicit false

namespace InfSplitter.Diagnostics

open Egress Json Lib SplitSend

/-! ## The details -/

def textPartDetail (text : String) : Json :=
  .obj [("chars", number text.length), ("type", .str "text"),
    ("words", number (splitWhitespace text).length)]

/-- `s.len()` of a member that is a text, or none. -/
def memberLen (j : Option Json) (key : String) : Nat :=
  (((j.bind (·.get key)).bind asStr).map String.utf8ByteSize).getD 0

/-- A block of the content. -/
def partDetail (item : Json) : Json :=
  let ty := ((item.get "type").bind asStr).getD ""
  if ty = "text" then textPartDetail (((item.get "text").bind asStr).getD "")
  else if ty = "image" then
    let source := item.get "source"
    let media := (source.bind (·.get "media_type")).bind asStr
    .obj ([("bytes", number (memberLen source "data"))] ++
      optionalMember "media_type" (media.map .str) ++ [("type", .str "image")])
  else if ty = "image_url" then
    .obj [("type", .str "image_url"), ("url_chars", number (memberLen (item.get "image_url") "url"))]
  else if ty = "tool_use" then
    .obj [("input_bytes", number (((item.get "input").map Json.size).getD 0)),
      ("name", .str (((item.get "name").bind asStr).getD "?")), ("type", .str "tool_use")]
  else .obj [("type", .str ty)]

def messageDetail (msg : Json) : Json :=
  let role := ((msg.get "role").bind asStr).getD "?"
  let parts :=
    match msg.get "content" with
    | some (.str text) => [textPartDetail text]
    | some (.arr items) => items.map partDetail
    | _ => []
  .obj [("parts", .arr parts), ("role", .str role)]

def messagesDetailFromArray (arr : List Json) : Json := .arr (arr.map messageDetail)

def messagesDetailFromValue (body : Json) : Option Json :=
  ((body.get "messages").bind asArray).map messagesDetailFromArray

/-! ## Masks -/

/-- A text with other characters, and the same white space. -/
def maskText (text : String) : String :=
  String.ofList (text.toList.map fun c => if isWhitespace c then ' ' else 'x')

def maskBytes (text : String) : String := String.ofList (List.replicate text.utf8ByteSize 'x')

def maskStr (mask : String → String) : Json → Json
  | .str s => .str (mask s)
  | _ => .null

/-- The members of an object, each by its key. -/
def maskMembers (mask : String → Json → Json) : Json → Json
  | .obj members => .obj (members.map fun m => (m.1, mask m.1 m.2))
  | _ => .null

def maskSource (key : String) (j : Json) : Json :=
  if key = "data" then maskStr maskBytes j
  else if key = "media_type" then maskStr id j
  else .null

def maskUrl (key : String) (j : Json) : Json :=
  if key = "url" then maskStr maskBytes j else .null

def maskPart (key : String) (j : Json) : Json :=
  if key = "type" ∨ key = "name" then maskStr id j
  else if key = "text" then maskStr maskText j
  else if key = "source" then maskMembers maskSource j
  else if key = "image_url" then maskMembers maskUrl j
  else if key = "input" then .num (String.ofList (List.replicate j.size '0'))
  else .null

def maskContent : Json → Json
  | .str text => .str (maskText text)
  | .arr items => .arr (items.map (maskMembers maskPart))
  | _ => .null

def maskMessage (key : String) (j : Json) : Json :=
  if key = "role" then maskStr id j
  else if key = "content" then maskContent j
  else .null

def maskMessages : Json → Json
  | .arr messages => .arr (messages.map (maskMembers maskMessage))
  | _ => .null

def maskField (key : String) (j : Json) : Json :=
  if key = "model" then maskStr id j
  else if key = "messages" then maskMessages j
  else .null

/-- What is left of a body. Of one without members it is whether it is `null`. -/
def maskBody : Json → Json
  | .obj members => maskMembers maskField (.obj members)
  | .null => .null
  | _ => .arr []

/-! ## The masks keep the sizes -/

theorem splitOnP_map {α β : Type} (p : α → Bool) (q : β → Bool) (f : α → β)
    (h : ∀ a, q (f a) = p a) (l : List α) :
    (l.map f).splitOnP q = (l.splitOnP p).map (List.map f) := by
  induction l with
  | nil => rfl
  | cons a l ih =>
    rw [List.map_cons, List.splitOnP_cons_eq_if_modifyHead, List.splitOnP_cons_eq_if_modifyHead,
      ih, h]
    split
    · rfl
    · cases List.splitOnP p l <;> rfl

theorem length_maskText (text : String) : (maskText text).length = text.length := by
  rw [maskText, String.length_ofList, List.length_map, String.length_toList]

theorem length_splitWhitespace_maskText (text : String) :
    (splitWhitespace (maskText text)).length = (splitWhitespace text).length := by
  have hspace : ∀ c, isWhitespace (if isWhitespace c then ' ' else 'x') = isWhitespace c := by
    intro c
    split
    · next h => rw [h]; rfl
    · next h => rw [Bool.eq_false_iff.mpr h]; rfl
  rw [splitWhitespace, splitWhitespace, maskText, String.toList_ofList,
    splitOnP_map isWhitespace isWhitespace _ hspace, List.filter_map, List.length_map,
    List.length_map, List.length_map]
  congr 2
  funext piece
  simp

@[simp] theorem textPartDetail_maskText (text : String) :
    textPartDetail (maskText text) = textPartDetail text := by
  rw [textPartDetail, textPartDetail, length_maskText, length_splitWhitespace_maskText]

theorem utf8ByteSize_replicate (n : Nat) {c : Char} (h : c.utf8Size = 1) :
    (String.ofList (List.replicate n c)).utf8ByteSize = n := by
  rw [String.utf8ByteSize_ofList]
  induction n with
  | zero => rfl
  | succ n ih => rw [List.replicate_succ, String.utf8Len_cons, ih, h]

@[simp] theorem utf8ByteSize_maskBytes (text : String) :
    (maskBytes text).utf8ByteSize = text.utf8ByteSize :=
  utf8ByteSize_replicate _ rfl

theorem size_zeros (n : Nat) : (Json.num (String.ofList (List.replicate n '0'))).size = n :=
  utf8ByteSize_replicate n rfl

theorem get_maskMembers (mask : String → Json → Json) (j : Json) (key : String) :
    (maskMembers mask j).get key = (j.get key).map (mask key) := by
  cases j with
  | obj members =>
    show (members.map fun m => (m.1, mask m.1 m.2)).lookup key = (members.lookup key).map (mask key)
    induction members with
    | nil => rfl
    | cons m members ih =>
      rw [List.map_cons, List.lookup_cons, List.lookup_cons, ih]
      by_cases hkey : key = m.1
      · simp [hkey]
      · simp [beq_false_of_ne hkey]
  | _ => rfl

@[simp] theorem asStr_maskStr (mask : String → String) (j : Json) :
    asStr (maskStr mask j) = (asStr j).map mask := by
  cases j <;> rfl

/-! ## Masked members are read alike -/

theorem bind_asStr_map (mask : String → String) (f : Json → Json)
    (h : ∀ j, f j = maskStr mask j) (j : Option Json) :
    (j.map f).bind asStr = (j.bind asStr).map mask := by
  cases j with
  | none => rfl
  | some j => rw [Option.map_some, Option.bind_some, Option.bind_some, h, asStr_maskStr]

theorem memberLen_maskMembers {mask : String → Json → Json} {key : String}
    (h : ∀ j, mask key j = maskStr maskBytes j) (j : Option Json) :
    memberLen (j.map (maskMembers mask)) key = memberLen j key := by
  have hget : ((j.map (maskMembers mask)).bind (·.get key)) =
      (j.bind (·.get key)).map (mask key) := by
    cases j with
    | none => rfl
    | some j => exact get_maskMembers mask j key
  rw [memberLen, memberLen, hget, bind_asStr_map maskBytes _ h, Option.map_map]
  congr 2
  funext text
  exact utf8ByteSize_maskBytes text

/-- **A block keeps its detail.** -/
theorem partDetail_maskPart (item : Json) :
    partDetail (maskMembers maskPart item) = partDetail item := by
  have hid : ∀ key, key = "type" ∨ key = "name" →
      ((maskMembers maskPart item).get key).bind asStr = (item.get key).bind asStr := by
    intro key hkey
    rw [get_maskMembers, bind_asStr_map id _ fun j => by rw [maskPart, if_pos hkey], Option.map_id,
      id]
  have htext : (((maskMembers maskPart item).get "text").bind asStr).map textPartDetail =
      ((item.get "text").bind asStr).map textPartDetail := by
    rw [get_maskMembers, bind_asStr_map maskText (maskPart "text") (fun j => rfl), Option.map_map]
    congr 1
    funext text
    exact textPartDetail_maskText text
  have hmedia : (((maskMembers maskPart item).get "source").bind (·.get "media_type")).bind asStr =
      ((item.get "source").bind (·.get "media_type")).bind asStr := by
    rw [get_maskMembers]
    cases item.get "source" with
    | none => rfl
    | some source =>
      show ((maskMembers maskSource source).get "media_type").bind asStr = _
      rw [get_maskMembers, bind_asStr_map id (maskSource "media_type") (fun j => rfl), Option.map_id]
      rfl
  have hinput : (((maskMembers maskPart item).get "input").map Json.size).getD 0 =
      ((item.get "input").map Json.size).getD 0 := by
    rw [get_maskMembers, Option.map_map]
    congr 2
    funext j
    exact size_zeros j.size
  have hempty : ∀ o o' : Option String, o.map textPartDetail = o'.map textPartDetail →
      textPartDetail (o.getD "") = textPartDetail (o'.getD "") := by
    intro o o' h
    cases o <;> cases o' <;> simp_all
  simp only [partDetail]
  rw [hid "type" (Or.inl rfl), hid "name" (Or.inr rfl), hempty _ _ htext, hmedia, hinput,
    get_maskMembers _ _ "source", get_maskMembers _ _ "image_url",
    show maskPart "source" = maskMembers maskSource from rfl,
    show maskPart "image_url" = maskMembers maskUrl from rfl,
    @memberLen_maskMembers maskSource "data" fun j => rfl,
    @memberLen_maskMembers maskUrl "url" fun j => rfl]

theorem messageDetail_maskMessage (msg : Json) :
    messageDetail (maskMembers maskMessage msg) = messageDetail msg := by
  have hrole : ((maskMembers maskMessage msg).get "role").bind asStr =
      (msg.get "role").bind asStr := by
    rw [get_maskMembers, bind_asStr_map id (maskMessage "role") (fun j => rfl), Option.map_id]
    rfl
  unfold messageDetail
  rw [hrole, get_maskMembers, show maskMessage "content" = maskContent from rfl]
  cases msg.get "content" with
  | none => rfl
  | some content =>
    cases content with
    | str text => simp [maskContent]
    | arr items =>
      have hitems : (items.map (maskMembers maskPart)).map partDetail = items.map partDetail := by
        rw [List.map_map]
        exact List.map_congr_left fun item _ => partDetail_maskPart item
      simp [maskContent, hitems]
    | _ => rfl

theorem messagesDetail_maskMessages (messages : Option Json) :
    ((messages.map maskMessages).bind asArray).map messagesDetailFromArray =
      (messages.bind asArray).map messagesDetailFromArray := by
  cases messages with
  | none => rfl
  | some messages =>
    cases messages with
    | arr arr =>
      show some (Json.arr ((arr.map (maskMembers maskMessage)).map messageDetail)) =
        some (Json.arr (arr.map messageDetail))
      rw [List.map_map]
      congr 2
      exact List.map_congr_left fun msg _ => messageDetail_maskMessage msg
    | _ => rfl

/-- **The details of a body are those of what the mask leaves of it.** -/
theorem messagesDetail_maskBody (body : Json) :
    messagesDetailFromValue (maskBody body) = messagesDetailFromValue body := by
  cases body with
  | obj members =>
    unfold messagesDetailFromValue maskBody
    rw [get_maskMembers]
    exact messagesDetail_maskMessages _
  | _ => rfl

/-! ## Behind the transforms -/

theorem get_setMember {members : List (String × Json)} {key field : String} (h : key ≠ field)
    (v : Json) : (setMember members field v).lookup key = members.lookup key := by
  unfold setMember
  split
  · next hany =>
    clear hany
    induction members with
    | nil => rfl
    | cons m members ih =>
      rw [List.map_cons, List.lookup_cons, List.lookup_cons, ih]
      by_cases hm : m.1 = field
      · simp [hm, beq_false_of_ne h]
      · simp [hm]
  · rw [List.lookup_append, List.lookup_cons, beq_false_of_ne h]
    simp

theorem get_setIndex {body body' v : Json} {key field : String} (h : key ≠ field)
    (hset : setIndex body field v = some body') : body'.get key = body.get key := by
  cases body with
  | null =>
    cases hset
    show List.lookup key [(field, v)] = none
    rw [List.lookup_cons, beq_false_of_ne h]
    rfl
  | obj members =>
    cases hset
    exact get_setMember h v
  | _ => cases hset

theorem get_capField {body body' : Json} {key field : String} {limit : Option UInt32}
    (h : key ≠ field) (hcap : capField field limit body = some body') :
    body'.get key = body.get key := by
  unfold capField capNumericField at hcap
  split at hcap
  · split at hcap
    · split at hcap
      · exact get_setIndex h hcap
      · cases hcap
        rfl
    · exact get_setIndex h hcap
  · cases hcap
    rfl

theorem get_dropFieldsFromValue (value : Json) (fields : List String) (key : String) :
    (dropFieldsFromValue value fields).get key = if key ∈ fields then none else value.get key := by
  cases value with
  | obj members =>
    show (members.filter fun m => !fields.contains m.1).lookup key =
      if key ∈ fields then none else members.lookup key
    induction members with
    | nil => simp
    | cons m members ih =>
      rw [List.filter_cons, List.lookup_cons]
      by_cases hkey : key = m.1
      · subst hkey
        by_cases hmem : m.1 ∈ fields
        · simpa [hmem] using ih
        · rw [if_pos (by simp [hmem]), List.lookup_cons, if_neg hmem]
          simp
      · rw [beq_false_of_ne hkey]
        split
        · rw [List.lookup_cons, beq_false_of_ne hkey]
          exact ih
        · exact ih
  | _ => simp [dropFieldsFromValue, Json.get]

/-- **The details of a body that is sent on** are those of the body that came in, unless the route
drops the messages. -/
theorem messagesDetail_transforms {value sent : Json} {model : String} {route : RouteTarget}
    (h : applyEgressTransforms value model route = some sent) :
    messagesDetailFromValue sent =
      if "messages" ∈ route.dropFields.forModel model then none
      else messagesDetailFromValue value := by
  obtain ⟨capped, hcapped, rfl⟩ := Option.map_eq_some_iff.mp h
  obtain ⟨v2, h2, h3⟩ := Option.bind_eq_some_iff.mp hcapped
  obtain ⟨v1, h1, h2⟩ := Option.bind_eq_some_iff.mp h2
  have hget : capped.get "messages" = value.get "messages" :=
    ((get_capField (by decide) h3).trans (get_capField (by decide) h2)).trans
      (get_capField (by decide) h1)
  unfold messagesDetailFromValue
  rw [get_dropFieldsFromValue, hget]
  split <;> rfl

/-- A member can be set: `null` is made an object. -/
def Settable (j : Json) : Prop := IsObject j ∨ j = .null

theorem capField_settable (field : String) (limit : Option UInt32) {body : Json}
    (h : Settable body) : ∃ capped, capField field limit body = some capped ∧ Settable capped := by
  rcases h with hobj | rfl
  · obtain ⟨capped, hcapped, hobj⟩ := capField_object field limit hobj
    exact ⟨capped, hcapped, Or.inl hobj⟩
  · cases limit with
    | none => exact ⟨.null, rfl, Or.inr rfl⟩
    | some limit => exact ⟨_, rfl, Or.inl ⟨_, rfl⟩⟩

theorem capField_of_not_settable (field : String) (limit : Option UInt32) {body : Json}
    (h : ¬ Settable body) :
    capField field limit body = if limit.isSome then none else some body := by
  cases limit with
  | none => rfl
  | some limit =>
    cases body with
    | null => exact absurd (Or.inr rfl) h
    | obj members => exact absurd (Or.inl ⟨members, rfl⟩) h
    | _ => rfl

theorem transforms_return_iff_settable (value : Json) (model : String) (route : RouteTarget) :
    (∃ sent, applyEgressTransforms value model route = some sent) ↔
      Settable value ∨ route.hasCaps = false := by
  unfold applyEgressTransforms applyTokenCapsToValue RouteTarget.hasCaps
  by_cases h : Settable value
  · obtain ⟨v1, h1, hs1⟩ := capField_settable "max_tokens" route.maxTokens h
    obtain ⟨v2, h2, hs2⟩ := capField_settable "max_output_tokens" route.maxOutputTokens hs1
    obtain ⟨v3, h3, -⟩ := capField_settable "max_completion_tokens" route.maxCompletionTokens hs2
    rw [h1, Option.bind_some, h2, Option.bind_some, h3]
    exact ⟨fun _ => Or.inl h, fun _ => ⟨_, rfl⟩⟩
  · rw [capField_of_not_settable _ _ h]
    cases route.maxTokens with
    | some limit => simp [h]
    | none =>
      simp only [Option.isSome_none, Bool.false_eq_true, if_false, Option.bind_some,
        capField_of_not_settable _ _ h]
      cases route.maxOutputTokens with
      | some limit => simp [h]
      | none => cases route.maxCompletionTokens <;> simp [h, capField_of_not_settable]

theorem settable_maskBody (body : Json) : Settable (maskBody body) ↔ Settable body := by
  unfold Settable IsObject
  cases body <;> simp [maskBody, maskMembers]

/-- What the statistics say of a body that came in and of the one that was sent. -/
theorem details_of_maskBody_eq {value value' : Json} (h : maskBody value = maskBody value')
    (model : String) (route : RouteTarget) :
    messagesDetailFromValue value = messagesDetailFromValue value' ∧
      (applyEgressTransforms value model route).map messagesDetailFromValue =
        (applyEgressTransforms value' model route).map messagesDetailFromValue := by
  have hdetail : messagesDetailFromValue value = messagesDetailFromValue value' := by
    rw [← messagesDetail_maskBody value, h, messagesDetail_maskBody]
  have hreturn : (∃ sent, applyEgressTransforms value model route = some sent) ↔
      ∃ sent, applyEgressTransforms value' model route = some sent := by
    rw [transforms_return_iff_settable, transforms_return_iff_settable, ← settable_maskBody value,
      h, settable_maskBody]
  refine ⟨hdetail, ?_⟩
  cases hsent : applyEgressTransforms value model route with
  | none =>
    cases hsent' : applyEgressTransforms value' model route with
    | none => rfl
    | some sent' =>
      obtain ⟨sent, hsome⟩ := hreturn.mpr ⟨sent', hsent'⟩
      rw [hsent] at hsome
      cases hsome
  | some sent =>
    obtain ⟨sent', hsent'⟩ := hreturn.mp ⟨sent, hsent⟩
    rw [hsent', Option.map_some, Option.map_some, messagesDetail_transforms hsent,
      messagesDetail_transforms hsent', hdetail]

end InfSplitter.Diagnostics
