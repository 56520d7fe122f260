import InfSplitter.Configuration.Load
import InfSplitter.Interactions.Messages
import InfSplitter.Lib.ValueMap

/-!
# The headers of the upstream request

Both builders start from a few headers of their own, go through the headers of the client, and set
more of their own behind them. A header map keeps several values of a name; going through it gives
each of them, and every insert takes the place of what the name had before.

The map is that of the `http` crate. What the builders use of it is `Http`: its names are in lower
case, a text with a control character is no value, and the map is a `ValueMap`. What is in the
output under a name is said for both builders by one lemma each (`getAll_forwardRequestHeadersMap`,
`getAll_buildInteractionsHeadersMap`).
-/

set_option autoImplicit false

namespace InfSplitter.Egress

open Lib
open Interactions (Protocol)

/-! ## Names and values -/

/-- `to_ascii_lowercase` -/
def toAsciiLowercase (text : String) : String := String.ofList (text.toList.map Char.toLower)

/-- `eq_ignore_ascii_case` -/
def eqIgnoreAsciiCase (a b : String) : Bool := toAsciiLowercase a == toAsciiLowercase b

/-- A `HeaderName` has no upper case. -/
structure HeaderName where
  asStr : String
  lower : toAsciiLowercase asStr = asStr
deriving DecidableEq

theorem toLower_toLower (c : Char) : c.toLower.toLower = c.toLower := by
  unfold Char.toLower
  split
  · next h =>
    rw [dif_neg]
    simp only [ge_iff_le, UInt32.le_iff_toNat_le, UInt32.toNat_add] at h ⊢
    simp at h ⊢
    omega
  · rfl

theorem toAsciiLowercase_idem (text : String) :
    toAsciiLowercase (toAsciiLowercase text) = toAsciiLowercase text := by
  have htwice : Char.toLower ∘ Char.toLower = Char.toLower := funext toLower_toLower
  rw [toAsciiLowercase, toAsciiLowercase, String.toList_ofList, List.map_map, htwice]

/-- A name is made of a text in any case. -/
def HeaderName.fromText (text : String) : HeaderName :=
  ⟨toAsciiLowercase text, toAsciiLowercase_idem text⟩

/-- What the builders use of header values (`V`) and header maps (`M`). -/
structure Http (V M : Type) extends ValueMap HeaderName V M where
  /-- `HeaderValue::from_str` -/
  fromStr : String → Option V
  /-- `HeaderValue::from_static` -/
  fromStatic : String → V
  /-- there is no control character in front of a value -/
  fromStr_bearer : ∀ key, (fromStr key).isSome → (fromStr ("Bearer " ++ key)).isSome

/-- The maps of texts: a value is a text of visible characters. -/
def textHttp : Http String (EntryMap HeaderName String) where
  toValueMap := EntryMap.valueMap
  fromStr text := if text.toList.all fun c => 32 ≤ c.toNat && c.toNat < 127 then some text else none
  fromStatic text := text
  fromStr_bearer key h := by
    have hbearer : ("Bearer ".toList.all fun c => 32 ≤ c.toNat && c.toNat < 127) = true := by decide
    have hkey : (key.toList.all fun c => 32 ≤ c.toNat && c.toNat < 127) = true := by
      by_contra hno
      simp [hno] at h
    rw [String.toList_append, List.all_append, hbearer, hkey]
    rfl

/-! ## The code -/

def isAuthHeader (name : String) : Bool :=
  ["x-api-key", "authorization"].contains (toAsciiLowercase name)

def shouldForwardRequestHeader (name : String) : Bool :=
  !(["host", "connection", "content-length", "content-type", "transfer-encoding", "te", "trailers",
    "upgrade", "keep-alive"].contains (toAsciiLowercase name))

def API_REVISION : String := "2026-05-20"

section
variable {V M : Type} (http : Http V M)

/-- The name that the correlation id of the client gets. -/
def targetKey : Protocol → HeaderName
  | .anthropic => .fromText "x-claude-code-session-id"
  | .openAi => .fromText "X-Client-Request-Id"

def forwardRequestHeadersMap (apiKey : Option String) (headers : M) (protocol : Protocol) : M :=
  let out := http.empty
  let out :=
    match apiKey with
    | some key =>
      http.insert
        (http.insert out (.fromText "x-api-key") ((http.fromStr key).getD (http.fromStatic "")))
        (.fromText "Authorization")
        ((http.fromStr ("Bearer " ++ key)).getD (http.fromStatic ""))
    | none => out
  let out := (http.iter headers).foldl (fun out entry =>
    if !shouldForwardRequestHeader entry.1.asStr then out
    else if apiKey.isSome && isAuthHeader entry.1.asStr then out
    else if eqIgnoreAsciiCase entry.1.asStr "x-request-id" ||
        eqIgnoreAsciiCase entry.1.asStr "x-client-request-id" then out
    else http.insert out entry.1 entry.2) out
  let source :=
    ((http.get out (.fromText "x-claude-code-session-id")).or
      (http.get headers (.fromText "X-Client-Request-Id"))).or
        (http.get headers (.fromText "x-request-id"))
  match source with
  | some val => http.insert out (targetKey protocol) val
  | none => out

def buildInteractionsHeadersMap (apiKey : Option String) (requestHeaders : M) : M :=
  let headers := http.insert http.empty (.fromText "content-type")
    (http.fromStatic "application/json")
  let headers := (http.iter requestHeaders).foldl (fun headers entry =>
    if !shouldForwardRequestHeader entry.1.asStr then headers
    else if apiKey.isSome && isAuthHeader entry.1.asStr then headers
    else if eqIgnoreAsciiCase entry.1.asStr "x-request-id" then headers
    else http.insert headers entry.1 entry.2) headers
  let headers := http.insert headers (.fromText "Api-Revision") (http.fromStatic API_REVISION)
  match apiKey with
  | some key =>
    http.insert headers (.fromText "x-goog-api-key")
      ((http.fromStr key).getD (http.fromStatic ""))
  | none => headers

end

/-! ## Names -/

section
variable {name : HeaderName}

theorem eqIgnoreAsciiCase_iff (text : String) :
    eqIgnoreAsciiCase name.asStr text = true ↔ name = .fromText text := by
  obtain ⟨asStr, lower⟩ := name
  simp [eqIgnoreAsciiCase, HeaderName.fromText, lower]

theorem isAuthHeader_iff : isAuthHeader name.asStr = true ↔
    name = .fromText "x-api-key" ∨ name = .fromText "Authorization" := by
  rw [← eqIgnoreAsciiCase_iff, ← eqIgnoreAsciiCase_iff]
  have hname : toAsciiLowercase "Authorization" = "authorization" := by decide
  have hkey : toAsciiLowercase "x-api-key" = "x-api-key" := by decide
  simp [isAuthHeader, eqIgnoreAsciiCase, hname, hkey]

end

/-! ## The loops -/

section
variable {V M : Type} (http : Http V M)

/-- What the loop of `forward_request_headers_map` lets through. -/
def forwarded (apiKey : Option String) (name : HeaderName) : Bool :=
  shouldForwardRequestHeader name.asStr && !(apiKey.isSome && isAuthHeader name.asStr) &&
    !(eqIgnoreAsciiCase name.asStr "x-request-id" ||
      eqIgnoreAsciiCase name.asStr "x-client-request-id")

/-- What the loop of `build_interactions_headers_map` lets through. -/
def forwardedInteractions (apiKey : Option String) (name : HeaderName) : Bool :=
  shouldForwardRequestHeader name.asStr && !(apiKey.isSome && isAuthHeader name.asStr) &&
    !eqIgnoreAsciiCase name.asStr "x-request-id"

/-- What is there before the loop. -/
def authHeaders (apiKey : Option String) : M :=
  match apiKey with
  | some key =>
    http.insert
      (http.insert http.empty (.fromText "x-api-key")
        ((http.fromStr key).getD (http.fromStatic "")))
      (.fromText "Authorization") ((http.fromStr ("Bearer " ++ key)).getD (http.fromStatic ""))
  | none => http.empty

/-- What is there after the loop. -/
def forwardedHeaders (apiKey : Option String) (headers : M) : M :=
  (http.iter headers).foldl (fun out entry =>
    if forwarded apiKey entry.1 then http.insert out entry.1 entry.2 else out)
    (authHeaders http apiKey)

/-- The correlation id. -/
def correlation (apiKey : Option String) (headers : M) : Option V :=
  ((http.get (forwardedHeaders http apiKey headers) (.fromText "x-claude-code-session-id")).or
    (http.get headers (.fromText "X-Client-Request-Id"))).or
      (http.get headers (.fromText "x-request-id"))

/-- What is there after the loop of `build_interactions_headers_map`, with the revision. -/
def revisedHeaders (apiKey : Option String) (headers : M) : M :=
  http.insert
    ((http.iter headers).foldl (fun out entry =>
      if forwardedInteractions apiKey entry.1 then http.insert out entry.1 entry.2 else out)
      (http.insert http.empty (.fromText "content-type") (http.fromStatic "application/json")))
    (.fromText "Api-Revision") (http.fromStatic API_REVISION)

/-- The three tests of a loop, each of which skips a header. -/
theorem if_admitted {α : Type} (a b c : Bool) (x y : α) :
    (if a && !b && !c then x else y) =
      if !a then y else if b then y else if c then y else x := by
  cases a <;> cases b <;> cases c <;> rfl

theorem forwardRequestHeadersMap_eq (apiKey : Option String) (headers : M) (protocol : Protocol) :
    forwardRequestHeadersMap http apiKey headers protocol =
      match correlation http apiKey headers with
      | some val => http.insert (forwardedHeaders http apiKey headers) (targetKey protocol) val
      | none => forwardedHeaders http apiKey headers := by
  have hloop : forwardedHeaders http apiKey headers = (http.iter headers).foldl (fun out entry =>
      if !shouldForwardRequestHeader entry.1.asStr then out
      else if apiKey.isSome && isAuthHeader entry.1.asStr then out
      else if eqIgnoreAsciiCase entry.1.asStr "x-request-id" ||
          eqIgnoreAsciiCase entry.1.asStr "x-client-request-id" then out
      else http.insert out entry.1 entry.2) (authHeaders http apiKey) := by
    unfold forwardedHeaders
    congr 1
    funext out entry
    exact if_admitted _ _ _ _ _
  unfold correlation
  rw [hloop]
  cases apiKey <;> rfl

theorem buildInteractionsHeadersMap_eq (apiKey : Option String) (headers : M) :
    buildInteractionsHeadersMap http apiKey headers =
      match apiKey with
      | some key =>
        http.insert (revisedHeaders http apiKey headers) (.fromText "x-goog-api-key")
          ((http.fromStr key).getD (http.fromStatic ""))
      | none => revisedHeaders http apiKey headers := by
  have hloop : revisedHeaders http apiKey headers = http.insert
      ((http.iter headers).foldl (fun out entry =>
        if !shouldForwardRequestHeader entry.1.asStr then out
        else if apiKey.isSome && isAuthHeader entry.1.asStr then out
        else if eqIgnoreAsciiCase entry.1.asStr "x-request-id" then out
        else http.insert out entry.1 entry.2)
        (http.insert http.empty (.fromText "content-type") (http.fromStatic "application/json")))
      (.fromText "Api-Revision") (http.fromStatic API_REVISION) := by
    unfold revisedHeaders
    congr 2
    funext out entry
    exact if_admitted _ _ _ _ _
  rw [hloop]
  cases apiKey <;> rfl

/-! ## What is in the output -/

theorem getAll_authHeaders (apiKey : Option String) (name : HeaderName) :
    http.getAll (authHeaders http apiKey) name =
      match apiKey with
      | some key =>
        if name = .fromText "Authorization" then
          [(http.fromStr ("Bearer " ++ key)).getD (http.fromStatic "")]
        else if name = .fromText "x-api-key" then [(http.fromStr key).getD (http.fromStatic "")]
        else []
      | none => [] := by
  cases apiKey with
  | none => exact http.getAll_empty name
  | some key => simp only [authHeaders, http.getAll_insert, http.getAll_empty]

theorem getAll_forwardedHeaders (apiKey : Option String) (headers : M) (name : HeaderName) :
    http.getAll (forwardedHeaders http apiKey headers) name =
      if forwarded apiKey name then
        ValueMap.lastOf (http.getAll headers name) (http.getAll (authHeaders http apiKey) name)
      else http.getAll (authHeaders http apiKey) name :=
  http.getAll_foldl_iter headers (authHeaders http apiKey) (forwarded apiKey) name

theorem getAll_forwardRequestHeadersMap (apiKey : Option String) (headers : M)
    (protocol : Protocol) (name : HeaderName) :
    http.getAll (forwardRequestHeadersMap http apiKey headers protocol) name =
      if name = targetKey protocol then
        ValueMap.lastOf (correlation http apiKey headers).toList
          (http.getAll (forwardedHeaders http apiKey headers) name)
      else http.getAll (forwardedHeaders http apiKey headers) name := by
  rw [forwardRequestHeadersMap_eq]
  cases correlation http apiKey headers with
  | none => simp
  | some val => simp [http.getAll_insert]

theorem getAll_revisedHeaders (apiKey : Option String) (headers : M) (name : HeaderName) :
    http.getAll (revisedHeaders http apiKey headers) name =
      if name = .fromText "Api-Revision" then [http.fromStatic API_REVISION]
      else if name = .fromText "content-type" then [http.fromStatic "application/json"]
      else if forwardedInteractions apiKey name then
        ValueMap.lastOf (http.getAll headers name) []
      else [] := by
  have hcontent : forwardedInteractions apiKey (.fromText "content-type") = false := by
    have : shouldForwardRequestHeader (HeaderName.fromText "content-type").asStr = false := by
      decide
    simp [forwardedInteractions, this]
  have hloop := http.getAll_foldl_iter headers
    (http.insert http.empty (.fromText "content-type") (http.fromStatic "application/json"))
    (forwardedInteractions apiKey) name
  rw [http.getAll_insert, http.getAll_empty] at hloop
  rw [revisedHeaders, http.getAll_insert, hloop]
  by_cases hname : name = .fromText "content-type"
  · subst hname
    simp [hcontent]
  · simp [hname]

theorem getAll_buildInteractionsHeadersMap (apiKey : Option String) (headers : M)
    (name : HeaderName) :
    http.getAll (buildInteractionsHeadersMap http apiKey headers) name =
      match apiKey with
      | some key =>
        if name = .fromText "x-goog-api-key" then [(http.fromStr key).getD (http.fromStatic "")]
        else http.getAll (revisedHeaders http apiKey headers) name
      | none => http.getAll (revisedHeaders http apiKey headers) name := by
  rw [buildInteractionsHeadersMap_eq]
  cases apiKey with
  | none => rfl
  | some key => simp [http.getAll_insert]

/-! ## The credentials of the client -/

section
variable {key : String} {headers headers' : M}

theorem forwardedHeaders_same
    (h : ∀ name : HeaderName, isAuthHeader name.asStr = false →
      http.getAll headers name = http.getAll headers' name) :
    http.Same (forwardedHeaders http (some key) headers)
      (forwardedHeaders http (some key) headers') := by
  intro name
  rw [getAll_forwardedHeaders, getAll_forwardedHeaders]
  by_cases hname : isAuthHeader name.asStr = true
  · simp [forwarded, hname]
  · rw [h name (by simpa using hname)]

theorem correlation_same
    (h : ∀ name : HeaderName, isAuthHeader name.asStr = false →
      http.getAll headers name = http.getAll headers' name) :
    correlation http (some key) headers = correlation http (some key) headers' := by
  unfold correlation
  rw [http.get_eq, http.get_eq, http.get_eq, http.get_eq, http.get_eq, http.get_eq,
    forwardedHeaders_same http h, h _ (by decide), h _ (by decide)]

/-- **Two maps that differ in their credentials give the same output.** -/
theorem forwardRequestHeadersMap_same (protocol : Protocol)
    (h : ∀ name : HeaderName, isAuthHeader name.asStr = false →
      http.getAll headers name = http.getAll headers' name) :
    http.Same (forwardRequestHeadersMap http (some key) headers protocol)
      (forwardRequestHeadersMap http (some key) headers' protocol) := by
  intro name
  rw [getAll_forwardRequestHeadersMap, getAll_forwardRequestHeadersMap, correlation_same http h,
    forwardedHeaders_same http h]

theorem buildInteractionsHeadersMap_same
    (h : ∀ name : HeaderName, isAuthHeader name.asStr = false →
      name ≠ .fromText "x-goog-api-key" → http.getAll headers name = http.getAll headers' name) :
    http.Same (buildInteractionsHeadersMap http (some key) headers)
      (buildInteractionsHeadersMap http (some key) headers') := by
  intro name
  rw [getAll_buildInteractionsHeadersMap, getAll_buildInteractionsHeadersMap]
  dsimp only
  by_cases hgoog : name = .fromText "x-goog-api-key"
  · rw [if_pos hgoog, if_pos hgoog]
  · rw [if_neg hgoog, if_neg hgoog, getAll_revisedHeaders, getAll_revisedHeaders]
    by_cases hname : isAuthHeader name.asStr = true
    · simp [forwardedInteractions, hname]
    · rw [h name (by simpa using hname) hgoog]

/-- A header of the start that the loop skips, and that is not the correlation header. -/
theorem getAll_forward_of_skipped {protocol : Protocol} {name : HeaderName}
    (hskip : forwarded (some key) name = false) (htarget : name ≠ targetKey protocol) :
    http.getAll (forwardRequestHeadersMap http (some key) headers protocol) name =
      http.getAll (authHeaders http (some key)) name := by
  rw [getAll_forwardRequestHeadersMap, if_neg htarget, getAll_forwardedHeaders,
    if_neg (by simp [hskip])]

theorem forwarded_of_auth {name : HeaderName} (h : isAuthHeader name.asStr = true) :
    forwarded (some key) name = false := by
  simp [forwarded, h]

/-- **The key is in the output**, and the request id of the client is not. -/
theorem forwardRequestHeadersMap_key (hkey : (http.fromStr key).isSome) (protocol : Protocol)
    (headers : M) :
    http.getAll (forwardRequestHeadersMap http (some key) headers protocol)
        (.fromText "x-api-key") = (http.fromStr key).toList ∧
      http.getAll (forwardRequestHeadersMap http (some key) headers protocol)
        (.fromText "Authorization") = (http.fromStr ("Bearer " ++ key)).toList := by
  obtain ⟨v, hv⟩ := Option.isSome_iff_exists.mp hkey
  obtain ⟨b, hb⟩ := Option.isSome_iff_exists.mp (http.fromStr_bearer key hkey)
  have hne : HeaderName.fromText "x-api-key" ≠ .fromText "Authorization" := by decide
  constructor
  · rw [getAll_forward_of_skipped http (forwarded_of_auth (by decide))
      (by cases protocol <;> decide), getAll_authHeaders]
    simp [hne, hv]
  · rw [getAll_forward_of_skipped http (forwarded_of_auth (by decide))
      (by cases protocol <;> decide), getAll_authHeaders]
    simp [hb]

theorem buildInteractionsHeadersMap_key (hkey : (http.fromStr key).isSome) :
    http.getAll (buildInteractionsHeadersMap http (some key) headers)
      (.fromText "x-goog-api-key") = (http.fromStr key).toList := by
  obtain ⟨v, hv⟩ := Option.isSome_iff_exists.mp hkey
  simp [getAll_buildInteractionsHeadersMap, hv]

end

/-! ## The request id of the client -/

theorem getAll_forward_requestId (apiKey : Option String) (headers : M) (protocol : Protocol) :
    http.getAll (forwardRequestHeadersMap http apiKey headers protocol)
      (.fromText "x-request-id") = [] := by
  have hskip : forwarded apiKey (.fromText "x-request-id") = false := by
    simp [forwarded, (eqIgnoreAsciiCase_iff "x-request-id").mpr rfl]
  have htarget : HeaderName.fromText "x-request-id" ≠ targetKey protocol := by
    cases protocol <;> decide
  have hauth : HeaderName.fromText "x-request-id" ≠ .fromText "Authorization" := by decide
  have hkey : HeaderName.fromText "x-request-id" ≠ .fromText "x-api-key" := by decide
  rw [getAll_forwardRequestHeadersMap, if_neg htarget, getAll_forwardedHeaders,
    if_neg (by simp [hskip]), getAll_authHeaders]
  cases apiKey <;> simp [hauth, hkey]

theorem getAll_interactions_requestId (apiKey : Option String) (headers : M) :
    http.getAll (buildInteractionsHeadersMap http apiKey headers)
      (.fromText "x-request-id") = [] := by
  have hskip : forwardedInteractions apiKey (.fromText "x-request-id") = false := by
    simp [forwardedInteractions, (eqIgnoreAsciiCase_iff "x-request-id").mpr rfl]
  have hgoog : HeaderName.fromText "x-request-id" ≠ .fromText "x-goog-api-key" := by decide
  have hrevision : HeaderName.fromText "x-request-id" ≠ .fromText "Api-Revision" := by decide
  have hcontent : HeaderName.fromText "x-request-id" ≠ .fromText "content-type" := by decide
  rw [getAll_buildInteractionsHeadersMap]
  cases apiKey <;> simp [getAll_revisedHeaders, hskip, hgoog, hrevision, hcontent]

/-- A key that was read from the configuration is a legal value. -/
theorem isSome_fromStr_of_readApiKey {env : Configuration.Environment} {section_ value key : String}
    (henv : ∀ text, env.headerValue text = .ok () → (http.fromStr text).isSome)
    (hread : Configuration.readApiKey env section_ value = .ok key) :
    (http.fromStr key).isSome := by
  unfold Configuration.readApiKey at hread
  cases hresolve : Configuration.resolveSecret env value with
  | error e => simp [hresolve, bind, Except.bind] at hread
  | ok resolved =>
    simp only [hresolve, bind, Except.bind] at hread
    split at hread
    · cases hread
    · split at hread
      · cases hread
      · next hvalue =>
        cases hread
        exact henv _ hvalue

/-- **The credentials of the client have no part in the output.** With a configured key, two maps of
client headers that differ only in their credentials give the same headers, and the request id of
the client is not among them. A key that is a legal value, as the configuration has checked, is. -/
theorem credentials_noninterference (key : String) :
    (∀ (protocol : Protocol) (headers headers' : M),
      (∀ name : HeaderName, isAuthHeader name.asStr = false →
        http.getAll headers name = http.getAll headers' name) →
      http.Same (forwardRequestHeadersMap http (some key) headers protocol)
        (forwardRequestHeadersMap http (some key) headers' protocol)) ∧
    (∀ headers headers' : M,
      (∀ name : HeaderName, isAuthHeader name.asStr = false →
        name ≠ .fromText "x-goog-api-key" →
        http.getAll headers name = http.getAll headers' name) →
      http.Same (buildInteractionsHeadersMap http (some key) headers)
        (buildInteractionsHeadersMap http (some key) headers')) ∧
    (∀ (protocol : Protocol) (headers : M),
      http.getAll (forwardRequestHeadersMap http (some key) headers protocol)
          (.fromText "x-request-id") = [] ∧
        http.getAll (buildInteractionsHeadersMap http (some key) headers)
          (.fromText "x-request-id") = []) ∧
    ((http.fromStr key).isSome → ∀ (protocol : Protocol) (headers : M),
      http.getAll (forwardRequestHeadersMap http (some key) headers protocol)
          (.fromText "x-api-key") = (http.fromStr key).toList ∧
        http.getAll (forwardRequestHeadersMap http (some key) headers protocol)
          (.fromText "Authorization") = (http.fromStr ("Bearer " ++ key)).toList ∧
        http.getAll (buildInteractionsHeadersMap http (some key) headers)
          (.fromText "x-goog-api-key") = (http.fromStr key).toList) := by
  refine ⟨fun protocol _ _ h => forwardRequestHeadersMap_same http protocol h,
    fun _ _ h => buildInteractionsHeadersMap_same http h, fun protocol headers => ?_,
    fun hkey protocol headers => ?_⟩
  · exact ⟨getAll_forward_requestId http _ _ _, getAll_interactions_requestId http _ _⟩
  · obtain ⟨happ, hauth⟩ := forwardRequestHeadersMap_key http hkey protocol headers
    exact ⟨happ, hauth, buildInteractionsHeadersMap_key http hkey⟩

end

/-- Two values of `Authorization`, a key for the interactions, and neither. -/
theorem credentials_noninterference_twoTokens :
    textHttp.Same
      (forwardRequestHeadersMap textHttp (some "sk-1")
        ((EntryMap.empty.append (.fromText "Authorization") "Bearer a").append
          (.fromText "authorization") "Bearer b") .anthropic)
      (forwardRequestHeadersMap textHttp (some "sk-1") EntryMap.empty .anthropic) ∧
    textHttp.Same
      (buildInteractionsHeadersMap textHttp (some "sk-1")
        (EntryMap.empty.append (.fromText "X-Goog-Api-Key") "mine"))
      (buildInteractionsHeadersMap textHttp (some "sk-1") EntryMap.empty) ∧
    textHttp.getAll (forwardRequestHeadersMap textHttp (some "sk-1") EntryMap.empty .anthropic)
      (.fromText "Authorization") = ["Bearer sk-1"] := by
  obtain ⟨hsame, hinteractions, -, hkey⟩ := credentials_noninterference textHttp "sk-1"
  refine ⟨hsame .anthropic _ _ fun name hname => ?_, hinteractions _ _ fun name _ hname => ?_,
    (hkey (by decide) .anthropic _).2.1⟩
  · have hne : name ≠ .fromText "Authorization" := by
      rintro rfl
      exact absurd hname (by decide)
    have hlower : HeaderName.fromText "authorization" = .fromText "Authorization" := by decide
    simp only [textHttp, EntryMap.getAll_append, hlower, if_neg hne]
  · have hlower : HeaderName.fromText "X-Goog-Api-Key" = .fromText "x-goog-api-key" := by decide
    rw [hlower]
    simp only [textHttp, EntryMap.getAll_append, if_neg hname]

/-! ## The other headers of the client -/

/-- The headers between which the correlation id is moved. -/
def isCorrelationHeader (name : HeaderName) : Bool :=
  ["x-request-id", "x-client-request-id", "x-claude-code-session-id"].any
    (eqIgnoreAsciiCase name.asStr)

/-- A header of the client in the place of which there is the configured key. -/
def overridden (apiKey : Option String) (name : HeaderName) : Bool :=
  apiKey.isSome && isAuthHeader name.asStr

/-- The interactions have the key in a header of their own. -/
def overriddenInteractions (apiKey : Option String) (name : HeaderName) : Bool :=
  apiKey.isSome && (isAuthHeader name.asStr || eqIgnoreAsciiCase name.asStr "x-goog-api-key")

section
variable {V M : Type} (http : Http V M) {apiKey : Option String} {name : HeaderName}

theorem getAll_authHeaders_of_not_overridden (h : overridden apiKey name = false) :
    http.getAll (authHeaders http apiKey) name = [] := by
  rw [getAll_authHeaders]
  cases apiKey with
  | none => rfl
  | some key =>
    have hauth : ¬ isAuthHeader name.asStr = true := by simpa [overridden] using h
    rw [isAuthHeader_iff, not_or] at hauth
    dsimp only
    rw [if_neg hauth.2, if_neg hauth.1]

/-- **Of every other header the last value is there.** -/
theorem getAll_forward_of_admitted (headers : M) (protocol : Protocol)
    (hname : shouldForwardRequestHeader name.asStr = true)
    (hcorrelation : isCorrelationHeader name = false) (hkey : overridden apiKey name = false) :
    http.getAll (forwardRequestHeadersMap http apiKey headers protocol) name =
      ValueMap.lastOf (http.getAll headers name) [] := by
  simp only [isCorrelationHeader, List.any_cons, List.any_nil, Bool.or_false,
    Bool.or_eq_false_iff] at hcorrelation
  obtain ⟨hrequest, hclient, hsession⟩ := hcorrelation
  have htarget : name ≠ targetKey protocol := by
    intro h
    have hiff (text : String) : eqIgnoreAsciiCase name.asStr text = true ↔ name = .fromText text :=
      eqIgnoreAsciiCase_iff text
    cases protocol with
    | anthropic => simp [(hiff _).mpr h] at hsession
    | openAi =>
      have hlower : targetKey .openAi = .fromText "x-client-request-id" := by decide
      simp [(hiff _).mpr (h.trans hlower)] at hclient
  have hforwarded : forwarded apiKey name = true := by
    simp only [overridden] at hkey
    simp [forwarded, hname, hkey, hrequest, hclient]
  rw [getAll_forwardRequestHeadersMap, if_neg htarget, getAll_forwardedHeaders, if_pos hforwarded,
    getAll_authHeaders_of_not_overridden http hkey]

theorem getAll_interactions_of_admitted (headers : M)
    (hname : shouldForwardRequestHeader name.asStr = true)
    (hcorrelation : isCorrelationHeader name = false)
    (hkey : overriddenInteractions apiKey name = false)
    (hrevision : name ≠ .fromText "Api-Revision") :
    http.getAll (buildInteractionsHeadersMap http apiKey headers) name =
      ValueMap.lastOf (http.getAll headers name) [] := by
  simp only [isCorrelationHeader, List.any_cons, List.any_nil, Bool.or_false,
    Bool.or_eq_false_iff] at hcorrelation
  have hcontent : name ≠ .fromText "content-type" := by
    rintro rfl
    exact absurd hname (by decide)
  have hforwarded : forwardedInteractions apiKey name = true := by
    have hauth : (apiKey.isSome && isAuthHeader name.asStr) = false := by
      cases hsome : apiKey.isSome with
      | false => rfl
      | true =>
        simp only [overriddenInteractions, hsome, Bool.true_and, Bool.or_eq_false_iff] at hkey
        simp [hkey.1]
    simp [forwardedInteractions, hname, hauth, hcorrelation.1]
  have hrevised : http.getAll (revisedHeaders http apiKey headers) name =
      ValueMap.lastOf (http.getAll headers name) [] := by
    rw [getAll_revisedHeaders, if_neg hrevision, if_neg hcontent, if_pos hforwarded]
  rw [getAll_buildInteractionsHeadersMap, hrevised]
  cases apiKey with
  | none => rfl
  | some key =>
    have hgoog : name ≠ .fromText "x-goog-api-key" := by
      intro h
      simp [overriddenInteractions, (eqIgnoreAsciiCase_iff _).mpr h] at hkey
    dsimp only
    rw [if_neg hgoog]

/-- The revision is the one that the client cannot change. -/
theorem getAll_interactions_revision (apiKey : Option String) (headers : M) :
    http.getAll (buildInteractionsHeadersMap http apiKey headers) (.fromText "Api-Revision") =
      [http.fromStatic API_REVISION] := by
  have hgoog : HeaderName.fromText "Api-Revision" ≠ .fromText "x-goog-api-key" := by decide
  rw [getAll_buildInteractionsHeadersMap, getAll_revisedHeaders, if_pos rfl]
  cases apiKey <;> simp [hgoog]

/-- **A header with one value is kept**, but for the revision, which is fixed for the interactions;
of a header with several values the last one is there. -/
theorem single_headers_kept (apiKey : Option String) (headers : M) (name : HeaderName)
    (hname : shouldForwardRequestHeader name.asStr = true)
    (hcorrelation : isCorrelationHeader name = false) :
    (overridden apiKey name = false → ∀ protocol : Protocol,
      http.getAll (forwardRequestHeadersMap http apiKey headers protocol) name =
          ValueMap.lastOf (http.getAll headers name) [] ∧
        ((http.getAll headers name).length ≤ 1 →
          http.getAll (forwardRequestHeadersMap http apiKey headers protocol) name =
            http.getAll headers name)) ∧
    (overriddenInteractions apiKey name = false →
      http.getAll (buildInteractionsHeadersMap http apiKey headers) name =
          (if name = .fromText "Api-Revision" then [http.fromStatic API_REVISION]
          else ValueMap.lastOf (http.getAll headers name) []) ∧
        ((http.getAll headers name).length ≤ 1 →
          http.getAll (buildInteractionsHeadersMap http apiKey headers) name =
            if name = .fromText "Api-Revision" then [http.fromStatic API_REVISION]
            else http.getAll headers name)) := by
  have hforward (hkey : overridden apiKey name = false) (protocol : Protocol) :=
    getAll_forward_of_admitted http headers protocol hname hcorrelation hkey
  have hinteractions (hkey : overriddenInteractions apiKey name = false) :
      http.getAll (buildInteractionsHeadersMap http apiKey headers) name =
        if name = .fromText "Api-Revision" then [http.fromStatic API_REVISION]
        else ValueMap.lastOf (http.getAll headers name) [] := by
    split
    · next hrevision => rw [hrevision, getAll_interactions_revision]
    · next hrevision =>
      exact getAll_interactions_of_admitted http headers hname hcorrelation hkey hrevision
  refine ⟨fun hkey protocol => ⟨hforward hkey protocol, fun hsingle => ?_⟩,
    fun hkey => ⟨hinteractions hkey, fun hsingle => ?_⟩⟩
  · rw [hforward hkey protocol, (ValueMap.lastOf_eq_self_iff _).mpr hsingle]
  · rw [hinteractions hkey, (ValueMap.lastOf_eq_self_iff _).mpr hsingle]

end

/-- A feature of the client, two of them, and its revision. -/
theorem single_headers_kept_beta :
    textHttp.getAll (forwardRequestHeadersMap textHttp none
      (EntryMap.empty.append (.fromText "anthropic-beta") "tools") .anthropic)
      (.fromText "anthropic-beta") = ["tools"] ∧
    textHttp.getAll (forwardRequestHeadersMap textHttp none
      ((EntryMap.empty.append (.fromText "anthropic-beta") "tools").append
        (.fromText "anthropic-beta") "files") .anthropic) (.fromText "anthropic-beta") =
      ["files"] ∧
    textHttp.getAll (buildInteractionsHeadersMap textHttp (some "sk-1")
      (EntryMap.empty.append (.fromText "api-revision") "2025-01-01"))
      (.fromText "Api-Revision") = [API_REVISION] :=
  ⟨((single_headers_kept textHttp none (EntryMap.empty.append (.fromText "anthropic-beta") "tools")
      (.fromText "anthropic-beta") (by decide) (by decide)).1 (by decide) .anthropic).2 (by decide),
    ((single_headers_kept textHttp none
      ((EntryMap.empty.append (.fromText "anthropic-beta") "tools").append
        (.fromText "anthropic-beta") "files")
      (.fromText "anthropic-beta") (by decide) (by decide)).1 (by decide) .anthropic).1,
    ((single_headers_kept textHttp (some "sk-1")
      (EntryMap.empty.append (.fromText "api-revision") "2025-01-01") (.fromText "Api-Revision")
      (by decide) (by decide)).2 (by decide)).1⟩

/-- **Not every value of every header is kept**: of two features the second one is, and the revision
of the client is not. -/
theorem headers_not_kept :
    (¬ ∀ (apiKey : Option String) (headers : EntryMap HeaderName String) (name : HeaderName)
      (protocol : Protocol), shouldForwardRequestHeader name.asStr = true →
      isCorrelationHeader name = false → overridden apiKey name = false →
      textHttp.getAll (forwardRequestHeadersMap textHttp apiKey headers protocol) name =
        textHttp.getAll headers name) ∧
    ¬ ∀ (apiKey : Option String) (headers : EntryMap HeaderName String) (name : HeaderName),
      shouldForwardRequestHeader name.asStr = true → isCorrelationHeader name = false →
      overriddenInteractions apiKey name = false →
      textHttp.getAll (buildInteractionsHeadersMap textHttp apiKey headers) name =
        textHttp.getAll headers name := by
  constructor
  · intro h
    have hbeta := h none ((EntryMap.empty.append (.fromText "anthropic-beta") "tools").append
      (.fromText "anthropic-beta") "files") (.fromText "anthropic-beta") .anthropic
      (by decide) (by decide) (by decide)
    exact absurd hbeta (by decide)
  · intro h
    have hrevision := h none (EntryMap.empty.append (.fromText "api-revision") "2025-01-01")
      (.fromText "api-revision") (by decide) (by decide) (by decide)
    exact absurd hrevision (by decide)

end InfSplitter.Egress
