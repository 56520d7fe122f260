import InfSplitter.Egress.Masking

/-!
# Conversations through the interactions handler

The handler takes the session of a request from its headers or its body and gives it back in a
header of the answer. A client without an id of its own puts what it was given last into its next
request.

It keeps its session exactly if every answer tells it (`conversation_kept_iff`). An answer does not
if it is an `AppError`, if the session is no text for a header, or if the upstream has a header of
this name with another value, which takes its place.
-/

set_option autoImplicit false

namespace InfSplitter.Server

open Egress Lib
open Interactions (Protocol)

/-! ## The session of a request -/

/-- The text of a header, unless it is empty. -/
def headerText (headers : Headers) (name : String) : Option String :=
  ((headerHttp.get headers (.fromText name)).bind HeaderValue.toStr).filter (· ≠ "")

/-- The session of a request without an id in its headers. -/
def bodySessionId (body : Json) (uuid : String) : String :=
  (((body.get "request_id").bind Json.asStr).filter (· ≠ "")).getD uuid

def resolveSessionId (headers : Headers) (body : Json) (uuid : String) : String :=
  match headerText headers "X-Client-Request-Id" with
  | some hdr => hdr
  | none =>
    match headerText headers "x-claude-code-session-id" with
    | some hdr => hdr
    | none =>
      match headerText headers "x-request-id" with
      | some hdr => hdr
      | none => bodySessionId body uuid

def sessionHeaderName : Protocol → String
  | .anthropic => "x-claude-code-session-id"
  | .openAi => "x-request-id"

/-! ## The headers of an answer -/

def isInteractionsResponseHeaderWhitelisted (name : String) : Bool :=
  let name := toAsciiLowercase name
  name == "x-request-id" || name == "x-claude-code-session-id" ||
    "x-ratelimit-".toList.isPrefixOf name.toList || name == "request-id"

def responseHeadersToPairs (headers : Headers) : List (String × String) :=
  ((headerHttp.iter headers).filter fun e =>
    isInteractionsResponseHeaderWhitelisted e.1.asStr).map fun e =>
      (e.1.asStr, e.2.toStr.getD "")

def okWithSessionHeaderAndUpstreamHeaders (ingress : Protocol) (sessionId : String)
    (upstreamHeaders : List (String × String)) : Headers :=
  let hdrValue := (HeaderValue.fromStr sessionId).getD (HeaderValue.fromStatic "")
  let headers := headerHttp.insert headerHttp.empty (.fromText "content-type")
    (HeaderValue.fromStatic "application/json")
  let headers := headerHttp.insert headers (.fromText (sessionHeaderName ingress)) hdrValue
  upstreamHeaders.foldl (fun headers nv =>
    if isInteractionsResponseHeaderWhitelisted nv.1 then
      match HeaderValue.fromStr nv.2 with
      | some v => headerHttp.insert headers (.fromText nv.1) v
      | none => headers
    else headers) headers

def okWithSessionHeader (ingress : Protocol) (sessionId : String) : Headers :=
  okWithSessionHeaderAndUpstreamHeaders ingress sessionId []

/-- What `Response::builder` gets besides the session. -/
inductive Built
  /-- an error of the upstream, or a replay -/
  | json
  /-- a stream whose pieces have been put together -/
  | eventStream
  /-- `sse_response_with_extra_header` -/
  | liveStream

def Built.fixed : Built → List (String × String)
  | .json => [("content-type", "application/json")]
  | .eventStream => [("content-type", "text/event-stream")]
  | .liveStream =>
    [("content-type", "text/event-stream"), ("cache-control", "no-cache"),
      ("connection", "keep-alive")]

/-- `AppError::into_response` -/
def errorHeaders : Headers :=
  headerHttp.insert headerHttp.empty (.fromText "content-type")
    (HeaderValue.fromStatic "application/json")

/-- A session that is no header value fails in the builder, and the answer is an `AppError`. -/
def Built.headers (ingress : Protocol) (sessionId : String) (built : Built) : Headers :=
  match HeaderValue.fromStr sessionId with
  | some value =>
    (built.fixed.foldl (fun headers kv =>
      headers.append (.fromText kv.1) (HeaderValue.fromStatic kv.2)) EntryMap.empty).append
        (.fromText (sessionHeaderName ingress)) value
  | none => errorHeaders

/-- The ways out of the handler. -/
inductive Reply
  | built (built : Built)
  /-- a merged answer, or what a control message gets -/
  | plain
  /-- the answer of one interaction -/
  | single (upstream : Headers)
  | failed

def Reply.headers (ingress : Protocol) (sessionId : String) : Reply → Headers
  | .built b => b.headers ingress sessionId
  | .plain => okWithSessionHeader ingress sessionId
  | .single upstream =>
    okWithSessionHeaderAndUpstreamHeaders ingress sessionId (responseHeadersToPairs upstream)
  | .failed => errorHeaders

/-! ## Conversations -/

/-- A request with the client's own headers, and how it is answered. -/
structure Turn where
  own : Headers
  body : Json
  uuid : String
  reply : Reply

section
variable (ingress : Protocol) (kept : Option HeaderValue)

/-- What the client was given last takes the place of its own. -/
def Turn.sent (t : Turn) : Headers :=
  match kept with
  | some value => headerHttp.insert t.own (.fromText (sessionHeaderName ingress)) value
  | none => t.own

def Turn.session (t : Turn) : String := resolveSessionId (t.sent ingress kept) t.body t.uuid

def Turn.keeps (t : Turn) : Option HeaderValue :=
  (headerHttp.get (t.reply.headers ingress (t.session ingress kept))
    (.fromText (sessionHeaderName ingress))).or kept

end

/-- The sessions of the turns, from what the client was given before them. -/
def sessions (ingress : Protocol) : Option HeaderValue → List Turn → List String
  | _, [] => []
  | kept, t :: rest => t.session ingress kept :: sessions ingress (t.keeps ingress kept) rest

/-- A text that can be read from a header again. -/
def Legible (text : String) : Prop :=
  text ≠ "" ∧ (encodeUtf8 text.toList).all isVisibleAscii = true

/-- The answer has the session in its header. -/
def TellsSession (ingress : Protocol) (sessionId : String) : Reply → Prop
  | .built _ => Legible sessionId
  | .plain => Legible sessionId
  | .single upstream =>
    Legible sessionId ∧
      ∀ v, (headerHttp.getAll upstream (.fromText (sessionHeaderName ingress))).getLast? = some v →
        v.toStr = some sessionId
  | .failed => False

/-- A later request of a client that has no id but what it is given. -/
structure Turn.WithoutId (t : Turn) (sessionId : String) : Prop where
  headers : ∀ name ∈ ["X-Client-Request-Id", "x-claude-code-session-id", "x-request-id"],
    headerText t.own name = none
  body : bodySessionId t.body t.uuid ≠ sessionId

/-! ## Values and their texts -/

theorem fromStr_eq_some_iff {text : String} {v : HeaderValue} :
    HeaderValue.fromStr text = some v ↔ v.bytes = encodeUtf8 text.toList := by
  unfold HeaderValue.fromStr
  constructor
  · intro h
    split at h
    · cases h
      rfl
    · cases h
  · intro h
    obtain ⟨bytes, valid⟩ := v
    replace h : bytes = encodeUtf8 text.toList := h
    subst h
    rw [dif_pos valid]

theorem toNat_lt_of_visible {b : UInt8} (h : isVisibleAscii b = true) : b.toNat < 128 := by
  unfold isVisibleAscii at h
  rw [Bool.or_eq_true, Bool.and_eq_true, decide_eq_true_eq, decide_eq_true_eq,
    decide_eq_true_eq] at h
  omega

theorem isValueByte_of_visible {b : UInt8} (h : isVisibleAscii b = true) :
    isValueByte b = true := by
  unfold isVisibleAscii at h
  unfold isValueByte
  simp only [Bool.or_eq_true, Bool.and_eq_true, decide_eq_true_eq] at h ⊢
  omega

theorem toStr_eq_some_iff {v : HeaderValue} {text : String} :
    v.toStr = some text ↔
      v.bytes = encodeUtf8 text.toList ∧ v.bytes.all isVisibleAscii = true := by
  unfold HeaderValue.toStr
  constructor
  · intro h
    split at h
    · next hvisible =>
      have hnarrow : ∀ b ∈ v.bytes, b.toNat < 128 :=
        fun b hb => toNat_lt_of_visible (List.all_eq_true.mp hvisible b hb)
      cases h
      rw [String.toList_ofList, encodeUtf8_ascii hnarrow]
      exact ⟨rfl, hvisible⟩
    · cases h
  · rintro ⟨hbytes, hvisible⟩
    have hnarrow : ∀ b ∈ encodeUtf8 text.toList, b.toNat < 128 :=
      fun b hb => toNat_lt_of_visible (List.all_eq_true.mp hvisible b (hbytes ▸ hb))
    rw [if_pos hvisible, hbytes, decode_ascii hnarrow, String.ofList_toList]

/-- A text that was read is written as it was. -/
theorem fromStr_toStr {v : HeaderValue} {text : String} (h : v.toStr = some text) :
    HeaderValue.fromStr text = some v :=
  fromStr_eq_some_iff.mpr (toStr_eq_some_iff.mp h).1

/-- What a client may take for its session. -/
def valueText (v : HeaderValue) : Option String := v.toStr.filter (· ≠ "")

theorem valueText_eq_some_iff {v : HeaderValue} {text : String} :
    valueText v = some text ↔ v.toStr = some text ∧ text ≠ "" := by
  unfold valueText
  rw [Option.filter_eq_some_iff, decide_eq_true_eq]

/-- What is left of a value of the upstream. -/
def readable (v : HeaderValue) : HeaderValue :=
  match v.toStr with
  | some _ => v
  | none => HeaderValue.fromStatic ""

theorem fromStr_shown (v : HeaderValue) :
    HeaderValue.fromStr (v.toStr.getD "") = some (readable v) := by
  unfold readable
  cases h : v.toStr with
  | some text => exact fromStr_toStr h
  | none => rfl

theorem valueText_readable (v : HeaderValue) : valueText (readable v) = valueText v := by
  unfold readable
  cases h : v.toStr with
  | some text => rfl
  | none =>
    have hnone : valueText v = none := by
      unfold valueText
      rw [h]
      rfl
    rw [hnone]
    rfl

/-! ## What an answer tells -/

section
variable {ingress : Protocol} {sessionId : String}

theorem fromText_asStr (name : HeaderName) : HeaderName.fromText name.asStr = name := by
  obtain ⟨text, lower⟩ := name
  exact HeaderName.mk.injEq .. ▸ lower

theorem whitelisted_sessionHeaderName (ingress : Protocol) :
    isInteractionsResponseHeaderWhitelisted
      (HeaderName.fromText (sessionHeaderName ingress)).asStr = true := by
  cases ingress <;> decide

/-- The loop of the whitelisted headers. -/
theorem okWithSessionHeaderAndUpstreamHeaders_pairs (upstream : Headers) :
    okWithSessionHeaderAndUpstreamHeaders ingress sessionId (responseHeadersToPairs upstream) =
      headerHttp.insertAll (okWithSessionHeader ingress sessionId)
        (((headerHttp.iter upstream).filter fun e =>
          isInteractionsResponseHeaderWhitelisted e.1.asStr).map fun e =>
            (e.1, readable e.2)) := by
  unfold okWithSessionHeader okWithSessionHeaderAndUpstreamHeaders responseHeadersToPairs
    ValueMap.insertAll
  rw [List.foldl_map, List.foldl_map, List.foldl_nil]
  refine List.foldl_ext _ _ _ fun headers e he => ?_
  have hkeep : isInteractionsResponseHeaderWhitelisted e.1.asStr = true :=
    (List.mem_filter.mp he).2
  simp only [hkeep, if_true, fromStr_shown, fromText_asStr]

/-- The upstream's last value takes the place of the session. -/
theorem getAll_single (upstream : Headers) :
    headerHttp.getAll (Reply.headers ingress sessionId (.single upstream))
        (.fromText (sessionHeaderName ingress)) =
      ValueMap.lastOf
        ((headerHttp.getAll upstream (.fromText (sessionHeaderName ingress))).map readable)
        (headerHttp.getAll (okWithSessionHeader ingress sessionId)
          (.fromText (sessionHeaderName ingress))) := by
  have hfilter := headerHttp.filter_iter upstream
    (fun name => isInteractionsResponseHeaderWhitelisted name.asStr)
    (.fromText (sessionHeaderName ingress))
  rw [if_pos (whitelisted_sessionHeaderName ingress)] at hfilter
  rw [Reply.headers, okWithSessionHeaderAndUpstreamHeaders_pairs, ValueMap.getAll_insertAll,
    List.filter_map, List.map_map, ← hfilter, List.map_map]
  rfl

theorem getAll_okWithSessionHeader :
    headerHttp.getAll (okWithSessionHeader ingress sessionId)
        (.fromText (sessionHeaderName ingress)) =
      [(HeaderValue.fromStr sessionId).getD (HeaderValue.fromStatic "")] := by
  unfold okWithSessionHeader okWithSessionHeaderAndUpstreamHeaders
  rw [List.foldl_nil, headerHttp.getAll_insert, if_pos rfl]

theorem getAll_built (b : Built) {value : HeaderValue}
    (hvalue : HeaderValue.fromStr sessionId = some value) :
    headerHttp.getAll (Reply.headers ingress sessionId (.built b))
        (.fromText (sessionHeaderName ingress)) = [value] := by
  have hfixed : EntryMap.valueMap.getAll (b.fixed.foldl (fun headers kv =>
      headers.append (.fromText kv.1) (HeaderValue.fromStatic kv.2)) EntryMap.empty)
        (HeaderName.fromText (sessionHeaderName ingress)) = [] := by
    cases b <;> cases ingress <;> rfl
  rw [Reply.headers, Built.headers, hvalue]
  refine (EntryMap.getAll_append _ _ _ _).trans ?_
  rw [if_pos rfl, hfixed, List.nil_append]

theorem getAll_errorHeaders :
    headerHttp.getAll errorHeaders (.fromText (sessionHeaderName ingress)) = [] := by
  cases ingress <;> rfl

/-- A legible session is a value that reads as it. -/
theorem legible_iff :
    Legible sessionId ↔
      ∃ v, HeaderValue.fromStr sessionId = some v ∧ valueText v = some sessionId := by
  constructor
  · rintro ⟨hne, hvisible⟩
    have hvalid : (encodeUtf8 sessionId.toList).all isValueByte = true :=
      List.all_eq_true.mpr fun b hb => isValueByte_of_visible (List.all_eq_true.mp hvisible b hb)
    refine ⟨⟨_, hvalid⟩, fromStr_eq_some_iff.mpr rfl, ?_⟩
    exact valueText_eq_some_iff.mpr ⟨toStr_eq_some_iff.mpr ⟨rfl, hvisible⟩, hne⟩
  · rintro ⟨v, -, htext⟩
    obtain ⟨hread, hne⟩ := valueText_eq_some_iff.mp htext
    obtain ⟨hbytes, hvisible⟩ := toStr_eq_some_iff.mp hread
    exact ⟨hne, hbytes ▸ hvisible⟩

theorem valueText_getD :
    valueText ((HeaderValue.fromStr sessionId).getD (HeaderValue.fromStatic "")) = some sessionId ↔
      Legible sessionId := by
  rw [legible_iff]
  cases h : HeaderValue.fromStr sessionId with
  | some v =>
    constructor
    · intro htext
      exact ⟨v, rfl, htext⟩
    · rintro ⟨w, hw, htext⟩
      cases hw
      exact htext
  | none =>
    constructor
    · intro htext
      cases htext
    · rintro ⟨_, hv, -⟩
      cases hv

/-- The value of the session's header in an answer. -/
def given (ingress : Protocol) (sessionId : String) (reply : Reply) : Option HeaderValue :=
  headerHttp.get (reply.headers ingress sessionId) (.fromText (sessionHeaderName ingress))

theorem given_eq (reply : Reply) :
    given ingress sessionId reply =
      (headerHttp.getAll (reply.headers ingress sessionId)
        (.fromText (sessionHeaderName ingress))).head? :=
  headerHttp.get_eq _ _

theorem given_single (upstream : Headers) :
    given ingress sessionId (.single upstream) =
      ((headerHttp.getAll upstream (.fromText (sessionHeaderName ingress))).getLast?.map
        readable).or
          (some ((HeaderValue.fromStr sessionId).getD (HeaderValue.fromStatic ""))) := by
  rw [given_eq, getAll_single, getAll_okWithSessionHeader]
  unfold ValueMap.lastOf
  rw [List.getLast?_map]
  cases (headerHttp.getAll upstream (.fromText (sessionHeaderName ingress))).getLast? <;> rfl

theorem given_plain :
    given ingress sessionId .plain =
      some ((HeaderValue.fromStr sessionId).getD (HeaderValue.fromStatic "")) := by
  rw [given_eq]
  exact congrArg List.head? getAll_okWithSessionHeader

theorem given_built (b : Built) :
    given ingress sessionId (.built b) = HeaderValue.fromStr sessionId := by
  rw [given_eq]
  cases h : HeaderValue.fromStr sessionId with
  | some value => rw [getAll_built b h, List.head?_cons]
  | none =>
    rw [Reply.headers, Built.headers, h]
    exact congrArg List.head? getAll_errorHeaders

theorem given_failed : given ingress sessionId .failed = none := by
  rw [given_eq]
  exact congrArg List.head? getAll_errorHeaders

/-- **What an answer tells the client.** -/
theorem given_tells_iff (reply : Reply) :
    (given ingress sessionId reply).bind valueText = some sessionId ↔
      TellsSession ingress sessionId reply := by
  cases reply with
  | built b =>
    rw [given_built, Option.bind_eq_some_iff]
    exact legible_iff.symm
  | plain =>
    rw [given_plain, Option.bind_some]
    exact valueText_getD
  | single upstream =>
    rw [given_single, TellsSession]
    cases (headerHttp.getAll upstream (.fromText (sessionHeaderName ingress))).getLast? with
    | none =>
      rw [Option.map_none, Option.none_or, Option.bind_some, valueText_getD]
      exact ⟨fun h => ⟨h, nofun⟩, And.left⟩
    | some v =>
      rw [Option.map_some, Option.some_or, Option.bind_some, valueText_readable,
        valueText_eq_some_iff]
      constructor
      · rintro ⟨hread, hne⟩
        obtain ⟨hbytes, hvisible⟩ := toStr_eq_some_iff.mp hread
        refine ⟨⟨hne, hbytes ▸ hvisible⟩, ?_⟩
        intro w hw
        cases hw
        exact hread
      · rintro ⟨⟨hne, -⟩, hlast⟩
        exact ⟨hlast v rfl, hne⟩
  | failed =>
    rw [given_failed]
    exact ⟨nofun, False.elim⟩

/-- Where a legible session is answered without the header, the answer is an `AppError`. -/
theorem failed_of_given_none (hsession : Legible sessionId) {reply : Reply}
    (h : given ingress sessionId reply = none) : reply = .failed := by
  cases reply with
  | failed => rfl
  | built b =>
    obtain ⟨v, hv, -⟩ := legible_iff.mp hsession
    rw [given_built, hv] at h
    cases h
  | plain =>
    rw [given_plain] at h
    cases h
  | single upstream =>
    rw [given_single] at h
    cases hlast : (headerHttp.getAll upstream
      (.fromText (sessionHeaderName ingress))).getLast?.map readable <;> rw [hlast] at h <;> cases h

end

/-! ## The next turn -/

section
variable {ingress : Protocol} {sessionId : String} {kept : Option HeaderValue} {t : Turn}

/-- What a client without an id has for one. -/
def keptText (kept : Option HeaderValue) : Option String := kept.bind valueText

theorem headerText_sent (name : String) :
    headerText (t.sent ingress kept) name =
      match kept with
      | some v =>
        if HeaderName.fromText name = .fromText (sessionHeaderName ingress) then valueText v
        else headerText t.own name
      | none => headerText t.own name := by
  cases kept with
  | none => rfl
  | some v =>
    unfold headerText Turn.sent
    rw [headerHttp.get_eq, headerHttp.getAll_insert]
    dsimp only
    split
    · rfl
    · rw [headerHttp.get_eq]

/-- **Without an id of its own, a client is in the session it was given last.** -/
theorem session_eq (h : t.WithoutId sessionId) :
    t.session ingress kept = (keptText kept).getD (bodySessionId t.body t.uuid) := by
  have hown (name : String)
      (hname : name ∈ ["X-Client-Request-Id", "x-claude-code-session-id", "x-request-id"]) :
      headerText (t.sent ingress kept) name =
        if HeaderName.fromText name = .fromText (sessionHeaderName ingress) then keptText kept
        else none := by
    rw [headerText_sent, h.headers name hname]
    cases kept with
    | none => exact (ite_self _).symm
    | some v => rfl
  unfold Turn.session resolveSessionId
  rw [hown _ (by simp), hown _ (by simp), hown _ (by simp)]
  cases ingress
  · have hclient : HeaderName.fromText "X-Client-Request-Id" ≠
        .fromText (sessionHeaderName .anthropic) := by decide
    have hrequest : HeaderName.fromText "x-request-id" ≠
        .fromText (sessionHeaderName .anthropic) := by decide
    rw [if_neg hclient, if_neg hrequest]
    cases keptText kept <;> rfl
  · have hclient : HeaderName.fromText "X-Client-Request-Id" ≠
        .fromText (sessionHeaderName .openAi) := by decide
    have hclaude : HeaderName.fromText "x-claude-code-session-id" ≠
        .fromText (sessionHeaderName .openAi) := by decide
    rw [if_neg hclient, if_neg hclaude]
    cases keptText kept <;> rfl

theorem session_eq_iff (h : t.WithoutId sessionId) :
    t.session ingress kept = sessionId ↔ keptText kept = some sessionId := by
  rw [session_eq h]
  cases hkept : keptText kept with
  | some text => exact Option.some_inj.symm
  | none => exact ⟨fun hbody => absurd hbody h.body, nofun⟩

/-- What a turn in the session leaves. -/
theorem keptText_keeps_iff (hturn : t.session ingress kept = sessionId) :
    keptText (t.keeps ingress kept) = some sessionId ↔
      TellsSession ingress sessionId t.reply ∨
        given ingress sessionId t.reply = none ∧ keptText kept = some sessionId := by
  have hkeeps : t.keeps ingress kept = (given ingress sessionId t.reply).or kept := by
    rw [← hturn]
    rfl
  rw [hkeeps, ← given_tells_iff]
  cases given ingress sessionId t.reply with
  | some v =>
    rw [Option.some_or]
    exact ⟨Or.inl, fun h => h.resolve_right nofun⟩
  | none =>
    rw [Option.none_or]
    exact ⟨fun h => Or.inr ⟨rfl, h⟩, fun h => (h.resolve_left nofun).2⟩

end

/-! ## All turns -/

section
variable {ingress : Protocol} {sessionId : String}

theorem legible_of_keptText {kept : Option HeaderValue} (h : keptText kept = some sessionId) :
    Legible sessionId := by
  obtain ⟨v, -, htext⟩ := Option.bind_eq_some_iff.mp h
  obtain ⟨hread, hne⟩ := valueText_eq_some_iff.mp htext
  obtain ⟨hbytes, hvisible⟩ := toStr_eq_some_iff.mp hread
  exact ⟨hne, hbytes ▸ hvisible⟩

/-- **From a turn on that has been told the session**, an `AppError` does no harm. -/
theorem sessions_kept_iff {kept : Option HeaderValue} {turns : List Turn}
    (hkept : keptText kept = some sessionId) (h : ∀ t ∈ turns, t.WithoutId sessionId) :
    (∀ s ∈ sessions ingress kept turns, s = sessionId) ↔
      ∀ t ∈ turns.dropLast, t.reply = .failed ∨ TellsSession ingress sessionId t.reply := by
  induction turns generalizing kept with
  | nil => exact ⟨fun _ => nofun, fun _ => nofun⟩
  | cons t rest ih =>
    rw [List.forall_mem_cons] at h
    have hturn : t.session ingress kept = sessionId := (session_eq_iff h.1).mpr hkept
    rw [sessions, List.forall_mem_cons]
    cases rest with
    | nil => exact ⟨fun _ => nofun, fun _ => ⟨hturn, nofun⟩⟩
    | cons u rest =>
      rw [List.dropLast_cons_cons, List.forall_mem_cons]
      have hkeeps := keptText_keeps_iff hturn
      by_cases htold : keptText (t.keeps ingress kept) = some sessionId
      · rw [ih htold h.2]
        have hreply : t.reply = .failed ∨ TellsSession ingress sessionId t.reply := by
          rcases hkeeps.mp htold with htells | ⟨hnone, -⟩
          · exact Or.inr htells
          · exact Or.inl (failed_of_given_none (legible_of_keptText hkept) hnone)
        exact ⟨fun hrest => ⟨hreply, hrest.2⟩, fun hrest => ⟨hturn, hrest.2⟩⟩
      · -- the next turn is in another session
        have hnext : u.session ingress (t.keeps ingress kept) ≠ sessionId :=
          fun hu => htold ((session_eq_iff (h.2 u (List.mem_cons_self ..))).mp hu)
        constructor
        · rintro ⟨-, hrest⟩
          exact absurd (hrest _ (List.mem_cons_self ..)) hnext
        · rintro ⟨hreply, -⟩
          refine absurd (hkeeps.mpr ?_) htold
          rcases hreply with hfailed | htells
          · rw [hfailed]
            exact Or.inr ⟨given_failed, hkept⟩
          · exact Or.inl htells

/-- **A client that sends back what it is given keeps its session exactly if it is told it**, with
the first answer and with every later one but the last and those that are `AppError`s. -/
theorem conversation_kept_iff {first : Turn} {rest : List Turn}
    (h : ∀ t ∈ rest, t.WithoutId (first.session ingress none)) :
    (∀ s ∈ sessions ingress none (first :: rest), s = first.session ingress none) ↔
      rest = [] ∨
        TellsSession ingress (first.session ingress none) first.reply ∧
          ∀ t ∈ rest.dropLast,
            t.reply = .failed ∨ TellsSession ingress (first.session ingress none) t.reply := by
  have hkeeps := keptText_keeps_iff (rfl : first.session ingress none = _)
  have htold : keptText (first.keeps ingress none) = some (first.session ingress none) ↔
      TellsSession ingress (first.session ingress none) first.reply := by
    rw [hkeeps]
    constructor
    · rintro (htells | ⟨-, hnone⟩)
      · exact htells
      · cases hnone
    · exact Or.inl
  rw [sessions, List.forall_mem_cons]
  cases rest with
  | nil => exact ⟨fun _ => Or.inl rfl, fun _ => ⟨rfl, nofun⟩⟩
  | cons u rest =>
    constructor
    · rintro ⟨_, hrest⟩
      have hu := hrest _ (List.mem_cons_self ..)
      have hkept := (session_eq_iff (h u (List.mem_cons_self ..))).mp hu
      exact Or.inr ⟨htold.mp hkept, (sessions_kept_iff hkept h).mp hrest⟩
    · intro hright
      obtain ⟨htells, hreplies⟩ := hright.resolve_left nofun
      exact ⟨rfl, (sessions_kept_iff (htold.mpr htells) h).mpr hreplies⟩

end

/-- A request without any id. -/
def plainTurn (uuid : String) (reply : Reply) : Turn :=
  { own := EntryMap.empty, body := .null, uuid := uuid, reply := reply }

/-- An upstream with a request id of its own. -/
def namedUpstream : Headers :=
  headerHttp.insert headerHttp.empty (.fromText "x-request-id") (HeaderValue.fromStatic "r")

theorem plainTurn_withoutId {uuid sessionId : String} {reply : Reply} (h : uuid ≠ sessionId) :
    (plainTurn uuid reply).WithoutId sessionId where
  headers _ _ := rfl
  body := h

/-- The id of the upstream takes the place of the session. -/
theorem conversation_kept_iff_named :
    ¬ ∀ s ∈ sessions .openAi none [plainTurn "u" (.single namedUpstream), plainTurn "w" .plain],
      s = "u" := by
  intro hall
  have hiff := @conversation_kept_iff .openAi (plainTurn "u" (.single namedUpstream))
    [plainTurn "w" .plain] fun t ht =>
      List.mem_singleton.mp ht ▸ plainTurn_withoutId (by decide : "w" ≠ "u")
  obtain ⟨⟨-, hlast⟩, -⟩ := (hiff.mp hall).resolve_left nofun
  have hread : (HeaderValue.fromStatic "r").toStr = some "u" := hlast _ rfl
  exact absurd hread (by decide)

end InfSplitter.Server
