import InfSplitter.Diagnostics.Details
import InfSplitter.Diagnostics.Relay
import InfSplitter.Egress.Masking
import InfSplitter.Server.Dispatch

/-!
# The upstream of the client's own protocol

`AnthropicHandler::handle_from_anthropic` and `OpenAiHandler::handle_from_openai` send a body on as
it is, but for the transforms of the route, and relay what comes back. They differ in the headers
they relay and in names, so both are one `Passthrough`.

What they record is a list of calls on a guard, which is dropped when the handler is left. It may be
left without an answer: the transforms panic on some bodies, and the future is dropped when the
client is gone.
-/

set_option autoImplicit false

namespace InfSplitter.Server

open InfSplitter.Configuration Diagnostics Egress Interactions Lib

/-! ## The upstream -/

/-- What a wait for the network gives, unless the client is gone before. -/
inductive Read (α : Type)
  | gone
  | error (message : String)
  | read (a : α)

/-- `http::StatusCode`. -/
structure StatusCode where
  code : UInt16
  valid : 100 ≤ code.toNat ∧ code.toNat < 1000
deriving DecidableEq

namespace StatusCode

def isSuccess (status : StatusCode) : Bool := 200 ≤ status.code.toNat && status.code.toNat < 300

def badGateway : StatusCode := ⟨502, by decide⟩

def fromU16 (code : UInt16) : Option StatusCode :=
  if h : 100 ≤ code.toNat ∧ code.toNat < 1000 then some ⟨code, h⟩ else none

end StatusCode

structure UpstreamResponse (σ : Type) where
  status : StatusCode
  headers : HeaderMap
  /-- `text`, `bytes` and `bytes_stream`, one of which is taken -/
  text : Read String
  bytes : Read (List UInt8)
  stream : σ

def contains (text word : String) : Bool := decide (word.toList <:+: text.toList)

/-- `sse::is_event_stream`. -/
def isEventStream (headers : HeaderMap) : Bool :=
  match headers.lookup "content-type" with
  | some (some value) => contains value "text/event-stream"
  | _ => false

structure ErrorTranslationRule where
  status : UInt16
  ingress : Option String
  egress : String
deriving DecidableEq, Repr

def applyErrorTranslation (status : StatusCode) (body : String) :
    List ErrorTranslationRule → String
  | [] => body
  | rule :: rest =>
    if rule.status ≠ status.code then applyErrorTranslation status body rest
    else
      match rule.ingress with
      | some substring =>
        if substring ≠ "" then
          if contains body substring then rule.egress else applyErrorTranslation status body rest
        else rule.egress
      | none => rule.egress

/-- The body's text, or the error and what is to be dumped of it. -/
def validateUpstreamBody (body : List UInt8) : Except (AppError × DumpBody) String :=
  match dumpBodyFromBytes body with
  | .base64 bytes => .error (.internal "non-utf8 response from upstream", .base64 bytes)
  | .utf8 text => .ok text

/-! ## The headers that are relayed -/

/-- The headers with some names, if their values are text. -/
def textHeaders (keep : String → Bool) (headers : HeaderMap) : List (String × String) :=
  headers.filterMap fun kv => if keep kv.1 then kv.2.map (kv.1, ·) else none

/-- The first header with some name once more, under another name that is missing. -/
def mapHeader (source : String → Bool) (target : String) (result : List (String × String)) :
    List (String × String) :=
  if result.any fun kv => kv.1 == target then result
  else
    match result.find? fun kv => source kv.1 with
    | some kv => result ++ [(target, kv.2)]
    | none => result

def copiedHeaders : List String :=
  ["content-type", "request-id", "x-request-id", "x-claude-code-session-id",
    "anthropic-ratelimit-requests-limit", "anthropic-ratelimit-requests-remaining",
    "anthropic-ratelimit-requests-reset", "anthropic-ratelimit-tokens-limit",
    "anthropic-ratelimit-tokens-remaining", "anthropic-ratelimit-tokens-reset"]

def copyResponseHeaders (headers : HeaderMap) : List (String × String) :=
  mapHeader (· == "x-claude-code-session-id") "x-request-id"
    (textHeaders copiedHeaders.contains headers)

def isRelayed (name : String) : Bool :=
  let lower := toAsciiLowercase name
  lower == "content-type" || "x-ratelimit-".toList.isPrefixOf lower.toList ||
    lower == "x-request-id" || lower == "request-id" || lower == "x-claude-code-session-id" ||
    "openai-".toList.isPrefixOf lower.toList

def relayResponseHeaders (headers : HeaderMap) : List (String × String) :=
  mapHeader (fun name => name == "x-request-id" || name == "request-id") "x-claude-code-session-id"
    (textHeaders isRelayed headers)

/-- The headers of a stream that are missing. -/
def streamDefaults (headers : List (String × String)) : List (String × String) :=
  [("content-type", "text/event-stream"), ("cache-control", "no-cache"),
    ("connection", "keep-alive")].filter fun kv =>
      !headers.any fun header => eqIgnoreAsciiCase header.1 kv.1

/-! ## The handlers -/

/-- What each of the two has of its own. -/
structure Passthrough where
  protocol : Protocol
  direction : String
  path : String
  relayHeaders : HeaderMap → List (String × String)
  /-- the headers an answer that is an error is dumped with -/
  errorHeaders : HeaderMap → List (String × String)

def fromAnthropic : Passthrough :=
  { protocol := .anthropic, direction := "anthropic->anthropic", path := "/v1/messages"
    relayHeaders := copyResponseHeaders, errorHeaders := copyResponseHeaders }

def fromOpenai : Passthrough :=
  { protocol := .openAi, direction := "openai->openai", path := "/v1/chat/completions"
    relayHeaders := relayResponseHeaders
    errorHeaders := fun headers => headers.map fun kv => (kv.1, kv.2.getD "") }

/-- What the handlers are made with. -/
structure Handlers where
  statsMode : DiagnosticMode
  dumpMode : DiagnosticMode
  errorTranslation : List ErrorTranslationRule
  /-- `serde_json::from_slice::<Value>` -/
  fromSlice : List UInt8 → Except String Json

structure Passed where
  body : List UInt8
  headers : Headers
  route : Configuration.RouteTarget
  endpoint : String

/-- What the clocks say. -/
structure Readings where
  ingress : String
  egress : String
  response : String
  finish : String
  drop : String
  elapsed : UInt64
  dropElapsed : UInt64

inductive ResponseBody (σ : Type)
  | text (text : String)
  | bytes (bytes : List UInt8)
  | stream (stream : DiagnosticStream σ)

structure Response (σ : Type) where
  status : StatusCode
  headers : List (String × String)
  body : ResponseBody σ

/-- What the client is answered, if it is answered at all. -/
abbrev Outcome (σ : Type) := Option (Except AppError (Response σ))

/-- A request as it goes out. -/
structure SentRequest where
  url : String
  headers : Headers
  body : List UInt8

def caps (route : Configuration.RouteTarget) : Egress.RouteTarget :=
  { maxTokens := route.maxTokens, maxOutputTokens := route.maxOutputTokens
    maxCompletionTokens := route.maxCompletionTokens, dropFields := route.dropFields }

def modelOf (value : Json) : String := ((value.get "model").bind Json.asStr).getD "?"

section
variable {σ : Type} (p : Passthrough) (h : Handlers) (r : Passed) (t : Readings)

namespace Passthrough

def args (durationMs : UInt64) (streaming : Bool) : FinishArgs :=
  { ts := t.finish, durationMs := durationMs, requestSize := r.body.length
    upstream := r.endpoint, direction := p.direction, streaming := streaming }

/-- `relay_upstream_response` and `relay_openai_upstream`: what is recorded, and what comes of it.
The size of the request is taken from the guard. -/
def relayUpstream (request : GuardedRequest) (up : UpstreamResponse σ) :
    List GuardCall × Outcome σ :=
  let relayed := p.relayHeaders up.headers
  if isEventStream up.headers then
    let stream := DiagnosticStream.new up.stream ⟨h.dumpMode, []⟩ request.requestId
      request.sectionName request.model relayed up.status.code
    ([], some (.ok
      { status := up.status, headers := relayed ++ streamDefaults relayed,
        body := .stream stream }))
  else
    match up.bytes with
    | .gone => ([], none)
    | .error message => ([.abortUpstream (args p r t 0 false) message],
        some (.error (.upstream message)))
    | .read body =>
      match validateUpstreamBody body with
      | .error (e, dump) =>
        ([.responseDump t.response dump up.status.code relayed,
            .abortUpstream (args p r t 0 false) e.shown],
          some (.error (.upstream e.shown)))
      | .ok text => ([.responseDump t.response (.utf8 text) up.status.code relayed],
          some (.ok { status := up.status, headers := relayed, body := .bytes body }))

/-- The part behind the dump of the request. -/
def exchange (request : GuardedRequest) (upstream : Read (UpstreamResponse σ)) :
    List GuardCall × Outcome σ :=
  match upstream with
  | .gone => ([], none)
  | .error message => ([.abortUpstream (args p r t t.elapsed false) message],
      some (.error (.upstream message)))
  | .read up =>
    if !up.status.isSuccess && !isEventStream up.headers then
      let finish (errorBody : String) : List GuardCall × Outcome σ :=
        let status := (StatusCode.fromU16 up.status.code).getD .badGateway
        ([.finishWithUpstreamError t.response up.status.code (args p r t t.elapsed false) errorBody
            (p.errorHeaders up.headers)],
          some (.ok
            { status := status
              headers := ("content-type", "application/json") :: p.relayHeaders up.headers
              body := .text (applyErrorTranslation status errorBody h.errorTranslation) }))
      match up.text with
      | .gone => ([], none)
      | .error _ => finish ""
      | .read errorBody => finish errorBody
    else
      match relayUpstream p h r t request up with
      | (calls, none) => (calls, none)
      | (calls, some (.error e)) =>
        (calls ++ [.abortUpstream (args p r t t.elapsed false) e.shown],
          some (.error (.upstream e.shown)))
      | (calls, some (.ok response)) =>
        let streaming := isEventStream (response.headers.map fun kv => (kv.1, some kv.2))
        (calls ++ [.finish response.status.code (args p r t t.elapsed streaming) none],
          some (.ok response))

/-- What is sent, unless the transforms panic. -/
def sent (value : Json) : Option SentRequest :=
  (applyEgressTransforms value (modelOf value) (caps r.route)).map fun value =>
    { url := r.endpoint ++ p.path
      headers := forwardRequestHeadersMap headerHttp r.route.apiKey r.headers p.protocol
      body := value.toVec }

/-- What is recorded of the messages, if statistics are. -/
def detail (set : Json → GuardCall) (value : Json) : List GuardCall :=
  if h.statsMode ≠ .off then (messagesDetailFromValue value).toList.map set else []

/-- All calls on the guard of a request whose body is parsed. -/
def calls (request : GuardedRequest) (value : Json) (upstream : Read (UpstreamResponse σ)) :
    List GuardCall × Outcome σ :=
  let before := .ingressDump t.ingress r.body r.headers.iter ::
    detail h .setMessagesDetailIngress value
  match applyEgressTransforms value (modelOf value) (caps r.route) with
  | none => (before, none)
  | some value =>
    let dump :=
      if h.dumpMode ≠ .off then
        [.egressDump t.egress value.toVec
          (forwardRequestHeadersMap headerHttp r.route.apiKey r.headers p.protocol).iter]
      else []
    let (after, outcome) := exchange p h r t request upstream
    (before ++ detail h .setMessagesDetailEgress value ++ dump ++ after, outcome)

end Passthrough

/-- The guard that a handler makes, what it records when it is dropped, and the answer. -/
structure Handling (σ : Type) where
  request : GuardedRequest
  recorded : Recorded
  outcome : Outcome σ

/-- `handle_from_anthropic` and `handle_from_openai`, with the id the guard gets. A body that is no
value is refused before there is a guard. -/
def Passthrough.handle (requestId : String) (upstream : Read (UpstreamResponse σ)) :
    Except AppError (Handling σ) :=
  match h.fromSlice r.body with
  | .error e => .error (.badRequest e)
  | .ok value =>
    let request : GuardedRequest :=
      { requestId := requestId, sectionName := r.route.sectionName, model := modelOf value }
    let (calls, outcome) := p.calls h r t request value upstream
    .ok ⟨request, lifetime request calls t.drop t.dropElapsed, outcome⟩

def handleFromAnthropic (requestId : String) (upstream : Read (UpstreamResponse σ)) :
    Except AppError (Handling σ) :=
  fromAnthropic.handle h r t requestId upstream

def handleFromOpenai (requestId : String) (upstream : Read (UpstreamResponse σ)) :
    Except AppError (Handling σ) :=
  fromOpenai.handle h r t requestId upstream

end

/-! ## How a guard is finished -/

/-- The status the client is told. -/
def statusOf {σ : Type} : Except AppError (Response σ) → UInt16
  | .error e => e.status
  | .ok response => response.status.code

/-- A call behind the dump of the request that does not finish the guard. -/
def Plain (call : GuardCall) : Prop := call.finishing = none ∧ call.ingressSizeOf = none

/-- The error an event has, and what the client was told. An error of the upstream's is logged as it
came, before the rules change it; one of the relay is shown to the client once more. -/
inductive Told {σ : Type} (rules : List ErrorTranslationRule) : Outcome σ → Option String → Prop
  | left : Told rules none (some "diagnostics guard dropped without finish")
  | refused {e : AppError} {error : String} (reason : Reason e error) :
    Told rules (some (.error e)) (some error)
  | upstream (message : String) : Told rules (some (.error (.upstream message))) (some message)
  | relay (message : String) :
    Told rules (some (.error (.upstream (AppError.upstream message).shown))) (some message)
  | failed {response : Response σ} {errorBody : String}
    (hstatus : response.status.isSuccess = false)
    (hbody : response.body = .text (applyErrorTranslation response.status errorBody rules)) :
    Told rules (some (.ok response)) (some errorBody)
  | answered {response : Response σ} (hbody : ∀ text, response.body ≠ .text text) :
    Told rules (some (.ok response)) none

/-- The calls behind the dump of the request finish the guard exactly if there is an answer, and
first with its status and error. -/
inductive Settles {σ : Type} (rules : List ErrorTranslationRule) (size : Nat) :
    List GuardCall → Outcome σ → Prop
  | left {calls : List GuardCall} (h : ∀ call ∈ calls, Plain call) : Settles rules size calls none
  | answered {pre post : List GuardCall} {call : GuardCall} {f : GuardCall.Finishing}
    {answer : Except AppError (Response σ)} (h : ∀ call ∈ pre, Plain call)
    (hc : call.finishing = some f) (status : f.status = statusOf answer)
    (told : Told rules (some answer) f.error) (hsize : f.args.requestSize = size) :
    Settles rules size (pre ++ call :: post) (some answer)

section
variable {σ : Type} {rules : List ErrorTranslationRule} {size : Nat}
  {before calls : List GuardCall} {outcome : Outcome σ}

theorem Settles.prepend (hbefore : ∀ call ∈ before, Plain call)
    (h : Settles rules size calls outcome) : Settles rules size (before ++ calls) outcome := by
  cases h with
  | left h => exact .left (List.forall_mem_append.mpr ⟨hbefore, h⟩)
  | answered h hc status told hsize =>
    rw [← List.append_assoc]
    exact .answered (List.forall_mem_append.mpr ⟨hbefore, h⟩) hc status told hsize

theorem fromU16_code (status : StatusCode) : StatusCode.fromU16 status.code = some status :=
  dif_pos status.valid

variable (p : Passthrough) (h : Handlers) (r : Passed) (t : Readings) (request : GuardedRequest)
  (durationMs : UInt64)

/-- An aborted guard, whatever is called on it afterwards. -/
theorem Settles.abort {message : String} {e : AppError}
    (told : Told (σ := σ) rules (some (.error e)) (some message)) (hstatus : e.status = 502)
    (post : List GuardCall) :
    Settles (σ := σ) rules r.body.length
      (.abortUpstream (p.args r t durationMs false) message :: post) (some (.error e)) :=
  @Settles.answered σ rules _ [] post _ ⟨502, p.args r t durationMs false, none, some message⟩
    (.error e) (List.forall_mem_nil _) rfl hstatus.symm told rfl

theorem Settles.finish (streaming : Bool) {response : Response σ}
    (hbody : ∀ text, response.body ≠ .text text) :
    Settles rules r.body.length
      [.finish response.status.code (p.args r t durationMs streaming) none]
      (some (.ok response)) :=
  @Settles.answered σ rules _ [] [] _
    ⟨response.status.code, p.args r t durationMs streaming, none, none⟩ (.ok response)
    (List.forall_mem_nil _) rfl rfl (.answered hbody) rfl

theorem Settles.upstreamError {response : Response σ} {errorBody : String}
    (hstatus : response.status.isSuccess = false)
    (hbody : response.body = .text (applyErrorTranslation response.status errorBody rules))
    (ts : String) (headers : List (String × String)) :
    Settles rules r.body.length
      [.finishWithUpstreamError ts response.status.code (p.args r t durationMs false) errorBody
        headers]
      (some (.ok response)) :=
  @Settles.answered σ rules _ [] [] _ ⟨response.status.code, p.args r t durationMs false,
    some errorBody.utf8ByteSize, some errorBody⟩ (.ok response) (List.forall_mem_nil _) rfl rfl
    (.failed hstatus hbody) rfl

/-- A relayed answer finishes the guard if that is aborted only. -/
theorem relayUpstream_cases (up : UpstreamResponse σ) :
    p.relayUpstream h r t request up = ([], none) ∨
    (∃ before message, p.relayUpstream h r t request up =
        (before ++ [.abortUpstream (p.args r t 0 false) message],
          some (.error (.upstream message))) ∧
      ∀ call ∈ before, Plain call) ∨
    ∃ before response, p.relayUpstream h r t request up = (before, some (.ok response)) ∧
      (∀ call ∈ before, Plain call) ∧ ∀ text, response.body ≠ .text text := by
  unfold Passthrough.relayUpstream
  dsimp only
  by_cases hstream : isEventStream up.headers = true
  · rw [if_pos hstream]
    exact Or.inr (Or.inr ⟨[], _, rfl, List.forall_mem_nil _, nofun⟩)
  · rw [if_neg hstream]
    cases up.bytes with
    | gone => exact Or.inl rfl
    | error message => exact Or.inr (Or.inl ⟨[], message, rfl, List.forall_mem_nil _⟩)
    | read body =>
      dsimp only
      cases validateUpstreamBody body with
      | error e =>
        exact Or.inr (Or.inl ⟨[_], _, rfl, List.forall_mem_singleton.mpr ⟨rfl, rfl⟩⟩)
      | ok text =>
        exact Or.inr (Or.inr ⟨[_], _, rfl, List.forall_mem_singleton.mpr ⟨rfl, rfl⟩, nofun⟩)

/-- **Behind the dump of the request the guard is settled.** -/
theorem exchange_settles (upstream : Read (UpstreamResponse σ)) :
    Settles h.errorTranslation r.body.length (p.exchange h r t request upstream).1
      (p.exchange h r t request upstream).2 := by
  unfold Passthrough.exchange
  split
  · exact .left (List.forall_mem_nil _)
  · exact .abort p r t _ (.upstream _) rfl []
  · next up =>
    split
    · next hfailed =>
      rw [Bool.and_eq_true, Bool.not_eq_true'] at hfailed
      have hstatus : (StatusCode.fromU16 up.status.code).getD .badGateway = up.status := by
        rw [fromU16_code, Option.getD_some]
      dsimp only
      rw [hstatus]
      cases up.text with
      | gone => exact .left (List.forall_mem_nil _)
      | error message =>
        exact @Settles.upstreamError σ _ p r t _ ⟨up.status, _, _⟩ _ hfailed.1 rfl _ _
      | read errorBody =>
        exact @Settles.upstreamError σ _ p r t _ ⟨up.status, _, _⟩ _ hfailed.1 rfl _ _
    · rcases relayUpstream_cases p h r t request up with
        hgone | ⟨before, message, habort, hbefore⟩ | ⟨before, response, hok, hbefore, hbody⟩
      · rw [hgone]
        exact .left (List.forall_mem_nil _)
      · rw [habort]
        dsimp only
        rw [List.append_assoc]
        exact .prepend hbefore (.abort p r t _ (.relay message) rfl _)
      · rw [hok]
        exact .prepend hbefore (.finish p r t _ _ hbody)

theorem detail_plain {set : Json → GuardCall} (hset : ∀ j, Plain (set j)) (value : Json) :
    ∀ call ∈ Passthrough.detail h set value, Plain call := by
  unfold Passthrough.detail
  split
  · intro call hcall
    obtain ⟨j, -, rfl⟩ := List.mem_map.mp hcall
    exact hset j
  · exact List.forall_mem_nil _

/-- **A handler settles its guard.** -/
theorem calls_settle (value : Json) (upstream : Read (UpstreamResponse σ)) :
    ∃ rest, (p.calls h r t request value upstream).1 =
        .ingressDump t.ingress r.body r.headers.iter :: rest ∧
      Settles h.errorTranslation r.body.length rest
        (p.calls h r t request value upstream).2 := by
  have hbefore : ∀ call ∈ Passthrough.detail h .setMessagesDetailIngress value, Plain call :=
    detail_plain h (fun _ => ⟨rfl, rfl⟩) value
  unfold Passthrough.calls
  dsimp only
  split
  · exact ⟨_, rfl, .left hbefore⟩
  · next value _ =>
    refine ⟨_, rfl, .prepend (List.forall_mem_append.mpr ⟨List.forall_mem_append.mpr
      ⟨hbefore, detail_plain h (fun _ => ⟨rfl, rfl⟩) value⟩, ?_⟩)
      (exchange_settles p h r t request upstream)⟩
    split
    · exact List.forall_mem_singleton.mpr ⟨rfl, rfl⟩
    · exact List.forall_mem_nil _

end

/-! ## The event -/

/-- What an event says of a request: the status the client was told, or none, and the error. -/
structure Agrees {σ : Type} (rules : List ErrorTranslationRule) (requestId : String) (size : Nat)
    (outcome : Outcome σ) (event : StatsEvent) : Prop where
  requestId : event.requestId = requestId
  size : event.requestSizeBytes = size
  status : event.status = (outcome.map statusOf).getD 0
  told : Told rules outcome event.error

/-- The dumps of a guard are under its id. -/
theorem lifetime_requestId (request : GuardedRequest) (calls : List GuardCall) (ts : String)
    (durationMs : UInt64) :
    ∀ dump ∈ (lifetime request calls ts durationMs).dumps,
      dump.1.requestId = request.requestId := by
  have hflushed (calls : List GuardCall) (status : Option UInt16) (isError : Bool) :
      ∀ dump ∈ (flushed request calls status).map (·, isError),
        dump.1.requestId = request.requestId := by
    intro dump hdump
    obtain ⟨event, hevent, rfl⟩ := List.mem_map.mp hdump
    unfold flushed flushedDumps at hevent
    simp only [List.mem_append, Option.mem_toList, Option.map_eq_some_iff, List.mem_map] at hevent
    rcases hevent with ((⟨_, -, rfl⟩ | ⟨_, -, rfl⟩) | ⟨_, -, rfl⟩) | ⟨_, -, rfl⟩ <;> rfl
  obtain ⟨-, hfinished, hunfinished⟩ := guard_records_once request calls ts durationMs
  rcases exists_first_finishing calls with h | ⟨pre, call, post, f, hcalls, hpre, hc⟩
  · rw [hunfinished h]
    exact hflushed _ _ _
  · rw [(hfinished pre call post f hcalls hpre hc).1]
    exact hflushed _ _ _

/-- The guard's own request. -/
def guardedRequest (r : Passed) (requestId : String) (value : Json) : GuardedRequest :=
  { requestId := requestId, sectionName := r.route.sectionName, model := modelOf value }

section
variable {σ : Type} {p : Passthrough} {h : Handlers} {r : Passed} {t : Readings}
  {requestId : String} {upstream : Read (UpstreamResponse σ)} {handling : Handling σ}

theorem handle_ok {value : Json} (hvalue : h.fromSlice r.body = .ok value) :
    p.handle h r t requestId upstream = .ok
      { request := guardedRequest r requestId value
        recorded := lifetime (guardedRequest r requestId value)
          (p.calls h r t (guardedRequest r requestId value) value upstream).1 t.drop t.dropElapsed
        outcome := (p.calls h r t (guardedRequest r requestId value) value upstream).2 } := by
  unfold Passthrough.handle
  rw [hvalue]
  rfl

/-- **One event for a request, and it says what the client was told.** -/
theorem handle_agrees (hok : p.handle h r t requestId upstream = .ok handling) :
    handling.request.requestId = requestId ∧
      (∃ event, handling.recorded.stats = [event] ∧
        Agrees h.errorTranslation requestId r.body.length handling.outcome event) ∧
      ∀ dump ∈ handling.recorded.dumps, dump.1.requestId = requestId := by
  cases hvalue : h.fromSlice r.body with
  | error e =>
    unfold Passthrough.handle at hok
    rw [hvalue] at hok
    cases hok
  | ok value =>
    obtain rfl := Except.ok.inj ((handle_ok hvalue).symm.trans hok)
    refine ⟨rfl, ?_, lifetime_requestId _ _ _ _⟩
    dsimp only
    obtain ⟨rest, hcalls, hsettles⟩ := calls_settle p h r t (guardedRequest r requestId value) value
      upstream
    rw [hcalls]
    generalize (p.calls h r t (guardedRequest r requestId value) value upstream).2 = outcome
      at hsettles ⊢
    cases hsettles with
    | left hplain =>
      have hfinishing : ∀ call ∈ GuardCall.ingressDump t.ingress r.body r.headers.iter :: rest,
          call.finishing = none :=
        List.forall_mem_cons.mpr ⟨rfl, fun call hcall => (hplain call hcall).1⟩
      have hsize : latest GuardCall.ingressSizeOf
          (.ingressDump t.ingress r.body r.headers.iter :: rest) = some r.body.length := by
        have hrest : rest.filterMap GuardCall.ingressSizeOf = [] :=
          List.filterMap_eq_nil_iff.mpr fun call hcall => (hplain call hcall).2
        show (r.body.length :: rest.filterMap GuardCall.ingressSizeOf).getLast? = _
        rw [hrest]
        rfl
      rw [lifetime_unfinished hfinishing]
      refine ⟨_, rfl, rfl, ?_, rfl, .left⟩
      unfold unfinishedEvent
      dsimp only
      rw [hsize, Option.getD_some]
    | @answered pre post call f answer hplain hc status told hsize =>
      have hpre : ∀ call ∈ GuardCall.ingressDump t.ingress r.body r.headers.iter :: pre,
          call.finishing = none :=
        List.forall_mem_cons.mpr ⟨rfl, fun call hcall => (hplain call hcall).1⟩
      rw [← List.cons_append, lifetime_finished hpre hc]
      exact ⟨_, rfl, rfl, hsize, status, told⟩

end

/-! ## What is relayed -/

section
variable {σ : Type} (p : Passthrough) (h : Handlers) (r : Passed) (t : Readings)
  (request : GuardedRequest) (up : UpstreamResponse σ)

/-- The text of an error, `unwrap_or_default`. -/
inductive ErrorText : String → Prop
  | read {errorBody : String} (h : up.text = .read errorBody) : ErrorText errorBody
  | unread {message : String} (h : up.text = .error message) : ErrorText ""

/-- How an answer of the upstream becomes one to the client, with the calls. -/
inductive Relaying : List GuardCall → Response σ → Prop
  | failed {errorBody : String} (hstatus : up.status.isSuccess = false)
    (hstream : isEventStream up.headers = false) (htext : ErrorText up errorBody) :
    Relaying
      [.finishWithUpstreamError t.response up.status.code (p.args r t t.elapsed false) errorBody
        (p.errorHeaders up.headers)]
      { status := up.status
        headers := ("content-type", "application/json") :: p.relayHeaders up.headers
        body := .text (applyErrorTranslation up.status errorBody h.errorTranslation) }
  | stream {streaming : Bool} (hstream : isEventStream up.headers = true) :
    Relaying [.finish up.status.code (p.args r t t.elapsed streaming) none]
      { status := up.status
        headers := p.relayHeaders up.headers ++ streamDefaults (p.relayHeaders up.headers)
        body := .stream (DiagnosticStream.new up.stream ⟨h.dumpMode, []⟩ request.requestId
          request.sectionName request.model (p.relayHeaders up.headers) up.status.code) }
  | whole {streaming : Bool} {body : List UInt8} {text : List Char}
    (hstatus : up.status.isSuccess = true) (hstream : isEventStream up.headers = false)
    (hbytes : up.bytes = .read body) (htext : fromUtf8 body = some text) :
    Relaying
      [.responseDump t.response (.utf8 (String.ofList text)) up.status.code
          (p.relayHeaders up.headers),
        .finish up.status.code (p.args r t t.elapsed streaming) none]
      { status := up.status, headers := p.relayHeaders up.headers, body := .bytes body }

theorem validateUpstreamBody_ok {body : List UInt8} {text : String}
    (hok : validateUpstreamBody body = .ok text) :
    ∃ chars, fromUtf8 body = some chars ∧ text = String.ofList chars := by
  unfold validateUpstreamBody dumpBodyFromBytes at hok
  cases hchars : fromUtf8 body with
  | none =>
    rw [hchars] at hok
    cases hok
  | some chars =>
    rw [hchars] at hok
    cases hok
    exact ⟨chars, rfl, rfl⟩

/-- **Every answer to the client is relayed in one of three ways.** -/
theorem relaying_of_exchange {calls : List GuardCall} {response : Response σ}
    (hok : p.exchange h r t request (.read up) = (calls, some (.ok response))) :
    Relaying p h r t request up calls response := by
  unfold Passthrough.exchange at hok
  dsimp only at hok
  rw [fromU16_code, Option.getD_some] at hok
  split at hok
  · next hfailed =>
    rw [Bool.and_eq_true, Bool.not_eq_true', Bool.not_eq_true'] at hfailed
    cases htext : up.text with
    | gone =>
      rw [htext] at hok
      cases hok
    | error message =>
      rw [htext] at hok
      cases hok
      exact .failed hfailed.1 hfailed.2 (.unread htext)
    | read errorBody =>
      rw [htext] at hok
      cases hok
      exact .failed hfailed.1 hfailed.2 (.read htext)
  · next hrelayed =>
    unfold Passthrough.relayUpstream at hok
    dsimp only at hok
    by_cases hstream : isEventStream up.headers = true
    · rw [if_pos hstream] at hok
      cases hok
      exact .stream hstream
    · rw [if_neg hstream] at hok
      rw [Bool.eq_false_iff.mpr hstream, Bool.not_false, Bool.and_true, Bool.not_eq_true',
        Bool.not_eq_false] at hrelayed
      cases hbytes : up.bytes with
      | gone =>
        rw [hbytes] at hok
        cases hok
      | error message =>
        rw [hbytes] at hok
        cases hok
      | read body =>
        rw [hbytes] at hok
        dsimp only at hok
        cases hvalid : validateUpstreamBody body with
        | error e =>
          rw [hvalid] at hok
          cases hok
        | ok text =>
          obtain ⟨chars, htext, rfl⟩ := validateUpstreamBody_ok hvalid
          rw [hvalid] at hok
          cases hok
          exact .whole hrelayed (Bool.eq_false_iff.mpr hstream) hbytes htext

/-- The upstream's answer can be relayed. -/
def Answerable : Prop :=
  isEventStream up.headers = true ∨
    (up.status.isSuccess = false ∧ ∃ errorBody, ErrorText up errorBody) ∨
    up.status.isSuccess = true ∧ ∃ body text, up.bytes = .read body ∧ fromUtf8 body = some text

theorem Relaying.answerable {calls : List GuardCall} {response : Response σ}
    (relaying : Relaying p h r t request up calls response) : Answerable up := by
  cases relaying with
  | failed hstatus _ htext => exact Or.inr (Or.inl ⟨hstatus, _, htext⟩)
  | stream hstream => exact Or.inl hstream
  | whole hstatus _ hbytes htext => exact Or.inr (Or.inr ⟨hstatus, _, _, hbytes, htext⟩)

theorem validateUpstreamBody_text {body : List UInt8} {text : List Char}
    (h : fromUtf8 body = some text) : validateUpstreamBody body = .ok (String.ofList text) := by
  unfold validateUpstreamBody dumpBodyFromBytes
  rw [h]

/-- A stream is relayed as it comes. -/
theorem exchange_stream (hstream : isEventStream up.headers = true) :
    ∃ calls headers, p.exchange h r t request (.read up) = (calls, some (.ok
      { status := up.status, headers := headers
        body := .stream (DiagnosticStream.new up.stream ⟨h.dumpMode, []⟩ request.requestId
          request.sectionName request.model (p.relayHeaders up.headers) up.status.code) })) := by
  unfold Passthrough.exchange Passthrough.relayUpstream
  dsimp only
  rw [hstream, Bool.not_true, Bool.and_false, if_neg Bool.false_ne_true, if_pos rfl]
  exact ⟨_, _, rfl⟩

theorem exchange_of_answerable (hup : Answerable up) :
    ∃ response, (p.exchange h r t request (.read up)).2 = some (.ok response) := by
  by_cases hstream : isEventStream up.headers = true
  · obtain ⟨_, _, hrelayed⟩ := exchange_stream p h r t request up hstream
    rw [hrelayed]
    exact ⟨_, rfl⟩
  · unfold Passthrough.exchange
    dsimp only
    rw [Bool.eq_false_iff.mpr hstream, Bool.not_false, Bool.and_true]
    rcases hup with h | ⟨hstatus, _, htext⟩ | ⟨hstatus, body, text, hbytes, htext⟩
    · exact absurd h hstream
    · rw [hstatus, Bool.not_false, if_pos rfl]
      cases htext with
      | read h =>
        rw [h]
        exact ⟨_, rfl⟩
      | unread h =>
        rw [h]
        exact ⟨_, rfl⟩
    · rw [hstatus, Bool.not_true, if_neg Bool.false_ne_true]
      unfold Passthrough.relayUpstream
      rw [if_neg hstream, hbytes]
      dsimp only
      rw [validateUpstreamBody_text htext]
      exact ⟨_, rfl⟩

end

/-! ## The headers a client gets -/

/-- What each of the handlers relays by name. -/
def keeps : Protocol → String → Bool
  | .anthropic => copiedHeaders.contains
  | .openAi => isRelayed

/-- The headers one of which is given under another name too, if that is missing, and the name. -/
def aliases : Protocol → (String → Bool) × String
  | .anthropic => ((· == "x-claude-code-session-id"), "x-request-id")
  | .openAi => (fun name => name == "x-request-id" || name == "request-id",
      "x-claude-code-session-id")

/-- A header of the upstream that is relayed, or the first of some under its other name. -/
inductive Relayed (protocol : Protocol) (headers : HeaderMap) : String × String → Prop
  | kept {name value : String} (h : (name, some value) ∈ headers)
    (hkeep : keeps protocol name = true) : Relayed protocol headers (name, value)
  | mapped {name value : String}
    (hmissing : ∀ other, ((aliases protocol).2, some other) ∉ headers)
    (hfirst : headers.find? (fun kv => (aliases protocol).1 kv.1 && kv.2.isSome) =
      some (name, some value)) : Relayed protocol headers ((aliases protocol).2, value)

/-- A header that is relayed, or one that the handler adds: to an error its own type, and to a
stream what is missing of a stream's. -/
inductive FromUpstream {σ : Type} (protocol : Protocol) (headers : HeaderMap) :
    ResponseBody σ → String × String → Prop
  | relayed {body : ResponseBody σ} {kv : String × String} (h : Relayed protocol headers kv) :
    FromUpstream protocol headers body kv
  | json {text : String} :
    FromUpstream protocol headers (.text text) ("content-type", "application/json")
  | stream {stream : DiagnosticStream σ} {kv : String × String}
    (h : kv ∈ [("content-type", "text/event-stream"), ("cache-control", "no-cache"),
      ("connection", "keep-alive")])
    (hmissing : ∀ other, Relayed protocol headers other →
      eqIgnoreAsciiCase other.1 kv.1 = false) :
    FromUpstream protocol headers (.stream stream) kv

theorem mem_textHeaders {keep : String → Bool} {headers : HeaderMap} {kv : String × String} :
    kv ∈ textHeaders keep headers ↔ (kv.1, some kv.2) ∈ headers ∧ keep kv.1 = true := by
  unfold textHeaders
  rw [List.mem_filterMap]
  constructor
  · intro ⟨⟨name, value⟩, hmem, hkv⟩
    split at hkv
    · next hkeep =>
      obtain ⟨text, rfl, rfl⟩ := Option.map_eq_some_iff.mp hkv
      exact ⟨hmem, hkeep⟩
    · cases hkv
  · intro ⟨hmem, hkeep⟩
    exact ⟨_, hmem, by rw [if_pos hkeep]; rfl⟩

/-- The first of some headers that are kept, among the ones that are kept. -/
theorem find_textHeaders {keep source : String → Bool}
    (hkeep : ∀ name, source name = true → keep name = true) (headers : HeaderMap)
    (kv : String × String) :
    (textHeaders keep headers).find? (fun kv => source kv.1) = some kv ↔
      headers.find? (fun kv => source kv.1 && kv.2.isSome) = some (kv.1, some kv.2) := by
  induction headers with
  | nil => exact ⟨nofun, nofun⟩
  | cons header rest ih =>
    obtain ⟨name, value⟩ := header
    unfold textHeaders at ih ⊢
    rw [List.filterMap_cons, List.find?_cons]
    cases value with
    | none => simpa using ih
    | some value =>
      by_cases hsource : source name = true
      · simp [hsource, hkeep name hsource, Prod.ext_iff]
      · by_cases hkept : keep name = true
        · simpa [hsource, hkept] using ih
        · simpa [hsource, hkept] using ih

theorem mem_mapHeader {source : String → Bool} {target : String} {result : List (String × String)}
    {kv : String × String} :
    kv ∈ mapHeader source target result ↔
      kv ∈ result ∨ (∀ other, (target, other) ∉ result) ∧ kv.1 = target ∧
        ∃ name, result.find? (fun kv => source kv.1) = some (name, kv.2) := by
  unfold mapHeader
  by_cases hany : (result.any fun kv => kv.1 == target) = true
  · rw [if_pos hany]
    obtain ⟨⟨name, other⟩, hmem, hname⟩ := List.any_eq_true.mp hany
    obtain rfl : name = target := eq_of_beq hname
    exact ⟨Or.inl, fun h => h.elim id fun ⟨hmissing, _⟩ => absurd hmem (hmissing other)⟩
  · have hmissing : ∀ other, (target, other) ∉ result := fun other hmem =>
      hany (List.any_eq_true.mpr ⟨_, hmem, beq_self_eq_true _⟩)
    rw [if_neg hany]
    cases hfind : result.find? fun kv => source kv.1 with
    | none =>
      exact ⟨Or.inl, fun h => h.elim id nofun⟩
    | some found =>
      obtain ⟨name, value⟩ := found
      rw [List.mem_append, List.mem_singleton]
      refine or_congr_right ⟨?_, ?_⟩
      · rintro rfl
        exact ⟨hmissing, rfl, name, rfl⟩
      · rintro ⟨-, hkv, name', hfound⟩
        cases hfound
        exact Prod.ext hkv rfl

/-- What both handlers relay of the headers, and nothing else. -/
theorem mem_relayHeaders {p : Passthrough} (hp : p = fromAnthropic ∨ p = fromOpenai)
    (headers : HeaderMap) (kv : String × String) :
    kv ∈ p.relayHeaders headers ↔ Relayed p.protocol headers kv := by
  have hrelayed : p.relayHeaders headers =
      mapHeader (aliases p.protocol).1 (aliases p.protocol).2
        (textHeaders (keeps p.protocol) headers) := by
    rcases hp with rfl | rfl <;> rfl
  have hsource : ∀ name, (aliases p.protocol).1 name = true → keeps p.protocol name = true := by
    rcases hp with rfl | rfl
    · intro name hname
      rw [eq_of_beq hname]
      decide
    · intro name hname
      rcases Bool.or_eq_true _ _ |>.mp hname with h | h
      · rw [eq_of_beq h]
        decide
      · rw [eq_of_beq h]
        decide
  have htarget : keeps p.protocol (aliases p.protocol).2 = true := by
    rcases hp with rfl | rfl <;> decide
  rw [hrelayed, mem_mapHeader]
  simp only [mem_textHeaders, find_textHeaders hsource]
  constructor
  · rintro (⟨hmem, hkeep⟩ | ⟨hmissing, hkv, name, hfirst⟩)
    · exact .kept hmem hkeep
    · obtain ⟨key, value⟩ := kv
      obtain rfl : key = (aliases p.protocol).2 := hkv
      exact .mapped (fun other hmem => hmissing other ⟨hmem, htarget⟩) hfirst
  · rintro (⟨hmem, hkeep⟩ | ⟨hmissing, hfirst⟩)
    · exact Or.inl ⟨hmem, hkeep⟩
    · exact Or.inr ⟨fun other h => hmissing other h.1, rfl, _, hfirst⟩

/-- What is added to a stream's headers. -/
theorem mem_streamDefaults {headers : List (String × String)} {kv : String × String} :
    kv ∈ streamDefaults headers ↔
      kv ∈ [("content-type", "text/event-stream"), ("cache-control", "no-cache"),
        ("connection", "keep-alive")] ∧
      ∀ other ∈ headers, eqIgnoreAsciiCase other.1 kv.1 = false := by
  unfold streamDefaults
  rw [List.mem_filter, Bool.not_eq_true', List.any_eq_false]
  simp only [Bool.not_eq_true]

/-! ## What a client gets -/

def ErrorTranslationRule.applies (status : StatusCode) (body : String)
    (rule : ErrorTranslationRule) : Bool :=
  rule.status == status.code &&
    match rule.ingress with
    | some substring => substring == "" || contains body substring
    | none => true

/-- The first rule that applies is taken. -/
theorem applyErrorTranslation_eq (status : StatusCode) (body : String)
    (rules : List ErrorTranslationRule) :
    applyErrorTranslation status body rules =
      ((rules.find? (·.applies status body)).map (·.egress)).getD body := by
  induction rules with
  | nil => rfl
  | cons rule rest ih =>
    rw [applyErrorTranslation, List.find?_cons, ih]
    have happlies : rule.applies status body = (rule.status == status.code &&
        match rule.ingress with
        | some substring => substring == "" || contains body substring
        | none => true) := rfl
    rw [happlies]
    by_cases hstatus : rule.status = status.code
    · rw [if_neg (not_not_intro hstatus), beq_iff_eq.mpr hstatus, Bool.true_and]
      cases rule.ingress with
      | none => rfl
      | some substring =>
        dsimp only
        by_cases hempty : substring = ""
        · rw [if_neg (not_not_intro hempty), beq_iff_eq.mpr hempty, Bool.true_or]
          rfl
        · rw [if_pos hempty, beq_false_of_ne hempty, Bool.false_or]
          cases contains body substring <;> rfl
    · rw [if_pos hstatus, beq_false_of_ne hstatus, Bool.false_and]

/-- The body of an answer: of a success the upstream's bytes, which are also in a dump; of a stream
what it yields, and a dump of that at most; of an error its text, if no rule is there for it. -/
inductive Given {σ : Type} (h : Handlers) (up : UpstreamResponse σ) (handling : Handling σ) :
    ResponseBody σ → Prop
  | bytes {body : List UInt8} (hstatus : up.status.isSuccess = true)
    (hstream : isEventStream up.headers = false) (hbytes : up.bytes = .read body)
    (hdump : ∃ dump ∈ handling.recorded.dumps, dump.1.stage = "egress" ∧
      dump.1.direction = "response" ∧ dump.1.status = some up.status.code ∧
      dump.1.body.bytes = body) : Given h up handling (.bytes body)
  | stream {stream : DiagnosticStream σ} (hstream : isEventStream up.headers = true)
    (hresults : ∀ {ε : Type} (poll : σ → Polled ε × σ) (polledAt : List String),
      (stream.run poll polledAt).1 = innerResults poll polledAt.length up.stream)
    (hdumps : ∀ {ε : Type} (poll : σ → Polled ε × σ) (polledAt : List String) (droppedAt : String),
      ∃ dumps, ((stream.run poll polledAt).2.drop droppedAt).diagnostics.sent = dumps ∧
        dumps.length ≤ 1 ∧ ∀ dump ∈ dumps, dump.requestId = handling.request.requestId) :
    Given h up handling (.stream stream)
  | text {errorBody : String} (hstatus : up.status.isSuccess = false)
    (hstream : isEventStream up.headers = false) (htext : ErrorText up errorBody) :
    Given h up handling (.text (((h.errorTranslation.find?
      (·.applies up.status errorBody)).map (·.egress)).getD errorBody))

theorem given_stream {σ : Type} {h : Handlers} {up : UpstreamResponse σ} {handling : Handling σ}
    (hstream : isEventStream up.headers = true) (model : String)
    (headers : List (String × String)) :
    Given h up handling (.stream (DiagnosticStream.new up.stream ⟨h.dumpMode, []⟩
      handling.request.requestId handling.request.sectionName model headers up.status.code)) := by
  refine .stream hstream (fun poll polledAt => DiagnosticStream.run_results polledAt)
    (fun poll polledAt droppedAt => ?_)
  obtain ⟨ts, -, hsent⟩ :=
    DiagnosticStream.live_new.sent_drop_run poll polledAt droppedAt
  refine ⟨_, hsent, ?_, ?_⟩
  · split
    · exact Nat.le_refl 1
    · exact Nat.zero_le 1
  · split
    · exact List.forall_mem_singleton.mpr rfl
    · exact List.forall_mem_nil _

section
variable {σ : Type} {p : Passthrough} {h : Handlers} {r : Passed} {t : Readings}
  {requestId : String} {up : UpstreamResponse σ} {handling : Handling σ} {response : Response σ}
  {value : Json}

/-- Behind the transforms come the calls of the exchange. -/
theorem calls_eq (request : GuardedRequest) (upstream : Read (UpstreamResponse σ)) {sent : Json}
    (hsent : applyEgressTransforms value (modelOf value) (caps r.route) = some sent) :
    ∃ front, (∀ call ∈ front, call.finishing = none) ∧
      p.calls h r t request value upstream =
        (front ++ (p.exchange h r t request upstream).1,
          (p.exchange h r t request upstream).2) := by
  unfold Passthrough.calls
  dsimp only
  rw [hsent]
  refine ⟨_, ?_, rfl⟩
  have hdetail {set : Json → GuardCall} (hset : ∀ j, Plain (set j)) (value : Json) :
      ∀ call ∈ Passthrough.detail h set value, call.finishing = none :=
    fun call hcall => (detail_plain h hset value call hcall).1
  refine List.forall_mem_append.mpr ⟨List.forall_mem_append.mpr
    ⟨List.forall_mem_cons.mpr ⟨rfl, hdetail (fun _ => ⟨rfl, rfl⟩) value⟩,
      hdetail (fun _ => ⟨rfl, rfl⟩) sent⟩, ?_⟩
  split
  · exact List.forall_mem_singleton.mpr rfl
  · exact List.forall_mem_nil _

/-- A response that is put aside last is in the flush. -/
theorem mem_lifetime_response (request : GuardedRequest) {front : List GuardCall}
    (hfront : ∀ call ∈ front, call.finishing = none) (ts dumpTs : String) (body : DumpBody)
    (status : UInt16) (headers : List (String × String)) (args : FinishArgs)
    (durationMs : UInt64) :
    (dumpEventOf request "egress" "response" (some status)
        ⟨body, maskHeaderValues headers, dumpTs, some status⟩, false) ∈
      (lifetime request (front ++ [.responseDump dumpTs body status headers,
        .finish status args none]) ts durationMs).dumps := by
  have hpre : ∀ call ∈ front ++ [GuardCall.responseDump dumpTs body status headers],
      call.finishing = none :=
    List.forall_mem_append.mpr ⟨hfront, List.forall_mem_singleton.mpr rfl⟩
  have hcalls : front ++ [.responseDump dumpTs body status headers, .finish status args none] =
      (front ++ [.responseDump dumpTs body status headers]) ++ [.finish status args none] := by
    rw [List.append_assoc]
    rfl
  have hresponse : latest GuardCall.responseOf
      ((front ++ [.responseDump dumpTs body status headers]) ++ [.finish status args none]) =
        some ⟨body, maskHeaderValues headers, dumpTs, some status⟩ := by
    rw [latest_snoc, latest_snoc]
    rfl
  rw [hcalls, lifetime_finished hpre rfl]
  refine List.mem_map.mpr ⟨_, ?_, rfl⟩
  unfold flushed flushedDumps
  rw [hresponse]
  exact List.mem_append_left _ (List.mem_append_right _ List.mem_cons_self)

theorem relaying_of_handle (hvalue : h.fromSlice r.body = .ok value)
    (hok : p.handle h r t requestId (.read up) = .ok handling)
    (hanswer : handling.outcome = some (.ok response)) :
    ∃ front calls, (∀ call ∈ front, call.finishing = none) ∧
      handling.recorded =
        lifetime handling.request (front ++ calls) t.drop t.dropElapsed ∧
      Relaying p h r t handling.request up calls response := by
  obtain rfl := Except.ok.inj ((handle_ok hvalue).symm.trans hok)
  dsimp only at hanswer ⊢
  cases hsent : applyEgressTransforms value (modelOf value) (caps r.route) with
  | none =>
    unfold Passthrough.calls at hanswer
    dsimp only at hanswer
    rw [hsent] at hanswer
    cases hanswer
  | some sent =>
    obtain ⟨front, hfront, hcalls⟩ :=
      calls_eq (p := p) (h := h) (t := t) (guardedRequest r requestId value) (.read up) hsent
    rw [hcalls] at hanswer ⊢
    exact ⟨front, _, hfront, rfl,
      relaying_of_exchange p h r t _ up (Prod.ext rfl hanswer)⟩

/-- A stream that is handed out is new, and has the id of the guard. -/
theorem handle_stream {upstream : Read (UpstreamResponse σ)} {stream : DiagnosticStream σ}
    (hok : p.handle h r t requestId upstream = .ok handling)
    (hanswer : handling.outcome = some (.ok response)) (hbody : response.body = .stream stream) :
    stream.requestId = requestId ∧ stream.diagnostics.sent = [] := by
  cases hvalue : h.fromSlice r.body with
  | error e =>
    unfold Passthrough.handle at hok
    rw [hvalue] at hok
    cases hok
  | ok value =>
    have hexchange (he : (∃ message, upstream = .error message) ∨ upstream = .gone) :
        handling.outcome ≠ some (.ok response) := by
      obtain rfl := Except.ok.inj ((handle_ok hvalue).symm.trans hok)
      dsimp only
      unfold Passthrough.calls
      rcases he with ⟨message, rfl⟩ | rfl
      · split <;> nofun
      · split <;> nofun
    cases upstream with
    | gone => exact absurd hanswer (hexchange (Or.inr rfl))
    | error message => exact absurd hanswer (hexchange (Or.inl ⟨_, rfl⟩))
    | read up =>
      obtain ⟨_, _, _, _, relaying⟩ := relaying_of_handle hvalue hok hanswer
      obtain ⟨hid, -, -⟩ := handle_agrees hok
      cases relaying with
      | failed => cases hbody
      | stream =>
        cases hbody
        exact ⟨hid, rfl⟩
      | whole => cases hbody

/-- **What a client is given.** There is an answer to be relayed exactly if the transforms return
and the upstream's can be read. Its status is the upstream's, its headers are those that are relayed
or added, all of them and no others, and its body is the upstream's. -/
theorem answers_relayed (hp : p = fromAnthropic ∨ p = fromOpenai)
    (hvalue : h.fromSlice r.body = .ok value)
    (hok : p.handle h r t requestId (.read up) = .ok handling) :
    ((∃ response, handling.outcome = some (.ok response)) ↔
        (Settable value ∨ (caps r.route).hasCaps = false) ∧ Answerable up) ∧
      ∀ response, handling.outcome = some (.ok response) →
        response.status = up.status ∧
        (∀ kv, kv ∈ response.headers ↔
          FromUpstream p.protocol up.headers response.body kv) ∧
        Given h up handling response.body := by
  refine ⟨?_, fun response hanswer => ?_⟩
  · rw [← transforms_return_iff_settable value (modelOf value)]
    constructor
    · intro ⟨response, hanswer⟩
      obtain ⟨_, _, _, _, relaying⟩ := relaying_of_handle hvalue hok hanswer
      refine ⟨?_, relaying.answerable⟩
      obtain rfl := Except.ok.inj ((handle_ok hvalue).symm.trans hok)
      dsimp only at hanswer
      cases hsent : applyEgressTransforms value (modelOf value) (caps r.route) with
      | some sent => exact ⟨sent, rfl⟩
      | none =>
        unfold Passthrough.calls at hanswer
        dsimp only at hanswer
        rw [hsent] at hanswer
        cases hanswer
    · intro ⟨⟨sent, hsent⟩, hup⟩
      obtain rfl := Except.ok.inj ((handle_ok hvalue).symm.trans hok)
      obtain ⟨front, -, hcalls⟩ :=
        calls_eq (p := p) (h := h) (t := t) (guardedRequest r requestId value) (.read up) hsent
      dsimp only
      rw [hcalls]
      exact exchange_of_answerable p h r t _ up hup
  · have hheaders := mem_relayHeaders hp up.headers
    obtain ⟨front, calls, hfront, hrecorded, relaying⟩ := relaying_of_handle hvalue hok hanswer
    cases relaying with
    | failed hstatus hstream htext =>
      refine ⟨rfl, fun kv => ?_, ?_⟩
      · rw [List.mem_cons, hheaders]
        constructor
        · rintro (rfl | hrelayed)
          · exact .json
          · exact .relayed hrelayed
        · rintro (hrelayed | _)
          · exact Or.inr hrelayed
          · exact Or.inl rfl
      · rw [applyErrorTranslation_eq]
        exact .text hstatus hstream htext
    | stream hstream =>
      refine ⟨rfl, fun kv => ?_, given_stream hstream _ _⟩
      rw [List.mem_append, mem_streamDefaults, hheaders]
      simp only [hheaders]
      constructor
      · rintro (hrelayed | ⟨hmem, hmissing⟩)
        · exact .relayed hrelayed
        · exact .stream hmem hmissing
      · rintro (hrelayed | _ | ⟨hmem, hmissing⟩)
        · exact Or.inl hrelayed
        · exact Or.inr ⟨hmem, hmissing⟩
    | @whole streaming body text hstatus hstream hbytes htext =>
      have hdump := mem_lifetime_response handling.request hfront t.drop t.response
        (.utf8 (String.ofList text)) up.status.code (p.relayHeaders up.headers)
        (p.args r t t.elapsed streaming) t.dropElapsed
      rw [← hrecorded] at hdump
      refine ⟨rfl, fun kv => ?_, .bytes hstatus hstream hbytes ⟨_, hdump, rfl, rfl, rfl, ?_⟩⟩
      · rw [hheaders]
        constructor
        · exact .relayed
        · rintro (hrelayed | _)
          exact hrelayed
      · show encodeUtf8 (String.ofList text).toList = body
        rw [String.toList_ofList]
        exact (fromUtf8_eq_some_iff.mp htext).symm

end

/-- `serde_json::from_slice`, of texts without spaces. -/
def readSlice (body : List UInt8) : Except String Json :=
  match (fromUtf8 body).bind fun text => Json.parse (String.ofList text) with
  | some value => .ok value
  | none => .error "expected value"

theorem readSlice_toVec {value : Json} (h : Json.Numeric value) :
    readSlice value.toVec = .ok value := by
  have htext : fromUtf8 value.toVec = some value.render.toList := fromUtf8_eq_some_iff.mpr rfl
  unfold readSlice
  rw [htext, Option.bind_some, String.ofList_toList, Json.parse_render h]

def plainHandlers : Handlers :=
  { statsMode := .all, dumpMode := .all, errorTranslation := [], fromSlice := readSlice }

def plainRoute : Configuration.RouteTarget :=
  { sectionName := "local", endpointOpenai := none, endpointAnthropic := some "http://localhost"
    endpointInteractions := none, apiKey := some "key", maxTokens := some 100
    maxOutputTokens := none, maxCompletionTokens := none, modelNames := ["m"]
    dropFields := .all [], proxy := none, proxyLimit := none, controlCleanAll := none
    controlExtendLifetime := none }

def plainBody : Json := .obj [("model", .str "m")]

theorem plainBody_numeric : Json.Numeric plainBody :=
  .obj (List.forall_mem_singleton.mpr (.str "m"))

def plainPassed (body : List UInt8) : Passed :=
  { body := body, headers := EntryMap.empty, route := plainRoute, endpoint := "http://localhost" }

def plainReadings : Readings :=
  { ingress := "", egress := "", response := "", finish := "", drop := "", elapsed := 0
    dropElapsed := 0 }

/-- An upstream that says `{}`. -/
def plainUpstream : UpstreamResponse Unit :=
  { status := ⟨200, by decide⟩, headers := [("content-type", some "application/json")]
    text := .read "\x7b\x7d", bytes := .read [123, 125], stream := () }

theorem answers_relayed_plain :
    ∃ handling, fromAnthropic.handle plainHandlers (plainPassed plainBody.toVec) plainReadings "0-0"
        (.read plainUpstream) = .ok handling ∧
      ∃ response, handling.outcome = some (.ok response) ∧
        response.status = plainUpstream.status := by
  have hbody (body : List UInt8) (value : Json) (h : readSlice body = .ok value) :
      plainHandlers.fromSlice (plainPassed body).body = .ok value := h
  have hvalue := hbody _ _ (readSlice_toVec plainBody_numeric)
  have hok := @handle_ok Unit fromAnthropic plainHandlers (plainPassed plainBody.toVec)
    plainReadings "0-0" (.read plainUpstream) _ hvalue
  obtain ⟨hanswered, hrelayed⟩ := answers_relayed (Or.inl rfl) hvalue hok
  have hup : Answerable plainUpstream :=
    Or.inr (Or.inr ⟨rfl, [123, 125], ['\x7b', '\x7d'], rfl, fromUtf8_eq_some_iff.mpr (by decide)⟩)
  obtain ⟨response, hresponse⟩ := hanswered.mpr ⟨Or.inl (Or.inl ⟨_, rfl⟩), hup⟩
  exact ⟨_, hok, response, hresponse, (hrelayed response hresponse).1⟩

end InfSplitter.Server
