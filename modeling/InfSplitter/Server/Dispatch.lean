import InfSplitter.Configuration.Routing
import InfSplitter.Diagnostics.Requests
import InfSplitter.Json.Reading

/-!
# From a request to its handler

`dispatch_messages` looks at the model of a body, resolves its route, and hands the request to the
handler of an upstream: of the client's own protocol if the route has an endpoint for it, then of
the other one, then of the interactions. A request that cannot be handed on is recorded by hand,
without a guard, and answered with an error.

Two errors are there that a loaded configuration never gives: a route to a section that does not
exist, and a section with no endpoint at all. So a request is either refused for what it is
(`Answered`), with one event and one dump under an id of its own, or it reaches a section of the
file. An id of its own is one that no other refusal has and that no guard took (`Logged`).
-/

set_option autoImplicit false

namespace InfSplitter.Server

open InfSplitter.Configuration Diagnostics Egress Interactions Lib

/-! ## Errors -/

inductive AppError
  | badRequest (message : String)
  | upstream (message : String)
  | internal (message : String)
deriving DecidableEq, Repr

namespace AppError

def status : AppError → UInt16
  | .badRequest _ => 400
  | .upstream _ => 502
  | .internal _ => 500

def errorType : AppError → String
  | .badRequest _ => "invalid_request_error"
  | .upstream _ => "upstream_error"
  | .internal _ => "internal_error"

/-- `to_string`. -/
def shown : AppError → String
  | .badRequest message => "bad request: " ++ message
  | .upstream message => "upstream error: " ++ message
  | .internal message => "internal error: " ++ message

/-- `into_response`: the status and the body. -/
def intoResponse (e : AppError) : UInt16 × Json :=
  (e.status, .obj [("type", .str "error"),
    ("error", .obj [("type", .str e.errorType), ("message", .str e.shown)])])

end AppError

/-- `to_string` of the errors the configuration is refused with. -/
def configErrorShown : ConfigError → String
  | .provider name message => "provider section " ++ name ++ ": " ++ message
  | .duplicateModel model first second =>
    "duplicate model " ++ model ++ " in sections " ++ first ++ " and " ++ second
  | .multipleDefaults first second =>
    "multiple default provider sections: " ++ first ++ " and " ++ second
  | .unknownDropModel sectionName model =>
    "drop_fields references model " ++ model ++ " not in section " ++ sectionName
  | .unroutableModel model =>
    "no provider section defines models = \"default\" and model " ++ model ++
      " is not listed elsewhere"
  | .secretNotFound name =>
    "secret not found for " ++ name ++ ": set env var or secrets/" ++ name ++ " file"
  | .noProviders => "config must define at least one provider section"
  | .port message => "invalid listen port: " ++ message
  | .invalidDuration value message => "invalid duration " ++ value ++ ": " ++ message
  | .invalidByteSize value message => "invalid byte size " ++ value ++ ": " ++ message
  | .invalidApiKey sectionName message =>
    "invalid api_key in section " ++ sectionName ++ ": " ++ message
  | .io message => "failed to read config file: " ++ message

/-- `From<ConfigError>`. -/
def AppError.ofConfigError : ConfigError → AppError
  | .unroutableModel model => .badRequest ("no route configured for model " ++ model)
  | other => .internal (configErrorShown other)

/-! ## Dispatching -/

structure Request where
  ingress : Protocol
  headers : HeaderMap
  body : List UInt8
  -- the clock, when the event and when the dump is recorded
  statsTs : String
  dumpTs : String

/-- The handle of the diagnostics, which all requests share. -/
structure Handle where
  startSecs : Nat
  counter : Nat
  recorded : Recorded

structure Serde where
  /-- `serde_json::from_str`, or the text of its error -/
  fromStr : String → Except String Json
  /-- the text of the error for a value that is no `MessagePeek` -/
  peekError : Json → String

/-- `serde_json::from_str::<MessagePeek>`. -/
def Serde.peek (serde : Serde) (text : String) : Except String String :=
  match serde.fromStr text with
  | .error e => .error e
  | .ok j =>
    match messagePeek j with
    | some model => .ok model
    | none => .error (serde.peekError j)

inductive Upstream
  | openAi
  | anthropic
  | interactions
deriving DecidableEq, Repr

/-- A request that is handed to the handler of an upstream. -/
structure Handed where
  upstream : Upstream
  route : Configuration.RouteTarget
  endpoint : String
deriving DecidableEq, Repr

def directionShown : Protocol → String
  | .openAi => "OPENAI"
  | .anthropic => "ANTHROPIC"

section
variable (handle : Handle) (request : Request) (model error : String)

/-- The id that `new_request_id` gives next. -/
def Handle.nextId : String := newRequestId handle.startSecs handle.counter

/-- `new_request_id` was called. -/
def Handle.take : Handle := { handle with counter := handle.counter + 1 }

/-- The event of a refusal; most of its fields are the defaults. -/
def refusalEvent : StatsEvent :=
  { sectionName := "?", requestId := handle.nextId
    ts := request.statsTs, direction := directionShown request.ingress, model := model
    upstream := "", status := 400, durationMs := 0, requestSizeBytes := request.body.length
    responseSizeBytes := none, streaming := false, inputMessages := none, maxTokens := none
    messagesDetailIngress := none, messagesDetailEgress := none, error := some error }

def refusalDump : DumpEvent :=
  { sectionName := "?", requestId := handle.nextId
    ts := request.dumpTs, stage := "ingress", direction := "request", model := model
    headers := headerPairsWithMasking request.headers, body := dumpBodyFromBytes request.body
    status := none }

/-- What all refusals record, under a new id. -/
def Handle.reject : Handle :=
  { handle.take with
    recorded :=
      { stats := handle.recorded.stats ++ [refusalEvent handle request model error]
        dumps := handle.recorded.dumps ++ [(refusalDump handle request model, true)] } }

end

/-- The handler of a route. -/
def handOver (ingress : Protocol) (route : Configuration.RouteTarget) : Except AppError Handed :=
  match ingress with
  | .openAi =>
    match route.endpointOpenai, route.endpointAnthropic, route.endpointInteractions with
    | some endpoint, _, _ => .ok ⟨.openAi, route, endpoint⟩
    | none, some endpoint, _ => .ok ⟨.anthropic, route, endpoint⟩
    | none, none, some endpoint => .ok ⟨.interactions, route, endpoint⟩
    | none, none, none => .error (.internal "no endpoint configured for this provider")
  | .anthropic =>
    match route.endpointAnthropic, route.endpointOpenai, route.endpointInteractions with
    | some endpoint, _, _ => .ok ⟨.anthropic, route, endpoint⟩
    | none, some endpoint, _ => .ok ⟨.openAi, route, endpoint⟩
    | none, none, some endpoint => .ok ⟨.interactions, route, endpoint⟩
    | none, none, none => .error (.internal "no endpoint configured for this provider")

section
variable (serde : Serde) (config : Config)

def dispatchMessages (handle : Handle) (request : Request) : Except AppError Handed × Handle :=
  match fromUtf8 request.body with
  | none => (.error (.badRequest "non-utf8"), handle.reject request "?" "non-utf8")
  | some text =>
    match serde.peek (String.ofList text) with
    | .error e =>
      (.error (.badRequest ("invalid JSON body: " ++ e)),
        handle.reject request "?" ("invalid JSON body: " ++ e))
    | .ok model =>
      if trimText model = "" then
        (.error (.badRequest "model must not be empty"),
          handle.reject request "?" "model must not be empty")
      else
        match config.resolveRoute model with
        | .error e =>
          (.error (AppError.ofConfigError e), handle.reject request model (configErrorShown e))
        | .ok route => (handOver request.ingress route, handle)

/-- What happens to the handle: a request arrives, or the guard of one that was handed on takes its
id. -/
inductive Arrival
  | request (request : Request)
  | guard

/-- What comes of some arrivals. -/
structure Served where
  outcomes : List (Request × Except AppError Handed)
  -- of the guards
  taken : List String
  handle : Handle

/-- Some arrivals, one after the other as far as the handle is concerned. -/
def serve (handle : Handle) : List Arrival → Served
  | [] => ⟨[], [], handle⟩
  | .guard :: rest =>
    let served := serve handle.take rest
    { served with taken := handle.nextId :: served.taken }
  | .request request :: rest =>
    let (outcome, handle) := dispatchMessages serde config handle request
    let served := serve handle rest
    { served with outcomes := (request, outcome) :: served.outcomes }

end

/-! ## What a request is answered with -/

/-- The endpoints of a route, as they are preferred. -/
def upstreams (ingress : Protocol) (route : Configuration.RouteTarget) :
    List (Upstream × String) :=
  let openAi := route.endpointOpenai.toList.map (Upstream.openAi, ·)
  let anthropic := route.endpointAnthropic.toList.map (Upstream.anthropic, ·)
  let interactions := route.endpointInteractions.toList.map (Upstream.interactions, ·)
  match ingress with
  | .openAi => openAi ++ anthropic ++ interactions
  | .anthropic => anthropic ++ openAi ++ interactions

section
variable (env : Environment) (file : FileConfig) (serde : Serde)

/-- The section a model is for. -/
def SectionOf (model : String) (e : Entry) : Prop :=
  e ∈ file.providers ∧ (model ∈ e.names ∨
    e.isDefault = true ∧ ∀ other ∈ file.providers, model ∉ Entry.names other)

/-- The model the body of a request names. -/
def Names (request : Request) (model : String) : Prop :=
  ∃ text, fromUtf8 request.body = some text ∧ serde.peek (String.ofList text) = .ok model ∧
    trimText model ≠ ""

/-- How requests are answered under a file. -/
inductive Answered (request : Request) : Except AppError Handed → Prop
  | nonUtf8 (h : fromUtf8 request.body = none) : Answered request (.error (.badRequest "non-utf8"))
  | invalid {text : List Char} {e : String} (h : fromUtf8 request.body = some text)
      (hpeek : serde.peek (String.ofList text) = .error e) :
      Answered request (.error (.badRequest ("invalid JSON body: " ++ e)))
  | blank {text : List Char} {model : String} (h : fromUtf8 request.body = some text)
      (hpeek : serde.peek (String.ofList text) = .ok model) (hblank : trimText model = "") :
      Answered request (.error (.badRequest "model must not be empty"))
  | unrouted {model : String} (names : Names serde request model)
      (none : ∀ e, ¬ SectionOf file model e) :
      Answered request (.error (.badRequest ("no route configured for model " ++ model)))
  | handed {model endpoint : String} {e : Entry} {built : ProviderSection} {upstream : Upstream}
      (names : Names serde request model) (own : SectionOf file model e)
      (read : readSection env e.1 e.2 = .ok (e.isDefault, built))
      (first : (upstreams request.ingress (built.route file.defaultCaps)).head? =
        some (upstream, endpoint)) :
      Answered request (.ok ⟨upstream, built.route file.defaultCaps, endpoint⟩)

end

/-- What is told of a refusal to the client, and what the log has of it. -/
inductive Reason : AppError → String → Prop
  | same (message : String) : Reason (.badRequest message) message
  | unrouted (model : String) :
    Reason (AppError.ofConfigError (.unroutableModel model))
      (configErrorShown (.unroutableModel model))

section
variable {env : Environment} {hashOrder : HashOrder} {file : FileConfig} {config : Config}

/-- The handler is that of the first endpoint. -/
theorem handOver_ok {ingress : Protocol} {route : Configuration.RouteTarget}
    (h : route.endpointOpenai.isSome ∨ route.endpointAnthropic.isSome ∨
      route.endpointInteractions.isSome) :
    ∃ upstream endpoint, (upstreams ingress route).head? = some (upstream, endpoint) ∧
      handOver ingress route = .ok ⟨upstream, route, endpoint⟩ := by
  revert h
  unfold handOver upstreams
  cases ingress <;> cases route.endpointOpenai <;> cases route.endpointAnthropic <;>
    cases route.endpointInteractions <;> simp

/-- A route is that of the section the model is for, as it was read. -/
theorem resolveRoute_cases (h : fromFileConfig env hashOrder file = .ok config) (model : String) :
    (∃ e built, SectionOf file model e ∧ readSection env e.1 e.2 = .ok (e.isDefault, built) ∧
        config.sections.lookup e.1 = some built ∧
        config.resolveRoute model = .ok (built.route file.defaultCaps)) ∨
      (∀ e, ¬ SectionOf file model e) ∧
        config.resolveRoute model = .error (.unroutableModel model) := by
  obtain ⟨-, hdefaults, loaded⟩ := fromFileConfig_ok h
  have routed {e : Entry} (he : e ∈ file.providers)
      (hroute : (config.modelRoutes.lookup model).or config.defaultSection = some e.1) :
      ∃ built, readSection env e.1 e.2 = .ok (e.isDefault, built) ∧
        config.sections.lookup e.1 = some built ∧
        config.resolveRoute model = .ok (built.route file.defaultCaps) := by
    obtain ⟨built, hread, hlookup⟩ := loaded.sections e he
    dsimp only at hlookup
    refine ⟨built, hread, hlookup, ?_⟩
    unfold Config.resolveRoute
    simp only [hroute, hlookup, hdefaults]
  cases hlookup : config.modelRoutes.lookup model with
  | some name =>
    obtain ⟨e, he, rfl, hlisted⟩ := (loaded.routes model name).mp hlookup
    obtain ⟨built, hread, hresolved⟩ := routed he (by rw [hlookup, Option.some_or])
    exact Or.inl ⟨e, built, ⟨he, Or.inl hlisted⟩, hread, hresolved⟩
  | none =>
    have unlisted := (loaded.not_listed_iff model).mp hlookup
    cases hdefault : config.defaultSection with
    | some name =>
      obtain ⟨e, he, rfl, hisDefault⟩ := (loaded.default name).mp hdefault
      obtain ⟨built, hread, hresolved⟩ := routed he (by rw [hlookup, Option.none_or, hdefault])
      exact Or.inl ⟨e, built, ⟨he, Or.inr ⟨hisDefault, unlisted⟩⟩, hread, hresolved⟩
    | none =>
      refine Or.inr ⟨fun e ⟨he, hown⟩ => ?_, ?_⟩
      · rcases hown with hlisted | ⟨hisDefault, _⟩
        · exact unlisted e he hlisted
        · rw [loaded.no_default_iff.mp hdefault e he] at hisDefault
          cases hisDefault
      · unfold Config.resolveRoute
        rw [hlookup, hdefault]
        rfl

/-- **What one request is answered with**, and that the handle is left alone exactly if it is handed
on. -/
theorem dispatch_cases (h : fromFileConfig env hashOrder file = .ok config) (serde : Serde)
    (handle : Handle) (request : Request) :
    Answered env file serde request (dispatchMessages serde config handle request).1 ∧
      ((∃ handed, dispatchMessages serde config handle request = (.ok handed, handle)) ∨
        ∃ e model error, Reason e error ∧
          dispatchMessages serde config handle request =
            (.error e, handle.reject request model error)) := by
  unfold dispatchMessages
  cases htext : fromUtf8 request.body with
  | none => exact ⟨.nonUtf8 htext, Or.inr ⟨_, _, _, .same _, rfl⟩⟩
  | some text =>
    cases hpeek : serde.peek (String.ofList text) with
    | error e =>
      simp only [hpeek]
      exact ⟨.invalid htext hpeek, Or.inr ⟨_, _, _, .same _, rfl⟩⟩
    | ok model =>
      by_cases hblank : trimText model = ""
      · simp only [hpeek, if_pos hblank]
        exact ⟨.blank htext hpeek hblank, Or.inr ⟨_, _, _, .same _, rfl⟩⟩
      · have names : Names serde request model := ⟨text, htext, hpeek, hblank⟩
        simp only [hpeek, if_neg hblank]
        rcases resolveRoute_cases h model with
          ⟨e, built, own, hread, _, hresolve⟩ | ⟨none, hresolve⟩
        · obtain ⟨_, _, hroute⟩ := readSection_ok hread
          obtain ⟨upstream, endpoint, first, hhanded⟩ :=
            @handOver_ok request.ingress _ (hroute file).endpoint
          simp only [hresolve, hhanded]
          exact ⟨.handed names own hread first, Or.inl ⟨_, rfl⟩⟩
        · simp only [hresolve]
          exact ⟨.unrouted names none, Or.inr ⟨_, _, _, .unrouted _, rfl⟩⟩

end

/-! ## What is recorded of the refusals -/

/-- The requests that are refused, and what with. -/
def refused (outcomes : List (Request × Except AppError Handed)) : List (Request × AppError) :=
  outcomes.filterMap fun o =>
    match o.2 with
    | .error e => some (o.1, e)
    | .ok _ => none

/-- The event and the dump of a request that is refused. -/
structure RefusedAs (request : Request) (told : AppError) (event : StatsEvent) (dump : DumpEvent) :
    Prop where
  requestId : dump.requestId = event.requestId
  sections : event.sectionName = "?" ∧ dump.sectionName = "?"
  direction : event.direction = directionShown request.ingress
  status : event.status = 400
  error : ∃ error, event.error = some error ∧ Reason told error
  size : event.requestSizeBytes = request.body.length
  body : dump.body = dumpBodyFromBytes request.body
  headers : dump.headers = headerPairsWithMasking request.headers

/-- The ids of some guards and of the events of some refusals. -/
def allIds (taken : List String) (events : List (StatsEvent × DumpEvent)) : List String :=
  taken ++ events.map fun e => e.1.requestId

/-- What some arrivals leave in the log: an event and a dump for each request that is refused, under
an id that nothing else has, neither a refusal nor a guard. -/
structure Logged (before : Handle) (served : Served) (events : List (StatsEvent × DumpEvent)) :
    Prop where
  stats : served.handle.recorded.stats = before.recorded.stats ++ events.map Prod.fst
  dumps : served.handle.recorded.dumps = before.recorded.dumps ++ events.map fun e => (e.2, true)
  each : List.Forall₂ (fun r e => RefusedAs r.1 r.2 e.1 e.2) (refused served.outcomes) events
  ids : (allIds served.taken events).Nodup
  since : ∀ id ∈ allIds served.taken events, ∃ n, before.counter ≤ n ∧ n < served.handle.counter ∧
    id = newRequestId before.startSecs n
  startSecs : served.handle.startSecs = before.startSecs
  counter : before.counter ≤ served.handle.counter

theorem newRequestId_inj {startSecs m n : Nat}
    (h : newRequestId startSecs m = newRequestId startSecs n) : m = n := by
  unfold newRequestId at h
  have hlist := congrArg String.toList h
  simp only [String.toList_append] at hlist
  exact toString_nat_inj (String.toList_injective (List.append_cancel_left hlist))

namespace Logged

variable {before : Handle} {served : Served} {events : List (StatsEvent × DumpEvent)}

theorem refl (handle : Handle) : Logged handle ⟨[], [], handle⟩ [] where
  stats := (List.append_nil _).symm
  dumps := (List.append_nil _).symm
  each := .nil
  ids := .nil
  since := List.forall_mem_nil _
  startSecs := rfl
  counter := Nat.le_refl _

/-- An id that is taken is not given again. -/
theorem notMem {taken : Handle} (h : Logged taken served events)
    (hstart : taken.startSecs = before.startSecs) (hcounter : taken.counter = before.counter + 1) :
    before.nextId ∉ allIds served.taken events := by
  intro hmem
  obtain ⟨n, hle, -, hid⟩ := h.since _ hmem
  rw [hstart] at hid
  rw [hcounter, ← newRequestId_inj hid] at hle
  exact absurd hle (Nat.not_succ_le_self _)

/-- The ids of what comes later, with the one that is taken now. -/
theorem cons_since {taken : Handle} (h : Logged taken served events)
    (hstart : taken.startSecs = before.startSecs) (hcounter : taken.counter = before.counter + 1) :
    ∀ id ∈ before.nextId :: allIds served.taken events,
      ∃ n, before.counter ≤ n ∧ n < served.handle.counter ∧
        id = newRequestId before.startSecs n := by
  have hbelow : before.counter < served.handle.counter := by
    rw [← Nat.succ_le_iff, ← Nat.add_one, ← hcounter]
    exact h.counter
  refine List.forall_mem_cons.mpr ⟨⟨_, Nat.le_refl _, hbelow, rfl⟩, fun id hid => ?_⟩
  obtain ⟨n, hle, hlt, rfl⟩ := h.since id hid
  rw [hcounter] at hle
  rw [hstart]
  exact ⟨n, Nat.le_of_succ_le hle, hlt, rfl⟩

/-- A guard takes an id. -/
theorem guard (h : Logged before.take served events) :
    Logged before { served with taken := before.nextId :: served.taken } events where
  stats := h.stats
  dumps := h.dumps
  each := h.each
  ids := List.nodup_cons.mpr ⟨h.notMem rfl rfl, h.ids⟩
  since := h.cons_since rfl rfl
  startSecs := h.startSecs
  counter := Nat.le_of_succ_le h.counter

theorem handed {request : Request} {handed : Handed} (h : Logged before served events) :
    Logged before { served with outcomes := (request, .ok handed) :: served.outcomes } events :=
  ⟨h.stats, h.dumps, h.each, h.ids, h.since, h.startSecs, h.counter⟩

theorem reject {request : Request} {model error : String} {e : AppError}
    (h : Logged (before.reject request model error) served events) (reason : Reason e error) :
    Logged before { served with outcomes := (request, .error e) :: served.outcomes }
      ((refusalEvent before request model error, refusalDump before request model) ::
        events) := by
  have hperm : (allIds served.taken
      ((refusalEvent before request model error, refusalDump before request model) ::
        events)).Perm (before.nextId :: allIds served.taken events) := List.perm_middle
  refine ⟨?_, ?_, .cons ⟨rfl, ⟨rfl, rfl⟩, rfl, rfl, ⟨_, rfl, reason⟩, rfl, rfl, rfl⟩ h.each, ?_, ?_,
    h.startSecs, Nat.le_of_succ_le h.counter⟩
  · exact h.stats.trans (List.append_assoc ..)
  · exact h.dumps.trans (List.append_assoc ..)
  · exact hperm.nodup_iff.mpr (List.nodup_cons.mpr ⟨h.notMem rfl rfl, h.ids⟩)
  · intro id hid
    exact @cons_since before served events _ h rfl rfl id (hperm.subset hid)

end Logged

section
variable {env : Environment} {hashOrder : HashOrder} {file : FileConfig} {config : Config}

/-- No error is the proxy's own fault. -/
theorem Answered.status {serde : Serde} {request : Request} {outcome : Except AppError Handed}
    (h : Answered env file serde request outcome) {e : AppError} (he : outcome = .error e) :
    e.intoResponse.1 = 400 := by
  cases h <;> cases he <;> rfl

/-- **What some requests are answered with, and what the log has of them.** -/
theorem requests_served (h : fromFileConfig env hashOrder file = .ok config) (serde : Serde)
    (arrivals : List Arrival) (before : Handle) :
    (∀ o ∈ (serve serde config before arrivals).outcomes, Answered env file serde o.1 o.2 ∧
        ∀ e, o.2 = .error e → e.intoResponse.1 = 400) ∧
      ∃ events, Logged before (serve serde config before arrivals) events := by
  induction arrivals generalizing before with
  | nil => exact ⟨List.forall_mem_nil _, [], .refl before⟩
  | cons arrival rest ih =>
    cases arrival with
    | guard =>
      obtain ⟨answered, events, logged⟩ := ih before.take
      exact ⟨answered, events, logged.guard⟩
    | request request =>
      obtain ⟨hanswered, hhandle⟩ := dispatch_cases h serde before request
      unfold serve
      rcases hhandle with ⟨handed, hok⟩ | ⟨e, model, error, reason, herror⟩
      · rw [hok] at hanswered ⊢
        obtain ⟨answered, events, logged⟩ := ih before
        exact ⟨List.forall_mem_cons.mpr ⟨⟨hanswered, fun _ => hanswered.status⟩, answered⟩, events,
          logged.handed⟩
      · rw [herror] at hanswered ⊢
        obtain ⟨answered, events, logged⟩ := ih (before.reject request model error)
        exact ⟨List.forall_mem_cons.mpr ⟨⟨hanswered, fun _ => hanswered.status⟩, answered⟩, _,
          logged.reject reason⟩

end

/-- A body that is no text, between two guards. -/
def notText : List Arrival :=
  let request : Request :=
    { ingress := .openAi, headers := [], body := [255], statsTs := "", dumpTs := "" }
  [.guard, .request request, .guard]

def firstHandle : Handle := { startSecs := 0, counter := 0, recorded := ⟨[], []⟩ }

theorem exists_of_isOk {env : Environment} {hashOrder : HashOrder} {file : FileConfig}
    (haccepted : (fromFileConfig env hashOrder file).isOk = true) :
    ∃ config, fromFileConfig env hashOrder file = .ok config := by
  cases h : fromFileConfig env hashOrder file with
  | ok config => exact ⟨config, rfl⟩
  | error e =>
    rw [h] at haccepted
    cases haccepted

theorem twoSections_accepted :
    ∃ config, fromFileConfig plainEnvironment inOrder twoSections = .ok config :=
  exists_of_isOk (by decide +kernel)

theorem requests_served_notText :
    ∃ config, fromFileConfig plainEnvironment inOrder twoSections = .ok config ∧
      ∀ serde, (serve serde config firstHandle notText).taken = ["0-0", "0-2"] ∧
        ∃ events, Logged firstHandle (serve serde config firstHandle notText) events := by
  obtain ⟨config, hconfig⟩ := twoSections_accepted
  exact ⟨config, hconfig, fun serde =>
    ⟨rfl, (requests_served hconfig serde notText firstHandle).2⟩⟩

/-- Texts without spaces. -/
def plainSerde : Serde where
  fromStr text :=
    match Json.parse text with
    | some value => .ok value
    | none => .error "expected value"
  peekError _ := "missing field"

def tinyBody : Json := .obj [("model", .str "tiny")]

theorem tinyBody_numeric : Json.Numeric tinyBody :=
  .obj (List.forall_mem_singleton.mpr (.str "tiny"))

theorem names_tiny {request : Request} (h : request.body = tinyBody.toVec) :
    Names plainSerde request "tiny" := by
  refine ⟨tinyBody.render.toList, ?_, ?_, by decide⟩
  · rw [h]
    exact fromUtf8_eq_some_iff.mpr rfl
  · unfold Serde.peek plainSerde
    dsimp only
    rw [String.ofList_toList, Json.parse_render tinyBody_numeric]
    rfl

end InfSplitter.Server
