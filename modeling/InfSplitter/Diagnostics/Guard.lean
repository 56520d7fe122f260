import Mathlib.Data.List.Induction
import InfSplitter.Json.Value
import InfSplitter.Lib.Utf8

/-!
# The diagnostics guard

`RequestDiagnostics` collects what is to be recorded about one request and records it when the
request is finished, or when the guard is dropped. A dump is put aside by a recorder and written by
the first call that finishes; every such call sets a flag first, and finds it set the next time.

`diagnostics` is what has gone through the handle so far: the events given to `record_stats` and
`record_dump`. Which of them are written, and where, is a matter of the handle's configuration. The
clock is read by the calls, so its readings stand among their arguments.
-/

set_option autoImplicit false

namespace InfSplitter.Diagnostics

/-! ## What is recorded -/

inductive DumpBody
  | utf8 (text : String)
  -- the bytes that are written in base64
  | base64 (bytes : List UInt8)
deriving DecidableEq, Repr

def maxNonUtf8DumpLen : Nat := 65536

def dumpBodyFromBytes (body : List UInt8) : DumpBody :=
  match Lib.fromUtf8 body with
  | some text => .utf8 (String.ofList text)
  | none => .base64 (body.take maxNonUtf8DumpLen)

def isSensitiveHeader (name : String) : Bool :=
  ["x-goog-api-key", "authorization", "x-api-key"].contains
    (String.ofList (name.toList.map Char.toLower))

/-- `HeaderMap`; the value of a header that is not text is `none`. -/
abbrev HeaderMap := List (String × Option String)

def maskHeaderValues (headers : List (String × String)) : List (String × String) :=
  headers.map fun kv => if isSensitiveHeader kv.1 then (kv.1, "***") else kv

def headerPairsWithMasking (headers : HeaderMap) : List (String × String) :=
  maskHeaderValues (headers.filterMap fun kv => kv.2.map (kv.1, ·))

structure StatsEvent where
  -- `section`
  sectionName : String
  requestId : String
  ts : String
  direction : String
  model : String
  upstream : String
  status : UInt16
  durationMs : UInt64
  requestSizeBytes : Nat
  responseSizeBytes : Option Nat
  streaming : Bool
  inputMessages : Option Nat
  maxTokens : Option UInt32
  messagesDetailIngress : Option Json
  messagesDetailEgress : Option Json
  error : Option String

structure DumpEvent where
  sectionName : String
  requestId : String
  ts : String
  stage : String
  direction : String
  model : String
  headers : List (String × String)
  body : DumpBody
  status : Option UInt16

/-- What has gone through the handle: every dump with its `is_error`. -/
structure Recorded where
  stats : List StatsEvent
  dumps : List (DumpEvent × Bool)

/-! ## The guard -/

structure StoredDump where
  body : DumpBody
  headers : List (String × String)
  ts : String
  status : Option UInt16

/-- The request a guard is for. -/
structure GuardedRequest where
  requestId : String
  sectionName : String
  model : String

structure RequestDiagnostics where
  diagnostics : Recorded
  request : GuardedRequest
  finished : Bool
  ingressSize : Nat
  inputMessages : Option Nat
  maxTokens : Option UInt32
  messagesDetailIngress : Option Json
  messagesDetailEgress : Option Json
  ingressDumpPending : Option StoredDump
  egressDumpsPending : List StoredDump
  responseDumpPending : Option StoredDump
  ingressResponseDumpPending : Option StoredDump

/-- The arguments all finishing calls have in common, and the time of the event. -/
structure FinishArgs where
  ts : String
  durationMs : UInt64
  requestSize : Nat
  upstream : String
  direction : String
  streaming : Bool

def dumpEventOf (request : GuardedRequest) (stage direction : String) (status : Option UInt16)
    (dump : StoredDump) : DumpEvent :=
  { sectionName := request.sectionName, requestId := request.requestId, ts := dump.ts,
    stage := stage, direction := direction, model := request.model, headers := dump.headers,
    body := dump.body, status := status }

/-- The dumps of a flush: requests get the status of the answer, answers keep their own. -/
def flushedDumps (request : GuardedRequest) (status : Option UInt16)
    (ingress : Option StoredDump) (egresses : List StoredDump)
    (response ingressResponse : Option StoredDump) : List DumpEvent :=
  (ingress.map (dumpEventOf request "ingress" "request" status)).toList ++
    egresses.map (dumpEventOf request "egress" "request" status) ++
    (response.map fun dump =>
      dumpEventOf request "egress" "response" dump.status dump).toList ++
    (ingressResponse.map fun dump =>
      dumpEventOf request "ingress" "response" dump.status { dump with headers := [] }).toList

namespace RequestDiagnostics

def new (request : GuardedRequest) : RequestDiagnostics :=
  { diagnostics := { stats := [], dumps := [] }, request := request, finished := false,
    ingressSize := 0, inputMessages := none, maxTokens := none, messagesDetailIngress := none,
    messagesDetailEgress := none, ingressDumpPending := none, egressDumpsPending := [],
    responseDumpPending := none, ingressResponseDumpPending := none }

def ingressDump (guard : RequestDiagnostics) (ts : String) (body : List UInt8)
    (headers : HeaderMap) : RequestDiagnostics :=
  { guard with
    ingressSize := body.length
    ingressDumpPending :=
      some ⟨dumpBodyFromBytes body, headerPairsWithMasking headers, ts, none⟩ }

def egressDump (guard : RequestDiagnostics) (ts : String) (body : List UInt8)
    (headers : HeaderMap) : RequestDiagnostics :=
  { guard with
    egressDumpsPending := guard.egressDumpsPending ++
      [⟨dumpBodyFromBytes body, headerPairsWithMasking headers, ts, none⟩] }

/-- `response_dump`, and `response_dump_streaming`, which does the same. -/
def responseDump (guard : RequestDiagnostics) (ts : String) (body : DumpBody) (status : UInt16)
    (headers : List (String × String)) : RequestDiagnostics :=
  { guard with
    responseDumpPending := some ⟨body, maskHeaderValues headers, ts, some status⟩ }

def ingressResponseDump (guard : RequestDiagnostics) (ts : String) (body : DumpBody)
    (status : UInt16) : RequestDiagnostics :=
  { guard with ingressResponseDumpPending := some ⟨body, [], ts, some status⟩ }

def flushDeferredDumps (guard : RequestDiagnostics) (isError : Bool) (status : Option UInt16) :
    RequestDiagnostics :=
  { guard with
    diagnostics :=
      { guard.diagnostics with
        dumps := guard.diagnostics.dumps ++
          (flushedDumps guard.request status guard.ingressDumpPending guard.egressDumpsPending
            guard.responseDumpPending guard.ingressResponseDumpPending).map (·, isError) }
    ingressDumpPending := none
    egressDumpsPending := []
    responseDumpPending := none
    ingressResponseDumpPending := none }

def recordStats (guard : RequestDiagnostics) (event : StatsEvent) : RequestDiagnostics :=
  { guard with
    diagnostics :=
      { guard.diagnostics with stats := guard.diagnostics.stats ++ [event] } }

/-- The event of a finishing call. -/
def statsEvent (guard : RequestDiagnostics) (status : UInt16) (args : FinishArgs)
    (responseSize : Option Nat) (error : Option String) : StatsEvent :=
  { sectionName := guard.request.sectionName, requestId := guard.request.requestId, ts := args.ts,
    direction := args.direction, model := guard.request.model, upstream := args.upstream,
    status := status, durationMs := args.durationMs, requestSizeBytes := args.requestSize,
    responseSizeBytes := responseSize, streaming := args.streaming,
    inputMessages := guard.inputMessages, maxTokens := guard.maxTokens,
    messagesDetailIngress := guard.messagesDetailIngress,
    messagesDetailEgress := guard.messagesDetailEgress, error := error }

/-- `finish` without an error text, `finish_with_error` with one. -/
def finishAs (guard : RequestDiagnostics) (status : UInt16) (args : FinishArgs)
    (responseSize : Option Nat) (error : Option String) : RequestDiagnostics :=
  if guard.finished then guard
  else
    (({ guard with finished := true }).flushDeferredDumps error.isSome (some status)).recordStats
      (guard.statsEvent status args responseSize error)

def finish (guard : RequestDiagnostics) (status : UInt16) (args : FinishArgs)
    (responseSize : Option Nat) : RequestDiagnostics :=
  guard.finishAs status args responseSize none

def finishWithError (guard : RequestDiagnostics) (status : UInt16) (args : FinishArgs)
    (responseSize : Option Nat) (error : String) : RequestDiagnostics :=
  guard.finishAs status args responseSize (some error)

/-- The dump is put aside whether or not the guard is finished. -/
def finishWithUpstreamError (guard : RequestDiagnostics) (dumpTs : String) (status : UInt16)
    (args : FinishArgs) (errorBody : String) (responseHeaders : List (String × String)) :
    RequestDiagnostics :=
  (guard.responseDump dumpTs (.utf8 errorBody) status responseHeaders).finishWithError status args
    (some errorBody.utf8ByteSize) errorBody

def abortWith (guard : RequestDiagnostics) (status : UInt16) (args : FinishArgs) (error : String) :
    RequestDiagnostics :=
  guard.finishWithError status args none error

def abortUpstream (guard : RequestDiagnostics) (args : FinishArgs) (error : String) :
    RequestDiagnostics :=
  guard.abortWith 502 args error

def abortInternal (guard : RequestDiagnostics) (args : FinishArgs) (error : String) :
    RequestDiagnostics :=
  guard.abortWith 500 args error

def abortBadRequest (guard : RequestDiagnostics) (args : FinishArgs) (error : String) :
    RequestDiagnostics :=
  guard.abortWith 400 args error

/-- The event of a guard that is dropped unfinished; most of its fields are the defaults. -/
def droppedEvent (guard : RequestDiagnostics) (ts : String) (durationMs : UInt64) : StatsEvent :=
  { sectionName := guard.request.sectionName, requestId := guard.request.requestId, ts := ts,
    direction := "", model := guard.request.model, upstream := "", status := 0,
    durationMs := durationMs, requestSizeBytes := guard.ingressSize, responseSizeBytes := none,
    streaming := false, inputMessages := none, maxTokens := none, messagesDetailIngress := none,
    messagesDetailEgress := none, error := some "diagnostics guard dropped without finish" }

def drop (guard : RequestDiagnostics) (ts : String) (durationMs : UInt64) : RequestDiagnostics :=
  if guard.finished then guard
  else (guard.flushDeferredDumps true none).recordStats (guard.droppedEvent ts durationMs)

end RequestDiagnostics

/-! ## Sequences of calls -/

inductive GuardCall
  | setInputMessages (n : Nat)
  | setMaxTokens (n : UInt32)
  | setMessagesDetailIngress (v : Json)
  | setMessagesDetailEgress (v : Json)
  | ingressDump (ts : String) (body : List UInt8) (headers : HeaderMap)
  | egressDump (ts : String) (body : List UInt8) (headers : HeaderMap)
  | responseDump (ts : String) (body : DumpBody) (status : UInt16)
      (headers : List (String × String))
  | ingressResponseDump (ts : String) (body : DumpBody) (status : UInt16)
  | finish (status : UInt16) (args : FinishArgs) (responseSize : Option Nat)
  | finishWithError (status : UInt16) (args : FinishArgs) (responseSize : Option Nat)
      (error : String)
  | finishWithUpstreamError (dumpTs : String) (status : UInt16) (args : FinishArgs)
      (errorBody : String) (responseHeaders : List (String × String))
  | abortUpstream (args : FinishArgs) (error : String)
  | abortInternal (args : FinishArgs) (error : String)
  | abortBadRequest (args : FinishArgs) (error : String)

namespace GuardCall

def run (guard : RequestDiagnostics) : GuardCall → RequestDiagnostics
  | .setInputMessages n => { guard with inputMessages := some n }
  | .setMaxTokens n => { guard with maxTokens := some n }
  | .setMessagesDetailIngress v => { guard with messagesDetailIngress := some v }
  | .setMessagesDetailEgress v => { guard with messagesDetailEgress := some v }
  | .ingressDump ts body headers => guard.ingressDump ts body headers
  | .egressDump ts body headers => guard.egressDump ts body headers
  | .responseDump ts body status headers => guard.responseDump ts body status headers
  | .ingressResponseDump ts body status => guard.ingressResponseDump ts body status
  | .finish status args responseSize => guard.finish status args responseSize
  | .finishWithError status args responseSize error =>
    guard.finishWithError status args responseSize error
  | .finishWithUpstreamError dumpTs status args errorBody responseHeaders =>
    guard.finishWithUpstreamError dumpTs status args errorBody responseHeaders
  | .abortUpstream args error => guard.abortUpstream args error
  | .abortInternal args error => guard.abortInternal args error
  | .abortBadRequest args error => guard.abortBadRequest args error

/-- How a finishing call finishes. -/
structure Finishing where
  status : UInt16
  args : FinishArgs
  responseSize : Option Nat
  error : Option String

def finishing : GuardCall → Option Finishing
  | .finish status args responseSize => some ⟨status, args, responseSize, none⟩
  | .finishWithError status args responseSize error =>
    some ⟨status, args, responseSize, some error⟩
  | .finishWithUpstreamError _ status args errorBody _ =>
    some ⟨status, args, some errorBody.utf8ByteSize, some errorBody⟩
  | .abortUpstream args error => some ⟨502, args, none, some error⟩
  | .abortInternal args error => some ⟨500, args, none, some error⟩
  | .abortBadRequest args error => some ⟨400, args, none, some error⟩
  | _ => none

/-! What each call records of its own. -/

def ingressOf : GuardCall → Option StoredDump
  | .ingressDump ts body headers =>
    some ⟨dumpBodyFromBytes body, headerPairsWithMasking headers, ts, none⟩
  | _ => none

def ingressSizeOf : GuardCall → Option Nat
  | .ingressDump _ body _ => some body.length
  | _ => none

def egressOf : GuardCall → Option StoredDump
  | .egressDump ts body headers =>
    some ⟨dumpBodyFromBytes body, headerPairsWithMasking headers, ts, none⟩
  | _ => none

def responseOf : GuardCall → Option StoredDump
  | .responseDump ts body status headers =>
    some ⟨body, maskHeaderValues headers, ts, some status⟩
  | .finishWithUpstreamError dumpTs status _ errorBody responseHeaders =>
    some ⟨.utf8 errorBody, maskHeaderValues responseHeaders, dumpTs, some status⟩
  | _ => none

def ingressResponseOf : GuardCall → Option StoredDump
  | .ingressResponseDump ts body status => some ⟨body, [], ts, some status⟩
  | _ => none

def inputMessagesOf : GuardCall → Option Nat
  | .setInputMessages n => some n
  | _ => none

def maxTokensOf : GuardCall → Option UInt32
  | .setMaxTokens n => some n
  | _ => none

def messagesDetailIngressOf : GuardCall → Option Json
  | .setMessagesDetailIngress v => some v
  | _ => none

def messagesDetailEgressOf : GuardCall → Option Json
  | .setMessagesDetailEgress v => some v
  | _ => none

end GuardCall

def runCalls (guard : RequestDiagnostics) (calls : List GuardCall) : RequestDiagnostics :=
  calls.foldl GuardCall.run guard

/-- The last value that the calls record of a kind. -/
def latest {α : Type} (of : GuardCall → Option α) (calls : List GuardCall) : Option α :=
  (calls.filterMap of).getLast?

@[simp] theorem latest_nil {α : Type} (of : GuardCall → Option α) : latest of [] = none := rfl

@[simp] theorem latest_snoc {α : Type} (of : GuardCall → Option α) (calls : List GuardCall)
    (call : GuardCall) : latest of (calls ++ [call]) = (of call).or (latest of calls) := by
  unfold latest
  rw [List.filterMap_append, List.getLast?_append]
  cases h : of call <;> simp [h]

/-- The guard's state is what the calls have recorded. -/
structure Holds (request : GuardedRequest) (calls : List GuardCall) (guard : RequestDiagnostics) :
    Prop where
  request : guard.request = request
  ingressSize : guard.ingressSize = (latest GuardCall.ingressSizeOf calls).getD 0
  inputMessages : guard.inputMessages = latest GuardCall.inputMessagesOf calls
  maxTokens : guard.maxTokens = latest GuardCall.maxTokensOf calls
  messagesDetailIngress :
    guard.messagesDetailIngress = latest GuardCall.messagesDetailIngressOf calls
  messagesDetailEgress :
    guard.messagesDetailEgress = latest GuardCall.messagesDetailEgressOf calls
  ingressDump : guard.ingressDumpPending = latest GuardCall.ingressOf calls
  egressDumps : guard.egressDumpsPending = calls.filterMap GuardCall.egressOf
  responseDump : guard.responseDumpPending = latest GuardCall.responseOf calls
  ingressResponseDump :
    guard.ingressResponseDumpPending = latest GuardCall.ingressResponseOf calls

/-- The dumps a flush after the calls records. -/
def flushed (request : GuardedRequest) (calls : List GuardCall) (status : Option UInt16) :
    List DumpEvent :=
  flushedDumps request status (latest GuardCall.ingressOf calls)
    (calls.filterMap GuardCall.egressOf) (latest GuardCall.responseOf calls)
    (latest GuardCall.ingressResponseOf calls)

/-- The event of a call that finishes after the calls. -/
def finishedEvent (request : GuardedRequest) (calls : List GuardCall)
    (f : GuardCall.Finishing) : StatsEvent :=
  { sectionName := request.sectionName, requestId := request.requestId, ts := f.args.ts,
    direction := f.args.direction, model := request.model, upstream := f.args.upstream,
    status := f.status, durationMs := f.args.durationMs,
    requestSizeBytes := f.args.requestSize, responseSizeBytes := f.responseSize,
    streaming := f.args.streaming, inputMessages := latest GuardCall.inputMessagesOf calls,
    maxTokens := latest GuardCall.maxTokensOf calls,
    messagesDetailIngress := latest GuardCall.messagesDetailIngressOf calls,
    messagesDetailEgress := latest GuardCall.messagesDetailEgressOf calls, error := f.error }

/-- The event of a guard that is dropped after the calls, none of which finished it. -/
def unfinishedEvent (request : GuardedRequest) (calls : List GuardCall) (ts : String)
    (durationMs : UInt64) : StatsEvent :=
  { sectionName := request.sectionName, requestId := request.requestId, ts := ts,
    direction := "", model := request.model, upstream := "", status := 0,
    durationMs := durationMs,
    requestSizeBytes := (latest GuardCall.ingressSizeOf calls).getD 0, responseSizeBytes := none,
    streaming := false, inputMessages := none, maxTokens := none, messagesDetailIngress := none,
    messagesDetailEgress := none, error := some "diagnostics guard dropped without finish" }

/-! ## One call -/

variable {request : GuardedRequest} {calls : List GuardCall} {guard : RequestDiagnostics}
  {call : GuardCall}

theorem Holds.new (request : GuardedRequest) : Holds request [] (RequestDiagnostics.new request) := by
  constructor <;> rfl

/-- A call that does not finish the guard puts aside what it records. -/
theorem Holds.run (h : Holds request calls guard) (hc : call.finishing = none) :
    Holds request (calls ++ [call]) (call.run guard) := by
  obtain ⟨h1, h2, h3, h4, h5, h6, h7, h8, h9, h10⟩ := h
  cases call with
  | finish | finishWithError | finishWithUpstreamError | abortUpstream | abortInternal
  | abortBadRequest => simp [GuardCall.finishing] at hc
  | _ =>
    constructor <;>
      simp [GuardCall.run, RequestDiagnostics.ingressDump, RequestDiagnostics.egressDump,
        RequestDiagnostics.responseDump, RequestDiagnostics.ingressResponseDump,
        GuardCall.ingressOf, GuardCall.ingressSizeOf, GuardCall.egressOf, GuardCall.responseOf,
        GuardCall.ingressResponseOf, GuardCall.inputMessagesOf, GuardCall.maxTokensOf,
        GuardCall.messagesDetailIngressOf, GuardCall.messagesDetailEgressOf, *]

/-- It records nothing. -/
theorem run_of_not_finishing (hc : call.finishing = none) :
    (call.run guard).diagnostics = guard.diagnostics ∧
      (call.run guard).finished = guard.finished := by
  cases call with
  | finish | finishWithError | finishWithUpstreamError | abortUpstream | abortInternal
  | abortBadRequest => simp [GuardCall.finishing] at hc
  | _ => exact ⟨rfl, rfl⟩

/-- The guard as a finishing call finds it after the dump it puts aside itself, if it does. -/
def GuardCall.prepare (guard : RequestDiagnostics) (call : GuardCall) : RequestDiagnostics :=
  { guard with responseDumpPending := call.responseOf.or guard.responseDumpPending }

theorem run_of_finishing {f : GuardCall.Finishing} (hc : call.finishing = some f) :
    call.run guard = (call.prepare guard).finishAs f.status f.args f.responseSize f.error := by
  cases call with
  | finish | finishWithError | finishWithUpstreamError | abortUpstream | abortInternal
  | abortBadRequest =>
    cases hc
    rfl
  | _ => simp [GuardCall.finishing] at hc

/-- No call records anything on a finished guard. -/
theorem run_of_finished (h : guard.finished = true) (call : GuardCall) :
    (call.run guard).diagnostics = guard.diagnostics ∧ (call.run guard).finished = true := by
  cases hc : call.finishing with
  | none =>
    obtain ⟨hd, hf⟩ := @run_of_not_finishing guard call hc
    exact ⟨hd, hf.trans h⟩
  | some f =>
    have hprepared : (call.prepare guard).finished = true := h
    rw [run_of_finishing hc]
    unfold RequestDiagnostics.finishAs
    rw [if_pos hprepared]
    exact ⟨rfl, h⟩

theorem runCalls_of_finished (h : guard.finished = true) (calls : List GuardCall) :
    (runCalls guard calls).diagnostics = guard.diagnostics ∧
      (runCalls guard calls).finished = true := by
  induction calls generalizing guard with
  | nil => exact ⟨rfl, h⟩
  | cons call rest ih =>
    obtain ⟨hd, hf⟩ := run_of_finished h call
    obtain ⟨hd', hf'⟩ := ih hf
    exact ⟨hd'.trans hd, hf'⟩

/-- The first call that finishes records its event and flushes what is put aside. -/
theorem Holds.finish (h : Holds request calls guard) (hf : guard.finished = false)
    {f : GuardCall.Finishing} (hc : call.finishing = some f) :
    (call.run guard).finished = true ∧
      (call.run guard).diagnostics =
        { stats := guard.diagnostics.stats ++ [finishedEvent request calls f]
          dumps := guard.diagnostics.dumps ++
            (flushed request (calls ++ [call]) (some f.status)).map (·, f.error.isSome) } := by
  have hprepared : (call.prepare guard).finished = false := hf
  have hown : call.ingressOf = none ∧ call.egressOf = none ∧ call.ingressResponseOf = none := by
    cases call with
    | finish | finishWithError | finishWithUpstreamError | abortUpstream | abortInternal
    | abortBadRequest => exact ⟨rfl, rfl, rfl⟩
    | _ => simp [GuardCall.finishing] at hc
  obtain ⟨hi, he, hr⟩ := hown
  rw [run_of_finishing hc]
  unfold RequestDiagnostics.finishAs
  rw [if_neg (by rw [hprepared]; simp)]
  refine ⟨rfl, ?_⟩
  have hevent : (call.prepare guard).statsEvent f.status f.args f.responseSize f.error =
      finishedEvent request calls f := by
    unfold RequestDiagnostics.statsEvent finishedEvent GuardCall.prepare
    rw [h.request, h.inputMessages, h.maxTokens, h.messagesDetailIngress, h.messagesDetailEgress]
  have hdumps : flushedDumps guard.request (some f.status) guard.ingressDumpPending
      guard.egressDumpsPending (call.responseOf.or guard.responseDumpPending)
      guard.ingressResponseDumpPending = flushed request (calls ++ [call]) (some f.status) := by
    unfold flushed
    rw [latest_snoc, latest_snoc, latest_snoc, List.filterMap_append, hi, hr, h.request,
      h.ingressDump, h.egressDumps, h.responseDump, h.ingressResponseDump]
    simp [he]
  rw [hevent]
  unfold RequestDiagnostics.recordStats RequestDiagnostics.flushDeferredDumps
  simp only [GuardCall.prepare, hdumps]

/-! ## All calls of a guard -/

/-- A guard from `new` to its drop. -/
def lifetime (request : GuardedRequest) (calls : List GuardCall) (ts : String)
    (durationMs : UInt64) : Recorded :=
  ((runCalls (RequestDiagnostics.new request) calls).drop ts durationMs).diagnostics

/-- Calls none of which finishes the guard. -/
theorem runCalls_unfinished (h : ∀ call ∈ calls, call.finishing = none) :
    Holds request calls (runCalls (RequestDiagnostics.new request) calls) ∧
      (runCalls (RequestDiagnostics.new request) calls).finished = false ∧
      (runCalls (RequestDiagnostics.new request) calls).diagnostics = ⟨[], []⟩ := by
  induction calls using List.reverseRecOn with
  | nil => exact ⟨.new request, rfl, rfl⟩
  | append_singleton calls call ih =>
    obtain ⟨holds, hf, hd⟩ := ih fun d hd => h d (List.mem_append_left _ hd)
    have hc : call.finishing = none := h call (List.mem_append_right _ List.mem_cons_self)
    obtain ⟨hd', hf'⟩ :=
      @run_of_not_finishing (runCalls (RequestDiagnostics.new request) calls) call hc
    have hrun : runCalls (RequestDiagnostics.new request) (calls ++ [call]) =
        call.run (runCalls (RequestDiagnostics.new request) calls) := List.foldl_append
    rw [hrun]
    exact ⟨holds.run hc, hf'.trans hf, hd'.trans hd⟩

theorem lifetime_unfinished (h : ∀ call ∈ calls, call.finishing = none) (ts : String)
    (durationMs : UInt64) :
    lifetime request calls ts durationMs =
      { stats := [unfinishedEvent request calls ts durationMs]
        dumps := (flushed request calls none).map (·, true) } := by
  obtain ⟨holds, hf, hd⟩ := @runCalls_unfinished request _ h
  unfold lifetime RequestDiagnostics.drop
  rw [if_neg (by rw [hf]; simp)]
  unfold RequestDiagnostics.flushDeferredDumps RequestDiagnostics.recordStats
    RequestDiagnostics.droppedEvent unfinishedEvent flushed
  simp only [hd, holds.request, holds.ingressSize, holds.ingressDump, holds.egressDumps,
    holds.responseDump, holds.ingressResponseDump, List.nil_append]

theorem runCalls_finished {pre post : List GuardCall} {f : GuardCall.Finishing}
    (h : ∀ call ∈ pre, call.finishing = none) (hc : call.finishing = some f) :
    (runCalls (RequestDiagnostics.new request) (pre ++ call :: post)).finished = true ∧
      (runCalls (RequestDiagnostics.new request) (pre ++ call :: post)).diagnostics =
        { stats := [finishedEvent request pre f]
          dumps := (flushed request (pre ++ [call]) (some f.status)).map
            (·, f.error.isSome) } := by
  obtain ⟨holds, hf, hd⟩ := @runCalls_unfinished request _ h
  obtain ⟨hf', hd'⟩ := holds.finish hf hc
  obtain ⟨hd'', hf''⟩ := runCalls_of_finished hf' post
  have hrun : runCalls (RequestDiagnostics.new request) (pre ++ call :: post) =
      runCalls (call.run (runCalls (RequestDiagnostics.new request) pre)) post := by
    unfold runCalls
    rw [List.foldl_append, List.foldl_cons]
  rw [hrun]
  refine ⟨hf'', ?_⟩
  rw [hd'', hd', hd]
  rfl

theorem lifetime_finished {pre post : List GuardCall} {f : GuardCall.Finishing}
    (h : ∀ call ∈ pre, call.finishing = none) (hc : call.finishing = some f) (ts : String)
    (durationMs : UInt64) :
    lifetime request (pre ++ call :: post) ts durationMs =
      { stats := [finishedEvent request pre f]
        dumps := (flushed request (pre ++ [call]) (some f.status)).map (·, f.error.isSome) } := by
  obtain ⟨hf, hd⟩ := @runCalls_finished request _ _ post _ h hc
  unfold lifetime RequestDiagnostics.drop
  rw [if_pos hf]
  exact hd

theorem exists_first_finishing (calls : List GuardCall) :
    (∀ call ∈ calls, call.finishing = none) ∨
      ∃ pre call post f, calls = pre ++ call :: post ∧ (∀ d ∈ pre, d.finishing = none) ∧
        call.finishing = some f := by
  induction calls with
  | nil => exact Or.inl fun _ h => absurd h List.not_mem_nil
  | cons c rest ih =>
    cases hc : c.finishing with
    | some f => exact Or.inr ⟨[], c, rest, f, rfl, fun _ h => absurd h List.not_mem_nil, hc⟩
    | none =>
      rcases ih with hall | ⟨pre, call, post, f, rfl, hpre, hcall⟩
      · exact Or.inl (List.forall_mem_cons.mpr ⟨hc, hall⟩)
      · exact Or.inr ⟨c :: pre, call, post, f, rfl, List.forall_mem_cons.mpr ⟨hc, hpre⟩, hcall⟩

/-- **A guard records one event, and each dump that is put aside before the event once.** -/
theorem guard_records_once (request : GuardedRequest) (calls : List GuardCall) (ts : String)
    (durationMs : UInt64) :
    (lifetime request calls ts durationMs).stats.length = 1 ∧
      (∀ pre call post f, calls = pre ++ call :: post → (∀ d ∈ pre, d.finishing = none) →
        call.finishing = some f →
          lifetime request calls ts durationMs =
              { stats := [finishedEvent request pre f]
                dumps := (flushed request (pre ++ [call]) (some f.status)).map
                  (·, f.error.isSome) } ∧
            lifetime request calls ts durationMs =
              (runCalls (RequestDiagnostics.new request) (pre ++ [call])).diagnostics) ∧
      ((∀ call ∈ calls, call.finishing = none) →
        lifetime request calls ts durationMs =
          { stats := [unfinishedEvent request calls ts durationMs]
            dumps := (flushed request calls none).map (·, true) }) := by
  refine ⟨?_, ?_, fun h => lifetime_unfinished h ts durationMs⟩
  · rcases exists_first_finishing calls with h | ⟨pre, call, post, f, rfl, hpre, hc⟩
    · rw [lifetime_unfinished h]
      rfl
    · rw [lifetime_finished hpre hc]
      rfl
  · rintro pre call post f rfl hpre hc
    rw [lifetime_finished hpre hc, (@runCalls_finished request call pre [] f hpre hc).2]
    exact ⟨rfl, rfl⟩

end InfSplitter.Diagnostics
