import InfSplitter.Control.Scan
import InfSplitter.Diagnostics.Guard
import InfSplitter.Routing.SystemFork
import InfSplitter.SplitSend.CleanUp
import InfSplitter.SplitSend.Feasibility
import InfSplitter.Streams.Events

/-!
# The guards of a request

`handle_from_anthropic` and `handle_from_openai` once more, from the body to the answer, for what
they do with their guards. A guard is made as soon as the body is parsed, and handed on to whatever
finishes the request. A request that is answered with a stored interaction makes a second one, which
the fetches and the answer are recorded on; the first is then dropped as it is. And a translation
that panics takes the guard with it.

What a guard records on its way, the requests sent and the answers received, is a list of calls that
do not finish it. What is read from the store at each point, and what comes from outside, is given
by an `Occasion`.
-/

set_option autoImplicit false

namespace InfSplitter.Diagnostics

open Control Interactions Routing Session SplitSend Streams

/-! ## What a request meets -/

/-- The arguments of a handler, and what it reads from the body if that is JSON. -/
structure Incoming where
  body : List UInt8
  headers : HeaderMap
  ingress : Option Ingress
  sessionId : String
  -- of the route
  sectionName : String
  constants : Constants
  route : RouteTarget
  dropFields : List String
  endpoint : String

/-- A call that does not finish a guard. -/
def Recorder := { call : GuardCall // call.finishing = none }

/-- A wait for a batch of somebody else. -/
structure Wait where
  -- the batches in flight, in the order the map yields them
  batches : List InFlightBatch
  -- the store at each poll, until the time is up
  polls : List StoreV2
  -- and at the search that follows
  after : InteractionStore

inductive FetchAnswer
  | sendError (message : String)
  | httpError (status : Nat) (body : String)
  | bodyRead (message : String)
  | validation (message : String)
  | parse (message : String)
  | interaction

structure Fetches where
  store : InteractionStore
  url : String → String
  answers : String → FetchAnswer
  translation : Except String Unit

/-- How the task that relays a stream ends, if it does not panic before. -/
inductive StreamEnd
  | nonUtf8
  | bufferExceeded
  | readError (message : String)
  -- the client is gone; what was read until then
  | disconnected (totalBytes : Nat)
  | finished (totalBytes : Nat)

/-- What comes back for a request that is sent as it is. -/
inductive SingleAnswer
  | sendError (message : String)
  | httpError (status : UInt16) (body : String) (headers : List (String × String))
  -- the events of a stream, up to its end
  | success (events : List InteractionSseEvent) (streamed : StreamEnd)
      (body : Except BodyError String)

structure Occasion where
  xxh3 : List UInt8 → UInt64
  hashStr : String → UInt64
  -- the counter of the handle when the guards are made, and when it was made itself
  startSecs : Nat
  counters : Nat → Nat
  ts : String
  durationMs : UInt64
  recorders : List Recorder
  lookup : InteractionStore
  wait : Wait
  fetches : Fetches
  single : SingleAnswer
  translation : Except String Unit
  -- what a `message_delta` is built with of two token counts
  usageOf : UInt64 → UInt64 → Option DeltaUsage
  split : Environment
  splitStore : StoreV2
  -- the events a streamed split is translated from, once all pieces are answered
  captured : List InteractionSseEvent
  duplicate : Wait
  -- what comes back with an HTTP error, and the text of any other error
  errorBody : String
  errorHeaders : List (String × String)
  errorText : String
  responseSize : Nat

section
variable (r : Incoming) (o : Occasion)

def directionOf : Protocol → String
  | .anthropic => "anthropic->interactions"
  | .openAi => "openai->interactions"

/-- The arguments of the finishing calls of the sends. -/
def sendArgs (ingress : Ingress) : FinishArgs :=
  { ts := o.ts, durationMs := o.durationMs, requestSize := r.body.length, upstream := r.endpoint,
    direction := directionOf ingress.protocol, streaming := ingress.stream }

/-- All calls of the first guard, the last of them at the exit that is taken. -/
def guardCalls (exit : Option GuardCall) : List GuardCall :=
  .ingressDump o.ts r.body r.headers :: (o.recorders.map Subtype.val ++ exit.toList)

/-! ## The exits -/

/-- `handle_control_action`. -/
def controlExit (action : ControlAction) : GuardCall :=
  .finish 200
    { ts := o.ts, durationMs := 0, requestSize := 0, upstream := "control-action",
      direction :=
        match action with
        | .cleanAll => "clean-all"
        | .extendLifetime _ => "extend-lifetime",
      streaming := false }
    none

/-- The error a fetch ends with. -/
def fetchError (url id : String) : FetchAnswer → Option GuardCall
  | .sendError message => some (.abortUpstream (fetchArgs url) message)
  | .httpError status body =>
    some (.abortUpstream (fetchArgs url) s!"HTTP {status} fetching interaction {id}: {body}")
  | .bodyRead message => some (.abortUpstream (fetchArgs url) message)
  | .validation message => some (.abortUpstream (fetchArgs url) message)
  | .parse message => some (.abortInternal (fetchArgs url) message)
  | .interaction => none
where
  fetchArgs (url : String) : FinishArgs :=
    { ts := o.ts, durationMs := o.durationMs, requestSize := 0, upstream := url,
      direction := "fetch-interaction", streaming := false }

def replayArgs : FinishArgs :=
  { ts := o.ts, durationMs := 0, requestSize := 0, upstream := "replay-from-client",
    direction := "replay", streaming := false }

/-- `replay_from_client_node`: the first fetch that fails ends it. -/
def replayExit (clientId : String) : GuardCall :=
  match o.fetches.store.getClient clientId with
  | none => .abortInternal (replayArgs o) s!"client node {clientId} not found"
  | some node =>
    match node.upstreamIds.findSome? fun id =>
        fetchError o (o.fetches.url id) id (o.fetches.answers id) with
    | some failed => failed
    | none =>
      match o.fetches.translation with
      | .error message => .abortInternal (replayArgs o) message
      | .ok () => .finish 200 (replayArgs o) none

/-- The task of `handle_stream_response`. A panic in the translation of an event ends it without a
call on the guard. -/
def streamExit (ingress : Ingress) (events : List InteractionSseEvent) (streamed : StreamEnd) :
    Option GuardCall :=
  let args := sendArgs r o ingress
  (translateAll o.usageOf ingress.model none events).map fun _ =>
    match streamed with
    | .nonUtf8 => .abortUpstream args "non-utf8 streaming response from upstream"
    | .bufferExceeded => .abortUpstream args "sse buffer exceeded max line length"
    | .readError message => .abortUpstream args s!"stream error: {message}"
    | .disconnected totalBytes => .finish 499 args (some totalBytes)
    | .finished totalBytes => .finish 200 args (some totalBytes)

/-- `send_and_translate` and, for a stream, `handle_stream_response`. -/
def singleExit (ingress : Ingress) : Option GuardCall :=
  let args := sendArgs r o ingress
  match o.single with
  | .sendError message => some (.abortUpstream args message)
  | .httpError status body headers =>
    some (.finishWithUpstreamError o.ts status args body headers)
  | .success events streamed body =>
    if ingress.stream then streamExit r o ingress events streamed
    else
      match body with
      | .error (.bodyRead message) => some (.abortUpstream args message)
      | .error (.validation message) => some (.abortUpstream args message)
      | .error (.parse message) =>
        some (.abortUpstream args s!"failed to parse interaction response: {message}")
      | .ok _ =>
        match o.translation with
        | .error message => some (.abortInternal args message)
        | .ok () => some (.finish 200 args (some o.responseSize))

/-- The exits of the two split sends once the batch is created; a body that does not parse is an
internal error only where the system instruction is split. -/
def splitErrorExit (ingress : Ingress) (systemSplit : Bool) : SendError → Option GuardCall
  | .http status =>
    some (.finishWithUpstreamError o.ts (UInt16.ofNat status) (sendArgs r o ingress) o.errorBody
      o.errorHeaders)
  | .noInteractionCreated => some (.abortInternal (sendArgs r o ingress) o.errorText)
  | .complete _ => some (.abortInternal (sendArgs r o ingress) o.errorText)
  | .translate _ => some (.abortInternal (sendArgs r o ingress) o.errorText)
  | .chunkTooLarge _ _ _ => some (.abortBadRequest (sendArgs r o ingress) o.errorText)
  | .parse _ =>
    if systemSplit then some (.abortInternal (sendArgs r o ingress) o.errorText)
    else some (.abortUpstream (sendArgs r o ingress) o.errorText)
  -- `ok_or_else(|| AppError::Internal("no final interaction id"))?`
  | .noFinalId => none
  | _ => some (.abortUpstream (sendArgs r o ingress) o.errorText)

/-! ## The handlers -/

/-- The polls of both waits: the batch is complete, or its answer is known. -/
def pollUntilDone (batchId : String) (hashes : List UInt64) (prev : Option String)
    (system : Option UInt64) : List StoreV2 → Option Bool
  | [] => some false
  | s :: rest =>
    (findFrontier s.interactions hashes prev system).bind fun frontier =>
      if s.batchIsComplete batchId || frontier.allKnown then some true
      else pollUntilDone batchId hashes prev system rest

/-- The client node that answers a request after its wait. -/
def answeredAfter (wait : Wait) (batchId : String) (hashes : List UInt64) (prev : Option String)
    (system : Option UInt64) : Option (Bool × Option String) :=
  (pollUntilDone batchId hashes prev system wait.polls).bind fun done =>
    if done then
      (findFrontier wait.after hashes prev system).map fun frontier =>
        (true, if frontier.allKnown then frontier.matchedClientId else none)
    else some (false, none)

/-- `wait_for_inflight_batch`: the client node to replay from. -/
def waitForInflightBatch (ingress : Ingress) (prev : Option String) : Option (Option String) :=
  let hashes := ingress.hashes o.xxh3
  let system := awaitedSystemHash o.xxh3 ingress prev
  match findKeyed o.wait.batches
      { sessionId := r.sessionId, prevInteractionId := prev, messageHashes := hashes,
        systemInstructionHash := system } with
  | none => some none
  | some batch => (answeredAfter o.wait batch.id hashes prev system).map Prod.snd

/-- A request that is replayed: the second guard has no other call than the last. -/
def replayed (clientId : String) : List (List GuardCall) :=
  [guardCalls r o none, [replayExit o clientId]]

/-- Whether the system instruction is split off the contents. -/
def splitsSystem (split : SplitRequest) : Bool :=
  match split.pack with
  | .ok chunks => (split.systemSplit chunks).isSome
  | .error _ => false

/-- Replacing an id that is empty panics in `windows`. -/
def idPanics (received : List String) : Bool :=
  received.any fun id => id = "" && received.getLast? ≠ some id

/-- `capture_and_translate_sse` of a streamed split panics on an id or on an event; where the bytes
are no UTF-8 it comes to no event. When the system instruction is split, the answers are translated
before the batch is completed, otherwise after it. -/
def capturePanics (ingress : Ingress) (split : SplitRequest) : Sending × SplitOutcome → Bool
  | (w, .answered _) => split.stream && (idPanics w.received || eventsPanic)
  | (w, .failed _ (.translate _)) => split.stream && idPanics w.received
  | (w, .failed _ (.complete _)) =>
    split.stream && (splitsSystem split && (idPanics w.received || eventsPanic))
  | _ => false
where
  eventsPanic : Bool := (translateAll o.usageOf ingress.model none o.captured).isNone

/-- `handle_split_send`, up to its answer. -/
def splitCalls (ingress : Ingress) (split : SplitRequest) : Option (List (List GuardCall)) :=
  let args := sendArgs r o ingress
  let sent := handleSplitSend split o.split (.ofStore o.splitStore)
  let panics := capturePanics o ingress split sent
  match sent.2 with
  | .rejectedContents _ => some [guardCalls r o (some (.abortBadRequest args o.errorText))]
  | .rejectedSystem _ => some [guardCalls r o (some (.abortBadRequest args o.errorText))]
  | .waited batchId =>
    let key := split.key o.split
    (answeredAfter o.duplicate batchId key.messageHashes key.prevInteractionId
      key.systemInstructionHash).map fun
      | (false, _) =>
        [guardCalls r o (some (.abortInternal args "timeout waiting for duplicate batch"))]
      | (true, some clientId) => replayed r o clientId
      | (true, none) =>
        [guardCalls r o (some (.abortInternal args
          "duplicate batch completed without ClientInteractionNode"))]
  | .failed _ e =>
    some [guardCalls r o
      (if panics then none else splitErrorExit r o ingress (splitsSystem split) e)]
  | .answered _ =>
    some [guardCalls r o (if panics then none else some (.finish 200 args (some o.responseSize)))]

/-- From the finished request on. -/
def sendCalls (ingress : Ingress) (params : CreateModelInteractionParams) :
    Option (List (List GuardCall)) :=
  let whole := some [guardCalls r o (singleExit r o ingress)]
  match r.route.proxyLimit with
  | none => whole
  | some limit =>
    if limit < (dropFieldsFromValue params.toJson r.dropFields).size then
      match canSplitUnderLimit params limit with
      | .error _ =>
        some [guardCalls r o (some (.abortBadRequest
          { sendArgs r o ingress with
            durationMs := 0, upstream := directionOf ingress.protocol }
          "request cannot be split under proxy limit"))]
      | .ok () =>
        splitCalls r o ingress (splitRequest params limit r.sessionId (ingress.hashes o.xxh3)
          ingress.stream r.dropFields)
    else whole

/-- A wait, and what follows where it brings no answer. -/
def afterWait (ingress : Ingress) (prev : Option String) (rest : Option (List (List GuardCall))) :
    Option (List (List GuardCall)) :=
  (waitForInflightBatch r o ingress prev).bind fun
    | some clientId => some (replayed r o clientId)
    | none => rest

/-- From the lookup on; the two handlers wait and check for an empty request in different order. -/
def forwardCalls (ingress : Ingress) : Option (List (List GuardCall)) :=
  (findFrontier o.lookup (ingress.hashes o.xxh3) none none).bind fun frontier =>
    match decision o.xxh3 ingress r.route frontier with
    | .replay clientId => some (replayed r o clientId)
    | .reject =>
      let rejected := some [guardCalls r o none]
      match ingress.protocol with
      | .anthropic => afterWait r o ingress frontier.previousInteractionId rejected
      | .openAi => rejected
    | .send params =>
      afterWait r o ingress frontier.previousInteractionId (sendCalls r o ingress params)

/-- The calls of all guards of a request, in the order they are made; `none` where a search does not
end. -/
def handle : Option (List (List GuardCall)) :=
  match r.ingress with
  | none => some []
  | some ingress =>
    match handleControl o.hashStr r.constants ingress.messages with
    | .control action => some [guardCalls r o (some (controlExit o action))]
    | .forwarded messages => forwardCalls r o { ingress with messages := messages }

/-! ## What is recorded -/

/-- `new_request_id`. -/
def newRequestId (startSecs counter : Nat) : String := s!"{startSecs}-{counter}"

/-- The request of guard `i`. -/
def guarded (i : Nat) : GuardedRequest :=
  { requestId := newRequestId o.startSecs (o.counters i), sectionName := r.sectionName
    model := (r.ingress.map Ingress.model).getD "?" }

/-- What all guards of a request record, each until it is dropped. -/
def recordedOf (guards : List (List GuardCall)) : List Recorded :=
  guards.zipIdx.map fun g => lifetime (guarded r o g.2) g.1 o.ts o.durationMs

/-- Every guard is finished before it is dropped, and they record one event, with the id of the
ingress dump. -/
structure OneEvent (guards : List (List GuardCall)) : Prop where
  finished : ∀ calls ∈ guards, ∃ call ∈ calls, call.finishing ≠ none
  event : ∃ event, (recordedOf r o guards).flatMap Recorded.stats = [event] ∧
    ∃ dump ∈ (recordedOf r o guards).flatMap Recorded.dumps,
      dump.1.stage = "ingress" ∧ dump.1.direction = "request" ∧
        dump.1.requestId = event.requestId

/-! ## When there is one event -/

/-- The wait ends, and the answer is stored by then. -/
def BringsAnswer (wait : Wait) (batchId : String) (key : BatchKey) : Prop :=
  pollUntilDone batchId key.messageHashes key.prevInteractionId key.systemInstructionHash
      wait.polls = some true ∧
    ∃ frontier clientId, findFrontier wait.after key.messageHashes key.prevInteractionId
        key.systemInstructionHash = some frontier ∧
      frontier.allKnown = true ∧ frontier.matchedClientId = some clientId

/-- What a request waits for before it is sent. -/
def awaitedKey (ingress : Ingress) (prev : Option String) : BatchKey :=
  { sessionId := r.sessionId, prevInteractionId := prev, messageHashes := ingress.hashes o.xxh3,
    systemInstructionHash := awaitedSystemHash o.xxh3 ingress prev }

/-- The batch that is in flight for the request brings its answer. -/
def AwaitsAnswer (ingress : Ingress) (prev : Option String) : Prop :=
  ∃ batch, findKeyed o.wait.batches (awaitedKey r o ingress prev) = some batch ∧
    BringsAnswer o.wait batch.id (awaitedKey r o ingress prev)

/-- The same of a batch that is met under the lock a split send creates its own under. -/
def MeetsAnswer (split : SplitRequest) : Prop :=
  ∃ chunks batch, split.pack = .ok chunks ∧ split.systemSplit chunks = none ∧
    findKeyed o.split.batches (split.key o.split) = some batch ∧
      BringsAnswer o.duplicate batch.id (split.key o.split)

/-- The request as it is split. -/
def splitOf (ingress : Ingress) (params : CreateModelInteractionParams) (limit : Nat) :
    SplitRequest :=
  splitRequest params limit r.sessionId (ingress.hashes o.xxh3) ingress.stream r.dropFields

/-- The request goes out in one piece. -/
def SentWhole (params : CreateModelInteractionParams) : Prop :=
  ∀ limit, r.route.proxyLimit = some limit →
    ¬ limit < (dropFieldsFromValue params.toJson r.dropFields).size

/-- Its stream has an event of a completed interaction with counts the crate does not take. -/
def StreamPanics (ingress : Ingress) : Prop :=
  ingress.stream = true ∧ ∃ events streamed body, o.single = .success events streamed body ∧
    ∃ event ∈ events, ¬ CountsAccepted o.usageOf event

/-- The pieces but the last have an empty id among theirs. -/
def EmptyId (received : List String) : Prop := "" ∈ received ∧ received.getLast? ≠ some ""

/-- The streamed answer of a split comes to be translated, and has such an event or such an id. -/
def SplitPanics (split : SplitRequest) : Prop :=
  split.stream = true ∧
    match handleSplitSend split o.split (.ofStore o.splitStore) with
    | (w, .answered _) => EmptyId w.received ∨ Refused
    | (w, .failed _ (.translate _)) => EmptyId w.received
    | (w, .failed _ (.complete _)) => splitsSystem split = true ∧ (EmptyId w.received ∨ Refused)
    | _ => False
where
  Refused : Prop := ∃ event ∈ o.captured, ¬ CountsAccepted o.usageOf event

/-- It has something new to send, nobody else has its answer, and no translation panics. -/
def SendsItself (ingress : Ingress) : Prop :=
  ∃ frontier params,
    findFrontier o.lookup (ingress.hashes o.xxh3) none none = some frontier ∧
      decision o.xxh3 ingress r.route frontier = .send params ∧
      ¬ AwaitsAnswer r o ingress frontier.previousInteractionId ∧
      (SentWhole r params → ¬ StreamPanics o ingress) ∧
      ∀ limit, r.route.proxyLimit = some limit →
        limit < (dropFieldsFromValue params.toJson r.dropFields).size →
          canSplitUnderLimit params limit = .ok () →
            ¬ MeetsAnswer o (splitOf r o ingress params limit) ∧
              ¬ SplitPanics o (splitOf r o ingress params limit)

/-- A control message, or a request that is sent. -/
def Diagnosed : Prop :=
  ∃ ingress, r.ingress = some ingress ∧
    match handleControl o.hashStr r.constants ingress.messages with
    | .control _ => True
    | .forwarded messages => SendsItself r o { ingress with messages := messages }

end

section
variable {r : Incoming} {o : Occasion} {guards : List (List GuardCall)}

/-! ## One guard -/

theorem finishing_of_mem_guardCalls {exit : Option GuardCall} {call : GuardCall}
    (h : call ∈ guardCalls r o exit) (hc : call.finishing ≠ none) : exit = some call := by
  unfold guardCalls at h
  rcases List.mem_cons.mp h with rfl | h
  · exact absurd rfl hc
  rcases List.mem_append.mp h with h | h
  · obtain ⟨recorder, _, rfl⟩ := List.mem_map.mp h
    exact absurd recorder.2 hc
  · exact Option.mem_toList.mp h

/-- A first guard that is not finished is dropped as it is. -/
theorem not_oneEvent_of_unfinished {rest : List (List GuardCall)} :
    ¬ OneEvent r o (guardCalls r o none :: rest) := by
  intro h
  obtain ⟨call, hmem, hc⟩ := h.finished _ List.mem_cons_self
  exact absurd (finishing_of_mem_guardCalls hmem hc) (by simp)

theorem not_oneEvent_replayed (clientId : String) : ¬ OneEvent r o (replayed r o clientId) :=
  not_oneEvent_of_unfinished

theorem not_oneEvent_nil : ¬ OneEvent r o [] := by
  intro h
  obtain ⟨event, hevent, _⟩ := h.event
  simp [recordedOf] at hevent

/-- One guard that is finished records one event, and its ingress dump. -/
theorem oneEvent_of_finishing {call : GuardCall} {f : GuardCall.Finishing}
    (hc : call.finishing = some f) : OneEvent r o [guardCalls r o (some call)] := by
  have hpre : ∀ d ∈ GuardCall.ingressDump o.ts r.body r.headers :: o.recorders.map Subtype.val,
      d.finishing = none := by
    refine List.forall_mem_cons.mpr ⟨rfl, fun d hd => ?_⟩
    obtain ⟨recorder, _, rfl⟩ := List.mem_map.mp hd
    exact recorder.2
  obtain ⟨dump, hdump⟩ : ∃ dump, latest GuardCall.ingressOf
      ((GuardCall.ingressDump o.ts r.body r.headers :: o.recorders.map Subtype.val) ++ [call]) =
        some dump := by
    unfold latest
    rw [List.cons_append, List.filterMap_cons]
    exact ⟨_, List.getLast?_eq_some_getLast (List.cons_ne_nil _ _)⟩
  have hrecorded : recordedOf r o [guardCalls r o (some call)] = [_] :=
    congrArg (fun life => [life])
      (@lifetime_finished (guarded r o 0) call _ [] f hpre hc o.ts o.durationMs)
  constructor
  · intro calls hcalls
    rw [List.mem_singleton.mp hcalls]
    refine ⟨call, ?_, by rw [hc]; simp⟩
    unfold guardCalls
    exact List.mem_cons_of_mem _ (List.mem_append_right _ (by simp))
  · rw [hrecorded]
    refine ⟨_, rfl, (dumpEventOf (guarded r o 0) "ingress" "request" (some f.status) dump,
      f.error.isSome), ?_, rfl, rfl, rfl⟩
    rw [List.flatMap_singleton]
    refine List.mem_map.mpr ⟨_, ?_, rfl⟩
    unfold flushed flushedDumps
    rw [hdump]
    simp

/-! ## The exits finish -/

/-- One guard, which the exit finishes if there is one. -/
theorem oneEvent_exit {exit : Option GuardCall}
    (h : ∀ call ∈ exit, ∃ f, call.finishing = some f) :
    OneEvent r o [guardCalls r o exit] ↔ exit.isSome = true := by
  cases exit with
  | none => exact iff_of_false not_oneEvent_of_unfinished (by simp)
  | some call =>
    obtain ⟨f, hf⟩ := h call rfl
    exact iff_of_true (oneEvent_of_finishing hf) rfl

theorem singleExit_finishing (ingress : Ingress) :
    ∀ call ∈ singleExit r o ingress, ∃ f, call.finishing = some f := by
  intro call hcall
  rw [Option.mem_def] at hcall
  unfold singleExit at hcall
  split at hcall
  · cases hcall
    exact ⟨_, rfl⟩
  · cases hcall
    exact ⟨_, rfl⟩
  · split at hcall
    · obtain ⟨_, _, rfl⟩ := Option.map_eq_some_iff.mp hcall
      split <;> exact ⟨_, rfl⟩
    · split at hcall
      · cases hcall
        exact ⟨_, rfl⟩
      · cases hcall
        exact ⟨_, rfl⟩
      · cases hcall
        exact ⟨_, rfl⟩
      · split at hcall <;> cases hcall <;> exact ⟨_, rfl⟩

theorem translates_iff {model : String} {events : List InteractionSseEvent} :
    (translateAll o.usageOf model none events).isSome = true ↔
      ¬ ∃ event ∈ events, ¬ CountsAccepted o.usageOf event := by
  rw [Option.isSome_iff_exists, translateAll_isSome_iff]
  push Not
  rfl

/-- A request that is sent as it is takes an exit, unless its stream panics. -/
theorem singleExit_isSome_iff (ingress : Ingress) :
    (singleExit r o ingress).isSome = true ↔ ¬ StreamPanics o ingress := by
  unfold StreamPanics
  cases hsingle : o.single with
  | sendError message => simp [singleExit, hsingle]
  | httpError status body headers => simp [singleExit, hsingle]
  | success events streamed body =>
    cases hstream : ingress.stream with
    | true =>
      have hexit : singleExit r o ingress = streamExit r o ingress events streamed := by
        simp [singleExit, hsingle, hstream]
      rw [hexit]
      unfold streamExit
      simp only [Option.isSome_map, translates_iff]
      simp
    | false =>
      refine iff_of_true ?_ (by simp)
      simp only [singleExit, hsingle, hstream, Bool.false_eq_true, if_false]
      cases body with
      | ok _ => cases o.translation <;> rfl
      | error e => cases e <;> rfl

theorem idPanics_iff {received : List String} :
    idPanics received = true ↔ EmptyId received := by
  simp only [idPanics, EmptyId, List.any_eq_true, Bool.and_eq_true, decide_eq_true_eq]
  constructor
  · rintro ⟨id, hid, rfl, hlast⟩
    exact ⟨hid, hlast⟩
  · rintro ⟨hid, hlast⟩
    exact ⟨"", hid, rfl, hlast⟩

/-- A streamed split panics in its translation. -/
theorem capturePanics_iff {ingress : Ingress} {split : SplitRequest} :
    capturePanics o ingress split (handleSplitSend split o.split (.ofStore o.splitStore)) = true ↔
      SplitPanics o split := by
  have hevents : capturePanics.eventsPanic o ingress = true ↔ SplitPanics.Refused o := by
    unfold capturePanics.eventsPanic SplitPanics.Refused
    rw [← Option.not_isSome, Bool.not_eq_true', ← Bool.not_eq_true, translates_iff, not_not]
  unfold SplitPanics
  generalize handleSplitSend split o.split (.ofStore o.splitStore) = sent
  obtain ⟨w, outcome⟩ := sent
  cases outcome with
  | answered finalId => simp [capturePanics, idPanics_iff, hevents]
  | failed batchId e => cases e <;> simp [capturePanics, idPanics_iff, hevents]
  | _ => simp [capturePanics]

theorem splitErrorExit_finishing (ingress : Ingress) (systemSplit : Bool) {e : SendError}
    (he : e ≠ .noFinalId) :
    ∃ call f, splitErrorExit r o ingress systemSplit e = some call ∧ call.finishing = some f := by
  unfold splitErrorExit
  split
  · exact ⟨_, _, rfl, rfl⟩
  · exact ⟨_, _, rfl, rfl⟩
  · exact ⟨_, _, rfl, rfl⟩
  · exact ⟨_, _, rfl, rfl⟩
  · exact ⟨_, _, rfl, rfl⟩
  · split <;> exact ⟨_, _, rfl, rfl⟩
  · exact absurd rfl he
  · exact ⟨_, _, rfl, rfl⟩

/-! ## There is a final id -/

theorem accepted_ne_noFinalId {env : Environment} {stream : Bool} {i : Nat} {e : SendError}
    (h : env.accepted stream i = .error e) : e ≠ .noFinalId := by
  unfold Environment.accepted at h
  cases ha : env.answers i with
  | sendError message =>
    rw [ha] at h
    cases h
    simp
  | httpError status =>
    rw [ha] at h
    cases h
    simp
  | success streamed body =>
    rw [ha] at h
    simp only [Answer.read] at h
    cases stream with
    | true =>
      cases streamed with
      | ok id => simp [Except.mapError] at h
      | error e' =>
        cases h
        cases e' <;> simp [StreamError.toSendError]
    | false =>
      cases body with
      | ok id => simp [Except.mapError] at h
      | error e' =>
        cases h
        cases e' <;> simp [BodyError.toSendError]

theorem firstTooLarge_ne_noFinalId {envelope : CreateModelInteractionParams} {limit : Nat}
    {chunks : List (List Content)} {j : Nat} {e : SendError}
    (h : firstTooLarge envelope limit chunks j = some e) : e ≠ .noFinalId := by
  induction chunks generalizing j with
  | nil => simp [firstTooLarge] at h
  | cons chunk rest ih =>
    simp only [firstTooLarge] at h
    split at h
    · cases h
      simp
    · exact ih h

/-- The loop over the pieces never ends with this error. -/
theorem fate_ne_noFinalId {α : Type} {loop : SendLoop α} {split : SplitRequest}
    {env : Environment} {batchId : String} {pieces : List α} {w : Sending} {e : SendError}
    (fate : Fate loop split env batchId pieces (w, .error e))
    (hloop : ∀ i id rest, loop.recheck i id rest ≠ some .noFinalId) : e ≠ .noFinalId := by
  cases fate with
  | stopped hk passed bad left => exact accepted_ne_noFinalId bad
  | refused hk passed answered wrong left =>
    rintro rfl
    exact hloop _ _ _ wrong

theorem plans_ne_nil {s : SystemSplit} {split : SplitRequest} {plans : List SplitPiecePlan}
    (h : s.plans split = .ok plans) : plans ≠ [] := by
  unfold SystemSplit.plans at h
  cases ht : splitTextForLimit s.sys s.limit (SystemSplit.envelopeOverhead split) with
  | error e => simp [ht, Except.map] at h
  | ok parts =>
    rw [ht] at h
    have hparts : parts ≠ [] := by
      rintro rfl
      unfold splitTextForLimit at ht
      simp only at ht
      split at ht
      · simp at ht
      · split at ht
        · simp at ht
        · split at ht
          · simp at ht
          · rename_i hne
            rw [Except.ok.injEq] at ht
            exact hne (Or.inl (List.isEmpty_iff.mpr ht))
    obtain ⟨part, rest, rfl⟩ := List.exists_cons_of_ne_nil hparts
    rw [← Except.ok.inj h]
    unfold buildSplitPlans
    cases rest <;> simp [fragmentPlans]

theorem sendPlans_ne_noFinalId {split : SplitRequest} {env : Environment} {id : String}
    {plans : List SplitPiecePlan} {w : Sending} (h : Progress id plans.length 0 w)
    (hplans : plans ≠ []) (batchId : String) :
    (sendPlans split env id plans w).2 ≠ .failed batchId .noFinalId := by
  have fate : Fate (systemLoop split) split env id plans
      (sendPieces (systemLoop split) split env id plans 0 split.params.previousInteractionId w) :=
    sendPieces_fate _ List.drop_zero (Nat.zero_le _) (by simp) h
  unfold sendPlans
  generalize sendPieces (systemLoop split) split env id plans 0 split.params.previousInteractionId
    w = result at fate
  obtain ⟨w', outcome⟩ := result
  cases outcome with
  | error e => simpa using fun _ => fate_ne_noFinalId fate (by simp [systemLoop])
  | ok _ =>
    obtain ⟨_, done⟩ := fate
    obtain ⟨last, hlast⟩ : ∃ last, w'.received.getLast? = some last := by
      rcases done.getLast?_cases with ⟨_, hzero⟩ | ⟨last, hlast, _⟩
      · exact absurd (List.length_eq_zero_iff.mp hzero) hplans
      · exact ⟨last, hlast⟩
    show (if split.stream then finishSystemStream split env id w'
      else finishSystem split env id w').2 ≠ _
    cases split.stream with
    | true =>
      rw [if_pos rfl]
      unfold finishSystemStream
      rw [hlast]
      cases env.translation with
      | error message => simp
      | ok u =>
        simp only
        split <;> simp
    | false =>
      rw [if_neg (by simp)]
      unfold finishSystem
      cases w'.completeBatch env id with
      | mk w'' result =>
        cases result with
        | error e => simp
        | ok node => cases env.translation <;> simp

theorem sendChunks_ne_noFinalId {split : SplitRequest} {env : Environment} {id : String}
    {chunks : List (List Content)} {w : Sending} (h : Progress id chunks.length 0 w)
    (batchId : String) : (sendChunks split env id chunks w).2 ≠ .failed batchId .noFinalId := by
  have fate : Fate (contentLoop split) split env id chunks
      (sendPieces (contentLoop split) split env id chunks 0 split.params.previousInteractionId
        w) :=
    sendPieces_fate _ List.drop_zero (Nat.zero_le _) (by simp) h
  unfold sendChunks
  generalize sendPieces (contentLoop split) split env id chunks 0
    split.params.previousInteractionId w = result at fate
  obtain ⟨w', outcome⟩ := result
  cases outcome with
  | error e =>
    have recheck (i : Nat) (id : String) (rest : List (List Content)) :
        (contentLoop split).recheck i id rest ≠ some .noFinalId := by
      intro wrong
      simp only [contentLoop] at wrong
      split at wrong
      · exact firstTooLarge_ne_noFinalId wrong rfl
      · simp at wrong
    simpa using fun _ => fate_ne_noFinalId fate recheck
  | ok _ =>
    simp only [finishContent]
    split
    · simp
    · split <;> simp

/-- **A split send has a final id where it needs one.** -/
theorem handleSplitSend_ne_noFinalId (split : SplitRequest) (env : Environment) (store : StoreV2)
    (batchId : String) :
    (handleSplitSend split env (.ofStore store)).2 ≠ .failed batchId .noFinalId := by
  unfold handleSplitSend
  cases split.pack with
  | error e => simp
  | ok chunks =>
    simp only
    cases split.systemSplit chunks with
    | some s =>
      simp only [sendSplitSystemInstruction]
      cases hplans : s.plans split with
      | error e => simp
      | ok plans => exact sendPlans_ne_noFinalId (create_progress ..) (plans_ne_nil hplans) batchId
    | none =>
      simp only
      cases findKeyed env.batches (split.key env) with
      | some existing => simp
      | none => exact sendChunks_ne_noFinalId (create_progress ..) batchId

/-! ## Whole requests -/

/-- A wait ends with an answer, without one, or with the time. -/
theorem answeredAfter_eq {wait : Wait} {batchId : String} {key : BatchKey} {done : Bool}
    {clientId : Option String}
    (h : answeredAfter wait batchId key.messageHashes key.prevInteractionId
      key.systemInstructionHash = some (done, clientId)) :
    BringsAnswer wait batchId key ↔ done = true ∧ clientId.isSome = true := by
  unfold answeredAfter at h
  obtain ⟨finished, hpolls, h⟩ := Option.bind_eq_some_iff.mp h
  unfold BringsAnswer
  rw [hpolls, Option.some.injEq]
  cases finished with
  | false =>
    cases h
    simp
  | true =>
    obtain ⟨frontier, hfrontier, heq⟩ := Option.map_eq_some_iff.mp h
    obtain ⟨rfl, rfl⟩ := Prod.mk.inj heq
    rw [hfrontier]
    cases hknown : frontier.allKnown with
    | false => simp [hknown]
    | true => simp [hknown, Option.isSome_iff_exists]

/-- A finished guard, where no answer is brought. -/
theorem oneEvent_iff_of_finishing {call : GuardCall} {f : GuardCall.Finishing} {P : Prop}
    (hc : call.finishing = some f) (hP : ¬ P) :
    OneEvent r o [guardCalls r o (some call)] ↔ ¬ P :=
  iff_of_true (oneEvent_of_finishing hc) hP

theorem sendPlans_ne_waited {split : SplitRequest} {env : Environment} {id : String}
    {plans : List SplitPiecePlan} {w : Sending} (batchId : String) :
    (sendPlans split env id plans w).2 ≠ .waited batchId := by
  unfold sendPlans
  split
  · simp
  · split
    · unfold finishSystemStream
      split
      · simp
      · split
        · simp
        · split <;> simp
    · unfold finishSystem
      split
      · simp
      · simp only
        cases env.translation <;> simp

theorem sendChunks_ne_waited {split : SplitRequest} {env : Environment} {id : String}
    {chunks : List (List Content)} {w : Sending} (batchId : String) :
    (sendChunks split env id chunks w).2 ≠ .waited batchId := by
  unfold sendChunks
  split
  · simp
  · unfold finishContent
    split
    · simp
    · split <;> simp

/-- Only a split of the contents meets a batch of its own key. -/
theorem handleSplitSend_waited {split : SplitRequest} {env : Environment} {w : Sending}
    {batchId : String} :
    (handleSplitSend split env w).2 = .waited batchId ↔
      ∃ chunks batch, split.pack = .ok chunks ∧ split.systemSplit chunks = none ∧
        findKeyed env.batches (split.key env) = some batch ∧ batch.id = batchId := by
  unfold handleSplitSend
  cases split.pack with
  | error e => simp
  | ok chunks =>
    cases hsystem : split.systemSplit chunks with
    | some s =>
      have hne : (sendSplitSystemInstruction split s env w).2 ≠ .waited batchId := by
        unfold sendSplitSystemInstruction
        split
        · simp
        · exact sendPlans_ne_waited batchId
      simp [hsystem, hne]
    | none =>
      cases hfound : findKeyed env.batches (split.key env) with
      | none => simp [hsystem, sendChunks_ne_waited]
      | some existing => simp [hsystem]

theorem meetsAnswer_iff {split : SplitRequest} :
    MeetsAnswer o split ↔ ∃ batchId,
      (handleSplitSend split o.split (.ofStore o.splitStore)).2 = .waited batchId ∧
        BringsAnswer o.duplicate batchId (split.key o.split) := by
  constructor
  · rintro ⟨chunks, batch, hpack, hsystem, hfound, hbrings⟩
    exact ⟨batch.id, handleSplitSend_waited.mpr ⟨chunks, batch, hpack, hsystem, hfound, rfl⟩,
      hbrings⟩
  · rintro ⟨batchId, hwaited, hbrings⟩
    obtain ⟨chunks, batch, hpack, hsystem, hfound, rfl⟩ := handleSplitSend_waited.mp hwaited
    exact ⟨chunks, batch, hpack, hsystem, hfound, hbrings⟩

/-- Without an end of the wait there is no client node. -/
theorem answeredAfter_done {wait : Wait} {batchId : String} {hashes : List UInt64}
    {prev : Option String} {system : Option UInt64} {done : Bool} {clientId : String}
    (h : answeredAfter wait batchId hashes prev system = some (done, some clientId)) :
    done = true := by
  unfold answeredAfter at h
  obtain ⟨finished, _, h⟩ := Option.bind_eq_some_iff.mp h
  cases finished with
  | false => cases h
  | true =>
    obtain ⟨frontier, _, heq⟩ := Option.map_eq_some_iff.mp h
    exact (Prod.mk.inj heq).1.symm

theorem splitCalls_iff {ingress : Ingress} {split : SplitRequest}
    (h : splitCalls r o ingress split = some guards) :
    OneEvent r o guards ↔ ¬ MeetsAnswer o split ∧ ¬ SplitPanics o split := by
  rw [meetsAnswer_iff, ← @capturePanics_iff o ingress]
  unfold splitCalls at h
  simp only at h
  generalize hsent : handleSplitSend split o.split (.ofStore o.splitStore) = sent at h ⊢
  obtain ⟨w, outcome⟩ := sent
  cases outcome with
  | rejectedContents e =>
    cases h
    exact iff_of_true (oneEvent_of_finishing rfl) (by simp [capturePanics])
  | rejectedSystem e =>
    cases h
    exact iff_of_true (oneEvent_of_finishing rfl) (by simp [capturePanics])
  | failed batchId e =>
    have he : e ≠ .noFinalId := by
      rintro rfl
      exact handleSplitSend_ne_noFinalId split o.split o.splitStore batchId
        (congrArg Prod.snd hsent)
    obtain ⟨call, f, hcall, hf⟩ :=
      @splitErrorExit_finishing r o ingress (splitsSystem split) e he
    rw [← Option.some.inj h]
    cases capturePanics o ingress split (w, .failed batchId e) with
    | true => exact iff_of_false not_oneEvent_of_unfinished (by simp)
    | false =>
      rw [if_neg (by simp), hcall]
      exact iff_of_true (oneEvent_of_finishing hf) (by simp)
  | answered finalId =>
    rw [← Option.some.inj h]
    cases capturePanics o ingress split (w, .answered finalId) with
    | true => exact iff_of_false not_oneEvent_of_unfinished (by simp)
    | false => exact iff_of_true (oneEvent_of_finishing rfl) (by simp)
  | waited batchId =>
    obtain ⟨⟨done, clientId⟩, hanswered, hguards⟩ := Option.map_eq_some_iff.mp h
    have hbrings := answeredAfter_eq hanswered
    have hexists : ((∃ b, SplitOutcome.waited batchId = .waited b ∧
        BringsAnswer o.duplicate b (split.key o.split))) ↔
          BringsAnswer o.duplicate batchId (split.key o.split) := by
      simp
    rw [hexists, hbrings]
    simp only [capturePanics, Bool.false_eq_true, not_false_eq_true, and_true]
    cases done with
    | false =>
      subst hguards
      exact oneEvent_iff_of_finishing rfl (by simp)
    | true =>
      cases clientId with
      | none =>
        subst hguards
        exact oneEvent_iff_of_finishing rfl (by simp)
      | some clientId =>
        subst hguards
        exact iff_of_false (not_oneEvent_replayed clientId) (by simp)

theorem sendCalls_iff {ingress : Ingress} {params : CreateModelInteractionParams}
    (h : sendCalls r o ingress params = some guards) :
    OneEvent r o guards ↔ (SentWhole r params → ¬ StreamPanics o ingress) ∧
      ∀ limit, r.route.proxyLimit = some limit →
        limit < (dropFieldsFromValue params.toJson r.dropFields).size →
          canSplitUnderLimit params limit = .ok () →
            ¬ MeetsAnswer o (splitOf r o ingress params limit) ∧
              ¬ SplitPanics o (splitOf r o ingress params limit) := by
  have hwhole : OneEvent r o [guardCalls r o (singleExit r o ingress)] ↔
      ¬ StreamPanics o ingress :=
    (oneEvent_exit (singleExit_finishing ingress)).trans (singleExit_isSome_iff ingress)
  unfold sendCalls at h
  unfold SentWhole
  cases hlimit : r.route.proxyLimit with
  | none =>
    simp only [hlimit] at h
    cases h
    simp [hwhole]
  | some limit =>
    simp only [hlimit, Option.some.injEq, forall_eq'] at h ⊢
    split at h
    case isFalse hsize =>
      cases h
      rw [hwhole]
      simp [hsize]
    case isTrue hsize =>
      split at h
      case h_1 e hsplit =>
        cases h
        refine iff_of_true (oneEvent_of_finishing rfl) ⟨fun hnot => absurd hsize hnot, ?_⟩
        intro _ hok
        rw [hsplit] at hok
        cases hok
      case h_2 hsplit =>
        rw [splitCalls_iff h]
        exact ⟨fun hmeets => ⟨fun hnot => absurd hsize hnot, fun _ _ => hmeets⟩,
          fun hall => hall.2 hsize hsplit⟩

/-- The first guard of a request that waited is finished only if it goes on. -/
theorem afterWait_iff {ingress : Ingress} {prev : Option String}
    {rest : Option (List (List GuardCall))} {P : Prop}
    (h : afterWait r o ingress prev rest = some guards)
    (hrest : rest = some guards → (OneEvent r o guards ↔ P)) :
    OneEvent r o guards ↔ ¬ AwaitsAnswer r o ingress prev ∧ P := by
  obtain ⟨answer, hwait, hguards⟩ := Option.bind_eq_some_iff.mp h
  have hawaits : AwaitsAnswer r o ingress prev ↔ answer.isSome = true := by
    unfold waitForInflightBatch at hwait
    unfold AwaitsAnswer awaitedKey
    simp only at hwait
    split at hwait
    case h_1 hnone =>
      cases hwait
      simp [hnone]
    case h_2 batch hsome =>
      obtain ⟨⟨done, clientId⟩, hanswered, rfl⟩ := Option.map_eq_some_iff.mp hwait
      simp only [hsome, Option.some.injEq, exists_eq_left']
      refine (answeredAfter_eq hanswered).trans ?_
      cases clientId with
      | none => simp
      | some clientId => simp [answeredAfter_done hanswered]
  cases answer with
  | none =>
    rw [hawaits, hrest hguards]
    simp
  | some clientId =>
    cases hguards
    exact iff_of_false (not_oneEvent_replayed clientId) (by simp [hawaits])

theorem forwardCalls_iff {ingress : Ingress} (h : forwardCalls r o ingress = some guards) :
    OneEvent r o guards ↔ SendsItself r o ingress := by
  obtain ⟨frontier, hfound, hguards⟩ := Option.bind_eq_some_iff.mp h
  unfold SendsItself
  rw [hfound]
  cases hdecision : decision o.xxh3 ingress r.route frontier with
  | replay clientId =>
    rw [hdecision] at hguards
    cases hguards
    refine iff_of_false (not_oneEvent_replayed clientId) ?_
    rintro ⟨_, params, hfrontier, hsend, _⟩
    cases hfrontier
    rw [hdecision] at hsend
    cases hsend
  | reject =>
    have hnot : ¬ OneEvent r o guards := by
      rw [hdecision] at hguards
      cases hprotocol : ingress.protocol with
      | anthropic =>
        simp only [hprotocol] at hguards
        intro hone
        refine ((afterWait_iff (P := False) hguards fun hrejected => ?_).mp hone).2
        cases hrejected
        exact iff_of_false not_oneEvent_of_unfinished id
      | openAi =>
        simp only [hprotocol] at hguards
        cases hguards
        exact not_oneEvent_of_unfinished
    refine iff_of_false hnot ?_
    rintro ⟨_, params, hfrontier, hsend, _⟩
    cases hfrontier
    rw [hdecision] at hsend
    cases hsend
  | send params =>
    rw [hdecision] at hguards
    refine (afterWait_iff hguards fun hsent => sendCalls_iff hsent).trans ?_
    constructor
    · rintro ⟨hawaits, hwhole, hsplit⟩
      exact ⟨frontier, params, rfl, hdecision, hawaits, hwhole, hsplit⟩
    · rintro ⟨_, params', hfrontier, hsend, hawaits, hwhole, hsplit⟩
      cases hfrontier
      rw [hdecision] at hsend
      cases hsend
      exact ⟨hawaits, hwhole, hsplit⟩

/-- **One guard, one event.** A request leaves one event, with the id of its ingress dump and no
guard unfinished, if and only if it is a control message or is sent itself. -/
theorem one_event_iff (returns : handle r o = some guards) :
    OneEvent r o guards ↔ Diagnosed r o := by
  unfold handle at returns
  unfold Diagnosed
  cases hingress : r.ingress with
  | none =>
    rw [hingress] at returns
    cases returns
    exact iff_of_false not_oneEvent_nil (by simp)
  | some ingress =>
    simp only [hingress, Option.some.injEq, exists_eq_left'] at returns ⊢
    cases hcontrol : handleControl o.hashStr r.constants ingress.messages with
    | control action =>
      simp only [hcontrol] at returns ⊢
      cases returns
      exact iff_of_true (oneEvent_of_finishing rfl) trivial
    | forwarded messages =>
      simp only [hcontrol] at returns ⊢
      exact forwardCalls_iff returns

end

/-! ## A request that is known -/

/-- A request with a single message and a system instruction. -/
def systemTurnRequest : Incoming :=
  { body := [], headers := [], ingress := some (anthropicIngress ["a"] "s"), sessionId := "session"
    sectionName := "section"
    constants := { controlCleanAll := none, controlExtendLifetime := none }
    route := { maxTokens := none, proxyLimit := none }, dropFields := [], endpoint := "endpoint" }

/-- The upstream answers everything, the given store is what the request is looked up in. -/
def answeringOccasion (lookup : InteractionStore) : Occasion :=
  { xxh3 := lengthHash, hashStr := fun _ => 0, startSecs := 0, counters := id, ts := "ts"
    durationMs := 0, recorders := [], lookup := lookup
    wait := { batches := [], polls := [], after := InteractionStore.new }
    fetches :=
      { store := lookup, url := id, answers := fun _ => .interaction, translation := .ok () }
    single := .success [] (.finished 0) (.ok "int-1"), translation := .ok ()
    usageOf := crateUsage
    split :=
      { xxh3 := lengthHash, answers := fun _ => .success (.ok "int-1") (.ok "int-1")
        times := fun _ => { body := 0, started := 0, sent := 0, acked := 0 }, second := 0
        createdAt := 0, endedAt := 0, sessionAt := 0, batches := [], translation := .ok () }
    splitStore := StoreV2.new, captured := []
    duplicate := { batches := [], polls := [], after := InteractionStore.new }
    errorBody := "", errorHeaders := [], errorText := "", responseSize := 0 }

/-- A request that is replayed leaves its first guard unfinished, and the event of the second one
does not have the id of the ingress dump. -/
theorem not_always_one_event :
    ¬ ∀ (r : Incoming) (o : Occasion) guards, handle r o = some guards → OneEvent r o guards := by
  intro h
  have replays : handle systemTurnRequest
      (answeringOccasion World.systemTurn.store.interactions) =
        some (replayed systemTurnRequest
          (answeringOccasion World.systemTurn.store.interactions) "int-1") := by
    rfl
  exact not_oneEvent_replayed "int-1" (h _ _ _ replays)

/-- The same request where nothing is stored. -/
theorem one_event_iff_systemTurn :
    ∃ guards, handle systemTurnRequest (answeringOccasion InteractionStore.new) = some guards ∧
      (OneEvent systemTurnRequest (answeringOccasion InteractionStore.new) guards ↔
        Diagnosed systemTurnRequest (answeringOccasion InteractionStore.new)) := by
  have sent : handle systemTurnRequest (answeringOccasion InteractionStore.new) =
      some [guardCalls systemTurnRequest (answeringOccasion InteractionStore.new)
        (singleExit systemTurnRequest (answeringOccasion InteractionStore.new)
          (anthropicIngress ["a"] "s"))] := by
    rfl
  exact ⟨_, sent, one_event_iff sent⟩

end InfSplitter.Diagnostics
