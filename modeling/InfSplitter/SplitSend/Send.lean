import InfSplitter.Routing.Handler
import InfSplitter.SplitSend.Packing
import InfSplitter.SplitSend.Pieces

/-!
# A split send

`handle_split_send` and `send_split_system_instruction` from the cut to the answer, for one request
on its own. What the world outside decides is an `Environment`: the answer to each piece, the clock,
the order in which the map of batches is walked, and whether the answers translate into a response.

Both functions run the same loop over their pieces. Mark the piece started, send its body, read the
answer, mark the piece acked, and chain the next piece to the id received. They differ in three
things, which are the fields of `SendLoop`: the body of a piece, which errors they clean up after
and with what reason, and a check `handle_split_send` makes after its first piece.

An error that is answered with the upstream's own status is an error here as well.
-/

set_option autoImplicit false

namespace InfSplitter.SplitSend

open Session Interactions

/-- The arguments of `handle_split_send`. -/
structure SplitRequest where
  params : CreateModelInteractionParams
  contents : List Content
  limit : Nat
  sessionId : String
  harnessHashes : List UInt64
  stream : Bool
  model : String
  dropFields : List String

/-- What a send fails with; a `message` is the text of an error that comes from outside. -/
inductive SendError
  -- `send_chunk`
  | send (message : String)
  | http (status : Nat)
  -- reading an event stream
  | bufferOverflow (message : String)
  | lineTooLong
  | streamError (message : String)
  | noInteractionCreated
  -- reading a body
  | bodyRead (message : String)
  | validation (message : String)
  | parse (message : String)
  -- "chunk {j} exceeds proxy_limit with real previous_interaction_id ({size} > {limit})"
  | chunkTooLarge (j size limit : Nat)
  -- "no final interaction id"
  | noFinalId
  | complete (e : BatchError)
  | translate (message : String)
deriving DecidableEq, Repr

/-- The errors of reading an event stream. -/
inductive StreamError
  | bufferOverflow (message : String)
  | lineTooLong
  | streamError (message : String)
  | noInteractionCreated
deriving DecidableEq, Repr

inductive BodyError
  | bodyRead (message : String)
  | validation (message : String)
  | parse (message : String)
deriving DecidableEq, Repr

def StreamError.toSendError : StreamError → SendError
  | .bufferOverflow message => .bufferOverflow message
  | .lineTooLong => .lineTooLong
  | .streamError message => .streamError message
  | .noInteractionCreated => .noInteractionCreated

def BodyError.toSendError : BodyError → SendError
  | .bodyRead message => .bodyRead message
  | .validation message => .validation message
  | .parse message => .parse message

/-- What comes back for one piece: nothing, a refusal, or a success that is then read as an event
stream or as a body, whichever was asked for. -/
inductive Answer
  | sendError (message : String)
  | httpError (status : Nat)
  | success (streamed : Except StreamError String) (body : Except BodyError String)

/-- The interaction id of the piece, or the error its exit is taken with. -/
def Answer.read (stream : Bool) : Answer → Except SendError String
  | .sendError message => .error (.send message)
  | .httpError status => .error (.http status)
  | .success streamed body =>
    if stream then streamed.mapError StreamError.toSendError
    else body.mapError BodyError.toSendError

/-- The clock during one piece. -/
structure PieceTimes where
  body : UInt64
  started : UInt64
  sent : UInt64
  acked : UInt64

structure Environment where
  xxh3 : List UInt8 → UInt64
  answers : Nat → Answer
  times : Nat → PieceTimes
  -- the clock when the id is made, the batch created, completed or failed, the session updated
  second : UInt64
  createdAt : UInt64
  endedAt : UInt64
  sessionAt : UInt64
  -- the batches in flight, in the order the map yields them
  batches : List InFlightBatch
  translation : Except String Unit

/-- The id received for piece `i`. -/
def Environment.accepted (env : Environment) (stream : Bool) (i : Nat) :
    Except SendError String :=
  (env.answers i).read stream

/-- One send in the middle of its work. -/
structure Sending where
  store : StoreV2
  -- the bodies sent and the ids received, oldest first
  sent : List Json
  received : List String
  cancelled : List String

def dropFieldsFromValue (value : Json) (fields : List String) : Json :=
  match value with
  | .obj members => .obj (members.filter fun m => !fields.contains m.1)
  | value => value

namespace Sending

def ofStore (store : StoreV2) : Sending :=
  { store := store, sent := [], received := [], cancelled := [] }

/-- `mark_started_and_persist`, and the body on its way. -/
def start (w : Sending) (env : Environment) (batchId : String) (i : Nat) (body : Json) : Sending :=
  { w with
    store := markStartedAndPersist w.store (env.times i).body (env.times i).started batchId i
      body.toVec
    sent := w.sent ++ [body] }

def ack (w : Sending) (env : Environment) (batchId : String) (i : Nat) (id : String) : Sending :=
  { w with
    store := ackAndPersist w.store (env.times i).sent (env.times i).acked batchId i id
    received := w.received ++ [id] }

/-- `fail_batch_and_cancel`. -/
def failBatchAndCancel (w : Sending) (env : Environment) (batchId reason : String) : Sending :=
  match w.store.failBatch env.endedAt batchId reason with
  | (store, .ok ackedIds) => { w with store := store, cancelled := w.cancelled ++ ackedIds }
  | (store, .error _) => { w with store := store }

def completeBatch (w : Sending) (env : Environment) (batchId : String) :
    Sending × Except BatchError ClientInteractionNode :=
  let (store, result) := w.store.completeBatch env.endedAt batchId
  ({ w with store := store }, result)

/-- The session entry after a system-instruction split: `and_modify(..).or_insert_with(..)`. -/
def updateSession (w : Sending) (env : Environment) (sessionId finalId : String) : Sending :=
  { w with
    store :=
      { w.store with
        sessions := w.store.sessions.insert sessionId <|
          match w.store.sessions.lookup sessionId with
          | some s => { s with lastInteractionId := some finalId, lastSeenUtc := env.sessionAt }
          | none =>
            { clientSessionId := sessionId, lastInteractionId := some finalId,
              lastSeenUtc := env.sessionAt,
              expiresAtUtc := env.sessionAt + defaultSessionTtlSecs } } }

end Sending

/-! ## The loop -/

/-- What the two loops over the pieces do differently. -/
structure SendLoop (α : Type) where
  body : Nat → α → Option String → CreateModelInteractionParams
  -- the reason given to `fail_batch_and_cancel`; `none` where the exit does not call it
  cleanUp : Nat → SendError → Option String
  -- after piece `i` came back with an id, what is wrong with the pieces after it
  recheck : Nat → String → List α → Option SendError

/-- The reason piece `i` fails with. -/
def failReason (lineTooLong : String) (i : Nat) : SendError → String
  | .send message => s!"chunk {i} send error: {message}"
  | .http status => s!"chunk {i} HTTP {status}"
  | .bufferOverflow message => s!"SSE buffer overflow: {message}"
  | .lineTooLong => lineTooLong
  | .streamError message => s!"chunk {i} stream error: {message}"
  | .bodyRead message => s!"chunk {i} body read error: {message}"
  | .validation message => s!"chunk {i} validation error: {message}"
  | .parse message => s!"chunk {i} parse error: {message}"
  | _ => "no interaction.created event in streaming chunk response"

section
variable {α : Type}

/-- The pieces from number `i` on, the next of them chained to `prev`. -/
def sendPieces (loop : SendLoop α) (r : SplitRequest) (env : Environment) (batchId : String) :
    List α → Nat → Option String → Sending → Sending × Except SendError Unit
  | [], _, _, w => (w, .ok ())
  | piece :: rest, i, prev, w =>
    let body := dropFieldsFromValue (loop.body i piece prev).toJson r.dropFields
    let started := w.start env batchId i body
    match env.accepted r.stream i with
    | .error e =>
      match loop.cleanUp i e with
      | some reason => (started.failBatchAndCancel env batchId reason, .error e)
      | none => (started, .error e)
    | .ok id =>
      let acked := started.ack env batchId i id
      match loop.recheck i id rest with
      | some e => (acked, .error e)
      | none => sendPieces loop r env batchId rest (i + 1) (some id) acked

end

/-! ## Content split -/

namespace SplitRequest

def firstEnvelope (r : SplitRequest) : CreateModelInteractionParams :=
  { model := r.model, input := [], stream := some false,
    systemInstruction := r.params.systemInstruction, tools := r.params.tools,
    generationConfig := r.params.generationConfig, previousInteractionId := none }

/-- The envelope of the later chunks, with `prev` for the previous id. -/
def subsequentEnvelope (r : SplitRequest) (prev : String) : CreateModelInteractionParams :=
  { model := r.model, input := [], stream := some false, systemInstruction := none, tools := none,
    generationConfig := none, previousInteractionId := some prev }

/-- `"x".repeat(36)`. -/
def placeholderId : String := String.ofList (List.replicate 36 'x')

def pack (r : SplitRequest) : Except PackError (List (List Content)) :=
  packContentIntoChunks r.firstEnvelope (r.subsequentEnvelope placeholderId) r.contents r.limit

end SplitRequest

/-- The first of the chunks, numbered from `j`, that is too large. -/
def firstTooLarge (envelope : CreateModelInteractionParams) (limit : Nat) :
    List (List Content) → Nat → Option SendError
  | [], _ => none
  | chunk :: rest, j =>
    let size := bodySize (buildPackBody envelope chunk)
    if limit < size then some (.chunkTooLarge j size limit)
    else firstTooLarge envelope limit rest (j + 1)

def contentLoop (r : SplitRequest) : SendLoop (List Content) where
  body i chunk prev :=
    let isFirstChunk := i == 0 && prev.isNone
    { buildChunkRequest r.model chunk (if isFirstChunk then r.params.systemInstruction else none)
        prev r.stream with
      tools := if isFirstChunk then r.params.tools else none
      generationConfig := if isFirstChunk then r.params.generationConfig else none }
  cleanUp i e :=
    match e with
    -- the `ok_or_else(..)?` after the stream is read
    | .noInteractionCreated => none
    | e => some (failReason s!"SSE buffer exceeded max line length for chunk {i}" i e)
  recheck i id rest :=
    if i = 0 then firstTooLarge (r.subsequentEnvelope id) r.limit rest 1 else none

/-- `compute_system_hash`. -/
def computeSystemHash (xxh3 : List UInt8 → UInt64) (prevId systemInstruction : Option String) :
    Option UInt64 :=
  if prevId.isSome then none
  else systemInstruction.map (Routing.hashSystemInstruction xxh3)

def SplitRequest.key (r : SplitRequest) (env : Environment) : BatchKey :=
  { sessionId := r.sessionId, prevInteractionId := r.params.previousInteractionId,
    messageHashes := r.harnessHashes,
    systemInstructionHash :=
      computeSystemHash env.xxh3 r.params.previousInteractionId r.params.systemInstruction }

/-- How a split send ends. `rejected` and `waited` come before there is a batch. -/
inductive SplitOutcome
  | rejectedContents (e : PackError)
  | rejectedSystem (e : SplitTextError)
  | waited (batchId : String)
  | failed (batchId : String) (e : SendError)
  | answered (interactionId : String)

/-- The batch is completed, then the answers are translated. -/
def finishContent (env : Environment) (batchId : String) (w : Sending) :
    Sending × SplitOutcome :=
  match w.completeBatch env batchId with
  | (w, .error e) => (w, .failed batchId (.complete e))
  | (w, .ok node) =>
    match env.translation with
    | .error message => (w, .failed batchId (.translate message))
    | .ok () => (w, .answered node.id)

/-- The sequence of chunks, once the batch is created. -/
def sendChunks (r : SplitRequest) (env : Environment) (batchId : String)
    (chunks : List (List Content)) (w : Sending) : Sending × SplitOutcome :=
  match sendPieces (contentLoop r) r env batchId chunks 0 r.params.previousInteractionId w with
  | (w, .error e) => (w, .failed batchId e)
  | (w, .ok ()) => finishContent env batchId w

/-! ## System-instruction split -/

/-- The arguments of `send_split_system_instruction` next to those of the request; `limit` is what
the first envelope leaves of the proxy limit. -/
structure SystemSplit where
  sys : String
  chunks : List (List Content)
  limit : Nat

namespace SystemSplit

/-- The size of a request with nothing in it, measured once for all fragments. -/
def envelopeOverhead (r : SplitRequest) : Nat :=
  bodySize (buildChunkRequest r.model [] (some "") r.params.previousInteractionId r.stream)

def plans (s : SystemSplit) (r : SplitRequest) : Except SplitTextError (List SplitPiecePlan) :=
  (splitTextForLimit s.sys s.limit (envelopeOverhead r)).map (buildSplitPlans · s.chunks)

end SystemSplit

def systemLoop (r : SplitRequest) : SendLoop SplitPiecePlan where
  body _ plan prev :=
    { buildChunkRequest r.model plan.input plan.systemInstruction prev r.stream with
      tools := if plan.includeToolsConfig then r.params.tools else none
      generationConfig := if plan.includeToolsConfig then r.params.generationConfig else none }
  cleanUp i e := some (failReason "SSE buffer exceeded max line length" i e)
  recheck _ _ _ := none

/-- A streamed answer is translated before the batch is completed. -/
def finishSystemStream (r : SplitRequest) (env : Environment) (batchId : String) (w : Sending) :
    Sending × SplitOutcome :=
  match w.received.getLast? with
  | none => (w, .failed batchId .noFinalId)
  | some finalId =>
    match env.translation with
    | .error message => (w, .failed batchId (.translate message))
    | .ok () =>
      match w.completeBatch env batchId with
      | (w, .error e) => (w, .failed batchId (.complete e))
      | (w, .ok _) => (w.updateSession env r.sessionId finalId, .answered finalId)

/-- Any other answer is translated last. -/
def finishSystem (r : SplitRequest) (env : Environment) (batchId : String) (w : Sending) :
    Sending × SplitOutcome :=
  match w.completeBatch env batchId with
  | (w, .error e) => (w, .failed batchId (.complete e))
  | (w, .ok node) =>
    let w :=
      match w.received.getLast? with
      | some finalId => w.updateSession env r.sessionId finalId
      | none => w
    match env.translation with
    | .error message => (w, .failed batchId (.translate message))
    | .ok () => (w, .answered node.id)

/-- The sequence of planned pieces, once the batch is created. -/
def sendPlans (r : SplitRequest) (env : Environment) (batchId : String)
    (plans : List SplitPiecePlan) (w : Sending) : Sending × SplitOutcome :=
  match sendPieces (systemLoop r) r env batchId plans 0 r.params.previousInteractionId w with
  | (w, .error e) => (w, .failed batchId e)
  | (w, .ok ()) =>
    if r.stream then finishSystemStream r env batchId w else finishSystem r env batchId w

/-- A new batch of `count` pending pieces. -/
def Sending.create (w : Sending) (r : SplitRequest) (env : Environment) (key : BatchKey)
    (count : Nat) : Sending :=
  { w with
    store := createKeyed w.store env.createdAt (batchIdOf r.sessionId env.second) key count }

/-- `send_split_system_instruction`. -/
def sendSplitSystemInstruction (r : SplitRequest) (s : SystemSplit) (env : Environment)
    (w : Sending) : Sending × SplitOutcome :=
  match s.plans r with
  | .error e => (w, .rejectedSystem e)
  | .ok plans =>
    let key :=
      { r.key env with
        systemInstructionHash :=
          computeSystemHash env.xxh3 r.params.previousInteractionId (some s.sys) }
    sendPlans r env (batchIdOf r.sessionId env.second) plans (w.create r env key plans.length)

/-- The system instruction, when it does not fit into the first envelope, as the arguments of
`send_split_system_instruction`. -/
def SplitRequest.systemSplit (r : SplitRequest) (chunks : List (List Content)) :
    Option SystemSplit :=
  r.params.systemInstruction.bind fun sys =>
    if r.limit < bodySize r.firstEnvelope then
      some
        { sys := sys, chunks := chunks,
          limit := r.limit - bodySize { r.firstEnvelope with systemInstruction := some "" } }
    else none

/-- `handle_split_send`. A request that finds a batch of its own key waits for that one. -/
def handleSplitSend (r : SplitRequest) (env : Environment) (w : Sending) :
    Sending × SplitOutcome :=
  match r.pack with
  | .error e => (w, .rejectedContents e)
  | .ok chunks =>
    match r.systemSplit chunks with
    | some s => sendSplitSystemInstruction r s env w
    | none =>
      match findKeyed env.batches (r.key env) with
      | some existing => (w, .waited existing.id)
      | none =>
        sendChunks r env (batchIdOf r.sessionId env.second) chunks
          (w.create r env (r.key env) chunks.length)

end InfSplitter.SplitSend
