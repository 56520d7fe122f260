import InfSplitter.Session.Store

/-!
# Batches in flight

The methods of `StoreV2`. A method that reads the clock takes the reading as `now`; a method that
can fail returns the store it leaves behind next to its result, since several of them change the
store and then fail.

The piece transitions differ only in what they do to one piece, so they are instances of
`updatePiece`: look the batch up, look the piece up, change it, stamp the batch.

Error texts are the constructors of `BatchError`, one for each `format!` of the source.
-/

set_option autoImplicit false

namespace InfSplitter.Session

open Lib

/-- What the batch operations fail with. -/
inductive BatchError
  -- "batch {batch_id} not found"
  | batchNotFound (batchId : String)
  -- "piece {piece_index} not found"
  | pieceNotFound (pieceIndex : Nat)
  -- "piece {piece_index} is not Pending (currently {:?})"
  | notPending (pieceIndex : Nat) (status : InFlightStatus)
  -- "piece {piece_index} is not ResponseStarted (currently {:?})"
  | notResponseStarted (pieceIndex : Nat) (status : InFlightStatus)
  -- "piece {piece_index} cannot transition to Acked from {:?}"
  | cannotAck (pieceIndex : Nat) (status : InFlightStatus)
  -- "batch {} cannot complete: piece {} is not Acked"
  | cannotComplete (batchId : String) (pieceIndex : Nat)
deriving DecidableEq, Repr

/-- What two requests have in common when one waits for the other's batch. -/
structure BatchKey where
  sessionId : String
  prevInteractionId : Option String
  messageHashes : List UInt64
  systemInstructionHash : Option UInt64
deriving DecidableEq, Repr

def InFlightBatch.key (batch : InFlightBatch) : BatchKey :=
  { sessionId := batch.sessionId, prevInteractionId := batch.prevInteractionId,
    messageHashes := batch.messageHashes, systemInstructionHash := batch.systemInstructionHash }

def InFlightStatus.isAcked : InFlightStatus → Bool
  | .acked _ => true
  | _ => false

/-- The id of an acked piece. -/
def InFlightPiece.ackedId (piece : InFlightPiece) : Option String :=
  match piece.status with
  | .acked interactionId => some interactionId
  | _ => none

namespace StoreV2

/-- `find_matching_batch`; `values` are the batches in the order the map's iterator yields them. -/
def findMatchingBatch (values : List InFlightBatch) (sessionId : String)
    (prevInteractionId : Option String) (messageHashes : List UInt64)
    (systemInstructionHash : Option UInt64) : Option InFlightBatch :=
  values.find? fun b =>
    b.sessionId == sessionId && b.prevInteractionId == prevInteractionId &&
      b.messageHashes == messageHashes && b.systemInstructionHash == systemInstructionHash

def createBatch (store : StoreV2) (now : UInt64) (id sessionId : String)
    (prevInteractionId : Option String) (messageHashes : List UInt64)
    (systemInstructionHash : Option UInt64) (pieces : List InFlightPiece) : StoreV2 :=
  { store with
    inFlight := store.inFlight.insert id
      { id := id, sessionId := sessionId, prevInteractionId := prevInteractionId,
        messageHashes := messageHashes, systemInstructionHash := systemInstructionHash,
        pieces := pieces, createdUtc := now, updatedUtc := now } }

/-- The common shape of the four piece transitions. -/
def updatePiece (store : StoreV2) (now : UInt64) (batchId : String) (pieceIndex : Nat)
    (change : InFlightPiece → Except BatchError InFlightPiece) :
    StoreV2 × Except BatchError Unit :=
  match store.inFlight.lookup batchId with
  | none => (store, .error (.batchNotFound batchId))
  | some batch =>
    match batch.pieces[pieceIndex]? with
    | none => (store, .error (.pieceNotFound pieceIndex))
    | some piece =>
      match change piece with
      | .error e => (store, .error e)
      | .ok piece' =>
        ({ store with
           inFlight := store.inFlight.insert batchId
             { batch with pieces := batch.pieces.set pieceIndex piece', updatedUtc := now } },
         .ok ())

/-- Pending to ResponseStarted. -/
def markResponseStarted (store : StoreV2) (now : UInt64) (batchId : String) (pieceIndex : Nat) :
    StoreV2 × Except BatchError Unit :=
  updatePiece store now batchId pieceIndex fun piece =>
    match piece.status with
    | .pending => .ok { piece with status := .responseStarted }
    | status => .error (.notPending pieceIndex status)

/-- ResponseStarted to Sent. -/
def markSent (store : StoreV2) (now : UInt64) (batchId : String) (pieceIndex : Nat)
    (interactionId : String) : StoreV2 × Except BatchError Unit :=
  updatePiece store now batchId pieceIndex fun piece =>
    match piece.status with
    | .responseStarted => .ok { piece with status := .sent interactionId }
    | status => .error (.notResponseStarted pieceIndex status)

/-- Sent or ResponseStarted to Acked. -/
def ackPiece (store : StoreV2) (now : UInt64) (batchId : String) (pieceIndex : Nat)
    (interactionId : String) : StoreV2 × Except BatchError Unit :=
  updatePiece store now batchId pieceIndex fun piece =>
    match piece.status with
    | .sent _ => .ok { piece with status := .acked interactionId }
    | .responseStarted => .ok { piece with status := .acked interactionId }
    | status => .error (.cannotAck pieceIndex status)

def setPieceBody (store : StoreV2) (now : UInt64) (batchId : String) (pieceIndex : Nat)
    (body : List UInt8) : StoreV2 × Except BatchError Unit :=
  updatePiece store now batchId pieceIndex fun piece => .ok { piece with requestBody := body }

def batchIsComplete (store : StoreV2) (batchId : String) : Bool :=
  match store.inFlight.lookup batchId with
  | some batch => batch.pieces.all fun piece => piece.status.isAcked
  | none => false

/-- The loop of `complete_batch`: an upstream node for every piece, chained to the one before. It
stops at the first piece that is not Acked, and the nodes inserted until then stay. -/
def insertPieces (batchId : String) (batch : InFlightBatch) (now : UInt64) :
    List InFlightPiece → Option String → InteractionStore →
      InteractionStore × Except BatchError (List String)
  | [], _, store => (store, .ok [])
  | piece :: rest, prevUpstream, store =>
    match piece.status with
    | .acked interactionId =>
      let (store', result) := insertPieces batchId batch now rest (some interactionId)
        (store.insertUpstream
          { id := interactionId, prevId := prevUpstream,
            clientId := batch.id ++ ":chunk-" ++ toString piece.index,
            lastSeenUtc := now, expiresAtUtc := now + defaultSessionTtlSecs })
      (store', result.map (interactionId :: ·))
    | _ => (store, .error (.cannotComplete batchId piece.index))

/-- The client node a completed batch becomes. -/
def clientNodeOf (batch : InFlightBatch) (upstreamIds : List String) (now : UInt64) :
    ClientInteractionNode :=
  { id := upstreamIds.getLast?.getD "", prevId := batch.prevInteractionId,
    messageHashes := batch.messageHashes, systemInstructionHash := batch.systemInstructionHash,
    upstreamIds := upstreamIds, lastSeenUtc := now }

/-- `sessions.get_mut(..)` and the two fields set through it. -/
def touchSession (sessions : StrMap SessionInfo) (sessionId interactionId : String)
    (now : UInt64) : StrMap SessionInfo :=
  match sessions.lookup sessionId with
  | some session =>
    sessions.insert sessionId
      { session with lastInteractionId := some interactionId, lastSeenUtc := now }
  | none => sessions

/-- The batch is taken out first, so a batch that cannot complete is gone as well. -/
def completeBatch (store : StoreV2) (now : UInt64) (batchId : String) :
    StoreV2 × Except BatchError ClientInteractionNode :=
  match store.inFlight.lookup batchId with
  | none => (store, .error (.batchNotFound batchId))
  | some batch =>
    let inFlight := store.inFlight.erase batchId
    match insertPieces batchId batch now batch.pieces batch.prevInteractionId
        store.interactions with
    | (interactions, .error e) =>
      ({ store with interactions := interactions, inFlight := inFlight }, .error e)
    | (interactions, .ok upstreamIds) =>
      let clientNode := clientNodeOf batch upstreamIds now
      ({ sessions := touchSession store.sessions batch.sessionId clientNode.id now,
         interactions := interactions.insertClient clientNode,
         inFlight := inFlight },
       .ok clientNode)

/-- Every piece that is not Acked becomes Failed; the ids of the Acked ones are returned, and their
upstream nodes removed. The batch itself stays in flight. -/
def failBatch (store : StoreV2) (now : UInt64) (batchId error : String) :
    StoreV2 × Except BatchError (List String) :=
  match store.inFlight.lookup batchId with
  | none => (store, .error (.batchNotFound batchId))
  | some batch =>
    let ackedIds := batch.pieces.filterMap InFlightPiece.ackedId
    let interactions :=
      { store.interactions with
        upstreams := ackedIds.foldl (fun m id => m.erase id) store.interactions.upstreams
        upstreamToClients :=
          ackedIds.foldl (fun m id => m.erase id) store.interactions.upstreamToClients }
    let pieces := batch.pieces.map fun piece =>
      if piece.status.isAcked then piece else { piece with status := .failed error }
    ({ store with
       interactions := interactions
       inFlight := store.inFlight.insert batchId
         { batch with pieces := pieces, updatedUtc := now } },
     .ok ackedIds)

def removeBatch (store : StoreV2) (batchId : String) : StoreV2 :=
  { store with inFlight := store.inFlight.erase batchId }

/-- `clean_all`, without the list of sessions it returns. The child index is not cleared. -/
def cleanAll (store : StoreV2) : StoreV2 :=
  { sessions := ∅
    interactions :=
      { clients := ∅, upstreams := ∅, hashIndex := ∅, upstreamToClients := ∅,
        prevToClient := store.interactions.prevToClient }
    inFlight := ∅ }

def discardAllInflight (store : StoreV2) : StoreV2 × Nat :=
  ({ store with inFlight := ∅ }, store.inFlight.entries.length)

/-- Stamp one client node, if it is stored. -/
def touchClient (store : InteractionStore) (id : String) (now : UInt64) : InteractionStore :=
  match store.clients.lookup id with
  | some client =>
    { store with clients := store.clients.insert id { client with lastSeenUtc := now } }
  | none => store

def extendLifetime (store : StoreV2) (now : UInt64) (sessionId : String)
    (expiresAtUtc : UInt64) : StoreV2 :=
  match store.sessions.lookup sessionId with
  | none => store
  | some session =>
    { store with
      sessions := store.sessions.insert sessionId
        { session with expiresAtUtc := expiresAtUtc, lastSeenUtc := now }
      interactions :=
        match session.lastInteractionId with
        | some lastId => touchClient store.interactions lastId now
        | none => store.interactions }

end StoreV2

end InfSplitter.Session
