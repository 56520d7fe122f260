import InfSplitter.Lib.Run
import InfSplitter.Session.Frontier
import InfSplitter.Session.InFlight

/-!
# Requests between lookup and insert

The two ingress handlers touch the store in critical sections, and between them anything can
happen: other requests, other sessions, a control message. What is modelled here is one step for
each critical section, in any order.

* `lookup`: `find_frontier(&hashes, None, None, ..)`. A request that is answered from the store, or
  rejected because it brings no harness message to a new chain, is finished; any other becomes an
  `Exchange`, the values the handler holds on to until the upstream has answered.
* `commit`: the insert in `send_and_translate` and, letter for letter the same, in
  `handle_stream_response`.
* `commitSplit`: `complete_batch`, where the batch is the exchange's own.
* `drop`: an exchange that ends in an error, or in a wait for somebody else's batch.
* `extendLifetime`, `cleanAll`: the control messages. `other` is any change outside the client
  nodes and the two indexes the search reads (batch operations, `touch_upstream_on_replay`).

Interaction ids are the upstream's, and the upstream gives out each id once: `issued` lists them,
and an insert takes one that is not in the list. `history` is not in the program. It records for
every id the harness hashes delivered along the chain that ends there.
-/

set_option autoImplicit false

namespace InfSplitter.Routing

open Lib Session

/-- The client node a request that was sent in one piece becomes. -/
def recordedNode (now : UInt64) (interactionId : String) (prevInteractionId : Option String)
    (harnessHashes : List UInt64) (systemInstructionHash : Option UInt64) :
    ClientInteractionNode :=
  { id := interactionId, prevId := prevInteractionId, messageHashes := harnessHashes,
    systemInstructionHash := systemInstructionHash, upstreamIds := [interactionId],
    lastSeenUtc := now }

/-- The critical section after a successful send. -/
def recordInteraction (store : StoreV2) (now : UInt64) (sessionId interactionId : String)
    (prevInteractionId : Option String) (harnessHashes : List UInt64)
    (systemInstructionHash : Option UInt64) : StoreV2 :=
  { store with
    interactions :=
      (store.interactions.insertUpstream
        { id := interactionId, prevId := prevInteractionId, clientId := sessionId,
          lastSeenUtc := now, expiresAtUtc := now + defaultSessionTtlSecs }).insertClient
        (recordedNode now interactionId prevInteractionId harnessHashes systemInstructionHash)
    sessions :=
      store.sessions.insert sessionId <|
        match store.sessions.lookup sessionId with
        | some s => { s with lastInteractionId := some interactionId, lastSeenUtc := now }
        | none =>
          { clientSessionId := sessionId, lastInteractionId := some interactionId,
            lastSeenUtc := now, expiresAtUtc := now + defaultSessionTtlSecs } }

/-- What a handler works with: the hashes of the harness messages and of the system instruction. -/
structure Request where
  hashes : List UInt64
  systemInstructionHash : Option UInt64
deriving DecidableEq, Repr

/-- A request on its way to the upstream. -/
structure Exchange where
  request : Request
  frontier : Frontier
deriving DecidableEq, Repr

namespace Exchange

def prevId (x : Exchange) : Option String := x.frontier.previousInteractionId

/-- The system hash that is stored: only at the root of a chain. -/
def storedSystemHash (x : Exchange) : Option UInt64 :=
  if x.prevId.isNone then x.request.systemInstructionHash else none

/-- The hashes of the harness messages that are sent. -/
def sent (x : Exchange) : List UInt64 := x.request.hashes.drop x.frontier.index

end Exchange

/-- The key of the batch an exchange is split under. -/
def batchKey (x : Exchange) (sessionId : String) : BatchKey :=
  { sessionId := sessionId, prevInteractionId := x.prevId, messageHashes := x.request.hashes,
    systemInstructionHash := x.storedSystemHash }

structure World where
  store : StoreV2
  pending : List Exchange
  issued : List String
  history : String → List UInt64

def World.init : World :=
  { store := StoreV2.new, pending := [], issued := [], history := fun _ => [] }

/-- The history delivered along the chain that ends in `prevId`. -/
def World.contextOf (w : World) : Option String → List UInt64
  | none => []
  | some id => w.history id

/-- The history of a new id: what its exchange continues, and what it sent. -/
def World.historyAfter (w : World) (x : Exchange) (id : String) : String → List UInt64 :=
  Function.update w.history id (w.contextOf x.prevId ++ x.sent)

inductive Action
  | lookup (request : Request)
  | commit (x : Exchange) (interactionId : String)
  | commitSplit (x : Exchange) (batchId interactionId : String)
  | drop (x : Exchange)
  | extendLifetime
  | cleanAll
  | other

/-- What the handler goes on with after the lookup. -/
def Proceeds (request : Request) (frontier : Frontier) : Prop :=
  frontier.allKnown = false ∧
    ¬ (request.hashes = [] ∧ frontier.previousInteractionId = none)

instance (request : Request) (frontier : Frontier) : Decidable (Proceeds request frontier) :=
  inferInstanceAs (Decidable (_ ∧ _))

/-- The world after a lookup that starts an exchange. -/
def World.lookedUp (w : World) (request : Request) (frontier : Frontier) : World :=
  { w with pending := { request := request, frontier := frontier } :: w.pending }

/-- The world after the insert of `x` under `id`. -/
def World.committed (w : World) (x : Exchange) (id : String) (now : UInt64)
    (sessionId : String) : World :=
  { store := recordInteraction w.store now sessionId id x.prevId x.request.hashes
      x.storedSystemHash
    pending := w.pending.erase x
    issued := w.issued ++ [id]
    history := w.historyAfter x id }

/-- The world after the batch of `x` completed as `node`, leaving `store` behind. -/
def World.committedSplit (w : World) (x : Exchange) (store : StoreV2)
    (node : ClientInteractionNode) : World :=
  { store := store
    pending := w.pending.erase x
    issued := w.issued ++ node.upstreamIds
    history := w.historyAfter x node.id }

inductive Step : World → Action → World → Prop
  | answered {w : World} {request : Request} {frontier : Frontier}
      (found : findFrontier w.store.interactions request.hashes none none = some frontier)
      (finished : ¬ Proceeds request frontier) :
      Step w (.lookup request) w
  | lookup {w : World} {request : Request} {frontier : Frontier}
      (found : findFrontier w.store.interactions request.hashes none none = some frontier)
      (proceeds : Proceeds request frontier) :
      Step w (.lookup request) (w.lookedUp request frontier)
  | commit {w : World} {x : Exchange} {id : String} (now : UInt64) (sessionId : String)
      (mem : x ∈ w.pending) (fresh : id ∉ w.issued) :
      Step w (.commit x id) (w.committed x id now sessionId)
  | commitSplit {w : World} {x : Exchange} {batchId : String} {batch : InFlightBatch}
      {now : UInt64} {store' : StoreV2} {node : ClientInteractionNode}
      (mem : x ∈ w.pending)
      (own : w.store.inFlight.lookup batchId = some batch)
      (prev : batch.prevInteractionId = x.prevId)
      (hashes : batch.messageHashes = x.request.hashes)
      (system : batch.systemInstructionHash = x.storedSystemHash)
      (completed : w.store.completeBatch now batchId = (store', .ok node))
      (sent : node.upstreamIds ≠ [])
      (fresh : ∀ id ∈ node.upstreamIds, id ∉ w.issued) :
      Step w (.commitSplit x batchId node.id) (w.committedSplit x store' node)
  | drop {w : World} {x : Exchange} :
      Step w (.drop x) { w with pending := w.pending.erase x }
  | extendLifetime {w : World} (now : UInt64) (sessionId : String) (expiresAtUtc : UInt64) :
      Step w .extendLifetime
        { w with store := w.store.extendLifetime now sessionId expiresAtUtc }
  | cleanAll {w : World} :
      Step w .cleanAll { w with store := w.store.cleanAll }
  | other {w : World} {store' : StoreV2}
      (clients : store'.interactions.clients = w.store.interactions.clients)
      (hashIndex : store'.interactions.hashIndex = w.store.interactions.hashIndex)
      (prevToClient : store'.interactions.prevToClient = w.store.interactions.prevToClient) :
      Step w .other { w with store := store' }

/-- The handlers, over all interleavings of their critical sections. -/
def routing : System World Action :=
  { init := World.init, step := Step }

end InfSplitter.Routing
