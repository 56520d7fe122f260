import InfSplitter.Routing.World
import InfSplitter.SplitSend.Isolation

/-!
# All requests together

`Routing.World` follows a request from its lookup to its node and takes what a split send does to
the store in one piece; `Sends` follows the split sends and leaves everything else open. Here both
are in one system: what changes the store is one event each, and an event belongs to the request
that causes it.

* `lookup`: as in `Routing.World`. A request that goes on is `asking`.
* `commit`: the insert of a request that is sent in one piece, streamed or not.
* `startContent`, `startSystem`: a request that is split creates its batch and is `sending` from
  then on. Both requests and batches hold on to the previous id that was looked up.
* `markStarted`, `ack`, `complete`, `fail`: the sections of a split send. `complete_batch` fails
  where not all pieces are acked, and the send is over all the same. `fail_batch_and_cancel` is
  only called for a piece on its way.
* `abandon`, `drop`: a request ends without touching the store.
* `unstored`: the upstream has given an id to a request that ends before it stores it: the client
  of a stream leaves before the insert, or a piece fails after its interaction was made.
* `sessions`: the upsert after a system-instruction split. `extendLifetime`, `touchUpstream` and
  `cleanAll` are what control messages and replays do.

`issued` are the ids the upstream has given out; `Fresh` says of an event that it brings a new one.
A request that brings no content is split into no pieces at all; `Pieced` leaves that out.
-/

set_option autoImplicit false

namespace InfSplitter.Traffic

open Lib Session Routing SplitSend

/-- The store, and the requests under way. -/
structure Proxy where
  store : StoreV2
  asking : List Exchange
  sending : List Send
  issued : List String

def Proxy.init : Proxy :=
  { store := StoreV2.new, asking := [], sending := [], issued := [] }

inductive Event
  | lookup (request : Request)
  | commit (x : Exchange) (id : String)
  | start (x : Exchange) (y : Send)
  | markStarted (y : Send)
  | ack (y : Send) (id : String)
  | complete (y : Send) (now : UInt64)
  | fail (y : Send)
  | abandon (y : Send)
  | drop (x : Exchange)
  | unstored (id : String)
  | sessions
  | extendLifetime
  | touchUpstream (id : String)
  | cleanAll

namespace Proxy

variable (p : Proxy)

def lookedUp (request : Request) (frontier : Frontier) : Proxy :=
  { p with asking := { request := request, frontier := frontier } :: p.asking }

def committed (x : Exchange) (id : String) (now : UInt64) (sessionId : String) : Proxy :=
  { p with
    store := recordInteraction p.store now sessionId id x.prevId x.request.hashes
      x.storedSystemHash
    asking := p.asking.erase x
    issued := p.issued ++ [id] }

/-- The exchange creates a batch of `count` pieces. -/
def begun (x : Exchange) (y : Send) (now : UInt64) (count : Nat) : Proxy :=
  { p with
    store := createKeyed p.store now y.batchId y.key count
    asking := p.asking.erase x
    sending := y :: p.sending }

def marked (y : Send) (now now' : UInt64) (body : List UInt8) : Proxy :=
  { p with
    store := markStartedAndPersist p.store now now' y.batchId y.received.length body
    sending := { y with started := true, remaining := y.remaining - 1 } :: p.sending.erase y }

def acked (y : Send) (now now' : UInt64) (id : String) : Proxy :=
  { p with
    store := ackAndPersist p.store now now' y.batchId y.received.length id
    sending := { y with started := false, received := y.received ++ [id] } :: p.sending.erase y
    issued := p.issued ++ [id] }

def completed (y : Send) (now : UInt64) : Proxy :=
  { p with
    store := (p.store.completeBatch now y.batchId).1
    sending := p.sending.erase y }

def failed (y : Send) (now : UInt64) (error : String) : Proxy :=
  { p with
    store := (p.store.failBatch now y.batchId error).1
    sending := p.sending.erase y }

end Proxy

/-- A new send of the exchange, with nothing received yet. -/
def newSend (x : Exchange) (sessionId : String) (second : UInt64) (count : Nat) : Send :=
  ⟨batchKey x sessionId, second, [], false, count⟩

inductive Step : Proxy → Event → Proxy → Prop
  | answered {p : Proxy} {request : Request} {frontier : Frontier}
      (found : findFrontier p.store.interactions request.hashes none none = some frontier)
      (finished : ¬ Proceeds request frontier) :
      Step p (.lookup request) p
  | lookup {p : Proxy} {request : Request} {frontier : Frontier}
      (found : findFrontier p.store.interactions request.hashes none none = some frontier)
      (proceeds : Proceeds request frontier) :
      Step p (.lookup request) (p.lookedUp request frontier)
  | commit {p : Proxy} {x : Exchange} (id : String) (now : UInt64) (sessionId : String)
      (mem : x ∈ p.asking) :
      Step p (.commit x id) (p.committed x id now sessionId)
  -- `handle_split_send`, when it finds no batch of its own key
  | startContent {p : Proxy} {x : Exchange} (sessionId : String) (second now : UInt64)
      (count : Nat) (values : List InFlightBatch) (mem : x ∈ p.asking)
      (order : values.Perm p.store.inFlight.values)
      (miss : findKeyed values (batchKey x sessionId) = none) :
      Step p (.start x (newSend x sessionId second count))
        (p.begun x (newSend x sessionId second count) now count)
  -- `send_split_system_instruction` does not look
  | startSystem {p : Proxy} {x : Exchange} (sessionId : String) (second now : UInt64)
      (count : Nat) (mem : x ∈ p.asking) :
      Step p (.start x (newSend x sessionId second count))
        (p.begun x (newSend x sessionId second count) now count)
  | markStarted {p : Proxy} {y : Send} (now now' : UInt64) (body : List UInt8)
      (mem : y ∈ p.sending) (idle : y.started = false) (more : 0 < y.remaining) :
      Step p (.markStarted y) (p.marked y now now' body)
  | ack {p : Proxy} {y : Send} (now now' : UInt64) (id : String) (mem : y ∈ p.sending)
      (busy : y.started = true) :
      Step p (.ack y id) (p.acked y now now' id)
  | complete {p : Proxy} {y : Send} (now : UInt64) (mem : y ∈ p.sending)
      (idle : y.started = false) (all : y.remaining = 0) :
      Step p (.complete y now) (p.completed y now)
  | fail {p : Proxy} {y : Send} (now : UInt64) (error : String) (mem : y ∈ p.sending)
      (busy : y.started = true) :
      Step p (.fail y) (p.failed y now error)
  | abandon {p : Proxy} {y : Send} :
      Step p (.abandon y) { p with sending := p.sending.erase y }
  | drop {p : Proxy} {x : Exchange} :
      Step p (.drop x) { p with asking := p.asking.erase x }
  | unstored {p : Proxy} (id : String) :
      Step p (.unstored id) { p with issued := p.issued ++ [id] }
  | sessions {p : Proxy} (sessions : StrMap SessionInfo) :
      Step p .sessions { p with store := { p.store with sessions := sessions } }
  | extendLifetime {p : Proxy} (now : UInt64) (sessionId : String) (expiresAtUtc : UInt64) :
      Step p .extendLifetime
        { p with store := p.store.extendLifetime now sessionId expiresAtUtc }
  | touchUpstream {p : Proxy} (now : UInt64) (id : String) :
      Step p (.touchUpstream id)
        { p with
          store := { p.store with
            interactions := p.store.interactions.touchUpstreamOnReplay id now } }
  | cleanAll {p : Proxy} : Step p .cleanAll { p with store := p.store.cleanAll }

/-- All requests, over all interleavings. -/
def traffic : System Proxy Event :=
  { init := Proxy.init, step := Step }

/-- The upstream gives out an id it has not given out before. -/
def Fresh (p : Proxy) : Event → Prop
  | .commit _ id => id ∉ p.issued
  | .ack _ id => id ∉ p.issued
  | .unstored id => id ∉ p.issued
  | _ => True

/-- A request that is split has at least one piece. -/
def Pieced : Event → Prop
  | .start _ y => 0 < y.remaining
  | _ => True

end InfSplitter.Traffic
