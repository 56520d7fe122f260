import InfSplitter.Routing.Invariant
import InfSplitter.Session.Part
import InfSplitter.SplitSend.Pieces

/-!
# Requests of several routes

All sections with an interactions endpoint are served from one store. The search for a frontier
sees hashes and nothing else, and the key a batch is found under has a session and no section. Here
every step of the handlers carries the route it is taken for, and the world remembers the route of
every interaction and of every batch; none of these is in the program.

An interaction is the upstream's, so it should only be continued or replayed for the route that made
it, and a request should only wait for a batch of its own route. This is so as long as a search
finds its first hash in interactions of its own route (`Unmixed`), finds no batch but its own
(`OwnBatches`), and two routes start no split of one session in the same second: then the links
between interactions never lead from one route to another (`Owned.closed`), and a search stays
inside (`Closed.frontier_own`).
-/

set_option autoImplicit false

namespace InfSplitter.Routing

open Lib Session SplitSend

/-- A section of the configuration and the model asked for. -/
structure Route where
  sectionName : String
  model : String
deriving DecidableEq, Repr

/-! ## What a request does to its batch -/

/-- The sections of a split send between creating its batch and completing it. -/
inductive BatchUpdate
  | markStarted (pieceIndex : Nat) (chunkBody : List UInt8)
  | ack (pieceIndex : Nat) (interactionId : String)
  | fail (error : String)

def BatchUpdate.apply (update : BatchUpdate) (now now' : UInt64) (batchId : String)
    (store : StoreV2) : StoreV2 :=
  match update with
  | .markStarted pieceIndex chunkBody =>
    markStartedAndPersist store now now' batchId pieceIndex chunkBody
  | .ack pieceIndex interactionId => ackAndPersist store now now' batchId pieceIndex interactionId
  | .fail error => (store.failBatch now batchId error).1

/-- The operation reads and writes the batch under `id` and no other, and no client node. -/
structure ActsOn (id : String) (op : StoreV2 → StoreV2) : Prop where
  reads : ∀ {s t : StoreV2}, s.inFlight.lookup id = t.inFlight.lookup id →
    (op s).inFlight.lookup id = (op t).inFlight.lookup id
  writes : ∀ s {k : String}, k ≠ id → (op s).inFlight.lookup k = s.inFlight.lookup k
  key : ∀ {s b'}, (op s).inFlight.lookup id = some b' →
    ∃ b, s.inFlight.lookup id = some b ∧ b'.key = b.key
  chains : ∀ s, SameChains s.interactions (op s).interactions

namespace ActsOn

variable {id : String} {op op' : StoreV2 → StoreV2}

theorem comp (h : ActsOn id op) (h' : ActsOn id op') : ActsOn id fun s => op' (op s) where
  reads hs := h'.reads (h.reads hs)
  writes s _ hk := (h'.writes _ hk).trans (h.writes s hk)
  key hb := by
    obtain ⟨b, hmid, hkey⟩ := h'.key hb
    obtain ⟨b0, hb0, hkey0⟩ := h.key hmid
    exact ⟨b0, hb0, hkey.trans hkey0⟩
  chains s := (h.chains s).trans (h'.chains (op s))

theorem updatePiece (id : String) (now : UInt64) (i : Nat)
    (change : InFlightPiece → Except BatchError InFlightPiece) :
    ActsOn id fun s => (s.updatePiece now id i change).1 where
  reads {s t} hst := by
    unfold StoreV2.updatePiece
    rw [← hst]
    cases hb : s.inFlight.lookup id with
    | none => exact hst
    | some batch =>
      cases hp : batch.pieces[i]? with
      | none => simpa [hp] using hst
      | some piece =>
        cases hc : change piece with
        | error e => simpa [hp, hc] using hst
        | ok piece' => simp [hp, hc]
  writes s _ hk := updatePiece_lookup_ne s now i change hk
  key {s b'} hb := by
    rcases updatePiece_cases s now id i change with hs | ⟨batch, _, _, hold, _, _, hs⟩
    · rw [hs] at hb
      exact ⟨b', hb, rfl⟩
    · rw [hs, AList.lookup_insert] at hb
      cases hb
      exact ⟨batch, hold, rfl⟩
  chains s := updatePiece_sameChains s now id i change

theorem failBatch (id : String) (now : UInt64) (error : String) :
    ActsOn id fun s => (s.failBatch now id error).1 where
  reads {s t} hst := by
    rw [failBatch_inFlight, failBatch_inFlight, ← hst]
    cases hb : s.inFlight.lookup id with
    | none => exact hst
    | some batch => simp
  writes s _ hk := failBatch_lookup_ne s now error hk
  key {s b'} hb := by
    rcases failBatch_lookup_cases hb with ⟨batch, _, hold, rfl⟩ | hold
    · exact ⟨batch, hold, rfl⟩
    · exact ⟨b', hold, rfl⟩
  chains s := failBatch_sameChains s now id error

/-- **An update touches its batch and nothing else.** -/
theorem apply (update : BatchUpdate) (now now' : UInt64) (id : String) :
    ActsOn id (update.apply now now' id) := by
  cases update with
  | markStarted i body =>
    exact (ActsOn.updatePiece id now i _).comp (ActsOn.updatePiece id now' i _)
  | ack i interactionId =>
    exact (ActsOn.updatePiece id now i _).comp (ActsOn.updatePiece id now' i _)
  | fail error => exact ActsOn.failBatch id now error

end ActsOn

/-- A batch that cannot complete leaves the client nodes as they are. -/
theorem completeBatch_error {store store' : StoreV2} {now : UInt64} {batchId : String}
    {error : BatchError} (h : store.completeBatch now batchId = (store', .error error)) :
    SameChains store.interactions store'.interactions := by
  cases completing store now batchId with
  | missing _ result =>
    rw [show store' = store from congrArg Prod.fst (h.symm.trans result)]
    exact SameChains.refl _
  | @partly batch _ _ _ result =>
    rw [show store' = partlyCompleted store now batchId batch from
      congrArg Prod.fst (h.symm.trans result)]
    exact insertCalls_sameChains _ _
  | whole _ _ result => exact absurd (congrArg Prod.snd (h.symm.trans result)) (by simp)

theorem lookup_completeBatch {store store' : StoreV2} {now : UInt64} {batchId : String}
    {result : Except BatchError ClientInteractionNode}
    (h : store.completeBatch now batchId = (store', result)) (k : String) :
    store'.inFlight.lookup k = if k = batchId then none else store.inFlight.lookup k := by
  rw [show store' = (store.completeBatch now batchId).1 from (congrArg Prod.fst h).symm,
    completeBatch_inFlight]
  by_cases hk : k = batchId
  · rw [if_pos hk, hk, AList.lookup_erase]
  · rw [if_neg hk, AList.lookup_erase_ne hk]

theorem lookup_createKeyed (store : StoreV2) (now : UInt64) (batchId : String) (key : BatchKey)
    (count : Nat) :
    ∃ batch : InFlightBatch, batch.key = key ∧ ∀ k,
      (createKeyed store now batchId key count).inFlight.lookup k =
        if k = batchId then some batch else store.inFlight.lookup k := by
  refine ⟨{ id := batchId, sessionId := key.sessionId, prevInteractionId := key.prevInteractionId,
            messageHashes := key.messageHashes,
            systemInstructionHash := key.systemInstructionHash, pieces := pendingPieces count,
            createdUtc := now, updatedUtc := now }, rfl, fun k => ?_⟩
  by_cases hk : k = batchId
  · rw [if_pos hk, hk]
    exact AList.lookup_insert _
  · rw [if_neg hk]
    exact AList.lookup_insert_ne hk

/-! ## The system -/

/-- The critical sections of a request. -/
inductive Event
  | lookup (request : Request)
  -- `find_matching_batch`, in front of the send and again under the lock
  | findBatch (x : Exchange) (sessionId : String) (found : Option InFlightBatch)
  -- a look while waiting for a batch, with the previous id of the lookup
  | await (request : Request) (prev : Option String) (batchId : String) (complete : Bool)
  | start (x : Exchange) (sessionId : String) (second : UInt64) (count : Nat)
  | update (batchId : String) (update : BatchUpdate)
  | commit (x : Exchange) (interactionId : String) (now : UInt64) (sessionId : String)
  | commitSplit (x : Exchange) (batchId : String) (upstreamIds : List String) (now : UInt64)
  -- `complete_batch` where the batch is gone, or not all of its pieces are acked
  | failSplit (batchId : String) (now : UInt64)
  | drop (x : Exchange)
  | extendLifetime (now : UInt64) (sessionId : String) (expiresAtUtc : UInt64)
  | cleanAll

inductive Label
  | request (route : Route) (event : Event)
  -- the program ends and is started again
  | restart
  -- a change outside the client nodes, the two indexes and the batches
  | other

structure RoutedWorld where
  store : StoreV2
  pending : List (Route × Exchange)
  issued : List String
  -- the route of the request that made an interaction
  origin : String → Option Route
  -- the ids of the batches a route has started
  created : List (Route × String)

namespace RoutedWorld

def init : RoutedWorld :=
  { store := StoreV2.new, pending := [], issued := [], origin := fun _ => none, created := [] }

/-- The world after the exchange `x` of `route` has got the ids `ids` and left `store` behind. -/
def recorded (w : RoutedWorld) (route : Route) (x : Exchange) (store : StoreV2)
    (ids : List String) : RoutedWorld :=
  { store := store
    pending := w.pending.erase (route, x)
    issued := w.issued ++ ids
    origin := fun id => if id ∈ ids then some route else w.origin id
    created := w.created }

/-- The world after the exchange `x` of `route` has created a batch of `count` pieces. -/
def begun (w : RoutedWorld) (route : Route) (x : Exchange) (sessionId : String)
    (second now : UInt64) (count : Nat) : RoutedWorld :=
  { w with
    store := createKeyed w.store now (batchIdOf sessionId second) (batchKey x sessionId) count
    created := (route, batchIdOf sessionId second) :: w.created }

/-- The ids of a route's interactions. -/
def Own (w : RoutedWorld) (route : Route) (id : String) : Prop := w.origin id = some route

section
variable {w : RoutedWorld} {route : Route} {x : Exchange} {store : StoreV2} {ids : List String}
  {id : String}

theorem recorded_origin_new (h : id ∈ ids) :
    (w.recorded route x store ids).origin id = some route := if_pos h

theorem recorded_origin_old (h : id ∉ ids) :
    (w.recorded route x store ids).origin id = w.origin id := if_neg h

end

/-- The request finds its first hash in interactions of its own route only. -/
def Unmixed (w : RoutedWorld) (route : Route) (hashes : List UInt64) : Prop :=
  FoundIn (w.Own route) w.store.interactions hashes

/-- The batches in flight under the key are the route's. -/
def OwnBatches (w : RoutedWorld) (route : Route) (key : BatchKey) : Prop :=
  ∀ k batch, w.store.inFlight.lookup k = some batch → batch.key = key → (route, k) ∈ w.created

end RoutedWorld

inductive RoutedStep : RoutedWorld → Label → RoutedWorld → Prop
  | answered {w : RoutedWorld} {route : Route} {request : Request} {frontier : Frontier}
      (found : findFrontier w.store.interactions request.hashes none none = some frontier)
      (finished : ¬ Proceeds request frontier) :
      RoutedStep w (.request route (.lookup request)) w
  | lookup {w : RoutedWorld} {route : Route} {request : Request} {frontier : Frontier}
      (found : findFrontier w.store.interactions request.hashes none none = some frontier)
      (proceeds : Proceeds request frontier) :
      RoutedStep w (.request route (.lookup request))
        { w with pending := (route, { request := request, frontier := frontier }) :: w.pending }
  | findBatch {w : RoutedWorld} {route : Route} {x : Exchange} {sessionId : String}
      {found : Option InFlightBatch}
      (finds : FindsBatch w.store (batchKey x sessionId) found) :
      RoutedStep w (.request route (.findBatch x sessionId found)) w
  | await {w : RoutedWorld} {route : Route} {request : Request} {prev : Option String}
      {frontier : Frontier} {batchId : String} {complete : Bool}
      (found : findFrontier w.store.interactions request.hashes prev
        (if prev.isNone then request.systemInstructionHash else none) = some frontier)
      (done : w.store.batchIsComplete batchId = complete) :
      RoutedStep w (.request route (.await request prev batchId complete)) w
  -- `handle_split_send`, when it finds no batch of its own key
  | startContent {w : RoutedWorld} {route : Route} {x : Exchange} (sessionId : String)
      (second now : UInt64) (count : Nat) (mem : (route, x) ∈ w.pending)
      (miss : FindsBatch w.store (batchKey x sessionId) none) :
      RoutedStep w (.request route (.start x sessionId second count))
        (w.begun route x sessionId second now count)
  -- `send_split_system_instruction` does not look
  | startSystem {w : RoutedWorld} {route : Route} {x : Exchange} (sessionId : String)
      (second now : UInt64) (count : Nat) (mem : (route, x) ∈ w.pending) :
      RoutedStep w (.request route (.start x sessionId second count))
        (w.begun route x sessionId second now count)
  | update {w : RoutedWorld} {route : Route} {batchId : String} (update : BatchUpdate)
      (now now' : UInt64) (own : (route, batchId) ∈ w.created) :
      RoutedStep w (.request route (.update batchId update))
        { w with store := update.apply now now' batchId w.store }
  | commit {w : RoutedWorld} {route : Route} {x : Exchange} {id : String} (now : UInt64)
      (sessionId : String) (mem : (route, x) ∈ w.pending) (fresh : id ∉ w.issued) :
      RoutedStep w (.request route (.commit x id now sessionId))
        (w.recorded route x (recordInteraction w.store now sessionId id x.prevId x.request.hashes
          x.storedSystemHash) [id])
  -- the batch may be that of a later request with the same id, if one took its place
  | commitSplit {w : RoutedWorld} {route : Route} {x : Exchange} {batchId : String}
      {now : UInt64} {store' : StoreV2} {node : ClientInteractionNode}
      (mem : (route, x) ∈ w.pending) (own : (route, batchId) ∈ w.created)
      (completed : w.store.completeBatch now batchId = (store', .ok node))
      (sent : node.upstreamIds ≠ [])
      (fresh : ∀ id ∈ node.upstreamIds, id ∉ w.issued) :
      RoutedStep w (.request route (.commitSplit x batchId node.upstreamIds now))
        (w.recorded route x store' node.upstreamIds)
  | failSplit {w : RoutedWorld} {route : Route} {batchId : String} {now : UInt64}
      {store' : StoreV2} {error : BatchError} (own : (route, batchId) ∈ w.created)
      (failed : w.store.completeBatch now batchId = (store', .error error)) :
      RoutedStep w (.request route (.failSplit batchId now)) { w with store := store' }
  | drop {w : RoutedWorld} {route : Route} {x : Exchange} :
      RoutedStep w (.request route (.drop x)) { w with pending := w.pending.erase (route, x) }
  | extendLifetime {w : RoutedWorld} {route : Route} (now : UInt64) (sessionId : String)
      (expiresAtUtc : UInt64) :
      RoutedStep w (.request route (.extendLifetime now sessionId expiresAtUtc))
        { w with store := w.store.extendLifetime now sessionId expiresAtUtc }
  | cleanAll {w : RoutedWorld} {route : Route} :
      RoutedStep w (.request route .cleanAll) { w with store := w.store.cleanAll }
  | restart {w : RoutedWorld} :
      RoutedStep w .restart { w with store := w.store.discardAllInflight.1, pending := [] }
  | other {w : RoutedWorld} {store' : StoreV2}
      (clients : store'.interactions.clients = w.store.interactions.clients)
      (hashIndex : store'.interactions.hashIndex = w.store.interactions.hashIndex)
      (prevToClient : store'.interactions.prevToClient = w.store.interactions.prevToClient)
      (inFlight : store'.inFlight = w.store.inFlight) :
      RoutedStep w .other { w with store := store' }

/-- The handlers of all routes, over all interleavings of their critical sections. -/
def routed : System RoutedWorld Label :=
  { init := RoutedWorld.init, step := RoutedStep }

/-! ## What the two inserts have in common -/

/-- The exchange `x` of `route` leaves `store'` behind, with one more client node. A batch that
completed is no longer in flight. -/
structure Inserts (w : RoutedWorld) (route : Route) (x : Exchange) (store' : StoreV2)
    (ids : List String) (batch : Option String) (node : ClientInteractionNode) : Prop where
  mem : (route, x) ∈ w.pending
  own : ∀ k ∈ batch, (route, k) ∈ w.created
  idMem : node.id ∈ ids
  fresh : ∀ id ∈ ids, id ∉ w.issued
  prevIssued : ∀ p, node.prevId = some p → p ∈ w.issued ∧ node.systemInstructionHash = none
  same : SameChains (w.store.interactions.insertClient node) store'.interactions
  inFlight : ∀ k, store'.inFlight.lookup k =
    if k ∈ batch then none else w.store.inFlight.lookup k

/-! ## What every run keeps -/

/-- The batches in flight were started by some route, and continue interactions that were issued. -/
def Batched (w : RoutedWorld) : Prop :=
  ∀ k batch, w.store.inFlight.lookup k = some batch → (∃ route, (route, k) ∈ w.created) ∧
    ∀ p, batch.prevInteractionId = some p → p ∈ w.issued ∧ batch.systemInstructionHash = none

structure RoutedSound (w : RoutedWorld) : Prop where
  chained : Chained w.issued w.store.interactions
  pendingIssued : ∀ y ∈ w.pending, ∀ p, y.2.prevId = some p → p ∈ w.issued
  linkIssued : ∀ p d, w.store.interactions.prevToClient.lookup p = some d → p ∈ w.issued
  batched : Batched w

namespace RoutedSound

variable {w w' : RoutedWorld}

theorem init : RoutedSound RoutedWorld.init where
  chained := Chained.new
  pendingIssued := by simp [RoutedWorld.init]
  linkIssued := by simp [RoutedWorld.init, StoreV2.new, InteractionStore.new]
  batched := by simp [Batched, RoutedWorld.init, StoreV2.new]

theorem wellFormed (h : RoutedSound w) : w.store.interactions.WellFormed := h.chained.wellFormed

theorem inserts_commit (h : RoutedSound w) {route : Route} {x : Exchange} {id : String}
    (now : UInt64) (sessionId : String) (mem : (route, x) ∈ w.pending) (fresh : id ∉ w.issued) :
    Inserts w route x (recordInteraction w.store now sessionId id x.prevId x.request.hashes
      x.storedSystemHash) [id] none
      (recordedNode now id x.prevId x.request.hashes x.storedSystemHash) where
  mem := mem
  own k hk := absurd hk (by simp)
  idMem := List.mem_singleton_self id
  fresh k hk := by
    rw [List.mem_singleton.mp hk]
    exact fresh
  prevIssued p hp := ⟨h.pendingIssued _ mem p hp, Exchange.storedSystemHash_none hp⟩
  same := recordInteraction_sameChains w.store now sessionId id _ _ _
  inFlight k := by simp [recordInteraction]

theorem inserts_commitSplit (h : RoutedSound w) {route : Route} {x : Exchange} {batchId : String}
    {batch : InFlightBatch} {now : UInt64} {store' : StoreV2} {node : ClientInteractionNode}
    (mem : (route, x) ∈ w.pending) (own : (route, batchId) ∈ w.created)
    (hb : w.store.inFlight.lookup batchId = some batch)
    (completed : w.store.completeBatch now batchId = (store', .ok node))
    (sent : node.upstreamIds ≠ []) (fresh : ∀ id ∈ node.upstreamIds, id ∉ w.issued) :
    Inserts w route x store' node.upstreamIds (some batchId) node := by
  obtain ⟨hnode, same⟩ := completeBatch_ok hb completed
  refine ⟨mem, ?_, Sound.commitSplit_id hnode sent, fresh, ?_, same, fun k => ?_⟩
  · intro k hk
    rw [← Option.mem_some.mp hk]
    exact own
  · rw [hnode]
    exact (h.batched _ _ hb).2
  · simp only [lookup_completeBatch completed, Option.mem_some, eq_comm]

theorem recorded (h : RoutedSound w) {route : Route} {x : Exchange} {store' : StoreV2}
    {ids : List String} {batch : Option String} {node : ClientInteractionNode}
    (ins : Inserts w route x store' ids batch node) :
    RoutedSound (w.recorded route x store' ids) where
  chained :=
    Chained.congr (h.chained.insertClient ins.idMem ins.fresh (fun p hp => (ins.prevIssued p hp).1)
      fun p hp => (ins.prevIssued p hp).2) ins.same
  pendingIssued y hy p hp :=
    List.mem_append_left _ (h.pendingIssued y (List.mem_of_mem_erase hy) p hp)
  linkIssued p d hd := by
    have hd' : (w.store.interactions.insertClient node).prevToClient.lookup p = some d := by
      rw [← ins.same.prevToClient]
      exact hd
    rw [InteractionStore.insertClient_prevToClient_lookup] at hd'
    by_cases hp : node.prevId = some p
    · exact List.mem_append_left _ (ins.prevIssued p hp).1
    · rw [if_neg hp] at hd'
      exact List.mem_append_left _ (h.linkIssued p d hd')
  batched k b hb := by
    have hold : w.store.inFlight.lookup k = some b := by
      have hb' := (ins.inFlight k).symm.trans hb
      split at hb'
      · cases hb'
      · exact hb'
    obtain ⟨created, prev⟩ := h.batched k b hold
    exact ⟨created, fun p hp => ⟨List.mem_append_left _ (prev p hp).1, (prev p hp).2⟩⟩

/-- What leaves the client nodes alone, and brings in no batch with another key. -/
theorem withStore (h : RoutedSound w) {store' : StoreV2}
    (same : SameChains w.store.interactions store'.interactions)
    (hkeys : ∀ k b', store'.inFlight.lookup k = some b' →
      ∃ b, w.store.inFlight.lookup k = some b ∧ b'.key = b.key) :
    RoutedSound { w with store := store' } where
  chained := h.chained.congr same
  pendingIssued := h.pendingIssued
  linkIssued p d hd := h.linkIssued p d (same.prevToClient ▸ hd)
  batched k b' hb := by
    obtain ⟨b, hold, hkey⟩ := hkeys k b' hb
    injection hkey with _ hprev _ hsystem
    rw [hprev, hsystem]
    exact h.batched k b hold

theorem begun (h : RoutedSound w) {route : Route} {x : Exchange} (mem : (route, x) ∈ w.pending)
    (sessionId : String) (second now : UInt64) (count : Nat) :
    RoutedSound (w.begun route x sessionId second now count) where
  chained := h.chained
  pendingIssued := h.pendingIssued
  linkIssued := h.linkIssued
  batched k b hb := by
    obtain ⟨batch, hkey, hlookup⟩ := lookup_createKeyed w.store now (batchIdOf sessionId second)
      (batchKey x sessionId) count
    have hb' := (hlookup k).symm.trans hb
    split at hb'
    case isTrue hk =>
      cases hb'
      injection hkey with _ hprev _ hsystem
      refine ⟨⟨route, hk ▸ List.mem_cons_self ..⟩, ?_⟩
      rw [hprev, hsystem]
      exact fun p hp => ⟨h.pendingIssued _ mem p hp, Exchange.storedSystemHash_none hp⟩
    case isFalse hk =>
      obtain ⟨⟨r, hr⟩, hprev⟩ := h.batched k b hb'
      exact ⟨⟨r, List.mem_cons_of_mem _ hr⟩, hprev⟩

/-- The batches an update leaves have the keys they had. -/
theorem update_keys (update : BatchUpdate) (now now' : UInt64) (batchId : String) (store : StoreV2)
    (k : String) (b' : InFlightBatch)
    (hb : (update.apply now now' batchId store).inFlight.lookup k = some b') :
    ∃ b, store.inFlight.lookup k = some b ∧ b'.key = b.key := by
  have acts := ActsOn.apply update now now' batchId
  by_cases hk : k = batchId
  · subst hk
    exact acts.key hb
  · rw [acts.writes store hk] at hb
    exact ⟨b', hb, rfl⟩

theorem failSplit_keys {store store' : StoreV2} {now : UInt64} {batchId : String}
    {error : BatchError} (failed : store.completeBatch now batchId = (store', .error error))
    (k : String) (b' : InFlightBatch) (hb : store'.inFlight.lookup k = some b') :
    ∃ b, store.inFlight.lookup k = some b ∧ b'.key = b.key := by
  rw [lookup_completeBatch failed] at hb
  split at hb
  · cases hb
  · exact ⟨b', hb, rfl⟩

theorem step (h : RoutedSound w) {label : Label} (hstep : RoutedStep w label w') :
    RoutedSound w' := by
  cases hstep with
  | answered => exact h
  | lookup found =>
    refine ⟨h.chained, ?_, h.linkIssued, h.batched⟩
    intro y hy p hp
    rcases List.mem_cons.mp hy with rfl | hy
    · exact h.chained.frontier_issued found hp
    · exact h.pendingIssued y hy p hp
  | findBatch => exact h
  | await => exact h
  | startContent sessionId second now count mem _ => exact h.begun mem sessionId second now count
  | startSystem sessionId second now count mem => exact h.begun mem sessionId second now count
  | @update _ batchId update now now' own =>
    exact h.withStore ((ActsOn.apply update now now' batchId).chains w.store)
      (update_keys update now now' batchId w.store)
  | commit now sessionId mem fresh => exact h.recorded (h.inserts_commit now sessionId mem fresh)
  | commitSplit mem own completed sent fresh =>
    obtain ⟨_, hb, _⟩ := completeBatch_ok_cases (congrArg Prod.snd completed)
    exact h.recorded (h.inserts_commitSplit mem own hb completed sent fresh)
  | failSplit own failed => exact h.withStore (completeBatch_error failed) (failSplit_keys failed)
  | drop =>
    exact ⟨h.chained, fun y hy => h.pendingIssued y (List.mem_of_mem_erase hy), h.linkIssued,
      h.batched⟩
  | extendLifetime now sessionId expiresAtUtc =>
    have batched :
        Batched { w with store := w.store.extendLifetime now sessionId expiresAtUtc } := by
      unfold Batched
      rw [extendLifetime_inFlight]
      exact h.batched
    rcases extendLifetime_interactions w.store now sessionId expiresAtUtc with heq | ⟨id, heq⟩
    · exact ⟨heq ▸ h.chained, h.pendingIssued, heq ▸ h.linkIssued, batched⟩
    · refine ⟨heq ▸ h.chained.touchClient id now, h.pendingIssued, fun p d hd => ?_, batched⟩
      have hd' : (StoreV2.touchClient w.store.interactions id now).prevToClient.lookup p = some d :=
        heq ▸ hd
      rw [touchClient_prevToClient] at hd'
      exact h.linkIssued p d hd'
  | cleanAll =>
    exact ⟨h.chained.cleanAll, h.pendingIssued, h.linkIssued, by simp [Batched, StoreV2.cleanAll]⟩
  | restart =>
    exact ⟨h.chained, by simp, h.linkIssued, by simp [Batched, StoreV2.discardAllInflight]⟩
  | other clients hashIndex prevToClient inFlight =>
    refine h.withStore ⟨clients, hashIndex, prevToClient⟩ fun k b hb => ⟨b, ?_, rfl⟩
    rwa [← inFlight]

theorem of_run {moments : List (RoutedWorld × Label)} (run : routed.Run moments w) :
    RoutedSound w :=
  run.invariant (P := RoutedSound) init fun _ _ _ h hstep => h.step hstep

end RoutedSound

/-! ## Interactions that belong to one route -/

/-- A search finds its first hash in its own route, a request finds and waits for batches of its own
route, no other route has started a batch of the same id, and a control message reaches no
interaction and no batch of another one. -/
def KeepsApart (w : RoutedWorld) : Label → Prop
  | .request route (.lookup request) => w.Unmixed route request.hashes
  | .request route (.findBatch x sessionId _) => w.OwnBatches route (batchKey x sessionId)
  | .request route (.await request _ batchId _) =>
    w.Unmixed route request.hashes ∧ (route, batchId) ∈ w.created
  | .request route (.start _ sessionId second _) =>
    ∀ route', (route', batchIdOf sessionId second) ∈ w.created → route' = route
  | .request route (.extendLifetime _ sessionId _) =>
    ∀ session id c, w.store.sessions.lookup sessionId = some session →
      session.lastInteractionId = some id → w.store.interactions.clients.lookup id = some c →
      w.Own route id
  | .request route .cleanAll =>
    (∀ id c, w.store.interactions.clients.lookup id = some c → w.Own route id) ∧
      ∀ k batch, w.store.inFlight.lookup k = some batch → (route, k) ∈ w.created
  | _ => True

structure Owned (w : RoutedWorld) : Prop extends RoutedSound w where
  originIssued : ∀ id route, w.origin id = some route → id ∈ w.issued
  pendingOwn : ∀ y ∈ w.pending, ∀ p, y.2.prevId = some p → w.Own y.1 p
  nodeOwn : ∀ c, w.store.interactions.Stored c → ∀ p, c.prevId = some p →
    w.origin p = w.origin c.id
  createdOnce : ∀ route route' k, (route, k) ∈ w.created → (route', k) ∈ w.created →
    route = route'
  batchOwn : ∀ route k batch, (route, k) ∈ w.created → w.store.inFlight.lookup k = some batch →
    ∀ p, batch.prevInteractionId = some p → w.Own route p

namespace Owned

variable {w w' : RoutedWorld}

theorem init : Owned RoutedWorld.init where
  toRoutedSound := RoutedSound.init
  originIssued := by simp [RoutedWorld.init]
  pendingOwn := by simp [RoutedWorld.init]
  nodeOwn c hc := absurd hc (by simp [RoutedWorld.init, StoreV2.new, InteractionStore.new,
    InteractionStore.Stored])
  createdOnce := by simp [RoutedWorld.init]
  batchOwn := by simp [RoutedWorld.init]

/-- **No link leads from one route to another.** -/
theorem closed (h : Owned w) (route : Route) : Closed (w.Own route) w.store.interactions where
  toWellFormed := h.toRoutedSound.wellFormed
  prev hc hown hp := (h.nodeOwn _ hc _ hp).trans hown
  next {c d} hc hown hn := by
    obtain ⟨k, hk, hd⟩ := Option.bind_eq_some_iff.mp hn
    have hback : d.prevId = some c.id := (h.chained.child hk).2 d hd
    have hsame := h.nodeOwn d (h.chained.stored hd) c.id hback
    exact hsame.symm.trans hown

/-- An id that was issued before keeps its route. -/
theorem own_recorded (h : Owned w) {route route' : Route} {x : Exchange} {store' : StoreV2}
    {ids : List String} (fresh : ∀ id ∈ ids, id ∉ w.issued) {p : String} (hp : w.Own route' p) :
    (w.recorded route x store' ids).Own route' p := by
  rw [RoutedWorld.Own, RoutedWorld.recorded_origin_old
    fun hmem => fresh p hmem (h.originIssued p route' hp)]
  exact hp

theorem recorded (h : Owned w) {route : Route} {x : Exchange} {store' : StoreV2}
    {ids : List String} {batch : Option String} {node : ClientInteractionNode}
    (ins : Inserts w route x store' ids batch node)
    (hown : ∀ p, node.prevId = some p → w.Own route p) :
    Owned (w.recorded route x store' ids) where
  toRoutedSound := h.toRoutedSound.recorded ins
  originIssued id r hid := by
    by_cases hmem : id ∈ ids
    · exact List.mem_append_right _ hmem
    · rw [RoutedWorld.recorded_origin_old hmem] at hid
      exact List.mem_append_left _ (h.originIssued id r hid)
  pendingOwn y hy p hp :=
    h.own_recorded ins.fresh (h.pendingOwn y (List.mem_of_mem_erase hy) p hp)
  nodeOwn c hc p hp := by
    rcases stored_insertClient.mp (ins.same.stored_iff.mp hc) with rfl | ⟨hne, hst⟩
    · rw [RoutedWorld.recorded_origin_new ins.idMem]
      exact h.own_recorded ins.fresh (hown p hp)
    · have hc' : c.id ∉ ids := fun hmem => ins.fresh _ hmem (h.chained.idIssued hst)
      have hp' : p ∉ ids := fun hmem => ins.fresh p hmem (h.chained.prevIssued hst hp)
      rw [RoutedWorld.recorded_origin_old hc', RoutedWorld.recorded_origin_old hp']
      exact h.nodeOwn c hst p hp
  createdOnce := h.createdOnce
  batchOwn r k b hr hb p hp := by
    have hb' := (ins.inFlight k).symm.trans hb
    split at hb'
    · cases hb'
    · exact h.own_recorded ins.fresh (h.batchOwn r k b hr hb' p hp)

/-- What changes only the store, and no node's id or previous id and no batch's key, leaves
everything owned. -/
theorem withStore (h : Owned w) {store' : StoreV2}
    (sound : RoutedSound { w with store := store' })
    (hold : ∀ c, store'.interactions.Stored c →
      ∃ c0, w.store.interactions.Stored c0 ∧ c.id = c0.id ∧ c.prevId = c0.prevId)
    (hkeys : ∀ k b', store'.inFlight.lookup k = some b' →
      ∃ b, w.store.inFlight.lookup k = some b ∧ b'.key = b.key) :
    Owned { w with store := store' } where
  toRoutedSound := sound
  originIssued := h.originIssued
  pendingOwn := h.pendingOwn
  nodeOwn c hc p hp := by
    obtain ⟨c0, h0, hid, hprev⟩ := hold c hc
    rw [hid]
    exact h.nodeOwn c0 h0 p (hprev ▸ hp)
  createdOnce := h.createdOnce
  batchOwn route k b' hr hb p hp := by
    obtain ⟨b, hb0, hkey⟩ := hkeys k b' hb
    injection hkey with _ hprev _ _
    exact h.batchOwn route k b hr hb0 p (hprev ▸ hp)

theorem begun (h : Owned w) {route : Route} {x : Exchange} (mem : (route, x) ∈ w.pending)
    {sessionId : String} {second : UInt64} (now : UInt64) (count : Nat)
    (hapart : ∀ route', (route', batchIdOf sessionId second) ∈ w.created → route' = route) :
    Owned (w.begun route x sessionId second now count) where
  toRoutedSound := h.toRoutedSound.begun mem sessionId second now count
  originIssued := h.originIssued
  pendingOwn := h.pendingOwn
  nodeOwn := h.nodeOwn
  createdOnce r r' k hr hr' := by
    rcases List.mem_cons.mp hr with heq | hr <;> rcases List.mem_cons.mp hr' with heq' | hr'
    · exact (congrArg Prod.fst heq).trans (congrArg Prod.fst heq').symm
    · cases heq
      exact (hapart r' hr').symm
    · cases heq'
      exact hapart r hr
    · exact h.createdOnce r r' k hr hr'
  batchOwn r k b hr hb p hp := by
    obtain ⟨batch, hkey, hlookup⟩ := lookup_createKeyed w.store now (batchIdOf sessionId second)
      (batchKey x sessionId) count
    have hb' := (hlookup k).symm.trans hb
    split at hb'
    case isTrue hk =>
      cases hb'
      injection hkey with _ hprev _ _
      have hroute : r = route := by
        rcases List.mem_cons.mp hr with heq | hr
        · exact congrArg Prod.fst heq
        · exact hapart r (hk ▸ hr)
      rw [hroute]
      exact h.pendingOwn _ mem p (hprev ▸ hp)
    case isFalse hk =>
      rcases List.mem_cons.mp hr with heq | hr
      · exact absurd (congrArg Prod.snd heq) hk
      · exact h.batchOwn r k b hr hb' p hp

theorem step (h : Owned w) {label : Label} (hapart : KeepsApart w label)
    (hstep : RoutedStep w label w') : Owned w' := by
  have sound := h.toRoutedSound.step hstep
  cases hstep with
  | answered => exact h
  | @lookup route request frontier found proceeds =>
    refine ⟨sound, h.originIssued, ?_, h.nodeOwn, h.createdOnce, h.batchOwn⟩
    intro y hy p hp
    rcases List.mem_cons.mp hy with rfl | hy
    · exact ((h.closed route).frontier_own hapart found).2 rfl p hp
    · exact h.pendingOwn y hy p hp
  | findBatch => exact h
  | await => exact h
  | startContent sessionId second now count mem _ => exact h.begun mem now count hapart
  | startSystem sessionId second now count mem => exact h.begun mem now count hapart
  | @update _ batchId update now now' own =>
    have same := (ActsOn.apply update now now' batchId).chains w.store
    exact h.withStore sound (fun c hc => ⟨c, same.stored_iff.mp hc, rfl, rfl⟩)
      (RoutedSound.update_keys update now now' batchId w.store)
  | commit now sessionId mem fresh =>
    exact h.recorded (h.inserts_commit now sessionId mem fresh) (h.pendingOwn _ mem)
  | @commitSplit route x batchId now store' node mem own completed sent fresh =>
    obtain ⟨batch, hb, _, hnode, _⟩ := completeBatch_ok_cases (congrArg Prod.snd completed)
    refine h.recorded (h.inserts_commitSplit mem own hb completed sent fresh) fun p hp => ?_
    exact h.batchOwn route batchId batch own hb p (by rwa [hnode] at hp)
  | failSplit own failed =>
    have same := completeBatch_error failed
    exact h.withStore sound (fun c hc => ⟨c, same.stored_iff.mp hc, rfl, rfl⟩)
      (RoutedSound.failSplit_keys failed)
  | drop =>
    exact ⟨sound, h.originIssued, fun y hy => h.pendingOwn y (List.mem_of_mem_erase hy), h.nodeOwn,
      h.createdOnce, h.batchOwn⟩
  | extendLifetime now sessionId expiresAtUtc =>
    refine h.withStore sound (fun c hc => ?_) fun k b hb => ⟨b, ?_, rfl⟩
    · rcases extendLifetime_interactions w.store now sessionId expiresAtUtc with heq | ⟨id, heq⟩
      · exact ⟨c, heq ▸ hc, rfl, rfl⟩
      · obtain ⟨c0, h0, hid, hprev, _⟩ := touchClient_lookup (heq ▸ hc)
        exact ⟨c0, h.chained.stored h0, hid, hprev⟩
    · rwa [extendLifetime_inFlight] at hb
  | cleanAll =>
    exact h.withStore sound (fun c hc => absurd hc (not_stored_cleanAll w.store c))
      fun k b hb => absurd hb (by simp [StoreV2.cleanAll])
  | restart =>
    exact ⟨sound, h.originIssued, by simp, h.nodeOwn, h.createdOnce,
      by simp [StoreV2.discardAllInflight]⟩
  | other clients hashIndex prevToClient inFlight =>
    refine h.withStore sound (fun c hc => ⟨c, ?_, rfl, rfl⟩) fun k b hb => ⟨b, inFlight ▸ hb, rfl⟩
    exact (SameChains.stored_iff ⟨clients, hashIndex, prevToClient⟩).mp hc

theorem of_run {moments : List (RoutedWorld × Label)} (run : routed.Run moments w)
    (hapart : ∀ m ∈ moments, KeepsApart m.1 m.2) : Owned w :=
  run.preserves KeepsApart init (fun _ _ _ h hapart hstep => h.step hapart hstep) hapart

end Owned

end InfSplitter.Routing
