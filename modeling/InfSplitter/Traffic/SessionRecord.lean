import InfSplitter.SplitSend.Send
import InfSplitter.Streams.Live
import InfSplitter.Traffic.Batches

/-!
# The session record after a request

Four paths end in a new client node, and each has its own way to the session record: a request sent
in one piece upserts it in the section that inserts the node, a stream does the same at its first
`interaction.created`, a content split leaves it to `complete_batch`, which only updates a record
that exists, and a system-instruction split upserts it in a section of its own after that.

`Ends` says which stores a request that ends successfully can leave, from any state the requests
reach together. Between the two sections of a system-instruction split anything can happen, so the
store of the second is not that of the first.
-/

set_option autoImplicit false

namespace InfSplitter.Traffic

open Interactions Lib Session Routing SplitSend Streams

/-- The upsert of a session record: `entry(..).and_modify(..).or_insert_with(..)`. -/
def upsertSession (store : StoreV2) (now : UInt64) (sessionId finalId : String) : StoreV2 :=
  { store with
    sessions := store.sessions.insert sessionId <|
      match store.sessions.lookup sessionId with
      | some s => { s with lastInteractionId := some finalId, lastSeenUtc := now }
      | none =>
        { clientSessionId := sessionId, lastInteractionId := some finalId, lastSeenUtc := now,
          expiresAtUtc := now + defaultSessionTtlSecs } }

theorem updateSession_store (w : Sending) (env : Environment) (sessionId finalId : String) :
    (w.updateSession env sessionId finalId).store =
      upsertSession w.store env.sessionAt sessionId finalId := rfl

theorem recordInteraction_sessions (store : StoreV2) (now : UInt64) (sessionId id : String)
    (prev : Option String) (hashes : List UInt64) (system : Option UInt64) :
    (recordInteraction store now sessionId id prev hashes system).sessions =
      (upsertSession store now sessionId id).sessions := rfl

/-- What a stream leaves: its first `interaction.created` is recorded, if there is one. -/
def streamed (store : StoreV2) (now : UInt64) (sessionId : String) (x : Exchange)
    (created : Option String) : StoreV2 :=
  match created with
  | some id =>
    recordInteraction store now sessionId id x.prevId x.request.hashes x.storedSystemHash
  | none => store

/-- The path a request took. -/
inductive Path
  | single
  | streaming (created : Option String)
  | contentSplit (y : Send)
  | systemSplit (y : Send)

/-- `Ends p path sessionId node after`: a request of the session that ends successfully has inserted
`node` and left the store `after`, its last section starting in a store reached from `p`. -/
inductive Ends (p : Proxy) : Path → String → Option String → StoreV2 → Prop
  -- `send_and_translate`
  | single {x : Exchange} {id sessionId : String} (now : UInt64) (mem : x ∈ p.asking) :
      Ends p .single sessionId (some id)
        (recordInteraction p.store now sessionId id x.prevId x.request.hashes x.storedSystemHash)
  -- `handle_stream_response`
  | streaming {τ χ : Type} {lib : External τ χ} {ingress : Protocol} {model sessionId : String}
      {chunks : List (List UInt8)} {x : Exchange} (now : UInt64) (mem : x ∈ p.asking)
      (ends : (readStream lib ingress model chunks).live.ended = false) :
      Ends p (.streaming (handleStreamResponse lib ingress model chunks).2) sessionId
        (handleStreamResponse lib ingress model chunks).2
        (streamed p.store now sessionId x (handleStreamResponse lib ingress model chunks).2)
  -- `handle_split_send`
  | contentSplit {y : Send} {node : ClientInteractionNode} (now : UInt64) (mem : y ∈ p.sending)
      (idle : y.started = false) (all : y.remaining = 0)
      (completed : (p.store.completeBatch now y.batchId).2 = .ok node) :
      Ends p (.contentSplit y) y.key.sessionId (some node.id)
        (p.store.completeBatch now y.batchId).1
  -- `send_split_system_instruction`; `later` is the store the upsert finds
  | systemSplit {y : Send} {node : ClientInteractionNode} {finalId : String} (now now' : UInt64)
      (later : StoreV2) (mem : y ∈ p.sending) (idle : y.started = false) (all : y.remaining = 0)
      (completed : (p.store.completeBatch now y.batchId).2 = .ok node)
      (last : y.received.getLast? = some finalId) :
      Ends p (.systemSplit y) y.key.sessionId (some node.id)
        (upsertSession later now' y.key.sessionId finalId)

/-- There is a record of the session, and it ends with the interaction. -/
def Records (store : StoreV2) (sessionId interactionId : String) : Prop :=
  ∃ session, store.sessions.lookup sessionId = some session ∧
    session.lastInteractionId = some interactionId

/-- When the record follows. -/
def Follows (p : Proxy) : Path → Prop
  | .single => True
  -- the stream brings an `interaction.created`
  | .streaming created => created.isSome = true
  -- there is a record already
  | .contentSplit y => (p.store.sessions.lookup y.key.sessionId).isSome = true
  -- the batch ends with the last id the send has received
  | .systemSplit y => ∃ batch, p.store.inFlight.lookup y.batchId = some batch ∧
      batch.ackedIds.getLast?.getD "" = y.received.getLast?.getD ""

theorem records_upsertSession {store : StoreV2} {now : UInt64} {sessionId finalId id : String} :
    Records (upsertSession store now sessionId finalId) sessionId id ↔ id = finalId := by
  unfold Records upsertSession
  simp only [AList.lookup_insert, Option.some.injEq, exists_eq_left']
  cases store.sessions.lookup sessionId <;> exact ⟨fun h => (Option.some.inj h).symm,
    fun h => congrArg some h.symm⟩

theorem records_touchSession {sessions : StrMap SessionInfo} {sessionId id : String}
    {now : UInt64} {store : StoreV2}
    (h : store.sessions = StoreV2.touchSession sessions sessionId id now) :
    Records store sessionId id ↔ (sessions.lookup sessionId).isSome = true := by
  unfold Records
  rw [h]
  unfold StoreV2.touchSession
  cases hs : sessions.lookup sessionId with
  | none => simp [hs]
  | some session => simp [AList.lookup_insert]

/-- **The session record follows a request exactly where its path upserts it, or it exists.** -/
theorem record_follows_iff {moments : List (Proxy × Event)} {p : Proxy}
    (run : traffic.Run moments p) {path : Path} {sessionId : String} {node : Option String}
    {after : StoreV2} (ends : Ends p path sessionId node after) :
    (∃ id, node = some id ∧ Records after sessionId id) ↔ Follows p path := by
  cases ends with
  | @single x id sessionId now mem =>
    refine iff_of_true ⟨id, rfl, ?_⟩ trivial
    exact records_upsertSession.mpr rfl
  | @streaming τ χ lib ingress model sessionId chunks x now mem hends =>
    unfold Follows
    generalize (handleStreamResponse lib ingress model chunks).2 = created
    cases created with
    | none => simp
    | some id =>
      refine iff_of_true ⟨id, rfl, ?_⟩ rfl
      exact records_upsertSession.mpr rfl
  | @contentSplit y node now mem idle all completed =>
    obtain ⟨batch, hb, _, rfl, hstore⟩ := completeBatch_ok_cases completed
    obtain ⟨second, hk⟩ := sessionInId_of_run run _ _ hb
    obtain ⟨hsession, _⟩ := batchIdOf_inj hk
    rw [hstore]
    simp only [Option.some.injEq, exists_eq_left']
    show _ ↔ (p.store.sessions.lookup y.key.sessionId).isSome = true
    have touched : (Session.completed p.store now y.batchId batch).sessions =
        StoreV2.touchSession p.store.sessions batch.sessionId
          (StoreV2.clientNodeOf batch batch.ackedIds now).id now := rfl
    rw [hsession]
    exact records_touchSession touched
  | @systemSplit y node finalId now now' later mem idle all completed last =>
    obtain ⟨batch, hb, _, rfl, _⟩ := completeBatch_ok_cases completed
    unfold Follows
    simp only [Option.some.injEq, exists_eq_left', hb, last, Option.getD_some]
    exact records_upsertSession

/-! ## A content split of a new session -/

/-- A first request with one harness message. -/
def firstExchange : Exchange :=
  { request := { hashes := [1], systemInstructionHash := none }
    frontier := { index := 0, previousInteractionId := none, allKnown := false,
                  matchedClientId := none } }

theorem run_firstAsked :
    traffic.Run [(Proxy.init, .lookup firstExchange.request)]
      (Proxy.init.lookedUp firstExchange.request firstExchange.frontier) :=
  System.Run.init.step (S := traffic) (Step.lookup (by decide) (by decide))

/-- It is split, into one piece, which is acked. -/
def firstSplit : Send := newSend firstExchange "s" 0 1

def splitStarted : Send := { firstSplit with started := true, remaining := 0 }

def splitAcked : Send := { splitStarted with started := false, received := ["a"] }

def Proxy.firstSplitAcked : Proxy :=
  (((Proxy.init.lookedUp firstExchange.request firstExchange.frontier).begun firstExchange
    firstSplit 0 1).marked firstSplit 0 0 []).acked splitStarted 0 0 "a"

theorem run_firstSplitAcked : ∃ moments, traffic.Run moments Proxy.firstSplitAcked := by
  have r1 := run_firstAsked.step
    (Step.startContent "s" 0 0 1 [] (List.mem_cons_self ..) List.Perm.nil rfl)
  have r2 := r1.step (Step.markStarted 0 0 [] (List.mem_cons_self ..) rfl Nat.one_pos)
  exact ⟨_, r2.step (Step.ack 0 0 "a" (List.mem_cons_self ..) rfl)⟩

/-- The node the split ends in. -/
def firstNode : ClientInteractionNode :=
  { id := "a", prevId := none, messageHashes := [1], systemInstructionHash := none,
    upstreamIds := ["a"], lastSeenUtc := 0 }

theorem ends_firstSplit :
    Ends Proxy.firstSplitAcked (.contentSplit splitAcked) "s" (some "a")
      (Proxy.firstSplitAcked.store.completeBatch 0 splitAcked.batchId).1 := by
  have completed : (Proxy.firstSplitAcked.store.completeBatch 0 splitAcked.batchId).2 =
      .ok firstNode := by
    rfl
  exact .contentSplit 0 (List.mem_cons_self ..) rfl rfl completed

/-- It leaves no record of its session. -/
theorem record_not_always_follows :
    ¬ ∀ moments p, traffic.Run moments p → ∀ path sessionId node after,
      Ends p path sessionId node after → ∃ id, node = some id ∧ Records after sessionId id := by
  intro h
  obtain ⟨moments, run⟩ := run_firstSplitAcked
  obtain ⟨id, _, session, hsession, _⟩ := h moments _ run _ _ _ _ ends_firstSplit
  have hnone : (Proxy.firstSplitAcked.store.completeBatch 0
      splitAcked.batchId).1.sessions.lookup "s" = none := by
    rfl
  rw [hnone] at hsession
  cases hsession

theorem record_follows_iff_firstSplit :
    (∃ id, some "a" = some id ∧
        Records (Proxy.firstSplitAcked.store.completeBatch 0 splitAcked.batchId).1 "s" id) ↔
      Follows Proxy.firstSplitAcked (.contentSplit splitAcked) := by
  obtain ⟨moments, run⟩ := run_firstSplitAcked
  exact record_follows_iff run ends_firstSplit

end InfSplitter.Traffic
