import InfSplitter.Session.Completion

/-!
# What `complete_batch` commits

A batch whose pieces are all acked becomes one client node and one call for each piece. `Commits`
lists everything the store holds afterwards, map by map: what is new, and that the rest is as it
was. The loop threads the previous id through the pieces, so the calls are stated by splitting the
pieces at one of them (`pieceNodes_split`): what it is chained to is the last id before it.

A batch that is not all acked should not be touched at all. It always is, since the loop runs after
the batch has been taken out (`completeBatch_never_atomic`). Which calls stay behind depends on
where the first piece stands that is not acked (`ids_pieceNodes`).
-/

set_option autoImplicit false

namespace InfSplitter.Session

open Lib

/-- The call of one piece. -/
def callOf (batch : InFlightBatch) (now : UInt64) (index : Nat) (id : String)
    (prevUpstream : Option String) : UpstreamInteractionNode :=
  { id := id, prevId := prevUpstream, clientId := batch.id ++ ":chunk-" ++ toString index,
    lastSeenUtc := now, expiresAtUtc := now + defaultSessionTtlSecs }

/-- The store and the node that completing `batch`, whose pieces are acked with `ids`, makes. -/
structure Commits (s : StoreV2) (now : UInt64) (batchId : String) (batch : InFlightBatch)
    (ids : List String) (s' : StoreV2) (node : ClientInteractionNode) : Prop where
  -- the node
  last : ids.getLast? = some node.id
  prevId : node.prevId = batch.prevInteractionId
  messageHashes : node.messageHashes = batch.messageHashes
  systemInstructionHash : node.systemInstructionHash = batch.systemInstructionHash
  upstreamIds : node.upstreamIds = ids
  lastSeenUtc : node.lastSeenUtc = now
  -- its calls, each chained to the last id before it
  calls : ∀ before piece after id, batch.pieces = before ++ piece :: after →
    piece.status = .acked id →
    s'.interactions.upstreams.lookup id =
      some (callOf batch now piece.index id
        ((ids.take before.length).getLast?.or batch.prevInteractionId))
  otherCalls : ∀ id, id ∉ ids →
    s'.interactions.upstreams.lookup id = s.interactions.upstreams.lookup id
  clients : ∀ id, s'.interactions.clients.lookup id =
    if id = node.id then some node else s.interactions.clients.lookup id
  -- the indexes
  hashIndex : ∀ hash, s'.interactions.lookupHash hash = s.interactions.lookupHash hash ++
    ((InteractionStore.positionsOf node).filter fun entry => entry.1 = hash).map Prod.snd
  upstreamToClients : ∀ id, s'.interactions.upstreamToClients.get id =
    s.interactions.upstreamToClients.get id ++ if id ∈ ids then [node.id] else []
  prevToClient : ∀ id, s'.interactions.prevToClient.lookup id =
    if node.prevId = some id then some node.id else s.interactions.prevToClient.lookup id
  -- the rest of the store
  inFlight : ∀ id, s'.inFlight.lookup id = if id = batchId then none else s.inFlight.lookup id
  sessions : ∀ id, s'.sessions.lookup id =
    if id = batch.sessionId then
      (s.sessions.lookup id).map fun session =>
        { session with lastInteractionId := some node.id, lastSeenUtc := now }
    else s.sessions.lookup id

/-! ## The calls of the pieces -/

theorem acked_cons {piece : InFlightPiece} {rest : List InFlightPiece} {ids : List String}
    (acked : (piece :: rest).map InFlightPiece.status = ids.map InFlightStatus.acked) :
    ∃ id ids', ids = id :: ids' ∧ piece.status = .acked id ∧
      rest.map InFlightPiece.status = ids'.map InFlightStatus.acked := by
  cases ids with
  | nil => exact absurd acked (List.cons_ne_nil _ _)
  | cons id ids' =>
    rw [List.map_cons, List.map_cons, List.cons.injEq] at acked
    exact ⟨id, ids', rfl, acked⟩

theorem all_isAcked {pieces : List InFlightPiece} {ids : List String}
    (acked : pieces.map InFlightPiece.status = ids.map InFlightStatus.acked) :
    pieces.all (fun piece => piece.status.isAcked) = true := by
  induction pieces generalizing ids with
  | nil => rfl
  | cons piece rest ih =>
    obtain ⟨id, ids', rfl, hpiece, hrest⟩ := acked_cons acked
    rw [List.all_cons, ih hrest, hpiece]
    rfl

theorem filterMap_ackedId {pieces : List InFlightPiece} {ids : List String}
    (acked : pieces.map InFlightPiece.status = ids.map InFlightStatus.acked) :
    pieces.filterMap InFlightPiece.ackedId = ids := by
  induction pieces generalizing ids with
  | nil => exact (List.map_eq_nil_iff.mp acked.symm).symm
  | cons piece rest ih =>
    obtain ⟨id, ids', rfl, hpiece, hrest⟩ := acked_cons acked
    rw [List.filterMap_cons_some (ackedId_eq_some.mpr hpiece), ih hrest]

/-- Where the pieces are split, the call is chained to the last id before. -/
theorem pieceNodes_split {batch : InFlightBatch} {now : UInt64} {before after : List InFlightPiece}
    {piece : InFlightPiece} {ids : List String} {id : String} {prevUpstream : Option String}
    (acked : (before ++ piece :: after).map InFlightPiece.status = ids.map InFlightStatus.acked)
    (own : piece.status = .acked id) :
    callOf batch now piece.index id ((ids.take before.length).getLast?.or prevUpstream) ∈
      pieceNodes batch now (before ++ piece :: after) prevUpstream := by
  -- the loop's previous id is the last one so far, or what it began with
  induction before generalizing ids prevUpstream with
  | nil =>
    rw [List.nil_append]
    unfold pieceNodes
    rw [own]
    exact List.mem_cons_self
  | cons first rest ih =>
    obtain ⟨id', ids', rfl, hfirst, hrest⟩ := acked_cons acked
    rw [List.cons_append]
    unfold pieceNodes
    rw [hfirst]
    refine List.mem_cons_of_mem _ ?_
    have hprev : ((id' :: ids').take (first :: rest).length).getLast?.or prevUpstream =
        (ids'.take rest.length).getLast?.or (some id') := by
      rw [List.length_cons, List.take_succ_cons, List.getLast?_cons]
      cases (ids'.take rest.length).getLast? <;> rfl
    rw [hprev]
    exact ih hrest

/-- Ids of their own: no later call replaces an earlier one. -/
theorem lookup_calls {store : InteractionStore} {batch : InFlightBatch} {now : UInt64}
    {ids : List String} {call : UpstreamInteractionNode}
    (acked : batch.pieces.map InFlightPiece.status = ids.map InFlightStatus.acked)
    (distinct : ids.Nodup) (h : call ∈ batch.calls now) :
    (insertCalls store (batch.calls now)).upstreams.lookup call.id = some call := by
  have hids : (batch.calls now).map UpstreamInteractionNode.id = ids := by
    rw [← filterMap_ackedId acked]
    exact map_id_pieceNodes batch now (all_isAcked acked) batch.prevInteractionId
  exact (lookup_insertCalls (hids ▸ distinct)).mpr (Or.inl ⟨h, rfl⟩)

/-! ## The indexes and the session -/

theorem filter_tagged (ids : List String) (tag id : String) (distinct : ids.Nodup) :
    ((ids.map (·, tag)).filter fun entry => entry.1 = id).map Prod.snd =
      if id ∈ ids then [tag] else [] := by
  induction ids with
  | nil => rfl
  | cons first rest ih =>
    rw [List.nodup_cons] at distinct
    rw [List.map_cons, List.filter_cons]
    by_cases h : first = id
    · subst h
      have hrest := ih distinct.2
      rw [if_neg distinct.1] at hrest
      simp [hrest]
    · have hiff : (id ∈ first :: rest) ↔ id ∈ rest := by
        rw [List.mem_cons, or_iff_right (Ne.symm h)]
      simp only [h, decide_false, Bool.false_eq_true, if_false, hiff]
      exact ih distinct.2

theorem touchSession_lookup (sessions : StrMap SessionInfo) (sessionId interactionId : String)
    (now : UInt64) (id : String) :
    (StoreV2.touchSession sessions sessionId interactionId now).lookup id =
      if id = sessionId then
        (sessions.lookup id).map fun session =>
          { session with lastInteractionId := some interactionId, lastSeenUtc := now }
      else sessions.lookup id := by
  unfold StoreV2.touchSession
  cases h : sessions.lookup sessionId with
  | none =>
    by_cases hid : id = sessionId
    · rw [if_pos hid, hid, h, Option.map_none]
    · rw [if_neg hid]
  | some session =>
    by_cases hid : id = sessionId
    · rw [if_pos hid, hid, h, Option.map_some]
      exact AList.lookup_insert _
    · rw [if_neg hid]
      exact AList.lookup_insert_ne hid

theorem lookup_erase (batches : StrMap InFlightBatch) (batchId id : String) :
    (batches.erase batchId).lookup id = if id = batchId then none else batches.lookup id := by
  by_cases h : id = batchId
  · rw [if_pos h, h, AList.lookup_erase]
  · rw [if_neg h, AList.lookup_erase_ne h]

/-! ## A batch that completes -/

theorem completed_commits (s : StoreV2) (now : UInt64) (batchId : String) {batch : InFlightBatch}
    {ids : List String} (pieces : batch.pieces ≠ [])
    (acked : batch.pieces.map InFlightPiece.status = ids.map InFlightStatus.acked)
    (distinct : ids.Nodup) :
    Commits s now batchId batch ids (completed s now batchId batch)
      (StoreV2.clientNodeOf batch batch.ackedIds now) := by
  have hids : batch.ackedIds = ids := filterMap_ackedId acked
  have hne : ids ≠ [] := hids ▸ ackedIds_ne_nil pieces (all_isAcked acked)
  rw [hids]
  have hinserted : (completed s now batchId batch).interactions =
      (insertCalls s.interactions (batch.calls now)).insertClient
        (StoreV2.clientNodeOf batch ids now) := by
    unfold completed
    rw [hids]
  have hcalls : (batch.calls now).map UpstreamInteractionNode.id = ids :=
    (map_id_pieceNodes batch now (all_isAcked acked) batch.prevInteractionId).trans hids
  have hsame := insertCalls_eq s.interactions (batch.calls now)
  exact {
    last := getLast?_clientNodeOf hne batch now
    prevId := rfl
    messageHashes := rfl
    systemInstructionHash := rfl
    upstreamIds := rfl
    lastSeenUtc := rfl
    calls := by
      intro before piece after id hsplit own
      have hmem : callOf batch now piece.index id
          ((ids.take before.length).getLast?.or batch.prevInteractionId) ∈ batch.calls now := by
        unfold InFlightBatch.calls
        rw [hsplit]
        exact pieceNodes_split (hsplit ▸ acked) own
      rw [hinserted]
      exact lookup_calls acked distinct hmem
    otherCalls := by
      intro id hid
      rw [hinserted]
      exact lookup_insertCalls_of_notMem (hcalls ▸ hid)
    clients := by
      intro id
      rw [hinserted, InteractionStore.insertClient_lookup, hsame]
    hashIndex := by
      intro hash
      rw [hinserted, hsame]
      exact MultiMap.get_pushAll _ _ hash
    upstreamToClients := by
      intro id
      rw [hinserted, hsame]
      exact (MultiMap.get_pushAll _ _ id).trans
        (congrArg (s.interactions.upstreamToClients.get id ++ ·) (filter_tagged ids _ id distinct))
    prevToClient := by
      intro id
      rw [hinserted, InteractionStore.insertClient_prevToClient_lookup, hsame]
    inFlight := lookup_erase s.inFlight batchId
    sessions := by
      intro id
      unfold completed
      rw [hids]
      exact touchSession_lookup s.sessions batch.sessionId _ now id }

/-- **A batch of acked pieces is committed, and nothing else changes.** -/
theorem completeBatch_commits (s : StoreV2) (now : UInt64) (batchId : String)
    {batch : InFlightBatch} {ids : List String} (own : s.inFlight.lookup batchId = some batch)
    (pieces : batch.pieces ≠ [])
    (acked : batch.pieces.map InFlightPiece.status = ids.map InFlightStatus.acked)
    (distinct : ids.Nodup) :
    ∃ s' node, s.completeBatch now batchId = (s', .ok node) ∧
      Commits s now batchId batch ids s' node :=
  ⟨completed s now batchId batch, StoreV2.clientNodeOf batch batch.ackedIds now,
    completeBatch_all own (all_isAcked acked),
    completed_commits s now batchId pieces acked distinct⟩

/-- A batch of two pieces, with the statuses given. -/
def twoPieces (first second : InFlightStatus) : InFlightBatch :=
  { id := "b", sessionId := "s", prevInteractionId := some "int-0", messageHashes := [1, 2],
    systemInstructionHash := none,
    pieces :=
      [{ index := 0, contentHash := 0, requestBody := [], status := first },
       { index := 1, contentHash := 0, requestBody := [], status := second }],
    createdUtc := 0, updatedUtc := 0 }

/-- A store that holds one batch and nothing else. -/
def oneBatch (batch : InFlightBatch) : StoreV2 :=
  { StoreV2.new with inFlight := StoreV2.new.inFlight.insert "b" batch }

theorem oneBatch_lookup (batch : InFlightBatch) :
    (oneBatch batch).inFlight.lookup "b" = some batch := AList.lookup_insert _

theorem completeBatch_commits_twoPieces :
    ∃ s' node, (oneBatch (twoPieces (.acked "int-A") (.acked "int-B"))).completeBatch 7 "b" =
        (s', .ok node) ∧
      Commits (oneBatch (twoPieces (.acked "int-A") (.acked "int-B"))) 7 "b"
        (twoPieces (.acked "int-A") (.acked "int-B")) ["int-A", "int-B"] s' node :=
  completeBatch_commits _ 7 "b" (oneBatch_lookup _) (List.cons_ne_nil _ _) rfl (by decide)

/-! ## A batch that does not -/

/-- Completing fails, and leaves the store as it was. -/
def FailsAtomically (s : StoreV2) (now : UInt64) (batchId : String) : Prop :=
  ∃ e, s.completeBatch now batchId = (s, .error e)

theorem isSome_lookup_insertCalls {store : InteractionStore} {id : String}
    {calls : List UpstreamInteractionNode} (h : id ∈ calls.map UpstreamInteractionNode.id) :
    ((insertCalls store calls).upstreams.lookup id).isSome = true := by
  induction calls generalizing store with
  | nil => exact absurd h List.not_mem_nil
  | cons call rest ih =>
    rw [insertCalls_cons]
    by_cases hrest : id ∈ rest.map UpstreamInteractionNode.id
    · exact ih hrest
    · rw [List.map_cons, List.mem_cons, or_iff_left hrest] at h
      rw [lookup_insertCalls_of_notMem hrest, insertUpstream_lookup, if_pos h]
      rfl

theorem not_allAcked {batch : InFlightBatch}
    (unacked : ∃ piece ∈ batch.pieces, piece.status.isAcked = false) :
    batch.allAcked = false := by
  obtain ⟨piece, hmem, hpiece⟩ := unacked
  exact List.all_eq_false.mpr ⟨piece, hmem, by rw [hpiece]; exact Bool.false_ne_true⟩

theorem not_failsAtomically {s : StoreV2} {now : UInt64} {batchId : String}
    {batch : InFlightBatch} (own : s.inFlight.lookup batchId = some batch)
    (unacked : batch.allAcked = false) : ¬ FailsAtomically s now batchId := by
  intro ⟨e, hsame⟩
  obtain ⟨_, hgone⟩ := @completeBatch_partly s now batchId batch own unacked
  have hstore : partlyCompleted s now batchId batch = s :=
    congrArg Prod.fst (hgone.symm.trans hsame)
  -- the batch has been taken out before the loop
  have hnone : (partlyCompleted s now batchId batch).inFlight.lookup batchId = none :=
    AList.lookup_erase ..
  rw [hstore, own] at hnone
  exact absurd hnone (Option.some_ne_none _)

/-- **Completing a batch that is not all acked fails, and never leaves the store as it was**: the
batch is gone, and the calls of the acked pieces in front of the first other one stay. -/
theorem completeBatch_never_atomic (s : StoreV2) (now : UInt64) (batchId : String)
    {batch : InFlightBatch} (own : s.inFlight.lookup batchId = some batch)
    (unacked : ∃ piece ∈ batch.pieces, piece.status.isAcked = false) :
    ¬ FailsAtomically s now batchId ∧
      ∃ s' e, s.completeBatch now batchId = (s', .error e) ∧
        s'.inFlight.lookup batchId = none ∧
        ∀ id, s.interactions.upstreams.lookup id = none →
          ((s'.interactions.upstreams.lookup id).isSome = true ↔
            id ∈ (batch.pieces.takeWhile fun piece => piece.status.isAcked).filterMap
              InFlightPiece.ackedId) := by
  have hpartly := not_allAcked unacked
  obtain ⟨e, hgone⟩ := @completeBatch_partly s now batchId batch own hpartly
  refine ⟨not_failsAtomically own hpartly, _, e, hgone, AList.lookup_erase .., ?_⟩
  intro id hnew
  rw [← ids_pieceNodes batch now batch.pieces batch.prevInteractionId]
  refine ⟨fun hsome => ?_, isSome_lookup_insertCalls⟩
  by_contra hnot
  have hold : (partlyCompleted s now batchId batch).interactions.upstreams.lookup id = none :=
    (lookup_insertCalls_of_notMem hnot).trans hnew
  rw [hold] at hsome
  exact absurd hsome Bool.false_ne_true

theorem completeBatch_never_atomic_twoPieces :
    ¬ FailsAtomically (oneBatch (twoPieces (.acked "int-A") .pending)) 7 "b" ∧
      ∃ s' e, (oneBatch (twoPieces (.acked "int-A") .pending)).completeBatch 7 "b" =
          (s', .error e) ∧
        s'.inFlight.lookup "b" = none ∧
        ∀ id, (oneBatch (twoPieces (.acked "int-A") .pending)).interactions.upstreams.lookup id =
            none →
          ((s'.interactions.upstreams.lookup id).isSome = true ↔
            id ∈ ((twoPieces (.acked "int-A") .pending).pieces.takeWhile fun piece =>
              piece.status.isAcked).filterMap InFlightPiece.ackedId) :=
  completeBatch_never_atomic _ 7 "b" (oneBatch_lookup _)
    ⟨_, List.mem_cons_of_mem _ List.mem_cons_self, rfl⟩

/-- One piece acked, one pending: not atomic. -/
theorem completeBatch_not_atomic :
    ¬ ∀ (s : StoreV2) (now : UInt64) (batchId : String) (batch : InFlightBatch),
      s.inFlight.lookup batchId = some batch →
      (∃ piece ∈ batch.pieces, piece.status.isAcked = false) →
        FailsAtomically s now batchId := by
  intro h
  have own := oneBatch_lookup (twoPieces (.acked "int-A") .pending)
  exact not_failsAtomically own rfl
    (h _ 7 "b" _ own ⟨_, List.mem_cons_of_mem _ List.mem_cons_self, rfl⟩)

end InfSplitter.Session
