import InfSplitter.SplitSend.Batches

/-!
# The pieces of one batch

The critical sections a split send goes through for each of its pieces, as the handler groups them:
`mark_started_and_persist`, `ack_and_persist`, `complete_batch_and_persist`. Each is one or two
operations of the store under one lock; an operation that fails is logged and otherwise ignored, so
a section always leaves a store behind and never an error.

A batch is looked at through its key and the list of its piece statuses. For each section there is a
lemma saying what it does to that list where it succeeds, and one saying that batches under other
ids stay as they were.
-/

set_option autoImplicit false

namespace InfSplitter.SplitSend

open Session

/-- `format!("batch-{}-{}", session_id, unix_now())`. -/
def batchIdOf (sessionId : String) (second : UInt64) : String :=
  "batch-" ++ sessionId ++ "-" ++ toString second

def statuses (batch : InFlightBatch) : List InFlightStatus :=
  batch.pieces.map InFlightPiece.status

/-- `mark_started_and_persist`: the body of the piece, then Pending to ResponseStarted. -/
def markStartedAndPersist (store : StoreV2) (now now' : UInt64) (batchId : String)
    (pieceIndex : Nat) (chunkBody : List UInt8) : StoreV2 :=
  ((store.setPieceBody now batchId pieceIndex chunkBody).1.markResponseStarted now' batchId
    pieceIndex).1

/-- `ack_and_persist`: ResponseStarted to Sent, then to Acked. -/
def ackAndPersist (store : StoreV2) (now now' : UInt64) (batchId : String) (pieceIndex : Nat)
    (interactionId : String) : StoreV2 :=
  ((store.markSent now batchId pieceIndex interactionId).1.ackPiece now' batchId pieceIndex
    interactionId).1

/-! ## Batches under other ids -/

theorem updatePiece_lookup_ne (s : StoreV2) (now : UInt64) {id k : String} (i : Nat)
    (change : InFlightPiece → Except BatchError InFlightPiece) (hk : k ≠ id) :
    (s.updatePiece now id i change).1.inFlight.lookup k = s.inFlight.lookup k := by
  rcases updatePiece_cases s now id i change with hs | ⟨batch, piece, piece', hb, hp, hc, hs⟩
  · rw [hs]
  · rw [hs]
    exact AList.lookup_insert_ne hk

theorem markStartedAndPersist_lookup_ne (s : StoreV2) (now now' : UInt64) {id k : String}
    (i : Nat) (body : List UInt8) (hk : k ≠ id) :
    (markStartedAndPersist s now now' id i body).inFlight.lookup k = s.inFlight.lookup k := by
  unfold markStartedAndPersist StoreV2.markResponseStarted StoreV2.setPieceBody
  rw [updatePiece_lookup_ne _ _ _ _ hk, updatePiece_lookup_ne _ _ _ _ hk]

theorem ackAndPersist_lookup_ne (s : StoreV2) (now now' : UInt64) {id k : String} (i : Nat)
    (interactionId : String) (hk : k ≠ id) :
    (ackAndPersist s now now' id i interactionId).inFlight.lookup k = s.inFlight.lookup k := by
  unfold ackAndPersist StoreV2.ackPiece StoreV2.markSent
  rw [updatePiece_lookup_ne _ _ _ _ hk, updatePiece_lookup_ne _ _ _ _ hk]

theorem completeBatch_lookup_ne (s : StoreV2) (now : UInt64) {id k : String} (hk : k ≠ id) :
    (s.completeBatch now id).1.inFlight.lookup k = s.inFlight.lookup k := by
  rw [completeBatch_inFlight]
  exact AList.lookup_erase_ne hk

theorem failBatch_lookup_ne (s : StoreV2) (now : UInt64) (error : String) {id k : String}
    (hk : k ≠ id) : (s.failBatch now id error).1.inFlight.lookup k = s.inFlight.lookup k := by
  rw [failBatch_inFlight]
  cases s.inFlight.lookup id with
  | none => rfl
  | some batch => exact AList.lookup_insert_ne hk

/-! ## The batch itself -/

/-- A batch that is not there stays away. -/
theorem updatePiece_lookup_none {s : StoreV2} {id : String} (h : s.inFlight.lookup id = none)
    (now : UInt64) (i : Nat) (change : InFlightPiece → Except BatchError InFlightPiece) :
    (s.updatePiece now id i change).1 = s := by
  unfold StoreV2.updatePiece
  rw [h]

section
variable {s : StoreV2} {id : String} {i : Nat} {b : InFlightBatch} {piece : InFlightPiece}

/-- A transition that succeeds replaces its piece. -/
theorem updatePiece_lookup_some {piece' : InFlightPiece}
    {change : InFlightPiece → Except BatchError InFlightPiece}
    (hb : s.inFlight.lookup id = some b) (hp : b.pieces[i]? = some piece)
    (hc : change piece = .ok piece') (now : UInt64) :
    (s.updatePiece now id i change).1.inFlight.lookup id =
      some { b with pieces := b.pieces.set i piece', updatedUtc := now } := by
  unfold StoreV2.updatePiece
  simp only [hb, hp, hc]
  exact AList.lookup_insert _

theorem setPieceBody_lookup (hb : s.inFlight.lookup id = some b)
    (hp : b.pieces[i]? = some piece) (now : UInt64) (body : List UInt8) :
    (s.setPieceBody now id i body).1.inFlight.lookup id =
      some { b with
             pieces := b.pieces.set i { piece with requestBody := body }, updatedUtc := now } := by
  apply updatePiece_lookup_some hb hp
  rfl

theorem markResponseStarted_lookup (hb : s.inFlight.lookup id = some b)
    (hp : b.pieces[i]? = some piece) (hst : piece.status = .pending) (now : UInt64) :
    (s.markResponseStarted now id i).1.inFlight.lookup id =
      some { b with
             pieces := b.pieces.set i { piece with status := .responseStarted },
             updatedUtc := now } := by
  refine updatePiece_lookup_some hb hp ?_ now
  simp only [hst]

theorem markSent_lookup (hb : s.inFlight.lookup id = some b) (hp : b.pieces[i]? = some piece)
    (hst : piece.status = .responseStarted) (now : UInt64) (interactionId : String) :
    (s.markSent now id i interactionId).1.inFlight.lookup id =
      some { b with
             pieces := b.pieces.set i { piece with status := .sent interactionId },
             updatedUtc := now } := by
  refine updatePiece_lookup_some hb hp ?_ now
  simp only [hst]

theorem ackPiece_lookup (hb : s.inFlight.lookup id = some b) (hp : b.pieces[i]? = some piece)
    {sentId : String} (hst : piece.status = .sent sentId) (now : UInt64)
    (interactionId : String) :
    (s.ackPiece now id i interactionId).1.inFlight.lookup id =
      some { b with
             pieces := b.pieces.set i { piece with status := .acked interactionId },
             updatedUtc := now } := by
  refine updatePiece_lookup_some hb hp ?_ now
  simp only [hst]

theorem getElem?_piece {status : InFlightStatus} (h : (statuses b)[i]? = some status) :
    ∃ piece, b.pieces[i]? = some piece ∧ piece.status = status := by
  unfold statuses at h
  rw [List.getElem?_map, Option.map_eq_some_iff] at h
  exact h

/-- A pending piece is started. -/
theorem markStartedAndPersist_lookup (hb : s.inFlight.lookup id = some b)
    (hi : (statuses b)[i]? = some .pending) (now now' : UInt64) (body : List UInt8) :
    ∃ b', (markStartedAndPersist s now now' id i body).inFlight.lookup id = some b' ∧
      b'.key = b.key ∧ b'.id = b.id ∧ statuses b' = (statuses b).set i .responseStarted := by
  obtain ⟨piece, hp, hst⟩ := getElem?_piece hi
  have hlt : i < b.pieces.length := (List.getElem?_eq_some_iff.mp hp).1
  have h1 := setPieceBody_lookup hb hp now body
  have h2 := markResponseStarted_lookup h1 (List.getElem?_set_self hlt) hst now'
  refine ⟨_, h2, rfl, rfl, ?_⟩
  unfold statuses
  simp only [List.set_set, List.map_set]

/-- A started piece is acked. -/
theorem ackAndPersist_lookup (hb : s.inFlight.lookup id = some b)
    (hi : (statuses b)[i]? = some .responseStarted) (now now' : UInt64)
    (interactionId : String) :
    ∃ b', (ackAndPersist s now now' id i interactionId).inFlight.lookup id = some b' ∧
      b'.key = b.key ∧ b'.id = b.id ∧
      statuses b' = (statuses b).set i (.acked interactionId) := by
  obtain ⟨piece, hp, hst⟩ := getElem?_piece hi
  have hlt : i < b.pieces.length := (List.getElem?_eq_some_iff.mp hp).1
  have h1 := markSent_lookup hb hp hst now interactionId
  have h2 := ackPiece_lookup h1 (List.getElem?_set_self hlt) rfl now' interactionId
  refine ⟨_, h2, rfl, rfl, ?_⟩
  unfold statuses
  simp only [List.set_set, List.map_set]

end

/-! ## How far a send has come -/

/-- The statuses of a batch whose first pieces were acked with the ids `received`, whose next piece
may have been started, and whose last `remaining` pieces are pending. -/
def progress (received : List String) (started : Bool) (remaining : Nat) :
    List InFlightStatus :=
  received.map .acked ++ ((if started then [.responseStarted] else []) ++
    List.replicate remaining .pending)

theorem statuses_pendingPieces (count : Nat) :
    (pendingPieces count).map InFlightPiece.status = progress [] false count := by
  unfold pendingPieces
  rw [List.map_map]
  show (List.range count).map (fun _ => InFlightStatus.pending) = List.replicate count .pending
  rw [List.map_const', List.length_range]

theorem markStartedAndPersist_progress {s : StoreV2} {id : String} {b : InFlightBatch}
    {received : List String} {remaining : Nat} (hb : s.inFlight.lookup id = some b)
    (hst : statuses b = progress received false (remaining + 1)) (now now' : UInt64)
    (body : List UInt8) :
    ∃ b', (markStartedAndPersist s now now' id received.length body).inFlight.lookup id =
        some b' ∧
      b'.key = b.key ∧ b'.id = b.id ∧ statuses b' = progress received true remaining := by
  have hi : (statuses b)[received.length]? = some .pending := by
    rw [hst]
    unfold progress
    simp [List.replicate_succ]
  obtain ⟨b', hb', hkey, hid, hst'⟩ := markStartedAndPersist_lookup hb hi now now' body
  refine ⟨b', hb', hkey, hid, ?_⟩
  rw [hst', hst]
  unfold progress
  rw [List.set_append_right _ _ (by simp), List.replicate_succ]
  simp

theorem ackAndPersist_progress {s : StoreV2} {id : String} {b : InFlightBatch}
    {received : List String} {remaining : Nat} (hb : s.inFlight.lookup id = some b)
    (hst : statuses b = progress received true remaining) (now now' : UInt64)
    (interactionId : String) :
    ∃ b', (ackAndPersist s now now' id received.length interactionId).inFlight.lookup id =
        some b' ∧
      b'.key = b.key ∧ b'.id = b.id ∧
      statuses b' = progress (received ++ [interactionId]) false remaining := by
  have hi : (statuses b)[received.length]? = some .responseStarted := by
    rw [hst]
    unfold progress
    simp
  obtain ⟨b', hb', hkey, hid, hst'⟩ := ackAndPersist_lookup hb hi now now' interactionId
  refine ⟨b', hb', hkey, hid, ?_⟩
  rw [hst', hst]
  unfold progress
  rw [List.set_append_right _ _ (by simp)]
  simp

theorem progress_all (received : List String) :
    progress received false 0 = received.map InFlightStatus.acked := by
  unfold progress
  simp

/-! ## Completing -/

theorem acked_of_statuses {batch : InFlightBatch} {ids : List String}
    (h : statuses batch = ids.map InFlightStatus.acked) :
    batch.allAcked = true ∧ batch.ackedIds = ids := by
  unfold InFlightBatch.allAcked InFlightBatch.ackedIds
  unfold statuses at h
  generalize batch.pieces = pieces at h ⊢
  induction pieces generalizing ids with
  | nil => exact ⟨rfl, (List.map_eq_nil_iff.mp h.symm).symm⟩
  | cons piece rest ih =>
    cases ids with
    | nil => simp at h
    | cons i ids =>
      rw [List.map_cons, List.map_cons, List.cons.injEq] at h
      obtain ⟨hi, hrest⟩ := h
      obtain ⟨all, hids⟩ := ih hrest
      rw [List.all_cons, all, hi, List.filterMap_cons_some (ackedId_eq_some.mpr hi), hids]
      exact ⟨rfl, rfl⟩

/-- **A batch with all its pieces acked becomes a client node of its own key**, which is stored
under its id. -/
theorem completeBatch_acked {s : StoreV2} {id : String} {b : InFlightBatch} {ids : List String}
    (hb : s.inFlight.lookup id = some b) (h : statuses b = ids.map InFlightStatus.acked)
    (now : UInt64) :
    (s.completeBatch now id).2 = .ok (StoreV2.clientNodeOf b ids now) ∧
      (s.completeBatch now id).1.interactions.getClient (StoreV2.clientNodeOf b ids now).id =
        some (StoreV2.clientNodeOf b ids now) := by
  obtain ⟨all, rfl⟩ := acked_of_statuses h
  rw [completeBatch_all hb all]
  refine ⟨rfl, ?_⟩
  unfold completed InteractionStore.getClient
  rw [InteractionStore.insertClient_lookup, if_pos rfl]

end InfSplitter.SplitSend
