import InfSplitter.Session.Chains
import Mathlib.Data.List.TakeWhile

/-!
# What completing a batch leaves behind

`complete_batch` takes a batch out and walks over its pieces, inserting a node for each call until
it meets a piece that is not acked. `pieceNodes` are the nodes it inserts, and `Completing` is the
case analysis: there is no such batch, not all of its pieces are acked, or all are.
-/

set_option autoImplicit false

namespace InfSplitter.Session

open Lib

/-- The ids of the acked pieces of a batch, in order. -/
def InFlightBatch.ackedIds (batch : InFlightBatch) : List String :=
  batch.pieces.filterMap InFlightPiece.ackedId

def InFlightBatch.allAcked (batch : InFlightBatch) : Bool :=
  batch.pieces.all fun piece => piece.status.isAcked

/-- The calls of the acked pieces a list begins with, each chained to the one before. -/
def pieceNodes (batch : InFlightBatch) (now : UInt64) :
    List InFlightPiece → Option String → List UpstreamInteractionNode
  | [], _ => []
  | piece :: rest, prevUpstream =>
    match piece.status with
    | .acked interactionId =>
      { id := interactionId, prevId := prevUpstream,
        clientId := batch.id ++ ":chunk-" ++ toString piece.index,
        lastSeenUtc := now, expiresAtUtc := now + defaultSessionTtlSecs } ::
        pieceNodes batch now rest (some interactionId)
    | _ => []

/-- The nodes of a whole batch. -/
def InFlightBatch.calls (batch : InFlightBatch) (now : UInt64) : List UpstreamInteractionNode :=
  pieceNodes batch now batch.pieces batch.prevInteractionId

/-- Insert calls, in order. -/
def insertCalls (store : InteractionStore) (calls : List UpstreamInteractionNode) :
    InteractionStore :=
  calls.foldl InteractionStore.insertUpstream store

theorem isAcked_iff {status : InFlightStatus} :
    status.isAcked = true ↔ ∃ interactionId, status = .acked interactionId := by
  cases status <;> simp [InFlightStatus.isAcked]

theorem ackedId_eq_some {piece : InFlightPiece} {interactionId : String} :
    piece.ackedId = some interactionId ↔ piece.status = .acked interactionId := by
  unfold InFlightPiece.ackedId
  cases piece.status <;> simp

/-- A batch of some pieces that are all acked has a last id. -/
theorem ackedIds_ne_nil {batch : InFlightBatch} (hne : batch.pieces ≠ [])
    (all : batch.allAcked = true) : batch.ackedIds ≠ [] := by
  obtain ⟨piece, rest, hpieces⟩ := List.exists_cons_of_ne_nil hne
  unfold InFlightBatch.allAcked at all
  rw [hpieces, List.all_cons, Bool.and_eq_true] at all
  obtain ⟨id, hst⟩ := isAcked_iff.mp all.1
  unfold InFlightBatch.ackedIds
  rw [hpieces, List.filterMap_cons_some (ackedId_eq_some.mpr hst)]
  exact List.cons_ne_nil _ _

/-- The client node of some calls has the id of the last one. -/
theorem getLast?_clientNodeOf {ids : List String} (hne : ids ≠ []) (batch : InFlightBatch)
    (now : UInt64) : ids.getLast? = some (StoreV2.clientNodeOf batch ids now).id := by
  show ids.getLast? = some (ids.getLast?.getD "")
  rw [List.getLast?_eq_some_getLast hne, Option.getD_some]

theorem clientNodeOf_id_mem {batch : InFlightBatch} (hne : batch.pieces ≠ [])
    (all : batch.allAcked = true) (now : UInt64) :
    (StoreV2.clientNodeOf batch batch.ackedIds now).id ∈ batch.ackedIds :=
  List.mem_of_getLast? (getLast?_clientNodeOf (ackedIds_ne_nil hne all) batch now)

theorem insertPieces_fst (batchId : String) (batch : InFlightBatch) (now : UInt64)
    (pieces : List InFlightPiece) (prevUpstream : Option String) (store : InteractionStore) :
    (StoreV2.insertPieces batchId batch now pieces prevUpstream store).1 =
      insertCalls store (pieceNodes batch now pieces prevUpstream) := by
  induction pieces generalizing prevUpstream store with
  | nil => rfl
  | cons piece rest ih =>
    unfold StoreV2.insertPieces pieceNodes
    cases piece.status with
    | acked interactionId => exact ih ..
    | _ => rfl

theorem insertPieces_snd (batchId : String) (batch : InFlightBatch) (now : UInt64)
    {pieces : List InFlightPiece} (h : pieces.all (fun piece => piece.status.isAcked) = true)
    (prevUpstream : Option String) (store : InteractionStore) :
    (StoreV2.insertPieces batchId batch now pieces prevUpstream store).2 =
      .ok (pieces.filterMap InFlightPiece.ackedId) := by
  induction pieces generalizing prevUpstream store with
  | nil => rfl
  | cons piece rest ih =>
    rw [List.all_cons, Bool.and_eq_true] at h
    obtain ⟨hpiece, hrest⟩ := h
    obtain ⟨interactionId, hst⟩ := isAcked_iff.mp hpiece
    unfold StoreV2.insertPieces
    rw [List.filterMap_cons_some (ackedId_eq_some.mpr hst)]
    simp only [hst, ih hrest]
    rfl

theorem insertPieces_error (batchId : String) (batch : InFlightBatch) (now : UInt64)
    {pieces : List InFlightPiece} (h : pieces.all (fun piece => piece.status.isAcked) = false)
    (prevUpstream : Option String) (store : InteractionStore) :
    ∃ e, (StoreV2.insertPieces batchId batch now pieces prevUpstream store).2 = .error e := by
  induction pieces generalizing prevUpstream store with
  | nil => cases h
  | cons piece rest ih =>
    unfold StoreV2.insertPieces
    cases hst : piece.status with
    | acked interactionId =>
      rw [List.all_cons, hst] at h
      obtain ⟨e, he⟩ := ih h (some interactionId) _
      exact ⟨e, congrArg (Except.map (interactionId :: ·)) he⟩
    | _ => exact ⟨_, rfl⟩

section
variable {s : StoreV2} {now : UInt64} {batchId : String} {batch : InFlightBatch}

theorem completeBatch_missing (h : s.inFlight.lookup batchId = none) :
    s.completeBatch now batchId = (s, .error (.batchNotFound batchId)) := by
  unfold StoreV2.completeBatch
  rw [h]

/-- The store a batch that cannot complete leaves: it is gone, and the calls of its first pieces
stay. -/
def partlyCompleted (s : StoreV2) (now : UInt64) (batchId : String) (batch : InFlightBatch) :
    StoreV2 :=
  { s with
    interactions := insertCalls s.interactions (batch.calls now)
    inFlight := s.inFlight.erase batchId }

/-- The store a batch that completes leaves. -/
def completed (s : StoreV2) (now : UInt64) (batchId : String) (batch : InFlightBatch) : StoreV2 :=
  let node := StoreV2.clientNodeOf batch batch.ackedIds now
  { sessions := StoreV2.touchSession s.sessions batch.sessionId node.id now
    interactions := (insertCalls s.interactions (batch.calls now)).insertClient node
    inFlight := s.inFlight.erase batchId }

theorem completeBatch_partly (hb : s.inFlight.lookup batchId = some batch)
    (h : batch.allAcked = false) :
    ∃ e, s.completeBatch now batchId = (partlyCompleted s now batchId batch, .error e) := by
  obtain ⟨e, he⟩ :=
    insertPieces_error batchId batch now h batch.prevInteractionId s.interactions
  unfold StoreV2.completeBatch partlyCompleted InFlightBatch.calls
  rw [hb, ← insertPieces_fst batchId batch now batch.pieces batch.prevInteractionId s.interactions]
  simp only
  cases hp : StoreV2.insertPieces batchId batch now batch.pieces batch.prevInteractionId
      s.interactions with
  | mk interactions result =>
    rw [hp] at he
    simp only at he
    subst he
    exact ⟨e, rfl⟩

theorem completeBatch_all (hb : s.inFlight.lookup batchId = some batch)
    (h : batch.allAcked = true) :
    s.completeBatch now batchId =
      (completed s now batchId batch, .ok (StoreV2.clientNodeOf batch batch.ackedIds now)) := by
  have hok := insertPieces_snd batchId batch now h batch.prevInteractionId s.interactions
  unfold StoreV2.completeBatch completed InFlightBatch.calls
  rw [hb, ← insertPieces_fst batchId batch now batch.pieces batch.prevInteractionId s.interactions]
  simp only
  cases hp : StoreV2.insertPieces batchId batch now batch.pieces batch.prevInteractionId
      s.interactions with
  | mk interactions result =>
    rw [hp] at hok
    simp only at hok
    subst hok
    rfl

end

/-- The three ways completing a batch goes. -/
inductive Completing (s : StoreV2) (now : UInt64) (batchId : String) : Prop
  | missing (own : s.inFlight.lookup batchId = none)
      (result : s.completeBatch now batchId = (s, .error (.batchNotFound batchId)))
  | partly {batch : InFlightBatch} {e : BatchError} (own : s.inFlight.lookup batchId = some batch)
      (unacked : batch.allAcked = false)
      (result : s.completeBatch now batchId = (partlyCompleted s now batchId batch, .error e))
  | whole {batch : InFlightBatch} (own : s.inFlight.lookup batchId = some batch)
      (all : batch.allAcked = true)
      (result : s.completeBatch now batchId =
        (completed s now batchId batch, .ok (StoreV2.clientNodeOf batch batch.ackedIds now)))

theorem completing (s : StoreV2) (now : UInt64) (batchId : String) :
    Completing s now batchId := by
  cases own : s.inFlight.lookup batchId with
  | none => exact .missing own (completeBatch_missing own)
  | some batch =>
    cases all : batch.allAcked with
    | false =>
      obtain ⟨_, result⟩ := @completeBatch_partly s now batchId batch own all
      exact .partly own all result
    | true => exact .whole own all (completeBatch_all own all)

/-- What a batch that completed was. -/
theorem completeBatch_ok_cases {s : StoreV2} {now : UInt64} {batchId : String}
    {node : ClientInteractionNode} (h : (s.completeBatch now batchId).2 = .ok node) :
    ∃ batch, s.inFlight.lookup batchId = some batch ∧ batch.allAcked = true ∧
      node = StoreV2.clientNodeOf batch batch.ackedIds now ∧
      (s.completeBatch now batchId).1 = completed s now batchId batch := by
  cases completing s now batchId with
  | missing _ result => simp [result] at h
  | partly _ _ result => simp [result] at h
  | whole hb all result =>
    rw [result] at h ⊢
    exact ⟨_, hb, all, (Except.ok.inj h).symm, rfl⟩

/-! ## The calls -/

@[simp] theorem insertCalls_nil (store : InteractionStore) : insertCalls store [] = store := rfl

@[simp] theorem insertCalls_cons (store : InteractionStore) (call : UpstreamInteractionNode)
    (calls : List UpstreamInteractionNode) :
    insertCalls store (call :: calls) = insertCalls (store.insertUpstream call) calls := rfl

/-- Inserting calls leaves everything but the calls alone. -/
theorem insertCalls_eq (store : InteractionStore) (calls : List UpstreamInteractionNode) :
    insertCalls store calls =
      { store with upstreams := (insertCalls store calls).upstreams } := by
  induction calls generalizing store with
  | nil => rfl
  | cons call rest ih =>
    rw [insertCalls_cons, ih]
    rfl

theorem SameChains.refl (store : InteractionStore) : SameChains store store := ⟨rfl, rfl, rfl⟩

theorem SameChains.symm {store store' : InteractionStore} (h : SameChains store store') :
    SameChains store' store :=
  ⟨h.clients.symm, h.hashIndex.symm, h.prevToClient.symm⟩

theorem SameChains.trans {store store' store'' : InteractionStore} (h : SameChains store store')
    (h' : SameChains store' store'') : SameChains store store'' :=
  ⟨h'.clients.trans h.clients, h'.hashIndex.trans h.hashIndex,
    h'.prevToClient.trans h.prevToClient⟩

theorem insertCalls_sameChains (store : InteractionStore) (calls : List UpstreamInteractionNode) :
    SameChains store (insertCalls store calls) := by
  rw [insertCalls_eq]
  exact ⟨rfl, rfl, rfl⟩

theorem completed_sameChains (s : StoreV2) (now : UInt64) (batchId : String)
    (batch : InFlightBatch) :
    SameChains (s.interactions.insertClient (StoreV2.clientNodeOf batch batch.ackedIds now))
      (completed s now batchId batch).interactions :=
  (insertCalls_sameChains _ _).insertClient _

/-- What a batch that completes does to the client nodes. -/
theorem completeBatch_ok {store store' : StoreV2} {now : UInt64} {batchId : String}
    {batch : InFlightBatch} {node : ClientInteractionNode}
    (hb : store.inFlight.lookup batchId = some batch)
    (h : store.completeBatch now batchId = (store', .ok node)) :
    node = StoreV2.clientNodeOf batch node.upstreamIds now ∧
      SameChains (store.interactions.insertClient node) store'.interactions := by
  obtain ⟨_, own, _, rfl, hstore⟩ := completeBatch_ok_cases (congrArg Prod.snd h)
  cases hb.symm.trans own
  refine ⟨rfl, ?_⟩
  rw [show store' = _ from (congrArg Prod.fst h).symm.trans hstore]
  exact completed_sameChains store now batchId batch

/-- The calls of a batch are seen when it completes. -/
theorem times_pieceNodes (batch : InFlightBatch) (now : UInt64) (pieces : List InFlightPiece)
    (prevUpstream : Option String) :
    ∀ call ∈ pieceNodes batch now pieces prevUpstream,
      call.lastSeenUtc = now ∧ call.expiresAtUtc = now + defaultSessionTtlSecs := by
  induction pieces generalizing prevUpstream with
  | nil => exact List.forall_mem_nil _
  | cons piece rest ih =>
    unfold pieceNodes
    cases piece.status with
    | acked interactionId => exact List.forall_mem_cons.mpr ⟨⟨rfl, rfl⟩, ih (some interactionId)⟩
    | _ => exact List.forall_mem_nil _

/-- The loop inserts the calls of the acked pieces in front of the first that is not. -/
theorem ids_pieceNodes (batch : InFlightBatch) (now : UInt64) (pieces : List InFlightPiece)
    (prevUpstream : Option String) :
    (pieceNodes batch now pieces prevUpstream).map UpstreamInteractionNode.id =
      (pieces.takeWhile fun piece => piece.status.isAcked).filterMap InFlightPiece.ackedId := by
  induction pieces generalizing prevUpstream with
  | nil => rfl
  | cons piece rest ih =>
    unfold pieceNodes
    rw [List.takeWhile_cons]
    cases hst : piece.status with
    | acked interactionId =>
      have hacked : (InFlightStatus.acked interactionId).isAcked = true := rfl
      rw [if_pos hacked, List.filterMap_cons_some (ackedId_eq_some.mpr hst)]
      exact congrArg (interactionId :: ·) (ih (some interactionId))
    | _ => rfl

/-- All pieces acked: their calls have their ids, in order. -/
theorem map_id_pieceNodes (batch : InFlightBatch) (now : UInt64) {pieces : List InFlightPiece}
    (h : pieces.all (fun piece => piece.status.isAcked) = true) (prevUpstream : Option String) :
    (pieceNodes batch now pieces prevUpstream).map UpstreamInteractionNode.id =
      pieces.filterMap InFlightPiece.ackedId := by
  rw [ids_pieceNodes, List.takeWhile_eq_self_iff.mpr (List.all_eq_true.mp h)]

/-- The calls of a batch, acked or not, have ids of its acked pieces. -/
theorem ids_pieceNodes_sublist (batch : InFlightBatch) (now : UInt64)
    (pieces : List InFlightPiece) (prevUpstream : Option String) :
    ((pieceNodes batch now pieces prevUpstream).map UpstreamInteractionNode.id).Sublist
      (pieces.filterMap InFlightPiece.ackedId) := by
  rw [ids_pieceNodes]
  exact (List.takeWhile_sublist _).filterMap InFlightPiece.ackedId

/-! ## What is stored after the calls -/

theorem insertUpstream_lookup (store : InteractionStore) (node : UpstreamInteractionNode)
    (k : String) :
    (store.insertUpstream node).upstreams.lookup k =
      if k = node.id then some node else store.upstreams.lookup k := by
  unfold InteractionStore.insertUpstream
  by_cases h : k = node.id
  · rw [if_pos h, h, AList.lookup_insert]
  · rw [if_neg h, AList.lookup_insert_ne h]

theorem lookup_insertCalls_of_notMem {store : InteractionStore}
    {calls : List UpstreamInteractionNode} {id : String}
    (h : id ∉ calls.map UpstreamInteractionNode.id) :
    (insertCalls store calls).upstreams.lookup id = store.upstreams.lookup id := by
  induction calls generalizing store with
  | nil => rfl
  | cons call rest ih =>
    rw [List.map_cons, List.mem_cons, not_or] at h
    rw [insertCalls_cons, ih h.2, insertUpstream_lookup, if_neg h.1]

/-- Calls with ids of their own are all stored. -/
theorem lookup_insertCalls {store : InteractionStore} {calls : List UpstreamInteractionNode}
    (nodup : (calls.map UpstreamInteractionNode.id).Nodup) {id : String}
    {call : UpstreamInteractionNode} :
    (insertCalls store calls).upstreams.lookup id = some call ↔
      (call ∈ calls ∧ call.id = id) ∨
        (id ∉ calls.map UpstreamInteractionNode.id ∧ store.upstreams.lookup id = some call) := by
  induction calls generalizing store with
  | nil => simp
  | cons c rest ih =>
    rw [List.map_cons, List.nodup_cons] at nodup
    obtain ⟨hc, nodup⟩ := nodup
    rw [insertCalls_cons, ih nodup, insertUpstream_lookup, List.map_cons, List.mem_cons,
      List.mem_cons]
    by_cases hid : id = c.id
    · subst hid
      have hrest : ¬ (call ∈ rest ∧ call.id = c.id) := by
        rintro ⟨hmem, heq⟩
        exact hc (heq ▸ List.mem_map_of_mem hmem)
      constructor
      · rintro (hmem | ⟨_, heq⟩)
        · exact absurd hmem hrest
        · rw [if_pos rfl, Option.some.injEq] at heq
          exact Or.inl ⟨Or.inl heq.symm, by rw [heq]⟩
      · rintro (⟨rfl | hmem, heq⟩ | ⟨hnot, _⟩)
        · exact Or.inr ⟨hc, if_pos rfl⟩
        · exact absurd ⟨hmem, heq⟩ hrest
        · exact absurd (Or.inl rfl) hnot
    · have hcall (heq : call.id = id) : call ≠ c := by
        rintro rfl
        exact hid heq.symm
      rw [if_neg hid]
      refine or_congr ?_ ?_
      · exact and_congr_left fun heq => (or_iff_right (hcall heq)).symm
      · exact and_congr_left' (by rw [not_or, and_iff_right hid])

end InfSplitter.Session
