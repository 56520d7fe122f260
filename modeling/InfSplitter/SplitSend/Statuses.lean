import Mathlib.Data.List.Forall2
import InfSplitter.Persistence.Indexes
import InfSplitter.SplitSend.Pieces

/-!
# The statuses of the pieces

A piece goes from Pending to ResponseStarted, perhaps to Sent, and to Acked, and until it is acked
it can fail. `Moves` is one such change. Over the operations of a store in any order, a batch that
is still there has every piece at the end of some moves from where it was.

Acked is final, with the id of the interaction. Failed is not quite: `fail_batch` marks every piece
that is not Acked, a failed one too, and its text is then the later one.
-/

set_option autoImplicit false

namespace InfSplitter.SplitSend

open Lib Session Persistence

inductive Moves : InFlightStatus → InFlightStatus → Prop
  | started : Moves .pending .responseStarted
  | sent (interactionId : String) : Moves .responseStarted (.sent interactionId)
  | acked (interactionId : String) : Moves .responseStarted (.acked interactionId)
  | ackedSent (sentId interactionId : String) : Moves (.sent sentId) (.acked interactionId)
  | failed {status : InFlightStatus} (h : status.isAcked = false) (error : String) :
      Moves status (.failed error)

/-- Any number of moves. -/
def MovesTo : InFlightStatus → InFlightStatus → Prop := Relation.ReflTransGen Moves

theorem Moves.of_acked {interactionId : String} {status : InFlightStatus} :
    ¬ Moves (.acked interactionId) status := by
  intro h
  cases h with
  | failed h error => simp [InFlightStatus.isAcked] at h

theorem Moves.of_failed {error : String} {status : InFlightStatus}
    (h : Moves (.failed error) status) : ∃ error', status = .failed error' := by
  cases h with
  | failed _ error' => exact ⟨error', rfl⟩

/-- An acked piece does not move again. -/
theorem MovesTo.of_acked {interactionId : String} {status : InFlightStatus}
    (h : MovesTo (.acked interactionId) status) : status = .acked interactionId := by
  induction h with
  | refl => rfl
  | tail _ hmove ih =>
    rw [ih] at hmove
    exact absurd hmove Moves.of_acked

/-- A failed piece stays failed. -/
theorem MovesTo.of_failed {error : String} {status : InFlightStatus}
    (h : MovesTo (.failed error) status) : ∃ error', status = .failed error' := by
  induction h with
  | refl => exact ⟨error, rfl⟩
  | tail _ hmove ih =>
    obtain ⟨error', rfl⟩ := ih
    exact hmove.of_failed

/-! ## What the operations answer -/

/-- The `Err` of a result. -/
def errorOf {α : Type} : Except BatchError α → Option BatchError
  | .ok _ => none
  | .error e => some e

/-- What an operation fails with; the others return no `Result`. -/
def failureOf (s : StoreV2) : StoreAction → Option BatchError
  | .setPieceBody now batchId pieceIndex body =>
    errorOf (s.setPieceBody now batchId pieceIndex body).2
  | .markResponseStarted now batchId pieceIndex =>
    errorOf (s.markResponseStarted now batchId pieceIndex).2
  | .markSent now batchId pieceIndex interactionId =>
    errorOf (s.markSent now batchId pieceIndex interactionId).2
  | .ackPiece now batchId pieceIndex interactionId =>
    errorOf (s.ackPiece now batchId pieceIndex interactionId).2
  | .completeBatch now batchId => errorOf (s.completeBatch now batchId).2
  | .failBatch now batchId error => errorOf (s.failBatch now batchId error).2
  | _ => none

/-- The batch an operation is about, and the piece. -/
def batchNamed : StoreAction → Option String
  | .createBatch _ id _ _ _ _ _ => some id
  | .setPieceBody _ batchId _ _ => some batchId
  | .markResponseStarted _ batchId _ => some batchId
  | .markSent _ batchId _ _ => some batchId
  | .ackPiece _ batchId _ _ => some batchId
  | .completeBatch _ batchId => some batchId
  | .failBatch _ batchId _ => some batchId
  | .removeBatch batchId => some batchId
  | _ => none

def pieceNamed : StoreAction → Option (String × Nat)
  | .setPieceBody _ batchId pieceIndex _ => some (batchId, pieceIndex)
  | .markResponseStarted _ batchId pieceIndex => some (batchId, pieceIndex)
  | .markSent _ batchId pieceIndex _ => some (batchId, pieceIndex)
  | .ackPiece _ batchId pieceIndex _ => some (batchId, pieceIndex)
  | _ => none

def createdId : StoreAction → Option String
  | .createBatch _ id _ _ _ _ _ => some id
  | _ => none

/-- The statuses an operation on a piece starts from. -/
def Allows : StoreAction → InFlightStatus → Prop
  | .setPieceBody _ _ _ _, _ => True
  | .markResponseStarted _ _ _, status => status = .pending
  | .markSent _ _ _ _, status => status = .responseStarted
  | .ackPiece _ _ _ _, status => status = .responseStarted ∨ ∃ id, status = .sent id
  | _, _ => False

/-! ## One piece -/

/-- An operation on a piece that fails leaves the store alone. -/
theorem updatePiece_error {s : StoreV2} {now : UInt64} {id : String} {i : Nat}
    {change : InFlightPiece → Except BatchError InFlightPiece}
    (h : errorOf (s.updatePiece now id i change).2 ≠ none) :
    (s.updatePiece now id i change).1 = s := by
  rcases updatePiece_cases s now id i change with hs | ⟨_, _, _, _, _, _, hs⟩
  · exact hs
  · rw [hs] at h
    exact absurd rfl h

/-- It succeeds exactly if there are the batch and the piece, and the piece can be changed. -/
theorem updatePiece_ok_iff {s : StoreV2} {now : UInt64} {id : String} {i : Nat}
    {change : InFlightPiece → Except BatchError InFlightPiece} :
    errorOf (s.updatePiece now id i change).2 = none ↔
      ∃ batch piece, s.inFlight.lookup id = some batch ∧ batch.pieces[i]? = some piece ∧
        errorOf (change piece) = none := by
  unfold StoreV2.updatePiece
  cases s.inFlight.lookup id with
  | none => simp [errorOf]
  | some batch =>
    simp only
    cases hp : batch.pieces[i]? with
    | none => simp [hp, errorOf]
    | some piece =>
      simp only
      cases hc : change piece <;> simp [hp, hc, errorOf]

theorem forall₂_set {α : Type} {R : α → α → Prop} (hrefl : ∀ a, R a a) {l : List α} {i : Nat}
    {a b : α} (ha : l[i]? = some a) (hab : R a b) : List.Forall₂ R l (l.set i b) := by
  induction l generalizing i with
  | nil => simp at ha
  | cons c rest ih =>
    cases i with
    | zero =>
      rw [List.getElem?_cons_zero, Option.some.injEq] at ha
      rw [List.set_cons_zero, ha]
      exact .cons hab (List.forall₂_same.mpr fun d _ => hrefl d)
    | succ i =>
      rw [List.getElem?_cons_succ] at ha
      exact .cons (hrefl c) (ih ha)

/-- Each piece is where it was or one move on. -/
def Stepped (batch batch' : InFlightBatch) : Prop :=
  List.Forall₂ (Relation.ReflGen Moves) (statuses batch) (statuses batch')

theorem forall₂_trans {α : Type} {R : α → α → Prop} (htrans : ∀ {a b c}, R a b → R b c → R a c)
    {l l' l'' : List α} (h : List.Forall₂ R l l') (h' : List.Forall₂ R l' l'') :
    List.Forall₂ R l l'' := by
  induction h generalizing l'' with
  | nil => exact h'
  | cons hab _ ih =>
    cases h' with
    | cons hbc hrest => exact .cons (htrans hab hbc) (ih hrest)

theorem Stepped.refl (batch : InFlightBatch) : Stepped batch batch :=
  List.forall₂_same.mpr fun _ _ => .refl

/-- The operation left the batch in flight, at most one move on. -/
def Came (s : StoreV2) (id : String) (batch' : InFlightBatch) : Prop :=
  ∃ batch, s.inFlight.lookup id = some batch ∧ Stepped batch batch'

theorem updatePiece_came {s : StoreV2} {now : UInt64} {id k : String} {i : Nat}
    {change : InFlightPiece → Except BatchError InFlightPiece} {batch' : InFlightBatch}
    (hchange : ∀ p p', change p = .ok p' → Relation.ReflGen Moves p.status p'.status)
    (h : (s.updatePiece now id i change).1.inFlight.lookup k = some batch') :
    Came s k batch' := by
  rcases updatePiece_cases s now id i change with hs | ⟨batch, piece, piece', hb, hp, hc, hs⟩
  · rw [hs] at h
    exact ⟨batch', h, .refl batch'⟩
  · rw [hs] at h
    rcases lookup_insert_cases h with ⟨rfl, rfl⟩ | ⟨_, hold⟩
    · refine ⟨batch, hb, ?_⟩
      unfold Stepped statuses
      rw [List.map_set]
      apply forall₂_set (fun _ => .refl) _ (hchange piece piece' hc)
      rw [List.getElem?_map, hp]
      rfl
    · exact ⟨batch', hold, .refl batch'⟩

theorem failBatch_came {s : StoreV2} {now : UInt64} {id error k : String}
    {batch' : InFlightBatch}
    (h : (s.failBatch now id error).1.inFlight.lookup k = some batch') : Came s k batch' := by
  rcases failBatch_lookup_cases h with ⟨batch, rfl, hb, rfl⟩ | hold
  · refine ⟨batch, hb, ?_⟩
    unfold Stepped statuses failed
    rw [List.map_map, List.forall₂_map_left_iff, List.forall₂_map_right_iff]
    apply List.forall₂_same.mpr
    intro piece _
    by_cases hacked : piece.status.isAcked = true
    · rw [Function.comp_apply, if_pos hacked]
    · rw [Function.comp_apply, if_neg hacked]
      exact .single (.failed (Bool.eq_false_iff.mpr hacked) error)
  · exact ⟨batch', hold, .refl batch'⟩

theorem failBatch_ok {s : StoreV2} {id : String} {batch : InFlightBatch}
    (h : s.inFlight.lookup id = some batch) (now : UInt64) (error : String) :
    errorOf (s.failBatch now id error).2 = none := by
  unfold StoreV2.failBatch
  rw [h]
  rfl

/-! ## One operation -/

/-- Where a batch comes from that is in flight after an operation. -/
theorem came_or_created {s : StoreV2} {a : StoreAction} {k : String} {batch' : InFlightBatch}
    (h : (a.run s).inFlight.lookup k = some batch') : Came s k batch' ∨ createdId a = some k := by
  have kept : s.inFlight.lookup k = some batch' → Came s k batch' :=
    fun hold => ⟨batch', hold, .refl batch'⟩
  cases a with
  | createBatch now id sessionId prev hashes system pieces =>
    rcases lookup_insert_cases h with ⟨rfl, _⟩ | ⟨_, hold⟩
    · exact Or.inr rfl
    · exact Or.inl (kept hold)
  | setPieceBody now batchId pieceIndex body =>
    left
    apply updatePiece_came _ h
    intro p p' hc
    cases hc
    exact .refl
  | markResponseStarted now batchId pieceIndex =>
    left
    apply updatePiece_came _ h
    intro p p' hc
    split at hc
    · rename_i hst
      cases hc
      rw [hst]
      exact .single .started
    · simp at hc
  | markSent now batchId pieceIndex interactionId =>
    left
    apply updatePiece_came _ h
    intro p p' hc
    split at hc
    · rename_i hst
      cases hc
      rw [hst]
      exact .single (.sent interactionId)
    · simp at hc
  | ackPiece now batchId pieceIndex interactionId =>
    left
    apply updatePiece_came _ h
    intro p p' hc
    split at hc
    · rename_i sentId hst
      cases hc
      rw [hst]
      exact .single (.ackedSent sentId interactionId)
    · rename_i hst
      cases hc
      rw [hst]
      exact .single (.acked interactionId)
    · simp at hc
  | completeBatch now batchId =>
    left
    apply kept
    have herase := completeBatch_inFlight s now batchId
    exact (lookup_erase_some (herase ▸ h)).2
  | failBatch now batchId error => exact Or.inl (failBatch_came h)
  | removeBatch batchId => exact Or.inl (kept (lookup_erase_some h).2)
  | extendLifetime now sessionId expiresAtUtc =>
    left
    apply kept
    exact extendLifetime_inFlight s now sessionId expiresAtUtc ▸ h
  | cleanAll =>
    have hnone : (∅ : StrMap InFlightBatch).lookup k = some batch' := h
    simp at hnone
  | discardAllInflight =>
    have hnone : (∅ : StrMap InFlightBatch).lookup k = some batch' := h
    simp at hnone
  | setSession _ _ => exact Or.inl (kept h)
  | insertUpstream _ => exact Or.inl (kept h)
  | insertClient _ => exact Or.inl (kept h)
  | touchUpstreamOnReplay _ _ => exact Or.inl (kept h)

/-- An operation on one batch leaves the others as they are. -/
theorem others_kept {s : StoreV2} {a : StoreAction} {id k : String} (ha : batchNamed a = some id)
    (hk : k ≠ id) : (a.run s).inFlight.lookup k = s.inFlight.lookup k := by
  cases a with
  | createBatch now id' sessionId prev hashes system pieces =>
    cases ha
    exact AList.lookup_insert_ne hk
  | setPieceBody now batchId pieceIndex body =>
    cases ha
    exact updatePiece_lookup_ne s now pieceIndex _ hk
  | markResponseStarted now batchId pieceIndex =>
    cases ha
    exact updatePiece_lookup_ne s now pieceIndex _ hk
  | markSent now batchId pieceIndex interactionId =>
    cases ha
    exact updatePiece_lookup_ne s now pieceIndex _ hk
  | ackPiece now batchId pieceIndex interactionId =>
    cases ha
    exact updatePiece_lookup_ne s now pieceIndex _ hk
  | completeBatch now batchId =>
    cases ha
    exact completeBatch_lookup_ne s now hk
  | failBatch now batchId error =>
    cases ha
    exact failBatch_lookup_ne s now error hk
  | removeBatch batchId =>
    cases ha
    exact AList.lookup_erase_ne hk
  | _ => simp [batchNamed] at ha

/-- An operation that fails leaves the store alone, completing aside. -/
theorem failure_keeps {s : StoreV2} {a : StoreAction} (h : failureOf s a ≠ none)
    (ha : ∀ now batchId, a ≠ .completeBatch now batchId) : a.run s = s := by
  cases a with
  | setPieceBody now batchId pieceIndex body => exact updatePiece_error h
  | markResponseStarted now batchId pieceIndex => exact updatePiece_error h
  | markSent now batchId pieceIndex interactionId => exact updatePiece_error h
  | ackPiece now batchId pieceIndex interactionId => exact updatePiece_error h
  | completeBatch now batchId => exact absurd rfl (ha now batchId)
  | failBatch now batchId error =>
    cases hb : s.inFlight.lookup batchId with
    | none => exact congrArg Prod.fst (failBatch_missing hb now error)
    | some batch => exact absurd (failBatch_ok hb now error) h
  | _ => exact absurd rfl h

/-- An operation on a piece succeeds exactly if the piece exists and is where it may start from. -/
theorem piece_ok_iff {s : StoreV2} {a : StoreAction} {id : String} {i : Nat}
    (ha : pieceNamed a = some (id, i)) :
    failureOf s a = none ↔ ∃ batch piece, s.inFlight.lookup id = some batch ∧
      batch.pieces[i]? = some piece ∧ Allows a piece.status := by
  have key : ∀ {now : UInt64} {change : InFlightPiece → Except BatchError InFlightPiece},
      (∀ piece, errorOf (change piece) = none ↔ Allows a piece.status) →
        (errorOf (s.updatePiece now id i change).2 = none ↔
          ∃ batch piece, s.inFlight.lookup id = some batch ∧ batch.pieces[i]? = some piece ∧
            Allows a piece.status) := by
    intro now change hchange
    rw [updatePiece_ok_iff]
    simp only [hchange]
  cases a with
  | setPieceBody now batchId pieceIndex body =>
    cases ha
    apply key
    intro piece
    exact iff_of_true rfl trivial
  | markResponseStarted now batchId pieceIndex =>
    cases ha
    apply key
    intro piece
    cases hst : piece.status <;> simp [Allows, errorOf]
  | markSent now batchId pieceIndex interactionId =>
    cases ha
    apply key
    intro piece
    cases hst : piece.status <;> simp [Allows, errorOf]
  | ackPiece now batchId pieceIndex interactionId =>
    cases ha
    apply key
    intro piece
    cases hst : piece.status <;> simp [Allows, errorOf]
  | _ => simp [pieceNamed] at ha

/-- An operation on a batch that does not exist fails, except that one can be created and that
`remove_batch` has nothing to do. -/
theorem missing_fails {s : StoreV2} {a : StoreAction} {id : String} (ha : batchNamed a = some id)
    (hid : s.inFlight.lookup id = none) (hcreate : createdId a ≠ some id) :
    failureOf s a = some (.batchNotFound id) ∨ a = .removeBatch id ∧ a.run s = s := by
  have hpiece : ∀ {now : UInt64} {i : Nat}
      {change : InFlightPiece → Except BatchError InFlightPiece},
      errorOf (s.updatePiece now id i change).2 = some (.batchNotFound id) := by
    intro now i change
    unfold StoreV2.updatePiece
    rw [hid]
    rfl
  cases a with
  | createBatch now id' sessionId prev hashes system pieces => exact absurd ha hcreate
  | setPieceBody now batchId pieceIndex body =>
    cases ha
    exact Or.inl hpiece
  | markResponseStarted now batchId pieceIndex =>
    cases ha
    exact Or.inl hpiece
  | markSent now batchId pieceIndex interactionId =>
    cases ha
    exact Or.inl hpiece
  | ackPiece now batchId pieceIndex interactionId =>
    cases ha
    exact Or.inl hpiece
  | completeBatch now batchId =>
    cases ha
    have herror := congrArg Prod.snd (completeBatch_missing hid : s.completeBatch now id = _)
    exact Or.inl (congrArg errorOf herror)
  | failBatch now batchId error =>
    cases ha
    have herror := congrArg Prod.snd (failBatch_missing hid now error)
    exact Or.inl (congrArg errorOf herror)
  | removeBatch batchId =>
    cases ha
    refine Or.inr ⟨rfl, ?_⟩
    have herase : s.inFlight.erase id = s.inFlight :=
      AList.ext (List.kerase_of_notMem_keys (AList.lookup_eq_none.mp hid))
    show { s with inFlight := s.inFlight.erase id } = s
    rw [herase]
  | _ => simp [batchNamed] at ha

/-! ## Whole runs -/

/-- What holds of every operation. -/
structure Lawful (s : StoreV2) (a : StoreAction) : Prop where
  moves : ∀ {id : String} {batch batch' : InFlightBatch}, s.inFlight.lookup id = some batch →
    (a.run s).inFlight.lookup id = some batch' → Stepped batch batch'
  missing : ∀ {id : String}, batchNamed a = some id → s.inFlight.lookup id = none →
    createdId a ≠ some id →
      failureOf s a = some (.batchNotFound id) ∨ a = .removeBatch id ∧ a.run s = s
  piece : ∀ {id : String} {i : Nat}, pieceNamed a = some (id, i) →
    (failureOf s a = none ↔ ∃ batch piece, s.inFlight.lookup id = some batch ∧
      batch.pieces[i]? = some piece ∧ Allows a piece.status)
  failure : failureOf s a ≠ none → (∀ now batchId, a ≠ .completeBatch now batchId) → a.run s = s
  others : ∀ {id k : String}, batchNamed a = some id → k ≠ id →
    (a.run s).inFlight.lookup k = s.inFlight.lookup k

/-- What became of a piece while its batch was in flight. -/
structure Kept (status status' : InFlightStatus) : Prop where
  moved : MovesTo status status'
  acked : ∀ {interactionId : String}, status = .acked interactionId → status' = status
  failed : ∀ {error : String}, status = .failed error → ∃ error', status' = .failed error'

theorem MovesTo.kept {status status' : InFlightStatus} (h : MovesTo status status') :
    Kept status status' where
  moved := h
  acked ha := by
    subst ha
    exact h.of_acked
  failed hf := by
    subst hf
    exact h.of_failed

/-- The batch ids created in a run. -/
def created (moments : List (StoreV2 × StoreAction)) : List String :=
  moments.filterMap fun m => createdId m.2

/-- No batch id is created twice, nor one the run started with. -/
def CreatedOnce (start : StoreV2) (moments : List (StoreV2 × StoreAction)) : Prop :=
  (created moments ++ start.inFlight.keys).Nodup

variable {start : StoreV2} {moments : List (StoreV2 × StoreAction)} {s : StoreV2}

/-- A batch in flight was created. -/
theorem known_of_lookup (run : (storeRunsFrom start).Run moments s) {id : String}
    {batch : InFlightBatch} (h : s.inFlight.lookup id = some batch) :
    id ∈ created moments ++ start.inFlight.keys := by
  induction run generalizing batch with
  | init =>
    apply List.mem_append_right
    exact AList.mem_keys.mpr (AList.lookup_isSome.mp (Option.isSome_iff_exists.mpr ⟨batch, h⟩))
  | @step moments s s' a run hstep ih =>
    have heq : s' = a.run s := hstep
    rw [heq] at h
    unfold created
    rcases came_or_created h with ⟨batch0, hb, _⟩ | hcreated
    · rw [List.mem_append]
      rcases List.mem_append.mp (ih hb) with hin | hin
      · refine Or.inl ?_
        obtain ⟨m, hm, hid⟩ := List.mem_filterMap.mp hin
        exact List.mem_filterMap.mpr ⟨m, List.mem_cons_of_mem _ hm, hid⟩
      · exact Or.inr hin
    · apply List.mem_append_left
      exact List.mem_filterMap.mpr ⟨(s, a), List.mem_cons_self, hcreated⟩

theorem known_of_moment (run : (storeRunsFrom start).Run moments s) {m : StoreV2 × StoreAction}
    (hm : m ∈ moments) {id : String} {batch : InFlightBatch}
    (h : m.1.inFlight.lookup id = some batch) : id ∈ created moments ++ start.inFlight.keys := by
  induction run with
  | init => exact absurd hm List.not_mem_nil
  | @step moments s s' a run hstep ih =>
    have hin : id ∈ created moments ++ start.inFlight.keys := by
      rcases List.mem_cons.mp hm with rfl | hold
      · exact known_of_lookup run h
      · exact ih hold
    unfold created at hin ⊢
    rw [List.filterMap_cons]
    cases createdId a with
    | none => exact hin
    | some id' => exact List.mem_cons_of_mem id' hin

/-- The same, without the last operation. -/
theorem CreatedOnce.tail {m : StoreV2 × StoreAction} (once : CreatedOnce start (m :: moments)) :
    CreatedOnce start moments := by
  unfold CreatedOnce created at once ⊢
  rw [List.filterMap_cons] at once
  cases hc : createdId m.2 with
  | none =>
    rw [hc] at once
    exact once
  | some id =>
    rw [hc] at once
    exact (List.nodup_cons.mp once).2

theorem CreatedOnce.fresh {a : StoreAction} (once : CreatedOnce start ((s, a) :: moments))
    {id : String} (h : createdId a = some id) : id ∉ created moments ++ start.inFlight.keys := by
  unfold CreatedOnce created at once
  rw [List.filterMap_cons, h] at once
  exact (List.nodup_cons.mp once).1

/-- One step of a run. -/
theorem lawful_of_fresh {a : StoreAction}
    (fresh : ∀ id, createdId a = some id → s.inFlight.lookup id = none) : Lawful s a where
  moves hb hb' := by
    rcases came_or_created hb' with ⟨batch, hb0, hstepped⟩ | hcreated
    · rw [hb, Option.some.injEq] at hb0
      rw [hb0]
      exact hstepped
    · rw [fresh _ hcreated] at hb
      exact absurd hb (by simp)
  missing := missing_fails
  piece := piece_ok_iff
  failure := failure_keeps
  others := others_kept

/-- **Every operation of a run in which no batch is created twice is lawful, and whatever was in
flight at some moment and still is has moved on lawfully.** -/
theorem pieces_lawful (run : (storeRunsFrom start).Run moments s)
    (once : CreatedOnce start moments) :
    (∀ m ∈ moments, Lawful m.1 m.2) ∧
      ∀ m ∈ moments, ∀ id batch batch', m.1.inFlight.lookup id = some batch →
        s.inFlight.lookup id = some batch' →
          List.Forall₂ Kept (statuses batch) (statuses batch') := by
  have hmoves : ∀ m ∈ moments, ∀ id batch batch', m.1.inFlight.lookup id = some batch →
      s.inFlight.lookup id = some batch' →
        List.Forall₂ MovesTo (statuses batch) (statuses batch') := by
    induction run with
    | init => exact fun m hm => absurd hm List.not_mem_nil
    | @step moments s s' a run hstep ih =>
      have heq : s' = a.run s := hstep
      intro m hm id batch batch' hb hb'
      rw [heq] at hb'
      have hknown : id ∈ created moments ++ start.inFlight.keys := by
        rcases List.mem_cons.mp hm with rfl | hold
        · exact known_of_lookup run hb
        · exact known_of_moment run hold hb
      -- the batch was in flight before the last operation as well
      rcases came_or_created hb' with ⟨batch0, hb0, hstepped⟩ | hcreated
      · have hlast : List.Forall₂ MovesTo (statuses batch0) (statuses batch') :=
          hstepped.imp fun _ _ h => h.to_reflTransGen
        rcases List.mem_cons.mp hm with rfl | hold
        · rw [hb, Option.some.injEq] at hb0
          rw [hb0]
          exact hlast
        · exact forall₂_trans (fun h h' => h.trans h') (ih once.tail m hold id batch batch0 hb hb0)
            hlast
      · exact absurd hknown (once.fresh hcreated)
  refine ⟨?_, fun m hm id batch batch' hb hb' => ?_⟩
  · clear hmoves
    induction run with
    | init => exact fun m hm => absurd hm List.not_mem_nil
    | @step moments s s' a run hstep ih =>
      refine List.forall_mem_cons.mpr ⟨lawful_of_fresh fun id hid => ?_, ih once.tail⟩
      cases hl : s.inFlight.lookup id with
      | none => rfl
      | some batch => exact absurd (known_of_lookup run hl) (once.fresh hid)
  · exact (hmoves m hm id batch batch' hb hb').imp fun _ _ h => MovesTo.kept h

/-! ## A batch that fails twice -/

/-- One batch of one piece. -/
def onePending : StoreV2 := createKeyed StoreV2.new 0 "b" ⟨"s", none, [], none⟩ 1

def failedOnce : StoreV2 := (onePending.failBatch 0 "b" "send error").1

def failedTwice : StoreV2 := (failedOnce.failBatch 0 "b" "line too long").1

/-- The moments of the run, newest first. -/
def failingMoments : List (StoreV2 × StoreAction) :=
  [(failedOnce, .failBatch 0 "b" "line too long"), (onePending, .failBatch 0 "b" "send error"),
    (StoreV2.new, .createBatch 0 "b" "s" none [] none (pendingPieces 1))]

theorem run_failingMoments : (storeRunsFrom StoreV2.new).Run failingMoments failedTwice :=
  .step (.step (.step .init rfl) rfl) rfl

theorem createdOnce_failingMoments : CreatedOnce StoreV2.new failingMoments := by
  show (["b"] ++ []).Nodup
  decide

/-- A failed piece does not keep its text, and `remove_batch` of a batch that does not exist is no
failure. -/
theorem pieces_not_all_final :
    (¬ ∀ start moments s, (storeRunsFrom start).Run moments s → CreatedOnce start moments →
      ∀ m ∈ moments, ∀ id batch batch', m.1.inFlight.lookup id = some batch →
        s.inFlight.lookup id = some batch' →
          List.Forall₂ (fun status status' => ∀ e, status = .failed e → status' = status)
            (statuses batch) (statuses batch')) ∧
      ¬ ∀ s a id, batchNamed a = some id → s.inFlight.lookup id = none → createdId a ≠ some id →
        failureOf s a ≠ none := by
  constructor
  · intro h
    have hstatuses := h _ _ _ run_failingMoments createdOnce_failingMoments _
      List.mem_cons_self "b" _ _ rfl rfl
    have hfailed : [InFlightStatus.failed "send error"].Forall₂
        (fun status status' => ∀ e, status = .failed e → status' = status)
        [InFlightStatus.failed "line too long"] := hstatuses
    cases hfailed with
    | cons h _ => exact absurd (h "send error" rfl) (by decide)
  · intro h
    exact h StoreV2.new (.removeBatch "b") "b" rfl rfl (by simp [createdId]) rfl

/-- The first failure marks the piece. -/
theorem pieces_lawful_failing :
    (∀ m ∈ failingMoments, Lawful m.1 m.2) ∧
      ∀ m ∈ failingMoments, ∀ id batch batch', m.1.inFlight.lookup id = some batch →
        failedTwice.inFlight.lookup id = some batch' →
          List.Forall₂ Kept (statuses batch) (statuses batch') :=
  pieces_lawful run_failingMoments createdOnce_failingMoments

end InfSplitter.SplitSend
