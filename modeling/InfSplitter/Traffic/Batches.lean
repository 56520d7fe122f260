import InfSplitter.Session.Completion
import InfSplitter.Traffic.System

/-!
# The batches of all requests

`batch_origin` says where a batch that is in flight after an event comes from: it was there before,
with the same key and at most the event's own piece acked since, or a request has just created it.
What holds of every batch in every run is read off it.
-/

set_option autoImplicit false

namespace InfSplitter.Traffic

open Lib Session Routing SplitSend

/-- Piece `i` of the batch is acked with `id`. -/
def AckedAt (batch : InFlightBatch) (i : Nat) (id : String) : Prop :=
  (statuses batch)[i]? = some (.acked id)

theorem ackedAt_iff {batch : InFlightBatch} {i : Nat} {id : String} :
    AckedAt batch i id ↔ ∃ piece, batch.pieces[i]? = some piece ∧ piece.status = .acked id := by
  unfold AckedAt statuses
  rw [List.getElem?_map, Option.map_eq_some_iff]

/-- The ids of a batch are those its pieces are acked with. -/
theorem mem_ackedIds {batch : InFlightBatch} {id : String} :
    id ∈ batch.ackedIds ↔ ∃ i, AckedAt batch i id := by
  unfold InFlightBatch.ackedIds AckedAt statuses
  rw [List.mem_filterMap]
  constructor
  · rintro ⟨piece, hmem, hid⟩
    obtain ⟨i, hi⟩ := List.mem_iff_getElem?.mp hmem
    refine ⟨i, ?_⟩
    rw [List.getElem?_map, hi, Option.map_some, ackedId_eq_some.mp hid]
  · rintro ⟨i, hi⟩
    obtain ⟨piece, hpiece, hst⟩ := Option.map_eq_some_iff.mp (List.getElem?_map ▸ hi)
    exact ⟨piece, List.mem_of_getElem? hpiece, ackedId_eq_some.mpr hst⟩

/-- The batch some sections later: only what is `brought` is acked since. -/
structure Moved (brought : Nat → String → Prop) (batch batch' : InFlightBatch) : Prop where
  id : batch'.id = batch.id
  key : batch'.key = batch.key
  length : batch'.pieces.length = batch.pieces.length
  acked : ∀ {i : Nat} {id : String}, AckedAt batch' i id → AckedAt batch i id ∨ brought i id

namespace Moved

variable {brought : Nat → String → Prop} {batch batch' batch'' : InFlightBatch}

theorem refl (batch : InFlightBatch) : Moved brought batch batch :=
  ⟨rfl, rfl, rfl, Or.inl⟩

theorem trans (h : Moved brought batch batch') (h' : Moved brought batch' batch'') :
    Moved brought batch batch'' where
  id := h'.id.trans h.id
  key := h'.key.trans h.key
  length := h'.length.trans h.length
  acked hacked := (h'.acked hacked).elim h.acked Or.inr

theorem mono {brought' : Nat → String → Prop} (h : Moved brought batch batch')
    (himp : ∀ i id, brought i id → brought' i id) : Moved brought' batch batch' where
  id := h.id
  key := h.key
  length := h.length
  acked hacked := (h.acked hacked).imp_right (himp _ _)

end Moved

/-! ## The sections of a send -/

section
variable {s : StoreV2} {now now' : UInt64} {batchId k : String} {i : Nat}
  {batch' : InFlightBatch}

theorem updatePiece_moved (brought : String → Prop)
    {change : InFlightPiece → Except BatchError InFlightPiece}
    (hchange : ∀ piece piece' id, change piece = .ok piece' → piece'.status = .acked id →
      piece.status = .acked id ∨ brought id)
    (h : (s.updatePiece now batchId i change).1.inFlight.lookup k = some batch') :
    ∃ batch, s.inFlight.lookup k = some batch ∧
      Moved (fun j id => k = batchId ∧ j = i ∧ brought id) batch batch' := by
  rcases updatePiece_cases s now batchId i change with hs | ⟨batch, piece, piece', hb, hp, hc, hs⟩
  · rw [hs] at h
    exact ⟨batch', h, .refl batch'⟩
  · rw [hs] at h
    rcases lookup_insert_cases h with ⟨rfl, rfl⟩ | ⟨_, hold⟩
    · refine ⟨batch, hb, rfl, rfl, List.length_set, ?_⟩
      intro j id hacked
      obtain ⟨q, hq, hst⟩ := ackedAt_iff.mp hacked
      by_cases hj : j = i
      · subst hj
        have hlt : j < batch.pieces.length := (List.getElem?_eq_some_iff.mp hp).1
        rw [List.getElem?_set_self hlt, Option.some.injEq] at hq
        subst hq
        exact (hchange _ _ _ hc hst).imp (fun hold => ackedAt_iff.mpr ⟨piece, hp, hold⟩)
          (fun hnew => ⟨rfl, rfl, hnew⟩)
      · rw [List.getElem?_set_ne (Ne.symm hj)] at hq
        exact Or.inl (ackedAt_iff.mpr ⟨q, hq, hst⟩)
    · exact ⟨batch', hold, .refl batch'⟩

/-- A section that acks nothing. -/
theorem markStartedAndPersist_moved {body : List UInt8}
    (h : (markStartedAndPersist s now now' batchId i body).inFlight.lookup k = some batch') :
    ∃ batch, s.inFlight.lookup k = some batch ∧ Moved (fun _ _ => False) batch batch' := by
  obtain ⟨mid, hmid, second⟩ := updatePiece_moved (fun _ => False) (by
    intro piece piece' id hc hst
    cases hp : piece.status <;> simp [hp] at hc
    subst hc
    simp at hst) h
  obtain ⟨batch, hb, first⟩ := updatePiece_moved (fun _ => False) (by
    intro piece piece' id hc hst
    cases hc
    exact Or.inl hst) hmid
  exact ⟨batch, hb, (first.trans second).mono fun _ _ hfalse => hfalse.2.2⟩

theorem ackAndPersist_moved {id : String}
    (h : (ackAndPersist s now now' batchId i id).inFlight.lookup k = some batch') :
    ∃ batch, s.inFlight.lookup k = some batch ∧
      Moved (fun j id' => k = batchId ∧ j = i ∧ id' = id) batch batch' := by
  obtain ⟨mid, hmid, second⟩ := updatePiece_moved (· = id) (by
    intro piece piece' id' hc hst
    cases hp : piece.status <;> simp [hp] at hc <;> subst hc <;>
      exact Or.inr (by simpa using hst.symm)) h
  obtain ⟨batch, hb, first⟩ := updatePiece_moved (· = id) (by
    intro piece piece' id' hc hst
    cases hp : piece.status <;> simp [hp] at hc
    subst hc
    simp at hst) hmid
  exact ⟨batch, hb, first.trans second⟩

theorem failBatch_moved {error : String}
    (h : (s.failBatch now batchId error).1.inFlight.lookup k = some batch') :
    ∃ batch, s.inFlight.lookup k = some batch ∧ Moved (fun _ _ => False) batch batch' := by
  rcases failBatch_lookup_cases h with ⟨batch, rfl, hb, rfl⟩ | hold
  · refine ⟨batch, hb, rfl, rfl, List.length_map _, ?_⟩
    intro i id hacked
    obtain ⟨piece', hpiece', hst⟩ := ackedAt_iff.mp hacked
    unfold SplitSend.failed at hpiece'
    obtain ⟨piece, hpiece, rfl⟩ := Option.map_eq_some_iff.mp (List.getElem?_map ▸ hpiece')
    by_cases hacked : piece.status.isAcked = true
    · rw [if_pos hacked] at hst
      exact Or.inl (ackedAt_iff.mpr ⟨piece, hpiece, hst⟩)
    · rw [if_neg hacked] at hst
      cases hst
  · exact ⟨batch', hold, .refl batch'⟩

end

/-! ## One event -/

inductive BatchOrigin (p : Proxy) (a : Event) (k : String) (batch' : InFlightBatch) : Prop
  | moved {batch : InFlightBatch} (old : p.store.inFlight.lookup k = some batch)
      (moved : Moved (fun i id => ∃ y, a = .ack y id ∧ k = y.batchId ∧ i = y.received.length)
        batch batch')
  | begun {x : Exchange} {sessionId : String} {second : UInt64} {count : Nat}
      (ha : a = .start x (newSend x sessionId second count)) (mem : x ∈ p.asking)
      (hk : k = batchIdOf sessionId second)
      (hkey : batch'.key = batchKey x sessionId) (hid : batch'.id = k)
      (hpieces : batch'.pieces = pendingPieces count)

theorem BatchOrigin.kept {p : Proxy} {a : Event} {k : String} {batch : InFlightBatch}
    (h : p.store.inFlight.lookup k = some batch) : BatchOrigin p a k batch :=
  .moved h (.refl batch)

theorem begun_origin {p : Proxy} {x : Exchange} {sessionId : String} {second now : UInt64}
    {count : Nat} {k : String} {batch' : InFlightBatch} (mem : x ∈ p.asking)
    (h : (p.begun x (newSend x sessionId second count) now count).store.inFlight.lookup k =
      some batch') :
    BatchOrigin p (.start x (newSend x sessionId second count)) k batch' := by
  rcases lookup_insert_cases h with ⟨rfl, rfl⟩ | ⟨_, hold⟩
  · exact .begun rfl mem rfl rfl rfl rfl
  · exact .kept hold

/-- **Every batch in flight after an event has an origin.** -/
theorem batch_origin {p p' : Proxy} {a : Event} (h : Step p a p') {k : String}
    {batch' : InFlightBatch} (hb : p'.store.inFlight.lookup k = some batch') :
    BatchOrigin p a k batch' := by
  cases h with
  | answered => exact .kept hb
  | lookup => exact .kept hb
  | commit => exact .kept hb
  | startContent sessionId second now count values mem => exact begun_origin mem hb
  | startSystem sessionId second now count mem => exact begun_origin mem hb
  | markStarted =>
    obtain ⟨batch, hold, moved⟩ := markStartedAndPersist_moved hb
    exact .moved hold (moved.mono fun _ _ => False.elim)
  | @ack y now now' id mem busy =>
    obtain ⟨batch, hold, moved⟩ := ackAndPersist_moved hb
    refine .moved hold (moved.mono ?_)
    rintro i id' ⟨hk, hi, rfl⟩
    exact ⟨y, rfl, hk, hi⟩
  | complete now =>
    unfold Proxy.completed at hb
    rw [completeBatch_inFlight] at hb
    exact .kept (lookup_erase_some hb).2
  | fail =>
    obtain ⟨batch, hold, moved⟩ := failBatch_moved hb
    exact .moved hold (moved.mono fun _ _ => False.elim)
  | abandon => exact .kept hb
  | drop => exact .kept hb
  | unstored => exact .kept hb
  | sessions => exact .kept hb
  | extendLifetime now sessionId expiresAtUtc =>
    refine .kept (?_ : _ = _)
    rw [← hb]
    exact congrArg (AList.lookup k) (extendLifetime_inFlight _ _ _ _).symm
  | touchUpstream => exact .kept hb
  | cleanAll => exact absurd hb (by simp [StoreV2.cleanAll])

/-! ## Every run -/

/-- A batch has at least one piece. -/
def HasPieces (p : Proxy) : Prop :=
  ∀ k batch, p.store.inFlight.lookup k = some batch → batch.pieces ≠ []

theorem HasPieces.init : HasPieces Proxy.init := by
  intro k batch hb
  simp [Proxy.init, StoreV2.new] at hb

theorem HasPieces.step {p p' : Proxy} {a : Event} (h : HasPieces p) (pieced : Pieced a)
    (hstep : Step p a p') : HasPieces p' := by
  intro k batch' hb
  cases batch_origin hstep hb with
  | moved old moved =>
    intro hnil
    apply h _ _ old
    rw [← List.length_eq_zero_iff, ← moved.length, hnil, List.length_nil]
  | @begun x sessionId second count ha _ _ _ _ hpieces =>
    subst ha
    have pos : 0 < count := pieced
    rw [hpieces]
    unfold pendingPieces
    simpa using Nat.ne_of_gt pos

/-- The session is part of the id of a batch. -/
def SessionInId (p : Proxy) : Prop :=
  ∀ k batch, p.store.inFlight.lookup k = some batch → ∃ second, k = batchIdOf batch.sessionId second

theorem sessionInId_of_run {moments : List (Proxy × Event)} {p : Proxy}
    (run : traffic.Run moments p) : SessionInId p := by
  refine run.invariant (P := SessionInId) ?_ ?_
  · intro k batch hb
    simp [traffic, Proxy.init, StoreV2.new] at hb
  · intro p a p' h hstep k batch' hb
    cases batch_origin hstep hb with
    | moved old moved =>
      obtain ⟨second, hk⟩ := h _ _ old
      have hsession : batch'.sessionId = _ := congrArg BatchKey.sessionId moved.key
      exact ⟨second, hsession ▸ hk⟩
    | @begun x sessionId second count ha mem hk hkey hid hpieces =>
      have hsession : batch'.sessionId = sessionId := congrArg BatchKey.sessionId hkey
      exact ⟨second, hsession ▸ hk⟩

end InfSplitter.Traffic
