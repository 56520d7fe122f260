import InfSplitter.Traffic.Calls

/-!
# What becomes of the interactions of the upstream

The store knows an interaction of the upstream by a node of its own, or as what a piece of a batch
in flight is acked with. Clean-all takes the ids of both, empties the store, and then cancels and
deletes each of them at the upstream.

So nothing is deleted twice, and nothing that the upstream has not given out. An interaction that is
neither known nor deleted has been lost by an event, and there are four that can lose one: a request
that ends before it stores what it was given, an answer whose piece is not on its way, a new batch
in the place of one with answers, and a batch that is taken out with an answer behind a piece that
has none (`KeepsTrack`).
-/

set_option autoImplicit false

namespace InfSplitter.Session

/-- `all_upstream_ids`, with both maps in the order of their lists. -/
def StoreV2.allUpstreamIds (store : StoreV2) : List String :=
  store.interactions.upstreams.keys ++ store.inFlight.values.flatMap InFlightBatch.ackedIds

end InfSplitter.Session

namespace InfSplitter.Traffic

open Lib Session Routing SplitSend

/-! ## Clean-all at the upstream -/

inductive UpstreamCall
  | cancel (interactionId : String)
  | delete (interactionId : String)
deriving DecidableEq, Repr

/-- A status as a number and as it is printed. -/
structure Status where
  code : Nat
  shown : String
deriving DecidableEq, Repr

def Status.isSuccess (status : Status) : Bool := 200 ≤ status.code && status.code < 300

/-- A status, or why there is none. -/
abbrev Answer := Except String Status

/-- The error is the text of an `AppError::Internal`. -/
def cancelInteraction (interactionId : String) : Answer → Except String Unit
  | .ok status =>
    if status.isSuccess || status.code = 404 then .ok ()
    else .error s!"internal error: cancel interaction {interactionId}: HTTP {status.shown}"
  | .error e => .error s!"internal error: cancel interaction {interactionId}: {e}"

def deleteInteraction (interactionId : String) : Answer → Except String Unit
  | .ok status =>
    if status.isSuccess then .ok ()
    else .error s!"internal error: delete interaction {interactionId}: HTTP {status.shown}"
  | .error e => .error s!"internal error: delete interaction {interactionId}: {e}"

/-- The variables of the loop over the ids, and the calls it has made. -/
structure Cleaning where
  calls : List UpstreamCall
  cancelled : Nat
  deleted : Nat
  errors : List String

def Cleaning.start : Cleaning := { calls := [], cancelled := 0, deleted := 0, errors := [] }

section
variable (answers : UpstreamCall → Answer)

def Cleaning.cancel (c : Cleaning) (id : String) : Cleaning :=
  let c := { c with calls := c.calls ++ [UpstreamCall.cancel id] }
  match cancelInteraction id (answers (UpstreamCall.cancel id)) with
  | .ok () => { c with cancelled := c.cancelled + 1 }
  | .error e => { c with errors := c.errors ++ [s!"cancel {id}: {e}"] }

def Cleaning.delete (c : Cleaning) (id : String) : Cleaning :=
  let c := { c with calls := c.calls ++ [UpstreamCall.delete id] }
  match deleteInteraction id (answers (UpstreamCall.delete id)) with
  | .ok () => { c with deleted := c.deleted + 1 }
  | .error e => { c with errors := c.errors ++ [s!"delete {id}: {e}"] }

/-- The loop of `handle_control_action` for `CleanAll`. -/
def cleanUpstream (upstreamIds : List String) : Cleaning :=
  upstreamIds.foldl (fun c id => (c.cancel answers id).delete answers id) .start

/-- The message the client gets. -/
def Cleaning.message (c : Cleaning) (total : Nat) : String :=
  let counts := s!"Cleaned all {total} sessions ({c.cancelled} cancelled, {c.deleted} deleted)"
  if c.errors = [] then counts else counts ++ ". Errors: " ++ "; ".intercalate c.errors

end

def deletedId : UpstreamCall → Option String
  | .delete id => some id
  | .cancel _ => none

/-- What the upstream has been asked to delete in a run, the latest first. -/
def deletions (answers : Proxy → UpstreamCall → Answer) : List (Proxy × Event) → List String
  | [] => []
  | (p, .cleanAll) :: rest =>
    (cleanUpstream (answers p) p.store.allUpstreamIds).calls.filterMap deletedId ++
      deletions answers rest
  | _ :: rest => deletions answers rest

/-! ## Losing track -/

/-- The answered pieces of a batch come first. -/
def AnsweredFirst (batch : InFlightBatch) : Prop :=
  batch.pieces.Pairwise fun earlier later =>
    later.status.isAcked = true → earlier.status.isAcked = true

def onItsWay : InFlightStatus → Bool
  | .responseStarted => true
  | .sent _ => true
  | _ => false

/-- The event loses no interaction. -/
def KeepsTrack (p : Proxy) : Event → Prop
  | .ack y _ => ∃ batch piece, p.store.inFlight.lookup y.batchId = some batch ∧
      batch.pieces[y.received.length]? = some piece ∧ onItsWay piece.status = true
  | .start _ y => ∀ batch, p.store.inFlight.lookup y.batchId = some batch → batch.ackedIds = []
  | .complete y _ => ∀ batch, p.store.inFlight.lookup y.batchId = some batch → AnsweredFirst batch
  | .unstored _ => False
  | _ => True

/-- The store knows of the interaction. -/
def Known (p : Proxy) (id : String) : Prop :=
  (callLink p.store.interactions id).isSome = true ∨ ∃ k i, AckedUnder p k i id

/-! ## The loop -/

section
variable {answers : UpstreamCall → Answer}

theorem calls_cancel (c : Cleaning) (id : String) :
    (c.cancel answers id).calls = c.calls ++ [.cancel id] := by
  unfold Cleaning.cancel
  cases cancelInteraction id (answers (.cancel id)) <;> rfl

theorem calls_delete (c : Cleaning) (id : String) :
    (c.delete answers id).calls = c.calls ++ [.delete id] := by
  unfold Cleaning.delete
  cases deleteInteraction id (answers (.delete id)) <;> rfl

/-- Every call is counted or told of. -/
theorem counts_cleaning (c : Cleaning) (id : String) :
    let c' := (c.cancel answers id).delete answers id
    c'.cancelled + c'.deleted + c'.errors.length =
      c.cancelled + c.deleted + c.errors.length + 2 := by
  simp only [Cleaning.delete, Cleaning.cancel]
  cases cancelInteraction id (answers (.cancel id)) <;>
    cases deleteInteraction id (answers (.delete id)) <;> simp <;> omega

/-- **The loop cancels and deletes every id, in order.** -/
theorem cleanUpstream_spec (ids : List String) :
    (cleanUpstream answers ids).calls = ids.flatMap (fun id => [.cancel id, .delete id]) ∧
      (cleanUpstream answers ids).cancelled + (cleanUpstream answers ids).deleted +
        (cleanUpstream answers ids).errors.length = 2 * ids.length := by
  unfold cleanUpstream
  induction ids using List.reverseRecOn with
  | nil => exact ⟨rfl, rfl⟩
  | append_singleton ids id ih =>
    rw [List.foldl_concat]
    refine ⟨?_, ?_⟩
    · rw [calls_delete, calls_cancel, ih.1, List.flatMap_append]
      simp
    · rw [counts_cleaning, ih.2, List.length_append, List.length_singleton, Nat.mul_add]

theorem deleted_cleanUpstream (ids : List String) :
    (cleanUpstream answers ids).calls.filterMap deletedId = ids := by
  rw [(cleanUpstream_spec ids).1]
  induction ids with
  | nil => rfl
  | cons id ids ih =>
    rw [List.flatMap_cons, List.filterMap_append, ih]
    rfl

end

/-! ## What is known -/

section
variable {p p' : Proxy} {a : Event} {id : String}

theorem mem_allUpstreamIds : id ∈ p.store.allUpstreamIds ↔ Known p id := by
  unfold StoreV2.allUpstreamIds Known AckedUnder
  rw [List.mem_append, isSome_callLink, AList.lookup_isSome, List.mem_flatMap]
  refine or_congr Iff.rfl ⟨?_, ?_⟩
  · intro ⟨batch, hbatch, hid⟩
    obtain ⟨k, hk⟩ := StrMap.mem_values.mp hbatch
    obtain ⟨i, hi⟩ := mem_ackedIds.mp hid
    exact ⟨k, i, batch, hk, hi⟩
  · intro ⟨k, i, batch, hk, hi⟩
    exact ⟨batch, StrMap.mem_values.mpr ⟨k, hk⟩, mem_ackedIds.mpr ⟨i, hi⟩⟩

theorem Issued.known (h : Issued p) (hknown : Known p id) : id ∈ p.issued := by
  rcases hknown with hcall | ⟨k, i, hacked⟩
  · exact h.calls id hcall
  · exact (h.acked k i id hacked).1

/-- Nothing is known twice. -/
theorem Issued.allUpstreamIds_nodup (h : Issued p) : p.store.allUpstreamIds.Nodup := by
  have hentries := List.nodupKeys_iff_pairwise.mp p.store.inFlight.nodupKeys
  have under {e : Sigma fun _ : String => InFlightBatch} (he : e ∈ p.store.inFlight.entries)
      {id : String} (hid : id ∈ e.2.ackedIds) : ∃ i, AckedUnder p e.1 i id := by
    obtain ⟨i, hi⟩ := mem_ackedIds.mp hid
    exact ⟨i, e.2, AList.mem_lookup_iff.mpr he, hi⟩
  refine List.nodup_append'.mpr ⟨p.store.interactions.upstreams.keys_nodup,
    List.nodup_flatMap.mpr ⟨fun batch hbatch => ?_, ?_⟩, fun id hkey hacked => ?_⟩
  · obtain ⟨k, hk⟩ := StrMap.mem_values.mp hbatch
    exact h.nodup hk
  · refine List.pairwise_map.mpr (hentries.imp_of_mem fun he he' hne id hid hid' => ?_)
    obtain ⟨i, hi⟩ := under he hid
    obtain ⟨i', hi'⟩ := under he' hid'
    exact hne (h.apart _ _ _ _ _ hi hi').1
  · obtain ⟨batch, hbatch, hid⟩ := List.mem_flatMap.mp hacked
    obtain ⟨k, hk⟩ := StrMap.mem_values.mp hbatch
    obtain ⟨i, hi⟩ := mem_ackedIds.mp hid
    have hnone := (h.acked k i id ⟨batch, hk, hi⟩).2
    have hsome : (callLink p.store.interactions id).isSome = true := by
      rw [isSome_callLink]
      exact AList.lookup_isSome.mpr hkey
    rw [hnone] at hsome
    cases hsome

end

/-! ## What the operations do to the acked pieces -/

/-- Piece `i` of the batch under `k` is acked with `id` in the store. -/
def AckedIn (s : StoreV2) (k : String) (i : Nat) (id : String) : Prop :=
  ∃ batch, s.inFlight.lookup k = some batch ∧ AckedAt batch i id

section
variable {s : StoreV2} {now now' : UInt64} {batchId k id : String} {i j : Nat}

theorem updatePiece_keeps {change : InFlightPiece → Except BatchError InFlightPiece}
    (hchange : ∀ piece piece', piece.status = .acked id → change piece = .ok piece' →
      piece'.status = .acked id)
    (h : AckedIn s k j id) : AckedIn (s.updatePiece now batchId i change).1 k j id := by
  obtain ⟨batch, hb, hacked⟩ := h
  rcases updatePiece_cases s now batchId i change with hs | ⟨own, piece, piece', ho, hp, hc, hs⟩
  · rw [hs]
    exact ⟨batch, hb, hacked⟩
  · rw [hs]
    by_cases hk : k = batchId
    · subst hk
      cases hb.symm.trans ho
      refine ⟨_, AList.lookup_insert .., ackedAt_iff.mpr ?_⟩
      obtain ⟨q, hq, hst⟩ := ackedAt_iff.mp hacked
      by_cases hj : j = i
      · subst hj
        cases hq.symm.trans hp
        exact ⟨piece', List.getElem?_set_self (List.getElem?_eq_some_iff.mp hp).1,
          hchange piece piece' hst hc⟩
      · exact ⟨q, (List.getElem?_set_ne (Ne.symm hj)).trans hq, hst⟩
    · exact ⟨batch, (AList.lookup_insert_ne hk).trans hb, hacked⟩

theorem markStartedAndPersist_keeps {body : List UInt8} (h : AckedIn s k j id) :
    AckedIn (markStartedAndPersist s now now' batchId i body) k j id := by
  apply updatePiece_keeps
  · intro piece piece' hst hc
    rw [hst] at hc
    cases hc
  · apply updatePiece_keeps _ h
    intro piece piece' hst hc
    cases hc
    exact hst

theorem ackAndPersist_keeps {id' : String} (h : AckedIn s k j id) :
    AckedIn (ackAndPersist s now now' batchId i id') k j id := by
  apply updatePiece_keeps
  · intro piece piece' hst hc
    rw [hst] at hc
    cases hc
  · apply updatePiece_keeps _ h
    intro piece piece' hst hc
    rw [hst] at hc
    cases hc

theorem failBatch_keeps {error : String} (h : AckedIn s k j id) :
    AckedIn (s.failBatch now batchId error).1 k j id := by
  obtain ⟨batch, hb, hacked⟩ := h
  unfold AckedIn
  rw [failBatch_inFlight]
  cases ho : s.inFlight.lookup batchId with
  | none => exact ⟨batch, hb, hacked⟩
  | some own =>
    by_cases hk : k = batchId
    · subst hk
      cases hb.symm.trans ho
      obtain ⟨piece, hp, hst⟩ := ackedAt_iff.mp hacked
      have hpiece : piece.status.isAcked = true := by
        rw [hst]
        rfl
      refine ⟨_, AList.lookup_insert .., ackedAt_iff.mpr ⟨piece, ?_, hst⟩⟩
      show (batch.pieces.map _)[j]? = some piece
      rw [List.getElem?_map, hp, Option.map_some, if_pos hpiece]
    · exact ⟨batch, (AList.lookup_insert_ne hk).trans hb, hacked⟩

/-- The answer for a piece on its way lands. -/
theorem ackAndPersist_lands {batch : InFlightBatch} {piece : InFlightPiece}
    (hb : s.inFlight.lookup batchId = some batch) (hp : batch.pieces[i]? = some piece)
    (way : onItsWay piece.status = true) :
    AckedIn (ackAndPersist s now now' batchId i id) batchId i id := by
  have hlt : i < batch.pieces.length := (List.getElem?_eq_some_iff.mp hp).1
  cases hst : piece.status with
  | responseStarted =>
    have hi : (statuses batch)[i]? = some .responseStarted := by
      unfold statuses
      rw [List.getElem?_map, hp, Option.map_some, hst]
    obtain ⟨batch', hb', _, _, hstatuses⟩ := ackAndPersist_lookup hb hi now now' id
    refine ⟨batch', hb', ?_⟩
    unfold AckedAt
    rw [hstatuses]
    apply List.getElem?_set_self
    unfold statuses
    rwa [List.length_map]
  | sent sentId =>
    -- a piece that is sent is not sent again, and acked all the same
    have hsent : (s.markSent now batchId i id).1 = s := by
      unfold StoreV2.markSent StoreV2.updatePiece
      simp only [hb, hp, hst]
    unfold ackAndPersist
    rw [hsent]
    exact ⟨_, ackPiece_lookup hb hp hst now' id, ackedAt_iff.mpr
      ⟨{ piece with status := .acked id }, List.getElem?_set_self hlt, rfl⟩⟩
  | _ =>
    rw [hst] at way
    cases way

/-- Any other answer is lost. -/
theorem ackAndPersist_missed
    (missed : ∀ batch piece, s.inFlight.lookup batchId = some batch →
      batch.pieces[i]? = some piece → onItsWay piece.status = false) :
    ackAndPersist s now now' batchId i id = s := by
  have kept (now : UInt64) {change : InFlightPiece → Except BatchError InFlightPiece}
      (hchange : ∀ piece, onItsWay piece.status = false →
        ∃ e, change piece = .error e) : (s.updatePiece now batchId i change).1 = s := by
    rcases updatePiece_cases s now batchId i change with hs | ⟨own, piece, _, ho, hp, hc, _⟩
    · exact hs
    · obtain ⟨e, he⟩ := hchange piece (missed own piece ho hp)
      rw [he] at hc
      cases hc
  have sent : (s.markSent now batchId i id).1 = s := by
    apply kept
    intro piece hpiece
    cases hst : piece.status with
    | responseStarted =>
      rw [hst] at hpiece
      cases hpiece
    | _ => exact ⟨_, rfl⟩
  unfold ackAndPersist
  rw [sent]
  apply kept
  intro piece hpiece
  cases hst : piece.status with
  | responseStarted =>
    rw [hst] at hpiece
    cases hpiece
  | sent =>
    rw [hst] at hpiece
    cases hpiece
  | _ => exact ⟨_, rfl⟩

end

/-! ## The answers that come first -/

theorem pairwise_iff_dropWhile {α : Type} {f : α → Bool} {l : List α} :
    (l.Pairwise fun a b => f b = true → f a = true) ↔ ∀ a ∈ l.dropWhile f, f a = false := by
  induction l with
  | nil => exact ⟨fun _ => List.forall_mem_nil _, fun _ => .nil⟩
  | cons a rest ih =>
    rw [List.pairwise_cons, List.dropWhile_cons, ih]
    cases ha : f a with
    | true =>
      rw [if_pos rfl]
      exact and_iff_right fun _ _ _ => rfl
    | false =>
      rw [if_neg Bool.false_ne_true, List.forall_mem_cons, and_iff_right ha]
      constructor
      · intro ⟨hnone, _⟩ b hb
        exact Bool.eq_false_iff.mpr fun hfb => Bool.false_ne_true (hnone b hb hfb)
      · intro hnone
        refine ⟨fun b hb hfb => ?_, fun b hb => hnone b ((List.dropWhile_sublist f).subset hb)⟩
        exact absurd hfb (Bool.eq_false_iff.mp (hnone b hb))

/-- The ids of the answers behind a piece that has none. -/
def strayIds (batch : InFlightBatch) : List String :=
  (batch.pieces.dropWhile fun piece => piece.status.isAcked).filterMap InFlightPiece.ackedId

theorem ackedIds_split (batch : InFlightBatch) (now : UInt64) :
    batch.ackedIds =
      (batch.calls now).map UpstreamInteractionNode.id ++ strayIds batch := by
  unfold InFlightBatch.ackedIds strayIds InFlightBatch.calls
  rw [ids_pieceNodes, ← List.filterMap_append, List.takeWhile_append_dropWhile]

theorem answeredFirst_iff {batch : InFlightBatch} :
    AnsweredFirst batch ↔ strayIds batch = [] := by
  unfold AnsweredFirst strayIds
  rw [@pairwise_iff_dropWhile _ fun piece : InFlightPiece => piece.status.isAcked,
    List.filterMap_eq_nil_iff]
  refine forall₂_congr fun piece _ => ?_
  unfold InFlightPiece.ackedId
  cases piece.status <;> simp [InFlightStatus.isAcked]

/-! ## One event -/

/-- The id the upstream gives out with an event. -/
def Event.newId : Event → Option String
  | .commit _ id => some id
  | .ack _ id => some id
  | .unstored id => some id
  | _ => none

section
variable {p p' : Proxy} {a : Event} {id : String}

theorem issued_step (h : Step p a p') : id ∈ p'.issued ↔ id ∈ p.issued ∨ a.newId = some id := by
  have kept (hnone : a.newId = none) : id ∈ p.issued ↔ id ∈ p.issued ∨ a.newId = some id := by
    rw [hnone, or_iff_left nofun]
  cases h with
  | commit => exact List.mem_append.trans (or_congr_right (by simp [Event.newId, eq_comm]))
  | ack => exact List.mem_append.trans (or_congr_right (by simp [Event.newId, eq_comm]))
  | unstored => exact List.mem_append.trans (or_congr_right (by simp [Event.newId, eq_comm]))
  | _ => exact kept rfl

theorem Fresh.newId (h : Fresh p a) (hnew : a.newId = some id) : id ∉ p.issued := by
  cases a with
  | commit => exact Option.some.inj hnew ▸ h
  | ack => exact Option.some.inj hnew ▸ h
  | unstored => exact Option.some.inj hnew ▸ h
  | _ => cases hnew

/-- Only an id the upstream gives out becomes known. -/
theorem known_origin (h : Issued p) (hstep : Step p a p') (hknown : Known p' id) :
    Known p id ∨ a.newId = some id := by
  rcases hknown with hcall | ⟨k, i, hacked⟩
  · cases call_change hstep with
    | same heq => exact .inl (.inl (heq ▸ hcall))
    | failed own heq => exact .inl (.inl (h.failed own heq ▸ hcall))
    | cleaned _ heq =>
      rw [heq] at hcall
      cases hcall
    | @grown prev ids hbrings heq =>
      by_cases hid : id ∈ ids
      · cases hbrings with
        | commit => exact .inr (congrArg some (List.mem_singleton.mp hid).symm)
        | complete own =>
          obtain ⟨i, hacked⟩ := ackedUnder_of_calls own hid
          exact .inl (.inr ⟨_, i, hacked⟩)
      · rw [heq, grow_of_notMem hid] at hcall
        exact .inl (.inl hcall)
  · rcases ackedUnder_origin hstep hacked with hold | ⟨y, rfl, _⟩
    · exact .inl (.inr ⟨k, i, hold⟩)
    · exact .inr rfl

/-- A call that is stored stays so until a clean-all. -/
theorem call_kept (h : Issued p) (hstep : Step p a p') (notClean : a ≠ .cleanAll)
    (hcall : (callLink p.store.interactions id).isSome = true) :
    (callLink p'.store.interactions id).isSome = true := by
  cases call_change hstep with
  | same heq => rwa [heq]
  | failed own heq => rwa [h.failed own heq]
  | cleaned ha => exact absurd ha notClean
  | grown _ heq =>
    rw [heq]
    exact isSome_grow (.inl hcall)

/-- A batch that completes brings its calls, whether all its pieces are acked or not. -/
theorem completed_callLink {y : Send} {now : UInt64} {batch : InFlightBatch}
    (own : p.store.inFlight.lookup y.batchId = some batch) :
    callLink (p.completed y now).store.interactions =
      grow (callLink p.store.interactions) batch.prevInteractionId
        ((batch.calls now).map UpstreamInteractionNode.id) := by
  have grown : callLink (insertCalls p.store.interactions (batch.calls now)) = _ :=
    callLink_insertCalls _ batch now batch.pieces batch.prevInteractionId
  unfold Proxy.completed
  cases completing p.store now y.batchId with
  | missing hb => cases hb.symm.trans own
  | partly hb _ result =>
    cases hb.symm.trans own
    rw [result]
    exact grown
  | whole hb _ result =>
    cases hb.symm.trans own
    rw [result]
    exact grown

/-- What a piece is acked with stays known, as long as the event keeps track. -/
theorem acked_kept (hstep : Step p a p') (notClean : a ≠ .cleanAll) (keeps : KeepsTrack p a)
    {k : String} {i : Nat} (hacked : AckedUnder p k i id) : Known p' id := by
  cases hstep with
  | startContent sessionId second now count values =>
    obtain ⟨batch, hb, hi⟩ := hacked
    refine .inr ⟨k, i, batch, (AList.lookup_insert_ne ?_).trans hb, hi⟩
    rintro rfl
    exact List.ne_nil_of_mem (mem_ackedIds.mpr ⟨i, hi⟩) (keeps batch hb)
  | startSystem sessionId second now count =>
    obtain ⟨batch, hb, hi⟩ := hacked
    refine .inr ⟨k, i, batch, (AList.lookup_insert_ne ?_).trans hb, hi⟩
    rintro rfl
    exact List.ne_nil_of_mem (mem_ackedIds.mpr ⟨i, hi⟩) (keeps batch hb)
  | markStarted => exact .inr ⟨k, i, markStartedAndPersist_keeps hacked⟩
  | ack => exact .inr ⟨k, i, ackAndPersist_keeps hacked⟩
  | fail => exact .inr ⟨k, i, failBatch_keeps hacked⟩
  | @complete y now =>
    obtain ⟨batch, hb, hi⟩ := hacked
    by_cases hk : k = y.batchId
    · subst hk
      have hid : id ∈ (batch.calls now).map UpstreamInteractionNode.id := by
        have hmem := mem_ackedIds.mpr ⟨i, hi⟩
        rwa [ackedIds_split batch now, answeredFirst_iff.mp (keeps batch hb),
          List.append_nil] at hmem
      refine .inl ?_
      rw [completed_callLink hb]
      exact isSome_grow (.inr hid)
    · exact .inr ⟨k, i, batch, (completeBatch_lookup_ne _ _ hk).trans hb, hi⟩
  | extendLifetime =>
    obtain ⟨batch, hb, hi⟩ := hacked
    refine .inr ⟨k, i, batch, ?_, hi⟩
    rw [extendLifetime_inFlight]
    exact hb
  | cleanAll => exact absurd rfl notClean
  | _ => exact .inr ⟨k, i, hacked⟩

/-- **Nothing is lost, as long as the event keeps track.** -/
theorem known_kept (h : Issued p) (hstep : Step p a p') (notClean : a ≠ .cleanAll)
    (keeps : KeepsTrack p a) (hknown : Known p id ∨ a.newId = some id) : Known p' id := by
  rcases hknown with (hcall | ⟨k, i, hacked⟩) | hnew
  · exact .inl (call_kept h hstep notClean hcall)
  · exact acked_kept hstep notClean keeps hacked
  · cases hstep with
    | commit =>
      cases hnew
      refine .inl ?_
      show (callLink (InteractionStore.insertUpstream _ _) id).isSome = true
      rw [callLink_insertUpstream, Function.update_self]
      rfl
    | ack =>
      cases hnew
      obtain ⟨batch, piece, hb, hp, way⟩ := keeps
      exact .inr ⟨_, _, ackAndPersist_lands hb hp way⟩
    | unstored => exact keeps.elim
    | _ => cases hnew

/-- What was acked and is known afterwards is a call, or acked where it was. -/
theorem known_of_acked (h : Issued p) (hstep : Step p a p') (fresh : Fresh p a) {k : String}
    {i : Nat} (hacked : AckedUnder p k i id) (hknown : Known p' id) :
    (callLink p'.store.interactions id).isSome = true ∨ AckedUnder p' k i id := by
  refine hknown.imp_right fun ⟨k', i', hacked'⟩ => ?_
  rcases ackedUnder_origin hstep hacked' with hold | ⟨y, rfl, _⟩
  · obtain ⟨rfl, rfl⟩ := h.apart _ _ _ _ _ hacked hold
    exact hacked'
  · exact absurd (h.acked _ _ _ hacked).1 fresh

theorem start_loses (h : Issued p) {x : Exchange} {sessionId : String} {second now : UInt64}
    {count : Nat} (hstep : Step p (.start x (newSend x sessionId second count))
      (p.begun x (newSend x sessionId second count) now count))
    (loses : ¬ KeepsTrack p (.start x (newSend x sessionId second count))) :
    ∃ id, Known p id ∧ ¬ Known (p.begun x (newSend x sessionId second count) now count) id := by
  unfold KeepsTrack at loses
  push Not at loses
  obtain ⟨batch, hb, hne⟩ := loses
  obtain ⟨id, hid⟩ := List.exists_mem_of_ne_nil _ hne
  obtain ⟨i, hi⟩ := mem_ackedIds.mp hid
  have hacked : AckedUnder p _ i id := ⟨batch, hb, hi⟩
  refine ⟨id, .inr ⟨_, _, hacked⟩, fun hknown => ?_⟩
  rcases known_of_acked h hstep trivial hacked hknown with hcall | ⟨batch', hb', hi'⟩
  · have hnone : callLink (p.begun x (newSend x sessionId second count) now
        count).store.interactions id = none := (h.acked _ _ _ hacked).2
    rw [hnone] at hcall
    cases hcall
  · cases (AList.lookup_insert ..).symm.trans hb'
    exact not_ackedAt_pending rfl hi'

theorem complete_loses (h : Issued p) {y : Send} {now : UInt64}
    (hstep : Step p (.complete y now) (p.completed y now))
    (loses : ¬ KeepsTrack p (.complete y now)) :
    ∃ id, Known p id ∧ ¬ Known (p.completed y now) id := by
  unfold KeepsTrack at loses
  push Not at loses
  obtain ⟨batch, hb, hstray⟩ := loses
  obtain ⟨id, hid⟩ := List.exists_mem_of_ne_nil _ (mt answeredFirst_iff.mpr hstray)
  have hsplit := ackedIds_split batch now
  have hmem : id ∈ batch.ackedIds := by
    rw [hsplit]
    exact List.mem_append_right _ hid
  have hcalls : id ∉ (batch.calls now).map UpstreamInteractionNode.id := fun hcalls =>
    List.disjoint_of_nodup_append (hsplit ▸ h.nodup hb) hcalls hid
  obtain ⟨i, hi⟩ := mem_ackedIds.mp hmem
  have hacked : AckedUnder p y.batchId i id := ⟨batch, hb, hi⟩
  refine ⟨id, .inr ⟨_, _, hacked⟩, fun hknown => ?_⟩
  rcases known_of_acked h hstep trivial hacked hknown with hcall | ⟨batch', hb', _⟩
  · rw [completed_callLink hb, grow_of_notMem hcalls, (h.acked _ _ _ hacked).2] at hcall
    cases hcall
  · unfold Proxy.completed at hb'
    rw [completeBatch_inFlight] at hb'
    exact (lookup_erase_some hb').1 rfl

/-- **An event that does not keep track loses an interaction.** -/
theorem loses_known (h : Issued p) (fresh : Fresh p a) (hstep : Step p a p')
    (loses : ¬ KeepsTrack p a) : ∃ id, (Known p id ∨ a.newId = some id) ∧ ¬ Known p' id := by
  have before {q : Proxy} (hlost : ∃ id, Known p id ∧ ¬ Known q id) :
      ∃ id, (Known p id ∨ a.newId = some id) ∧ ¬ Known q id :=
    hlost.imp fun _ hid => hid.imp_left .inl
  cases hstep with
  | startContent sessionId second now count values mem order miss =>
    exact before (start_loses h (.startContent sessionId second now count values mem order miss)
      loses)
  | startSystem sessionId second now count mem =>
    exact before (start_loses h (.startSystem sessionId second now count mem) loses)
  | complete now mem idle all => exact before (complete_loses h (.complete now mem idle all) loses)
  | @ack y now now' id =>
    have missed : ackAndPersist p.store now now' y.batchId y.received.length id = p.store := by
      apply ackAndPersist_missed
      intro batch piece hb hp
      exact Bool.eq_false_iff.mpr fun way => loses ⟨batch, piece, hb, hp, way⟩
    refine ⟨id, .inr rfl, fun hknown => fresh (h.known ?_)⟩
    unfold Known AckedUnder Proxy.acked at hknown
    rw [missed] at hknown
    exact hknown
  | unstored id => exact ⟨id, .inr rfl, fun hknown => fresh (h.known hknown)⟩
  | _ => exact absurd trivial loses

theorem not_known_cleanAll (hstep : Step p .cleanAll p') : ¬ Known p' id := by
  cases hstep
  rintro (hcall | ⟨k, i, batch, hb, _⟩)
  · simp [callLink, StoreV2.cleanAll] at hcall
  · simp [StoreV2.cleanAll] at hb

end

/-! ## Every run -/

section
variable {answers : Proxy → UpstreamCall → Answer} {moments : List (Proxy × Event)} {p : Proxy}

theorem deletions_cleanAll :
    deletions answers ((p, .cleanAll) :: moments) =
      p.store.allUpstreamIds ++ deletions answers moments := by
  show List.filterMap deletedId _ ++ _ = _
  rw [deleted_cleanUpstream]

theorem deletions_other {a : Event} (notClean : a ≠ .cleanAll) :
    deletions answers ((p, a) :: moments) = deletions answers moments := by
  cases a with
  | cleanAll => exact absurd rfl notClean
  | _ => rfl

theorem issued_of_run (run : traffic.Run moments p) (fresh : ∀ m ∈ moments, Fresh m.1 m.2) :
    Issued p :=
  run.preserves Fresh Issued.init (fun _ _ _ h fresh hstep => h.step fresh hstep) fresh

/-- What is deleted has been given out, and is known no longer. -/
theorem deletions_spec (run : traffic.Run moments p) (fresh : ∀ m ∈ moments, Fresh m.1 m.2) :
    (deletions answers moments).Nodup ∧
      ∀ id ∈ deletions answers moments, id ∈ p.issued ∧ ¬ Known p id := by
  induction run with
  | init => exact ⟨.nil, List.forall_mem_nil _⟩
  | @step moments p p' a run hstep ih =>
    obtain ⟨hfresh, fresh⟩ := List.forall_mem_cons.mp fresh
    obtain ⟨nodup, spec⟩ := ih fresh
    have hissued := issued_of_run run fresh
    by_cases ha : a = .cleanAll
    · subst ha
      rw [deletions_cleanAll]
      refine ⟨List.nodup_append'.mpr ⟨hissued.allUpstreamIds_nodup, nodup, ?_⟩, ?_⟩
      · intro id hid hdeleted
        exact (spec id hdeleted).2 (mem_allUpstreamIds.mp hid)
      · intro id hid
        refine ⟨issued_mono hstep ?_, not_known_cleanAll hstep⟩
        rcases List.mem_append.mp hid with hknown | hdeleted
        · exact hissued.known (mem_allUpstreamIds.mp hknown)
        · exact (spec id hdeleted).1
    · rw [deletions_other ha]
      refine ⟨nodup, fun id hid => ⟨issued_mono hstep (spec id hid).1, fun hknown => ?_⟩⟩
      rcases known_origin hissued hstep hknown with hold | hnew
      · exact (spec id hid).2 hold
      · exact hfresh.newId hnew (spec id hid).1

/-- Every interaction the upstream has given out is known, or has been deleted. -/
def Accounted (answers : Proxy → UpstreamCall → Answer) (moments : List (Proxy × Event))
    (p : Proxy) : Prop :=
  ∀ id ∈ p.issued, id ∈ deletions answers moments ∨ Known p id

theorem accounted_step {p' : Proxy} {a : Event} (run : traffic.Run moments p)
    (fresh : ∀ m ∈ moments, Fresh m.1 m.2) (hfresh : Fresh p a) (hstep : traffic.step p a p') :
    Accounted answers ((p, a) :: moments) p' ↔ KeepsTrack p a ∧ Accounted answers moments p := by
  have hissued := issued_of_run run fresh
  obtain ⟨_, spec⟩ := @deletions_spec answers _ _ run fresh
  unfold Accounted
  by_cases ha : a = .cleanAll
  · subst ha
    have same (id : String) : id ∈ p'.issued ↔ id ∈ p.issued :=
      (issued_step hstep).trans (or_iff_left nofun)
    rw [and_iff_right (show KeepsTrack p .cleanAll from trivial), deletions_cleanAll]
    refine forall_congr' fun id => imp_congr (same id) ?_
    rw [or_iff_left (not_known_cleanAll hstep), List.mem_append, mem_allUpstreamIds, or_comm]
  · rw [deletions_other ha]
    constructor
    · intro hall
      refine ⟨by_contra fun loses => ?_, fun id hid => ?_⟩
      · -- what the event loses has not been deleted before
        obtain ⟨id, hold, hlost⟩ := loses_known hissued hfresh hstep loses
        have hid : id ∈ p'.issued := (issued_step hstep).mpr (hold.imp_left hissued.known)
        obtain ⟨hgiven, hgone⟩ := spec id ((hall id hid).resolve_right hlost)
        exact hold.elim hgone fun hnew => hfresh.newId hnew hgiven
      · refine (hall id (issued_mono hstep hid)).imp_right fun hknown => ?_
        exact (known_origin hissued hstep hknown).resolve_right fun hnew => hfresh.newId hnew hid
    · intro ⟨keeps, hall⟩ id hid
      rcases (issued_step hstep).mp hid with hgiven | hnew
      · exact (hall id hgiven).imp_right fun hknown =>
          known_kept hissued hstep ha keeps (.inl hknown)
      · exact .inr (known_kept hissued hstep ha keeps (.inr hnew))

/-- **What becomes of the interactions, in every run.** Clean-all deletes none twice and only those
the upstream has given out, and what it deletes is known no longer; and every interaction is known
or deleted exactly if no event has lost one. -/
theorem interactions_accounted_iff (answers : Proxy → UpstreamCall → Answer)
    {moments : List (Proxy × Event)} {p : Proxy} (run : traffic.Run moments p)
    (fresh : ∀ m ∈ moments, Fresh m.1 m.2) :
    (deletions answers moments).Nodup ∧
      (∀ id ∈ deletions answers moments, id ∈ p.issued ∧ id ∉ p.store.allUpstreamIds) ∧
      ((∀ id ∈ p.issued, id ∈ deletions answers moments ∨ id ∈ p.store.allUpstreamIds) ↔
        ∀ m ∈ moments, KeepsTrack m.1 m.2) := by
  simp only [mem_allUpstreamIds]
  obtain ⟨nodup, spec⟩ := @deletions_spec answers _ _ run fresh
  refine ⟨nodup, spec, ?_⟩
  show Accounted answers moments p ↔ _
  clear nodup spec
  induction run with
  | init => exact iff_of_true (List.forall_mem_nil _) (List.forall_mem_nil _)
  | step run hstep ih =>
    obtain ⟨hfresh, fresh⟩ := List.forall_mem_cons.mp fresh
    rw [accounted_step run fresh hfresh hstep, ih fresh, List.forall_mem_cons]

/-- A split is cleaned while its answer is still in flight. -/
theorem interactions_accounted_iff_splitCleaned :
    ∃ moments, traffic.Run moments
        { Proxy.firstSplitAcked with store := Proxy.firstSplitAcked.store.cleanAll } ∧
      deletions (fun _ _ => .error "timed out") moments = ["a"] ∧
      ((∀ id ∈ ["a"], id ∈ ["a"] ∨ id ∈ Proxy.firstSplitAcked.store.cleanAll.allUpstreamIds) ↔
        ∀ m ∈ moments, KeepsTrack m.1 m.2) := by
  have r1 := run_firstAsked.step
    (Step.startContent "s" 0 0 1 [] (List.mem_cons_self ..) List.Perm.nil rfl)
  have r2 := r1.step (Step.markStarted 0 0 [] (List.mem_cons_self ..) rfl Nat.one_pos)
  have r3 := r2.step (Step.ack 0 0 "a" (List.mem_cons_self ..) rfl)
  have cleaned := r3.step Step.cleanAll
  refine ⟨_, cleaned, rfl, ?_⟩
  refine (interactions_accounted_iff (fun _ _ => .error "timed out") cleaned ?_).2.2
  simp [Fresh, Proxy.marked, Proxy.begun, Proxy.lookedUp, Proxy.init]

end

end InfSplitter.Traffic
