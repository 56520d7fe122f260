import InfSplitter.SplitSend.Send

/-!
# The error exits of a split send

A send that fails after its batch was created should leave the batch failed and have every id it
was given cancelled (`Settled`). Most exits call `fail_batch_and_cancel` and do. Three do not: a
stream without an `interaction.created` event in the content split, a later chunk that turns out too
large with the real previous id, and an answer that does not translate once every piece is acked.

`Fate` lists how the loop over the pieces can end, with what is left behind in each case; it is the
one induction here. Both results, `content_exits_settle_iff` and `system_exits_settle_iff`, are case
analyses over it.
-/

set_option autoImplicit false

namespace InfSplitter.SplitSend

open Session Interactions

/-- No piece of the batch is under way, and every id received has been cancelled. -/
structure Settled (w : Sending) (batchId : String) : Prop where
  noneLive : ∀ b, w.store.inFlight.lookup batchId = some b →
    ∀ status ∈ statuses b, status.isAcked = true ∨ ∃ e, status = .failed e
  cancelled : ∀ id ∈ w.received, id ∈ w.cancelled

/-! ## Failing and cancelling -/

theorem mem_ackedIds {b : InFlightBatch} {id : String} :
    id ∈ b.pieces.filterMap InFlightPiece.ackedId ↔ InFlightStatus.acked id ∈ statuses b := by
  unfold statuses
  rw [List.mem_filterMap, List.mem_map]
  refine exists_congr fun piece => and_congr_right fun _ => ?_
  unfold InFlightPiece.ackedId
  cases piece.status <;> simp

/-- **Failing a batch settles it**, as long as the received ids are acked in it. -/
theorem failBatchAndCancel_settled {w : Sending} {batchId : String} {b : InFlightBatch}
    (hb : w.store.inFlight.lookup batchId = some b)
    (hacked : ∀ id ∈ w.received, InFlightStatus.acked id ∈ statuses b) (env : Environment)
    (reason : String) : Settled (w.failBatchAndCancel env batchId reason) batchId := by
  have hfail : w.failBatchAndCancel env batchId reason =
      { w with
        store := (w.store.failBatch env.endedAt batchId reason).1
        cancelled := w.cancelled ++ b.pieces.filterMap InFlightPiece.ackedId } := by
    unfold Sending.failBatchAndCancel StoreV2.failBatch
    simp only [hb]
  rw [hfail]
  constructor
  · intro b' hb' status hstatus
    rw [failBatch_inFlight, hb] at hb'
    rw [AList.lookup_insert, Option.some.injEq] at hb'
    subst hb'
    obtain ⟨piece, hpiece, rfl⟩ := List.mem_map.mp hstatus
    obtain ⟨old, _, rfl⟩ := List.mem_map.mp hpiece
    by_cases ha : old.status.isAcked = true
    · rw [if_pos ha]
      exact Or.inl ha
    · rw [if_neg ha]
      exact Or.inr ⟨reason, rfl⟩
  · intro id hid
    exact List.mem_append_right _ (mem_ackedIds.mpr (hacked id hid))

/-- A piece under way is not settled. -/
theorem not_settled_of_mem {w : Sending} {batchId : String} {b : InFlightBatch}
    {status : InFlightStatus} (hb : w.store.inFlight.lookup batchId = some b)
    (hmem : status ∈ statuses b) (hna : status.isAcked = false)
    (hnf : ∀ e, status ≠ .failed e) : ¬ Settled w batchId := by
  intro h
  rcases h.noneLive b hb status hmem with ha | ⟨e, he⟩
  · rw [hna] at ha
    exact absurd ha (by simp)
  · exact hnf e he

/-! ## How the loop ends -/

/-- `i` of `n` pieces are acked, the others still pending, and nothing was cancelled. -/
structure Progress (batchId : String) (n i : Nat) (w : Sending) : Prop where
  batch : ∃ b, w.store.inFlight.lookup batchId = some b ∧
    statuses b = progress w.received false (n - i)
  received : w.received.length = i
  cancelled : w.cancelled = []

section
variable {α : Type} {loop : SendLoop α} {r : SplitRequest} {env : Environment}
  {batchId : String} {pieces : List α}

/-- Piece `j` was answered with an id, and nothing is wrong with the pieces after it. -/
def Passed (loop : SendLoop α) (r : SplitRequest) (env : Environment) (pieces : List α)
    (j : Nat) : Prop :=
  ∃ id, env.accepted r.stream j = .ok id ∧ loop.recheck j id (pieces.drop (j + 1)) = none

/-- How a run of the loop over `pieces` ends. -/
inductive Fate (loop : SendLoop α) (r : SplitRequest) (env : Environment) (batchId : String)
    (pieces : List α) : Sending × Except SendError Unit → Prop
  | finished {w : Sending} (passed : ∀ j < pieces.length, Passed loop r env pieces j)
      (done : Progress batchId pieces.length pieces.length w) :
      Fate loop r env batchId pieces (w, .ok ())
  -- an exit at piece `k`, which settles if it cleans up and leaves the piece started if not
  | stopped {w : Sending} {k : Nat} {e : SendError} (hk : k < pieces.length)
      (passed : ∀ j < k, Passed loop r env pieces j)
      (bad : env.accepted r.stream k = .error e)
      (left : Settled w batchId ↔ (loop.cleanUp k e).isSome = true) :
      Fate loop r env batchId pieces (w, .error e)
  -- piece `k` is acked, and a later one is found wrong
  | refused {w : Sending} {k : Nat} {id : String} {e : SendError} (hk : k < pieces.length)
      (passed : ∀ j < k, Passed loop r env pieces j)
      (answered : env.accepted r.stream k = .ok id)
      (wrong : loop.recheck k id (pieces.drop (k + 1)) = some e)
      (left : Progress batchId pieces.length (k + 1) w) :
      Fate loop r env batchId pieces (w, .error e)

/-- One piece, marked started: where it stands, and where an ack takes it. -/
theorem Progress.start {n i : Nat} {w : Sending} (h : Progress batchId n i w) (hi : i < n)
    (env : Environment) (body : Json) :
    ∃ b, (w.start env batchId i body).store.inFlight.lookup batchId = some b ∧
      statuses b = progress w.received true (n - (i + 1)) := by
  obtain ⟨⟨b, hb, hst⟩, hlen, _⟩ := h
  have hn : n - i = n - (i + 1) + 1 := by omega
  rw [hn] at hst
  obtain ⟨b', hb', _, _, hst'⟩ := markStartedAndPersist_progress hb hst (env.times i).body
    (env.times i).started body.toVec
  rw [hlen] at hb'
  exact ⟨b', hb', hst'⟩

theorem Progress.ack {n i : Nat} {w : Sending} (h : Progress batchId n i w) (hi : i < n)
    (env : Environment) (body : Json) (id : String) :
    Progress batchId n (i + 1) ((w.start env batchId i body).ack env batchId i id) := by
  obtain ⟨b, hb, hst⟩ := h.start hi env body
  obtain ⟨b', hb', _, _, hst'⟩ := ackAndPersist_progress hb hst (env.times i).sent
    (env.times i).acked id
  rw [h.received] at hb'
  refine ⟨⟨b', hb', hst'⟩, ?_, h.cancelled⟩
  show (w.received ++ [id]).length = i + 1
  rw [List.length_append, h.received, List.length_singleton]

/-- **The loop ends in one of three ways.** The induction is over the pieces still to send, with
`Progress` for what is done of the others. -/
theorem sendPieces_fate {rest : List α} {i : Nat} (prev : Option String) {w : Sending}
    (hrest : pieces.drop i = rest) (hi : i ≤ pieces.length)
    (passed : ∀ j < i, Passed loop r env pieces j) (h : Progress batchId pieces.length i w) :
    Fate loop r env batchId pieces (sendPieces loop r env batchId rest i prev w) := by
  induction rest generalizing i prev w with
  | nil =>
    have hlen : i = pieces.length := Nat.le_antisymm hi (List.drop_eq_nil_iff.mp hrest)
    subst hlen
    exact .finished passed h
  | cons piece rest ih =>
    have hlt : i < pieces.length := by
      by_contra hge
      rw [List.drop_eq_nil_of_le (Nat.le_of_not_lt hge)] at hrest
      simp at hrest
    have htail : pieces.drop (i + 1) = rest := by
      rw [← List.tail_drop, hrest, List.tail_cons]
    unfold sendPieces
    cases ha : env.accepted r.stream i with
    | error e =>
      obtain ⟨b, hb, hst⟩ := h.start hlt env
        (dropFieldsFromValue (loop.body i piece prev).toJson r.dropFields)
      cases hc : loop.cleanUp i e with
      | some reason =>
        simp only [hc]
        refine .stopped hlt passed ha (iff_of_true ?_ (hc ▸ rfl))
        refine failBatchAndCancel_settled hb ?_ env reason
        intro id hid
        rw [hst]
        exact List.mem_append_left _ (List.mem_map_of_mem hid)
      | none =>
        simp only [hc]
        refine .stopped hlt passed ha (iff_of_false ?_ (by simp [hc]))
        have hmem : InFlightStatus.responseStarted ∈ statuses b := by
          rw [hst]
          exact List.mem_append_right _ (List.mem_cons_self ..)
        exact not_settled_of_mem hb hmem rfl (by simp)
    | ok id =>
      have hack := h.ack hlt env
        (dropFieldsFromValue (loop.body i piece prev).toJson r.dropFields) id
      cases hc : loop.recheck i id rest with
      | some e =>
        simp only [hc]
        refine .refused hlt passed ha ?_ hack
        rw [htail]
        exact hc
      | none =>
        simp only [hc]
        refine ih (some id) htail hlt ?_ hack
        intro j hj
        rcases Nat.lt_succ_iff_lt_or_eq.mp hj with hlt' | rfl
        · exact passed j hlt'
        · exact ⟨id, ha, by rw [htail]; exact hc⟩

end

/-! ## The content split -/

/-- If the send fails after its batch was created, the batch is settled. -/
def EndsSettled (result : Sending × SplitOutcome) : Prop :=
  ∀ batchId e, result.2 = .failed batchId e → Settled result.1 batchId

/-- What has to be true of the answers for a content split to exit cleanly. -/
structure ContentExitsClean (r : SplitRequest) (env : Environment)
    (chunks : List (List Content)) : Prop where
  -- no stream that is read ends without `interaction.created`
  created : ∀ i < chunks.length, (∀ j < i, ∃ id, env.accepted r.stream j = .ok id) →
    env.accepted r.stream i ≠ .error .noInteractionCreated
  -- the first real id is not too long for a later chunk
  fits : ∀ id, env.accepted r.stream 0 = .ok id → ∀ chunk ∈ chunks.drop 1,
    bodySize (buildPackBody (r.subsequentEnvelope id) chunk) ≤ r.limit
  -- what was answered to all the pieces translates
  translates : 0 < chunks.length → (∀ i < chunks.length, ∃ id, env.accepted r.stream i = .ok id) →
    env.translation = .ok ()

theorem firstTooLarge_eq_none {envelope : CreateModelInteractionParams} {limit : Nat}
    {chunks : List (List Content)} {j : Nat} :
    firstTooLarge envelope limit chunks j = none ↔
      ∀ chunk ∈ chunks, bodySize (buildPackBody envelope chunk) ≤ limit := by
  induction chunks generalizing j with
  | nil => simp [firstTooLarge]
  | cons chunk rest ih =>
    unfold firstTooLarge
    rw [List.forall_mem_cons]
    by_cases h : limit < bodySize (buildPackBody envelope chunk)
    · simp only [h, if_true]
      exact iff_of_false (by simp) fun hall => absurd hall.1 (Nat.not_le_of_lt h)
    · simp only [h, if_false, ih]
      exact (and_iff_right (Nat.le_of_not_lt h)).symm

theorem Passed.accepted {α : Type} {loop : SendLoop α} {r : SplitRequest} {env : Environment}
    {pieces : List α} {j : Nat} (h : Passed loop r env pieces j) :
    ∃ id, env.accepted r.stream j = .ok id := by
  obtain ⟨id, hid, _⟩ := h
  exact ⟨id, hid⟩

/-- Ids received and none cancelled. -/
theorem Progress.not_settled {batchId : String} {n i : Nat} {w w' : Sending}
    (h : Progress batchId n i w) (hi : 0 < i) (hr : w'.received = w.received)
    (hc : w'.cancelled = w.cancelled) : ¬ Settled w' batchId := by
  intro hs
  obtain ⟨id, hid⟩ := List.exists_mem_of_length_pos (h.received.symm ▸ hi)
  have := hs.cancelled id (hr ▸ hid)
  rw [hc, h.cancelled] at this
  simp at this

/-- A finished loop completes its batch. -/
theorem Progress.complete {batchId : String} {n : Nat} {w : Sending}
    (h : Progress batchId n n w) (env : Environment) :
    ∃ node, w.completeBatch env batchId =
      ({ w with store := (w.store.completeBatch env.endedAt batchId).1 }, .ok node) := by
  obtain ⟨⟨b, hb, hst⟩, _, _⟩ := h
  rw [Nat.sub_self, progress_all] at hst
  refine ⟨StoreV2.clientNodeOf b w.received env.endedAt, ?_⟩
  unfold Sending.completeBatch
  rw [← (completeBatch_acked hb hst env.endedAt).1]

/-- A send that fails when all its pieces are acked has nothing to settle only if it had no
pieces. -/
theorem Progress.settled_iff {batchId : String} {n : Nat} {w : Sending}
    (h : Progress batchId n n w) (store : StoreV2)
    (hstore : ∀ b, store.inFlight.lookup batchId = some b →
      w.store.inFlight.lookup batchId = some b) :
    Settled { w with store := store } batchId ↔ n = 0 := by
  constructor
  · intro hs
    by_contra hne
    exact absurd hs (h.not_settled (Nat.pos_of_ne_zero hne) rfl rfl)
  · intro hn
    subst hn
    have hnil : w.received = [] := List.length_eq_zero_iff.mp h.received
    obtain ⟨⟨b, hb, hst⟩, _, _⟩ := h
    rw [hnil] at hst
    constructor
    · intro b' hb' status hstatus
      have hsame := hstore b' hb'
      rw [hb, Option.some.injEq] at hsame
      subst hsame
      rw [hst] at hstatus
      simp [progress] at hstatus
    · intro id hid
      exact absurd hid (hnil ▸ List.not_mem_nil)

theorem Progress.complete_settled_iff {batchId : String} {n : Nat} {w : Sending}
    (h : Progress batchId n n w) (env : Environment) :
    Settled { w with store := (w.store.completeBatch env.endedAt batchId).1 } batchId ↔ n = 0 :=
  h.settled_iff _ fun _ hb => (lookup_erase_some (completeBatch_inFlight .. ▸ hb)).2

theorem endsSettled_failed {w : Sending} {batchId : String} {e : SendError} :
    EndsSettled (w, .failed batchId e) ↔ Settled w batchId := by
  constructor
  · exact fun h => h _ _ rfl
  · intro h id e' he
    simp only [SplitOutcome.failed.injEq] at he
    exact he.1 ▸ h

section
variable {r : SplitRequest} {env : Environment} {batchId : String} {chunks : List (List Content)}

theorem passed_fits {k : Nat} (hk : 0 < k) (h : ∀ j < k, Passed (contentLoop r) r env chunks j)
    {id : String} (hid : env.accepted r.stream 0 = .ok id) :
    ∀ chunk ∈ chunks.drop 1,
      bodySize (buildPackBody (r.subsequentEnvelope id) chunk) ≤ r.limit := by
  obtain ⟨id', hid', hnone⟩ := h 0 hk
  rw [hid, Except.ok.injEq] at hid'
  subst hid'
  exact firstTooLarge_eq_none.mp hnone

/-- What the condition asks when every chunk was acked. -/
theorem ContentExitsClean.iff_finished
    (passed : ∀ j < chunks.length, Passed (contentLoop r) r env chunks j) :
    ContentExitsClean r env chunks ↔ (0 < chunks.length → env.translation = .ok ()) := by
  constructor
  · exact fun h hpos => h.translates hpos fun i hi => (passed i hi).accepted
  · intro ht
    refine ⟨?_, ?_, fun hpos _ => ht hpos⟩
    · intro i hi _ hbad
      obtain ⟨id, hid⟩ := (passed i hi).accepted
      rw [hbad] at hid
      simp at hid
    · intro id hid chunk hchunk
      have hpos : 0 < chunks.length := by
        have := List.length_pos_of_mem hchunk
        rw [List.length_drop] at this
        omega
      exact passed_fits hpos passed hid chunk hchunk

/-- What it asks when the loop stopped with an error at chunk `k`. -/
theorem ContentExitsClean.iff_stopped {k : Nat} {e : SendError} (hk : k < chunks.length)
    (passed : ∀ j < k, Passed (contentLoop r) r env chunks j)
    (bad : env.accepted r.stream k = .error e) :
    ContentExitsClean r env chunks ↔ e ≠ .noInteractionCreated := by
  have hnot : ∀ id, env.accepted r.stream k ≠ .ok id := by
    intro id hid
    rw [bad] at hid
    simp at hid
  constructor
  · intro h he
    exact h.created k hk (fun j hj => (passed j hj).accepted) (bad.trans (by rw [he]))
  · intro hne
    refine ⟨?_, ?_, ?_⟩
    · intro i hi hreach hcre
      rcases Nat.lt_trichotomy i k with hlt | rfl | hgt
      · obtain ⟨id, hid⟩ := (passed i hlt).accepted
        rw [hcre] at hid
        simp at hid
      · rw [bad, Except.error.injEq] at hcre
        exact hne hcre
      · obtain ⟨id, hid⟩ := hreach k hgt
        exact hnot id hid
    · intro id hid
      cases k with
      | zero => exact absurd hid (hnot id)
      | succ k => exact passed_fits (Nat.succ_pos k) passed hid
    · intro _ hall
      obtain ⟨id, hid⟩ := hall k hk
      exact absurd hid (hnot id)

/-- It is not met when a later chunk was found too large. -/
theorem ContentExitsClean.not_refused {k : Nat} {id : String} {e : SendError}
    (answered : env.accepted r.stream k = .ok id)
    (wrong : (contentLoop r).recheck k id (chunks.drop (k + 1)) = some e) :
    ¬ ContentExitsClean r env chunks := by
  intro h
  cases k with
  | zero =>
    have hnone := firstTooLarge_eq_none (j := 1).mpr (h.fits id answered)
    have hsome : firstTooLarge (r.subsequentEnvelope id) r.limit (chunks.drop 1) 1 = some e :=
      wrong
    rw [hnone] at hsome
    simp at hsome
  | succ k => simp [contentLoop] at wrong

/-- **The content split exits cleanly exactly under `ContentExitsClean`.** -/
theorem sendChunks_settled_iff {w : Sending} (h : Progress batchId chunks.length 0 w) :
    EndsSettled (sendChunks r env batchId chunks w) ↔ ContentExitsClean r env chunks := by
  have fate : Fate (contentLoop r) r env batchId chunks
      (sendPieces (contentLoop r) r env batchId chunks 0 r.params.previousInteractionId w) :=
    sendPieces_fate _ List.drop_zero (Nat.zero_le _) (by simp) h
  unfold sendChunks
  generalize sendPieces (contentLoop r) r env batchId chunks 0 r.params.previousInteractionId w =
    result at fate
  cases fate with
  | @finished w' passed done =>
    rw [ContentExitsClean.iff_finished passed]
    obtain ⟨node, hnode⟩ := done.complete env
    show EndsSettled (finishContent env batchId w') ↔ _
    unfold finishContent
    simp only [hnode]
    cases ht : env.translation with
    | ok u => exact iff_of_true (fun _ _ he => by simp at he) fun _ => rfl
    | error message =>
      rw [endsSettled_failed, done.complete_settled_iff env]
      simp
  | @stopped w' k e hk passed bad left =>
    rw [ContentExitsClean.iff_stopped hk passed bad, endsSettled_failed, left]
    cases e <;> simp [contentLoop]
  | @refused w' k id e hk passed answered wrong left =>
    rw [endsSettled_failed]
    exact iff_of_false (left.not_settled (Nat.succ_pos k) rfl rfl)
      (ContentExitsClean.not_refused answered wrong)

end

/-! ## The system-instruction split -/

/-- What was answered to all the pieces translates. -/
def PlansExitClean (r : SplitRequest) (env : Environment) (count : Nat) : Prop :=
  0 < count → (∀ i < count, ∃ id, env.accepted r.stream i = .ok id) → env.translation = .ok ()

section
variable {r : SplitRequest} {env : Environment} {batchId : String} {n : Nat} {w : Sending}

theorem endsSettled_answered {w : Sending} {id : String} : EndsSettled (w, .answered id) :=
  fun _ _ he => by simp at he

/-- The last id received is there unless there were no pieces. -/
theorem Progress.getLast?_cases (h : Progress batchId n n w) :
    (w.received.getLast? = none ∧ n = 0) ∨ ∃ id, w.received.getLast? = some id ∧ 0 < n := by
  rw [← h.received]
  cases hl : w.received.getLast? with
  | none => exact Or.inl ⟨rfl, by rw [List.getLast?_eq_none_iff.mp hl]; rfl⟩
  | some id => exact Or.inr ⟨id, rfl, List.length_pos_of_mem (List.mem_of_getLast? hl)⟩

theorem finishSystemStream_settled_iff (done : Progress batchId n n w) :
    EndsSettled (finishSystemStream r env batchId w) ↔ (0 < n → env.translation = .ok ()) := by
  obtain ⟨node, hnode⟩ := done.complete env
  unfold finishSystemStream
  rcases done.getLast?_cases with ⟨hlast, hzero⟩ | ⟨id, hlast, hpos⟩
  · simp only [hlast]
    refine iff_of_true ?_ fun hpos => absurd hpos (by omega)
    exact endsSettled_failed.mpr ((done.settled_iff w.store fun _ hb => hb).mpr hzero)
  · rw [forall_prop_of_true hpos]
    simp only [hlast]
    cases env.translation with
    | ok u =>
      simp only [hnode]
      exact iff_of_true endsSettled_answered trivial
    | error message =>
      refine iff_of_false ?_ (by simp)
      rw [endsSettled_failed]
      exact done.not_settled hpos rfl rfl

theorem finishSystem_settled_iff (done : Progress batchId n n w) :
    EndsSettled (finishSystem r env batchId w) ↔ (0 < n → env.translation = .ok ()) := by
  obtain ⟨node, hnode⟩ := done.complete env
  unfold finishSystem
  simp only [hnode]
  rcases done.getLast?_cases with ⟨hlast, hzero⟩ | ⟨id, hlast, hpos⟩
  · simp only [hlast]
    refine iff_of_true ?_ fun hpos => absurd hpos (by omega)
    cases env.translation with
    | ok u => exact endsSettled_answered
    | error message => exact endsSettled_failed.mpr ((done.complete_settled_iff env).mpr hzero)
  · rw [forall_prop_of_true hpos]
    simp only [hlast]
    cases env.translation with
    | ok u => exact iff_of_true endsSettled_answered rfl
    | error message =>
      refine iff_of_false ?_ (by simp)
      rw [endsSettled_failed]
      exact done.not_settled hpos rfl rfl

end

theorem sendPlans_settled_iff {r : SplitRequest} {env : Environment} {batchId : String}
    {plans : List SplitPiecePlan} {w : Sending} (h : Progress batchId plans.length 0 w) :
    EndsSettled (sendPlans r env batchId plans w) ↔ PlansExitClean r env plans.length := by
  have fate : Fate (systemLoop r) r env batchId plans
      (sendPieces (systemLoop r) r env batchId plans 0 r.params.previousInteractionId w) :=
    sendPieces_fate _ List.drop_zero (Nat.zero_le _) (by simp) h
  unfold sendPlans
  generalize sendPieces (systemLoop r) r env batchId plans 0 r.params.previousInteractionId w =
    result at fate
  cases fate with
  | @finished w' passed done =>
    have hclean : PlansExitClean r env plans.length ↔
        (0 < plans.length → env.translation = .ok ()) :=
      forall_congr' fun _ => forall_prop_of_true fun i hi => (passed i hi).accepted
    rw [hclean]
    show EndsSettled (if r.stream then finishSystemStream r env batchId w'
      else finishSystem r env batchId w') ↔ _
    cases r.stream with
    | true => exact finishSystemStream_settled_iff done
    | false => exact finishSystem_settled_iff done
  | @stopped w' k e hk passed bad left =>
    rw [endsSettled_failed, left]
    refine iff_of_true rfl fun _ hall => ?_
    obtain ⟨id, hid⟩ := hall k hk
    rw [bad] at hid
    simp at hid
  | refused hk passed answered wrong left => simp [systemLoop] at wrong

/-! ## Both functions -/

def SystemExitsClean (r : SplitRequest) (s : SystemSplit) (env : Environment) : Prop :=
  ∀ plans, s.plans r = .ok plans → PlansExitClean r env plans.length

/-- The condition for `handle_split_send`, on the path the request takes. -/
def ExitsClean (r : SplitRequest) (env : Environment) : Prop :=
  ∀ chunks, r.pack = .ok chunks →
    match r.systemSplit chunks with
    | some s => SystemExitsClean r s env
    | none => findKeyed env.batches (r.key env) = none → ContentExitsClean r env chunks

theorem create_progress (r : SplitRequest) (env : Environment) (key : BatchKey) (count : Nat)
    (store : StoreV2) :
    Progress (batchIdOf r.sessionId env.second) count 0
      ((Sending.ofStore store).create r env key count) where
  batch := ⟨_, AList.lookup_insert _, statuses_pendingPieces count⟩
  received := rfl
  cancelled := rfl

theorem system_exits_settle_iff (r : SplitRequest) (s : SystemSplit) (env : Environment)
    (store : StoreV2) :
    EndsSettled (sendSplitSystemInstruction r s env (Sending.ofStore store)) ↔
      SystemExitsClean r s env := by
  unfold sendSplitSystemInstruction SystemExitsClean
  cases hp : s.plans r with
  | error e => exact iff_of_true (fun _ _ he => by simp at he) fun _ he => by simp at he
  | ok plans =>
    simp only [Except.ok.injEq, forall_eq']
    exact sendPlans_settled_iff (create_progress ..)

/-- **`handle_split_send` and `send_split_system_instruction` settle their batch whenever they fail
exactly if the answers take none of the exits without clean-up.** -/
theorem split_exits_settle_iff (r : SplitRequest) (env : Environment) (store : StoreV2) :
    (EndsSettled (handleSplitSend r env (Sending.ofStore store)) ↔ ExitsClean r env) ∧
      ∀ s, EndsSettled (sendSplitSystemInstruction r s env (Sending.ofStore store)) ↔
        SystemExitsClean r s env := by
  refine ⟨?_, fun s => system_exits_settle_iff r s env store⟩
  have hother : ∀ {o : SplitOutcome}, (∀ id e, o ≠ .failed id e) →
      EndsSettled (Sending.ofStore store, o) := fun ho id e he => absurd he (ho id e)
  unfold handleSplitSend ExitsClean
  cases hp : r.pack with
  | error e => exact iff_of_true (hother (by simp)) fun _ he => by simp at he
  | ok chunks =>
    simp only [Except.ok.injEq, forall_eq']
    cases hs : r.systemSplit chunks with
    | some s => exact system_exits_settle_iff r s env store
    | none =>
      cases hf : findKeyed env.batches (r.key env) with
      | some existing => exact iff_of_true (hother (by simp)) fun he => by simp at he
      | none =>
        rw [forall_prop_of_true rfl]
        exact sendChunks_settled_iff (create_progress ..)

/-- A streamed request of one short text. -/
def exampleRequest : SplitRequest :=
  { params :=
      { model := "m", input := [], stream := some true, systemInstruction := none, tools := none,
        generationConfig := none, previousInteractionId := none }
    contents := [⟨"hi"⟩], limit := 200, sessionId := "s", harnessHashes := [1], stream := true,
    model := "m", dropFields := [] }

/-- Every answer is an event stream that ends without `interaction.created`. -/
def silentEnvironment : Environment :=
  { xxh3 := fun _ => 0
    answers := fun _ => .success (.error .noInteractionCreated) (.error (.parse ""))
    times := fun _ => ⟨0, 0, 0, 0⟩
    second := 0, createdAt := 0, endedAt := 0, sessionAt := 0, batches := []
    translation := .ok () }

/-- The stream of the only piece ends without an id: the piece stays ResponseStarted. -/
theorem split_exits_not_always_settled :
    ¬ ∀ r env store, EndsSettled (handleSplitSend r env (Sending.ofStore store)) := by
  intro h
  have hs := h exampleRequest silentEnvironment StoreV2.new "batch-s-0" .noInteractionCreated
    (by rfl)
  have hlive := hs.noneLive _ rfl .responseStarted (List.mem_singleton_self _)
  simp [InFlightStatus.isAcked] at hlive

end InfSplitter.SplitSend
