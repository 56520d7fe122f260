import InfSplitter.SplitSend.Batches

/-!
# Which batch a request finds

A request looks for a batch in flight with its own key, and waits for it if there is one. Two things
should be true of what it can find: the batch can still complete, and there is only one.

Both can be broken, each by one operation. `fail_batch` marks the pieces Failed and leaves the batch
in the map, where the retry finds it; `remove_batch`, which would take it out, has no caller outside
the tests. And `send_split_system_instruction` creates its batch without looking for another.

The two theorems are of the same form, `System.Run.always_iff`: a property of the map holds
throughout a run if and only if every step of the kind that breaks it meets a condition on the map
before the step.
-/

set_option autoImplicit false

namespace InfSplitter.SplitSend

open Lib Session

/-! ## Failed batches -/

def NoPieceFailed (b : InFlightBatch) : Prop := ∀ p ∈ b.pieces, ∀ e, p.status ≠ .failed e

/-- Whatever the order of the map and the key, the batch found has no failed piece. -/
def NeverMatchesFailed (s : StoreV2) : Prop :=
  ∀ values, values.Perm s.inFlight.values → ∀ key b, findKeyed values key = some b →
    NoPieceFailed b

/-- A step that fails a batch finds it gone, or with all its pieces Acked. -/
def FailsOnlyFinished (s : StoreV2) : BatchAction → Prop
  | .failBatch id _ =>
    ∀ b, s.inFlight.lookup id = some b → ∀ p ∈ b.pieces, p.status.isAcked = true
  | _ => True

theorem neverMatchesFailed_iff (s : StoreV2) :
    NeverMatchesFailed s ↔ ∀ k b, s.inFlight.lookup k = some b → NoPieceFailed b := by
  constructor
  · intro h k b hb
    have hmem : b ∈ s.inFlight.values := StrMap.mem_values.mpr ⟨k, hb⟩
    obtain ⟨l, r, hlr⟩ := List.append_of_mem hmem
    -- the iterator may come to `b` first
    refine h (b :: (l ++ r)) ?_ b.key b (findKeyed_cons b _)
    rw [hlr]
    exact List.perm_middle.symm
  · intro h values order key b hfind
    obtain ⟨hmem, _⟩ := findKeyed_some hfind
    obtain ⟨k, hk⟩ := StrMap.mem_values.mp (order.mem_iff.mp hmem)
    exact h k b hk

theorem noPieceFailed_pending {b : InFlightBatch} {count : Nat}
    (h : b.pieces = pendingPieces count) : NoPieceFailed b := by
  intro p hp e
  rw [h] at hp
  obtain ⟨i, _, rfl⟩ := List.mem_map.mp hp
  simp

/-- Failing a batch leaves no failed piece exactly when all pieces are Acked. -/
theorem noPieceFailed_failed (b : InFlightBatch) (now : UInt64) (error : String) :
    NoPieceFailed (failed b now error) ↔ ∀ p ∈ b.pieces, p.status.isAcked = true := by
  unfold NoPieceFailed failed
  simp only [List.mem_map, forall_exists_index, and_imp, forall_apply_eq_imp_iff₂]
  constructor
  · intro h p hp
    by_contra hna
    have := h p hp error
    rw [if_neg hna] at this
    exact this rfl
  · intro h p hp e
    rw [if_pos (h p hp)]
    have := h p hp
    cases hs : p.status <;> simp [hs, InFlightStatus.isAcked] at this ⊢

/-- One step, from a map without failed pieces. -/
theorem neverMatchesFailed_step {s s' : StoreV2} {a : BatchAction} (hP : NeverMatchesFailed s)
    (hstep : BatchStep s a s') : NeverMatchesFailed s' ↔ FailsOnlyFinished s a := by
  rw [neverMatchesFailed_iff] at hP ⊢
  constructor
  · intro h
    cases hstep with
    | @failBatch id error now =>
      intro b hb
      refine (noPieceFailed_failed b now error).mp (h id _ ?_)
      rw [failBatch_inFlight, hb]
      exact AList.lookup_insert _
    | _ => trivial
  · intro hok k b' hb'
    cases step_origin hstep hb' with
    | kept h => exact hP k b' h
    | created _ _ hpieces => exact noPieceFailed_pending hpieces
    | @moved b i piece piece' _ h _ hpiece hpieces hstatus =>
      intro p hp e
      rw [hpieces] at hp
      rcases List.mem_or_eq_of_mem_set hp with hp | rfl
      · exact hP k b h p hp e
      · rcases hstatus with hs | hs
        · rw [hs]
          exact hP k b h piece (List.mem_of_getElem? hpiece) e
        · exact hs e
    | @failed b now error h hb =>
      subst hb
      exact (noPieceFailed_failed b now error).mpr (hok b h)

theorem neverMatchesFailed_new : NeverMatchesFailed StoreV2.new := by
  rw [neverMatchesFailed_iff]
  intro k b hb
  exact absurd hb (by simp [StoreV2.new])

/-- **A retry never finds a failed batch, throughout a run, exactly if no step of the run fails a
batch that has a piece to fail.** -/
theorem retry_never_blocked_iff {moments : List (StoreV2 × BatchAction)} {s : StoreV2}
    (run : batches.Run moments s) :
    (NeverMatchesFailed s ∧ ∀ m ∈ moments, NeverMatchesFailed m.1) ↔
      ∀ m ∈ moments, FailsOnlyFinished m.1 m.2 :=
  run.always_iff NeverMatchesFailed FailsOnlyFinished neverMatchesFailed_new
    fun _ _ _ hP hstep => neverMatchesFailed_step hP hstep

def exampleKey : BatchKey :=
  { sessionId := "s", prevInteractionId := none, messageHashes := [1],
    systemInstructionHash := none }

/-- One request has created a batch with one piece. -/
def oneBatch : StoreV2 := createKeyed StoreV2.new 0 "batch-s-0" exampleKey 1

theorem run_oneBatch :
    batches.Run [(StoreV2.new, .create "batch-s-0" exampleKey 1)] oneBatch :=
  System.Run.init.step (S := batches) (BatchStep.create 0)

/-- A send error fails the one piece, and the retry finds the batch. -/
theorem retry_sometimes_blocked :
    ¬ ∀ moments s, batches.Run moments s → NeverMatchesFailed s := by
  intro h
  have run := run_oneBatch.step (BatchStep.failBatch 0 :
    BatchStep _ (.failBatch "batch-s-0" "send error") _)
  have := (neverMatchesFailed_iff _).mp (h _ _ run) "batch-s-0"
    { id := "batch-s-0", sessionId := "s", prevInteractionId := none, messageHashes := [1],
      systemInstructionHash := none,
      pieces := [{ index := 0, contentHash := 0, requestBody := [],
                   status := .failed "send error" }],
      createdUtc := 0, updatedUtc := 0 } (by decide)
  exact this _ (List.mem_singleton_self _) "send error" rfl

def otherKey : BatchKey := { exampleKey with messageHashes := [2] }

/-- A second request with messages of its own. -/
def twoBatches : StoreV2 := createKeyed oneBatch 1 "batch-s-1" otherKey 1

def firstFailed : StoreV2 := (twoBatches.failBatch 2 "batch-s-0" "send error").1

/-- The two requests create their batches, the first one's fails, and its retry finds it. -/
def retryMoments : List (StoreV2 × BatchAction) :=
  [(firstFailed, .matchOrCreate "batch-s-3" exampleKey 1),
    (twoBatches, .failBatch "batch-s-0" "send error"),
    (oneBatch, .matchOrCreate "batch-s-1" otherKey 1),
    (StoreV2.new, .create "batch-s-0" exampleKey 1)]

theorem run_retryMoments : batches.Run retryMoments firstFailed := by
  have r2 := run_oneBatch.step
    (BatchStep.unmatched 1 oneBatch.inFlight.values (List.Perm.refl _) (by decide) :
      BatchStep _ (.matchOrCreate "batch-s-1" otherKey 1) twoBatches)
  have r3 := r2.step
    (BatchStep.failBatch 2 : BatchStep _ (.failBatch "batch-s-0" "send error") firstFailed)
  have hit : ∃ b, findKeyed firstFailed.inFlight.values exampleKey = some b :=
    Option.isSome_iff_exists.mp (by decide)
  obtain ⟨b, hb⟩ := hit
  exact r3.step (BatchStep.matched firstFailed.inFlight.values (List.Perm.refl _) hb)

theorem retry_never_blocked_iff_firstFailed :
    (NeverMatchesFailed firstFailed ∧ ∀ m ∈ retryMoments, NeverMatchesFailed m.1) ↔
      ∀ m ∈ retryMoments, FailsOnlyFinished m.1 m.2 :=
  retry_never_blocked_iff run_retryMoments

/-! ## One batch for each key -/

def OneBatchPerKey (s : StoreV2) : Prop :=
  ∀ k k' b b', s.inFlight.lookup k = some b → s.inFlight.lookup k' = some b' →
    b.key = b'.key → k = k'

/-- A batch that is created without looking has no namesake, except one it replaces. -/
def CreatesOnlyNewKeys (s : StoreV2) : BatchAction → Prop
  | .create id key _ => ∀ k b, s.inFlight.lookup k = some b → b.key = key → k = id
  | _ => True

/-- Creating a batch keeps keys unique exactly when no other batch has the key. -/
theorem oneBatchPerKey_create {s : StoreV2} (hP : OneBatchPerKey s) (now : UInt64) (id : String)
    (key : BatchKey) (count : Nat) :
    OneBatchPerKey (createKeyed s now id key count) ↔
      ∀ k b, s.inFlight.lookup k = some b → b.key = key → k = id := by
  have hself : ∃ b0, (createKeyed s now id key count).inFlight.lookup id = some b0 ∧
      b0.key = key := ⟨_, AList.lookup_insert _, rfl⟩
  obtain ⟨b0, hb0, hkey0⟩ := hself
  constructor
  · intro h k b hb hkey
    by_contra hne
    refine hne (h k id b b0 ?_ hb0 (hkey.trans hkey0.symm))
    exact (AList.lookup_insert_ne hne).trans hb
  · intro h k k' b b' hb hb' hkey
    rcases lookup_insert_cases hb with ⟨rfl, rfl⟩ | ⟨_, hold⟩
    · rcases lookup_insert_cases hb' with ⟨rfl, rfl⟩ | ⟨_, hold'⟩
      · rfl
      · exact (h k' b' hold' hkey.symm).symm
    · rcases lookup_insert_cases hb' with ⟨rfl, rfl⟩ | ⟨_, hold'⟩
      · exact h k b hold hkey
      · exact hP k k' b b' hold hold' hkey

theorem oneBatchPerKey_step {s s' : StoreV2} {a : BatchAction} (hP : OneBatchPerKey s)
    (hstep : BatchStep s a s') : OneBatchPerKey s' ↔ CreatesOnlyNewKeys s a := by
  have keeps : (∀ id key count, a ≠ .matchOrCreate id key count) →
      (∀ id key count, a ≠ .create id key count) → OneBatchPerKey s' := by
    intro hm hc k k' b b' hb hb' hkey
    obtain ⟨b0, h0, hk0⟩ := (step_origin hstep hb).key hm hc
    obtain ⟨b0', h0', hk0'⟩ := (step_origin hstep hb').key hm hc
    exact hP k k' b0 b0' h0 h0' (by rw [← hk0, ← hk0', hkey])
  cases hstep with
  | matched => exact iff_of_true hP trivial
  | @unmatched id key count now values order miss =>
    refine iff_of_true ((oneBatchPerKey_create hP now id key count).mpr ?_) trivial
    intro k b hb hkey
    have hmem : b ∈ values := order.mem_iff.mpr (StrMap.mem_values.mpr ⟨k, hb⟩)
    exact absurd hkey (findKeyed_none miss hmem)
  | create now => exact oneBatchPerKey_create hP now _ _ _
  | _ => exact iff_of_true (keeps (by simp) (by simp)) trivial

theorem oneBatchPerKey_new : OneBatchPerKey StoreV2.new := by
  intro k k' b b' hb
  exact absurd hb (by simp [StoreV2.new])

/-- **There is at most one batch for each key, throughout a run, exactly if no step of the run
creates a batch without looking while another one has its key.** -/
theorem one_batch_per_key_iff {moments : List (StoreV2 × BatchAction)} {s : StoreV2}
    (run : batches.Run moments s) :
    (OneBatchPerKey s ∧ ∀ m ∈ moments, OneBatchPerKey m.1) ↔
      ∀ m ∈ moments, CreatesOnlyNewKeys m.1 m.2 :=
  run.always_iff OneBatchPerKey CreatesOnlyNewKeys oneBatchPerKey_new
    fun _ _ _ hP hstep => oneBatchPerKey_step hP hstep

/-- Two system-instruction splits of the same request, started in different seconds. -/
theorem two_batches_for_one_key :
    ¬ ∀ moments s, batches.Run moments s → OneBatchPerKey s := by
  intro h
  have run := run_oneBatch.step
    (BatchStep.create 1 : BatchStep _ (.create "batch-s-1" exampleKey 1) _)
  have := h _ _ run "batch-s-0" "batch-s-1" _ _ rfl rfl rfl
  exact absurd this (by decide)

theorem one_batch_per_key_iff_firstFailed :
    (OneBatchPerKey firstFailed ∧ ∀ m ∈ retryMoments, OneBatchPerKey m.1) ↔
      ∀ m ∈ retryMoments, CreatesOnlyNewKeys m.1 m.2 :=
  one_batch_per_key_iff run_retryMoments

end InfSplitter.SplitSend
