import InfSplitter.SplitSend.CleanUp

/-!
# The size of what a split send sends

Every body is measured before it is sent, but not as it is sent. A chunk is measured under one of
two envelopes, where the first has no previous id and the other a placeholder of 36 characters, or
the real id of the first chunk; a fragment of the system instruction is measured as bare text.
Neither is what goes out when the request continues an interaction, when a later id is longer, or
when the text of a fragment needs escapes.

`bodySize_emptied` is the arithmetic: the size of a body is that of the same body with an empty
previous id and an empty system instruction, and the escaped lengths of the two.
-/

set_option autoImplicit false

namespace InfSplitter.SplitSend

open Session Interactions Json

/-! ## Sizes of bodies -/

theorem bodySize_eq (p : CreateModelInteractionParams) :
    bodySize p =
      membersCost (member "generation_config" GenerationConfig.toJson p.generationConfig) +
        membersCost [("input", .arr (p.input.map Content.toJson)), ("model", .str p.model)] +
        membersCost (member "previous_interaction_id" .str p.previousInteractionId) +
        membersCost (member "stream" .bool p.stream) +
        membersCost (member "system_instruction" .str p.systemInstruction) +
        membersCost (member "tools" .arr p.tools) + 1 := by
  show (CreateModelInteractionParams.toJson p).size = _
  unfold CreateModelInteractionParams.toJson
  rw [size_obj_of_ne_nil (by simp)]
  simp only [membersCost_append]

/-- Contents make a body longer. -/
theorem bodySize_sublist {l l' : List Content} (h : l.Sublist l')
    (envelope : CreateModelInteractionParams) :
    bodySize (buildPackBody envelope l) ≤ bodySize (buildPackBody envelope l') := by
  have hsum : ((l.map Content.toJson).map Json.size).sum ≤
      ((l'.map Content.toJson).map Json.size).sum :=
    ((h.map _).map _).sum_le_sum fun _ _ => Nat.zero_le _
  have hlen := h.length_le
  rw [bodySize_eq, bodySize_eq]
  dsimp only [buildPackBody]
  simp only [membersCost_cons, membersCost_nil, memberSize, size_arr, List.length_map]
  omega

/-- A streamed body is no longer than the same body not streamed. -/
theorem bodySize_stream_le (p : CreateModelInteractionParams) (stream : Bool) :
    bodySize { p with stream := some stream } ≤ bodySize { p with stream := some false } := by
  rw [bodySize_eq, bodySize_eq]
  cases stream with
  | true => simp [member, memberSize]
  | false => exact Nat.le_refl _

/-- A string member against the same member with an empty string. -/
theorem membersCost_str (key : String) (value : Option String) :
    membersCost (member key .str value) =
      membersCost (member key .str (value.map fun _ => "")) + escapedSize (value.getD "") := by
  cases value with
  | none => rfl
  | some s =>
    have hempty : escapedSize "" = 0 := rfl
    simp [member, memberSize, hempty]
    omega

/-- The request with nothing in its two texts. -/
def emptied (p : CreateModelInteractionParams) : CreateModelInteractionParams :=
  { p with
    systemInstruction := p.systemInstruction.map fun _ => ""
    previousInteractionId := p.previousInteractionId.map fun _ => "" }

theorem bodySize_emptied (p : CreateModelInteractionParams) :
    bodySize p =
      bodySize (emptied p) + escapedSize (p.systemInstruction.getD "") +
        escapedSize (p.previousInteractionId.getD "") := by
  rw [bodySize_eq p, bodySize_eq (emptied p), membersCost_str _ p.previousInteractionId,
    membersCost_str _ p.systemInstruction]
  dsimp only [emptied]
  omega

/-! ## What is sent -/

/-- The previous id piece `i` is sent with. -/
def prevId (r : SplitRequest) (env : Environment) : Nat → Option String
  | 0 => r.params.previousInteractionId
  | i + 1 => (env.accepted r.stream i).toOption

theorem prevId_succ {r : SplitRequest} {env : Environment} {i : Nat} {id : String}
    (h : env.accepted r.stream i = .ok id) : prevId r env (i + 1) = some id := by
  show (env.accepted r.stream i).toOption = some id
  rw [h]
  rfl

section
variable {α : Type} {loop : SendLoop α} {r : SplitRequest} {env : Environment}
  {batchId : String} {pieces : List α}

/-- The body of piece `i`, as it goes out. -/
def sentBody (loop : SendLoop α) (r : SplitRequest) (env : Environment) (i : Nat) (piece : α) :
    Json :=
  dropFieldsFromValue (loop.body i piece (prevId r env i)).toJson r.dropFields

/-- `body` is sent for piece `i` or a later one, if the loop gets to piece `i`. -/
def SentFrom (loop : SendLoop α) (r : SplitRequest) (env : Environment) (pieces : List α) (i : Nat)
    (body : Json) : Prop :=
  ∃ k piece, pieces[k]? = some piece ∧ i ≤ k ∧
    (∀ j, i ≤ j → j < k → Passed loop r env pieces j) ∧ body = sentBody loop r env k piece

theorem sentFrom_iff {i : Nat} {piece : α} (hi : pieces[i]? = some piece) {body : Json} :
    SentFrom loop r env pieces i body ↔
      body = sentBody loop r env i piece ∨
        Passed loop r env pieces i ∧ SentFrom loop r env pieces (i + 1) body := by
  constructor
  · rintro ⟨k, piece', hk, hle, hpassed, rfl⟩
    rcases Nat.eq_or_lt_of_le hle with rfl | hlt
    · rw [hi, Option.some.injEq] at hk
      exact Or.inl (by rw [hk])
    · exact Or.inr ⟨hpassed i (Nat.le_refl i) hlt, k, piece', hk, hlt,
        fun j hj => hpassed j (Nat.le_of_succ_le hj), rfl⟩
  · rintro (rfl | ⟨hp, k, piece', hk, hle, hpassed, rfl⟩)
    · exact ⟨i, piece, hi, Nat.le_refl i, fun j hj hlt => absurd hj (Nat.not_le_of_lt hlt), rfl⟩
    · refine ⟨k, piece', hk, Nat.le_of_succ_le hle, ?_, rfl⟩
      intro j hj hlt
      rcases Nat.eq_or_lt_of_le hj with rfl | hj
      · exact hp
      · exact hpassed j hj hlt

theorem failBatchAndCancel_sent (w : Sending) (env : Environment) (batchId reason : String) :
    (w.failBatchAndCancel env batchId reason).sent = w.sent := by
  unfold Sending.failBatchAndCancel
  cases w.store.failBatch env.endedAt batchId reason with
  | mk store result => cases result <;> rfl

theorem completeBatch_sent (w : Sending) (env : Environment) (batchId : String) :
    (w.completeBatch env batchId).1.sent = w.sent := rfl

theorem finishContent_sent (batchId : String) (w : Sending) :
    (finishContent env batchId w).1.sent = w.sent := by
  have hsent := completeBatch_sent w env batchId
  unfold finishContent
  cases hc : w.completeBatch env batchId with
  | mk w' result =>
    rw [hc] at hsent
    cases result with
    | error e => exact hsent
    | ok node => cases env.translation <;> exact hsent

/-- **The loop sends the bodies of the pieces it gets to**, each chained to the id before it. -/
theorem mem_sendPieces_sent {rest : List α} {i : Nat} {w : Sending}
    (hrest : pieces.drop i = rest) {body : Json} :
    body ∈ (sendPieces loop r env batchId rest i (prevId r env i) w).1.sent ↔
      body ∈ w.sent ∨ SentFrom loop r env pieces i body := by
  induction rest generalizing i w with
  | nil =>
    refine ⟨Or.inl, fun h => h.resolve_right ?_⟩
    intro hsent
    obtain ⟨k, piece, hk, hle, _⟩ := hsent
    have hlen := List.drop_eq_nil_iff.mp hrest
    have hlt := (List.getElem?_eq_some_iff.mp hk).1
    omega
  | cons piece rest ih =>
    have hi : pieces[i]? = some piece := by
      rw [← List.head?_drop, hrest, List.head?_cons]
    have htail : pieces.drop (i + 1) = rest := by
      rw [← List.tail_drop, hrest, List.tail_cons]
    have hstop : ¬ Passed loop r env pieces i →
        (body ∈ w.sent ++ [sentBody loop r env i piece] ↔
          body ∈ w.sent ∨ SentFrom loop r env pieces i body) := by
      intro hn
      rw [List.mem_append, List.mem_singleton, sentFrom_iff hi]
      simp [hn]
    unfold sendPieces
    cases ha : env.accepted r.stream i with
    | error e =>
      have hn : ¬ Passed loop r env pieces i := by
        intro hpassed
        obtain ⟨id, hid, _⟩ := hpassed
        rw [ha] at hid
        simp at hid
      cases hc : loop.cleanUp i e with
      | some reason =>
        simp only [hc, failBatchAndCancel_sent]
        exact hstop hn
      | none =>
        simp only [hc]
        exact hstop hn
    | ok id =>
      cases hc : loop.recheck i id rest with
      | some e =>
        simp only [hc]
        apply hstop
        intro hpassed
        obtain ⟨id', hid', hnone⟩ := hpassed
        rw [ha, Except.ok.injEq] at hid'
        rw [← hid', htail, hc] at hnone
        simp at hnone
      | none =>
        have hp : Passed loop r env pieces i := ⟨id, ha, by rw [htail]; exact hc⟩
        simp only [hc]
        rw [← prevId_succ ha, ih htail, sentFrom_iff hi]
        show body ∈ w.sent ++ [sentBody loop r env i piece] ∨ _ ↔ _
        rw [List.mem_append, List.mem_singleton, or_assoc]
        simp [hp]

end

/-! ## The content split -/

/-- The chunk fits when it is sent after `prev`. -/
def FitsAfter (r : SplitRequest) (chunk : List Content) (prev : String) : Prop :=
  bodySize (buildChunkRequest r.model chunk none (some "") r.stream) + escapedSize prev ≤ r.limit

/-- What has to be true of the previous ids the chunks were not measured with. -/
structure ContentWithinLimit (r : SplitRequest) (env : Environment)
    (chunks : List (List Content)) : Prop where
  -- the first chunk was measured without one
  first : ∀ chunk prev, chunks[0]? = some chunk → r.params.previousInteractionId = some prev →
    FitsAfter r chunk prev
  -- from the third chunk on the id is neither the placeholder nor the first real one
  later : ∀ i chunk id, chunks[i + 2]? = some chunk → env.accepted r.stream (i + 1) = .ok id →
    (∀ j < i + 2, Passed (contentLoop r) r env chunks j) → FitsAfter r chunk id

section
variable {r : SplitRequest} {env : Environment} {chunks : List (List Content)}

theorem sendChunks_sent (batchId : String) (w : Sending) :
    (sendChunks r env batchId chunks w).1.sent =
      (sendPieces (contentLoop r) r env batchId chunks 0 (prevId r env 0) w).1.sent := by
  show (sendChunks r env batchId chunks w).1.sent = (sendPieces (contentLoop r) r env batchId
    chunks 0 r.params.previousInteractionId w).1.sent
  unfold sendChunks
  cases sendPieces (contentLoop r) r env batchId chunks 0 r.params.previousInteractionId w with
  | mk w' result =>
    cases result with
    | error e => rfl
    | ok u => exact finishContent_sent batchId w'

theorem dropFieldsFromValue_nil (value : Json) : dropFieldsFromValue value [] = value := by
  unfold dropFieldsFromValue
  cases value <;> simp

theorem length_sentBody {α : Type} (hdf : r.dropFields = []) (loop : SendLoop α) (i : Nat)
    (piece : α) :
    (sentBody loop r env i piece).toVec.length = bodySize (loop.body i piece (prevId r env i)) := by
  unfold sentBody
  rw [hdf, dropFieldsFromValue_nil, length_toVec]
  rfl

/-- A chunk sent after an id: not a first chunk. -/
theorem bodySize_after {i : Nat} {chunk : List Content} {prev : String} :
    bodySize ((contentLoop r).body i chunk (some prev)) ≤ r.limit ↔ FitsAfter r chunk prev := by
  have hbody : (contentLoop r).body i chunk (some prev) =
      buildChunkRequest r.model chunk none (some prev) r.stream := by
    unfold contentLoop
    simp [buildChunkRequest]
  have hemptied : emptied (buildChunkRequest r.model chunk none (some prev) r.stream) =
      buildChunkRequest r.model chunk none (some "") r.stream := rfl
  have hnone : escapedSize "" = 0 := rfl
  rw [hbody, bodySize_emptied, hemptied]
  simp only [buildChunkRequest, Option.getD_none, Option.getD_some, hnone, Nat.add_zero, FitsAfter]

/-- The first chunk of a new chain is sent as it was measured. -/
theorem bodySize_first (hpack : r.pack = .ok chunks) {chunk : List Content}
    (h0 : chunks[0]? = some chunk) : bodySize ((contentLoop r).body 0 chunk none) ≤ r.limit :=
  Nat.le_trans (bodySize_stream_le (buildPackBody r.firstEnvelope chunk) r.stream)
    (packContentIntoChunks_fits hpack 0 chunk h0)

/-- The second chunk was measured again with the id it is sent after. -/
theorem bodySize_second {chunk : List Content} {id : String} (h1 : chunks[1]? = some chunk)
    (hid : env.accepted r.stream 0 = .ok id) (hp : Passed (contentLoop r) r env chunks 0) :
    bodySize ((contentLoop r).body 1 chunk (some id)) ≤ r.limit := by
  have hmem : chunk ∈ chunks.drop 1 := by
    apply List.mem_of_getElem? (i := 0)
    rw [List.getElem?_drop]
    exact h1
  have hle := passed_fits (k := 1) Nat.one_pos (fun j hj => by
    rw [Nat.lt_one_iff.mp hj]
    exact hp) hid chunk hmem
  exact Nat.le_trans (bodySize_stream_le (buildPackBody (r.subsequentEnvelope id) chunk) r.stream)
    hle

theorem sendChunks_within_iff (hdf : r.dropFields = []) (hpack : r.pack = .ok chunks)
    {batchId : String} {w : Sending} (hw : w.sent = []) :
    (∀ body ∈ (sendChunks r env batchId chunks w).1.sent, body.toVec.length ≤ r.limit) ↔
      ContentWithinLimit r env chunks := by
  have hsent : ∀ body, body ∈ (sendChunks r env batchId chunks w).1.sent ↔
      SentFrom (contentLoop r) r env chunks 0 body := by
    intro body
    rw [sendChunks_sent, mem_sendPieces_sent List.drop_zero, hw]
    simp
  simp only [hsent]
  constructor
  · intro h
    constructor
    · intro chunk prev h0 hprev
      have hlen := h _ ⟨0, chunk, h0, Nat.le_refl 0, fun j _ hj => absurd hj (Nat.not_lt_zero j),
        rfl⟩
      rw [length_sentBody hdf, show prevId r env 0 = some prev from hprev] at hlen
      exact bodySize_after.mp hlen
    · intro i chunk id hi hid hpassed
      have hlen := h _ ⟨i + 2, chunk, hi, Nat.zero_le _, fun j _ hj => hpassed j hj, rfl⟩
      rw [length_sentBody hdf, prevId_succ hid] at hlen
      exact bodySize_after.mp hlen
  · rintro hc body ⟨k, chunk, hk, _, hpassed, rfl⟩
    rw [length_sentBody hdf]
    cases k with
    | zero =>
      unfold prevId
      cases hprev : r.params.previousInteractionId with
      | none => exact bodySize_first hpack hk
      | some prev => exact bodySize_after.mpr (hc.first chunk prev hk hprev)
    | succ k =>
      obtain ⟨id, hid⟩ := (hpassed k (Nat.zero_le k) (Nat.lt_succ_self k)).accepted
      rw [prevId_succ hid]
      cases k with
      | zero => exact bodySize_second hk hid (hpassed 0 (Nat.le_refl 0) Nat.one_pos)
      | succ k =>
        exact bodySize_after.mpr (hc.later k chunk id hk hid fun j hj =>
          hpassed j (Nat.zero_le j) hj)

end

/-! ## The system-instruction split -/

/-- What has to be true of the escaped texts: with the previous id and its fragment, every planned
piece the loop gets to leaves the limit alone. -/
def PlansWithinLimit (r : SplitRequest) (env : Environment) (plans : List SplitPiecePlan) : Prop :=
  ∀ i plan, plans[i]? = some plan → (∀ j < i, ∃ id, env.accepted r.stream j = .ok id) →
    bodySize (emptied ((systemLoop r).body i plan (prevId r env i))) +
      escapedSize (plan.systemInstruction.getD "") + escapedSize ((prevId r env i).getD "") ≤
        r.limit

section
variable {r : SplitRequest} {env : Environment} {plans : List SplitPiecePlan}

theorem finishSystemStream_sent (batchId : String) (w : Sending) :
    (finishSystemStream r env batchId w).1.sent = w.sent := by
  have hsent := completeBatch_sent w env batchId
  unfold finishSystemStream
  cases w.received.getLast? with
  | none => rfl
  | some finalId =>
    cases env.translation with
    | error message => rfl
    | ok u =>
      cases hc : w.completeBatch env batchId with
      | mk w' result =>
        rw [hc] at hsent
        cases result <;> exact hsent

theorem finishSystem_sent (batchId : String) (w : Sending) :
    (finishSystem r env batchId w).1.sent = w.sent := by
  have hsent := completeBatch_sent w env batchId
  unfold finishSystem
  cases hc : w.completeBatch env batchId with
  | mk w' result =>
    rw [hc] at hsent
    cases result with
    | error e => exact hsent
    | ok node =>
      simp only
      cases w'.received.getLast? <;> cases env.translation <;> exact hsent

theorem sendPlans_sent (batchId : String) (w : Sending) :
    (sendPlans r env batchId plans w).1.sent =
      (sendPieces (systemLoop r) r env batchId plans 0 (prevId r env 0) w).1.sent := by
  show (sendPlans r env batchId plans w).1.sent = (sendPieces (systemLoop r) r env batchId
    plans 0 r.params.previousInteractionId w).1.sent
  unfold sendPlans
  cases sendPieces (systemLoop r) r env batchId plans 0 r.params.previousInteractionId w with
  | mk w' result =>
    cases result with
    | error e => rfl
    | ok u =>
      cases hs : r.stream with
      | true => exact finishSystemStream_sent batchId w'
      | false => exact finishSystem_sent batchId w'

theorem sendPlans_within_iff (hdf : r.dropFields = []) {batchId : String} {w : Sending}
    (hw : w.sent = []) :
    (∀ body ∈ (sendPlans r env batchId plans w).1.sent, body.toVec.length ≤ r.limit) ↔
      PlansWithinLimit r env plans := by
  have hpassed : ∀ j, Passed (systemLoop r) r env plans j ↔
      ∃ id, env.accepted r.stream j = .ok id :=
    fun j => exists_congr fun id => and_iff_left rfl
  have hsize : ∀ i plan, (sentBody (systemLoop r) r env i plan).toVec.length =
      bodySize (emptied ((systemLoop r).body i plan (prevId r env i))) +
        escapedSize (plan.systemInstruction.getD "") + escapedSize ((prevId r env i).getD "") := by
    intro i plan
    rw [length_sentBody hdf, bodySize_emptied]
    rfl
  have hsent : ∀ body, body ∈ (sendPlans r env batchId plans w).1.sent ↔
      SentFrom (systemLoop r) r env plans 0 body := by
    intro body
    rw [sendPlans_sent, mem_sendPieces_sent List.drop_zero, hw]
    simp
  simp only [hsent]
  constructor
  · intro h i plan hi hreach
    rw [← hsize]
    exact h _ ⟨i, plan, hi, Nat.zero_le i, fun j _ hj => (hpassed j).mpr (hreach j hj), rfl⟩
  · rintro hc body ⟨i, plan, hi, _, hreach, rfl⟩
    rw [hsize]
    exact hc i plan hi fun j hj => (hpassed j).mp (hreach j (Nat.zero_le j) hj)

end

/-! ## Both -/

/-- The condition for `handle_split_send`, on the path the request takes. -/
def WithinLimit (r : SplitRequest) (env : Environment) : Prop :=
  ∀ chunks, r.pack = .ok chunks →
    match r.systemSplit chunks with
    | some s => ∀ plans, s.plans r = .ok plans → PlansWithinLimit r env plans
    | none => findKeyed env.batches (r.key env) = none → ContentWithinLimit r env chunks

/-- Every body sent is within the limit exactly if the previous ids and the escaped fragments fit
into the room that is left for them, chunk by chunk. -/
theorem sent_within_limit_iff {r : SplitRequest} (hdf : r.dropFields = []) (env : Environment)
    (store : StoreV2) :
    (∀ body ∈ (handleSplitSend r env (Sending.ofStore store)).1.sent,
        body.toVec.length ≤ r.limit) ↔ WithinLimit r env := by
  unfold handleSplitSend WithinLimit
  cases hp : r.pack with
  | error e =>
    exact iff_of_true (fun _ hb => by simp [Sending.ofStore] at hb) fun _ h => by simp at h
  | ok chunks =>
    simp only [Except.ok.injEq, forall_eq']
    cases hs : r.systemSplit chunks with
    | some s =>
      simp only
      unfold sendSplitSystemInstruction
      cases hplans : s.plans r with
      | error e =>
        exact iff_of_true (fun _ hb => by simp [Sending.ofStore] at hb) fun _ h => by simp at h
      | ok plans =>
        simp only [Except.ok.injEq, forall_eq']
        exact sendPlans_within_iff hdf rfl
    | none =>
      cases findKeyed env.batches (r.key env) with
      | some existing =>
        exact iff_of_true (fun _ hb => by simp [Sending.ofStore] at hb) fun h => by simp at h
      | none =>
        rw [forall_prop_of_true rfl]
        exact sendChunks_within_iff hdf hp rfl

end InfSplitter.SplitSend
