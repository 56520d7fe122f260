import InfSplitter.SplitSend.Fragments
import InfSplitter.SplitSend.Greedy

/-!
# The check before a split send

`can_split_under_limit` decides whether a request that is over the limit is split at all. It
measures each content and each word of the system instruction under the request's own envelope.

The send measures other things. A first chunk is measured with the system instruction in it and
without the previous id, a later one with a placeholder for the id, neither of them streamed. A
fragment is measured as bare text, against a limit that the overhead was taken off twice, and the
text is cut at the listed delimiters and not at white space. So the check promises what the send
cannot keep, and `check_agrees_iff` says when it does keep it.

A third thing is measured only when the first answer is there: the later chunks, with the real id of
the first in the place of the placeholder. No check can promise that, unless there are no later
chunks.
-/

set_option autoImplicit false

namespace InfSplitter.SplitSend

open Session Interactions Json Lib

/-! ## The check -/

/-- What `can_split_under_limit` fails with. -/
inductive FeasibilityError
  -- "Non-splittable request fields ({envelope_size} bytes / ..) exceed proxy limit (..)", with the
  -- size of each field
  | envelopeTooLarge (envelopeSize limit : Nat) (parts : List (String × Nat))
  -- "Single content element too large for proxy limit (..)"
  | contentTooLarge (limit : Nat)
  -- "System instruction contains unsplittable word exceeding proxy limit (..)"
  | wordTooLarge (limit : Nat)
deriving DecidableEq, Repr

/-- The envelope without input and system instruction. -/
def minimalEnvelope (params : CreateModelInteractionParams) : CreateModelInteractionParams :=
  { model := params.model, input := [], systemInstruction := none, stream := params.stream,
    generationConfig := params.generationConfig, tools := params.tools,
    previousInteractionId := params.previousInteractionId }

/-- The fields of the envelope with their sizes. -/
def measureParts (params : CreateModelInteractionParams) : List (String × Nat) :=
  [("model", (Json.str params.model).size),
    ("stream", ((params.stream.map Json.bool).getD .null).size)] ++
    (params.generationConfig.map fun gc => ("generation_config", gc.toJson.size)).toList ++
    (params.tools.map fun tools => ("tools", (Json.arr tools).size)).toList ++
    (params.previousInteractionId.map fun prevId =>
      ("previous_interaction_id", (Json.str prevId).size)).toList

def canSplitUnderLimit (params : CreateModelInteractionParams) (limit : Nat) :
    Except FeasibilityError Unit :=
  let envelope := minimalEnvelope params
  let envelopeSize := bodySize envelope
  let withSystem (sys : String) := bodySize { envelope with systemInstruction := some sys }
  if limit ≤ envelopeSize then
    .error (.envelopeTooLarge envelopeSize limit (measureParts params))
  else if params.input.any fun c => limit < bodySize { envelope with input := [c] } then
    .error (.contentTooLarge limit)
  else
    match params.systemInstruction with
    | some sys =>
      if limit < withSystem sys then
        if (splitWhitespace sys).any fun word => limit < withSystem word then
          .error (.wordTooLarge limit)
        else .ok ()
      else .ok ()
    | none => .ok ()

/-! ## What the send needs -/

/-- The arguments the handlers call `handle_split_send` with. -/
def splitRequest (params : CreateModelInteractionParams) (limit : Nat) (sessionId : String)
    (harnessHashes : List UInt64) (stream : Bool) (dropFields : List String) : SplitRequest :=
  { params := params, contents := params.input, limit := limit, sessionId := sessionId,
    harnessHashes := harnessHashes, stream := stream, model := params.model,
    dropFields := dropFields }

namespace SplitRequest

/-- Both splitters succeed, the second as far as it is called. -/
def CanSend (r : SplitRequest) : Prop :=
  ∃ chunks, r.pack = .ok chunks ∧
    ∀ s, r.systemSplit chunks = some s → ∃ plans, s.plans r = .ok plans

/-- Every content fits either into the first chunk with all contents before it or into a later one
on its own. -/
def ContentsFit (r : SplitRequest) : Prop :=
  ∀ i content, r.contents[i]? = some content →
    bodySize (buildPackBody r.firstEnvelope (r.contents.take (i + 1))) ≤ r.limit ∨
      (0 < i ∧ bodySize (buildPackBody (r.subsequentEnvelope placeholderId) [content]) ≤ r.limit)

/-- What is left of the limit for a fragment: the first envelope and the overhead of a piece are
both taken off. -/
def fragmentRoom (r : SplitRequest) : Nat :=
  r.limit - bodySize { r.firstEnvelope with systemInstruction := some "" } -
    SystemSplit.envelopeOverhead r

/-- A system instruction that does not fit into the first envelope can be cut. -/
def SystemFits (r : SplitRequest) : Prop :=
  ∀ sys, r.params.systemInstruction = some sys → r.limit < bodySize r.firstEnvelope →
    Cuttable r.fragmentRoom sys

/-- No chunk is sent after the id of another content chunk: the system instruction is split, or
the first chunk takes all contents. -/
def NoLaterChunk (r : SplitRequest) : Prop :=
  r.params.systemInstruction.isSome ∧ r.limit < bodySize r.firstEnvelope ∨
    r.contents = [] ∨ bodySize (buildPackBody r.firstEnvelope r.contents) ≤ r.limit

end SplitRequest

/-! ## The contents -/

theorem pack_ok_iff_fill {r : SplitRequest} {chunks : List (List Content)} :
    r.pack = .ok chunks ↔
      fill (fitsUnder (r.subsequentEnvelope SplitRequest.placeholderId) r.limit)
        (fitsUnder r.firstEnvelope r.limit) [] r.contents = some chunks :=
  packContentIntoChunks_ok_iff

theorem pack_ok_iff (r : SplitRequest) : (∃ chunks, r.pack = .ok chunks) ↔ r.ContentsFit := by
  simp only [pack_ok_iff_fill]
  rw [← Option.isSome_iff_exists, fill_isSome_iff (closed_fitsUnder _ _) (closed_fitsUnder _ _)]
  unfold SplitRequest.ContentsFit
  simp

/-- If everything fits into the first chunk, there is no other. -/
theorem pack_tail_of_fits {r : SplitRequest} {chunks : List (List Content)}
    (hp : r.pack = .ok chunks)
    (h : r.contents = [] ∨ bodySize (buildPackBody r.firstEnvelope r.contents) ≤ r.limit) :
    chunks.tail = [] := by
  rw [pack_ok_iff_fill] at hp
  rcases h with hnil | hfit
  · rw [hnil] at hp
    cases hp
    rfl
  · have hall : fitsUnder r.firstEnvelope r.limit ([] ++ r.contents) = true := by
      rw [List.nil_append, fitsUnder_iff]
      exact hfit
    rw [fill_of_fits (closed_fitsUnder _ _) hall, Option.some.injEq] at hp
    rw [← hp]
    split <;> rfl

theorem fits_of_pack_tail {r : SplitRequest} {chunks : List (List Content)}
    (hp : r.pack = .ok chunks) (h : chunks.tail = []) :
    r.contents = [] ∨ bodySize (buildPackBody r.firstEnvelope r.contents) ≤ r.limit := by
  obtain ⟨hcuts, hflat⟩ := fill_cuts (fun hne => absurd rfl hne) (pack_ok_iff_fill.mp hp)
  rw [List.nil_append] at hflat
  cases chunks with
  | nil => exact Or.inl hflat.symm
  | cons first later =>
    rw [List.tail_cons] at h
    rw [h, List.flatten_cons, List.flatten_nil, List.append_nil] at hflat
    rw [← hflat]
    exact Or.inr (fitsUnder_iff.mp hcuts.2.1)

/-! ## The system instruction -/

theorem plans_ok_iff (r : SplitRequest) (s : SystemSplit) :
    (∃ plans, s.plans r = .ok plans) ↔
      Cuttable (s.limit - SystemSplit.envelopeOverhead r) s.sys := by
  rw [← splitTextForLimit_ok_iff]
  unfold SystemSplit.plans
  cases splitTextForLimit s.sys s.limit (SystemSplit.envelopeOverhead r) with
  | error e =>
    exact iff_of_false (fun ⟨_, h⟩ => by simp [Except.map] at h) fun ⟨_, h⟩ => by simp at h
  | ok parts => exact iff_of_true ⟨_, rfl⟩ ⟨_, rfl⟩

theorem systemSplits_iff (r : SplitRequest) (chunks : List (List Content)) :
    (∀ s, r.systemSplit chunks = some s → ∃ plans, s.plans r = .ok plans) ↔ r.SystemFits := by
  simp only [plans_ok_iff]
  unfold SplitRequest.systemSplit SplitRequest.SystemFits
  cases r.params.systemInstruction with
  | none => simp
  | some sys =>
    rw [Option.bind_some]
    by_cases hlong : r.limit < bodySize r.firstEnvelope
    · simp only [if_pos hlong, Option.some.injEq, forall_eq']
      exact ⟨fun h _ => h, fun h => h hlong⟩
    · rw [if_neg hlong]
      exact iff_of_true (fun _ h => by simp at h) fun _ _ h => absurd h hlong

/-- **The send succeeds in splitting exactly if the contents and the system instruction fit.** -/
theorem canSend_iff (r : SplitRequest) : r.CanSend ↔ r.ContentsFit ∧ r.SystemFits := by
  unfold SplitRequest.CanSend
  simp only [systemSplits_iff]
  rw [exists_and_right, pack_ok_iff]

/-! ## The answer -/

/-- The request is answered with a 400. -/
def SplitOutcome.BadRequest : SplitOutcome → Prop
  | .rejectedContents _ | .rejectedSystem _ | .failed _ (.chunkTooLarge ..) => True
  | _ => False

section
variable {r : SplitRequest} {env : Environment}

theorem accepted_not_tooLarge {i : Nat} {e : SendError} (h : env.accepted r.stream i = .error e)
    (batchId : String) : ¬ (SplitOutcome.failed batchId e).BadRequest := by
  unfold Environment.accepted Answer.read at h
  cases ha : env.answers i with
  | sendError message =>
    rw [ha] at h
    cases h
    exact id
  | httpError status =>
    rw [ha] at h
    cases h
    exact id
  | success streamed body =>
    rw [ha] at h
    cases hs : r.stream with
    | true =>
      cases streamed with
      | error cause =>
        simp only [hs, if_true, Except.mapError, Except.error.injEq] at h
        rw [← h]
        cases cause <;> exact id
      | ok id => simp [hs, Except.mapError] at h
    | false =>
      cases body with
      | error cause =>
        simp only [hs, Bool.false_eq_true, if_false, Except.mapError, Except.error.injEq] at h
        rw [← h]
        cases cause <;> exact id
      | ok id => simp [hs, Except.mapError] at h

/-- Where the error of a loop comes from: an answer, or the check between two pieces. -/
theorem sendPieces_error {α : Type} {loop : SendLoop α} {batchId : String} {pieces : List α}
    {i : Nat} {prev : Option String} {w : Sending} {e : SendError}
    (h : (sendPieces loop r env batchId pieces i prev w).2 = .error e) :
    (∃ j, env.accepted r.stream j = .error e) ∨
      ∃ j id later, later <:+ pieces.tail ∧ loop.recheck j id later = some e := by
  induction pieces generalizing i prev w with
  | nil => exact absurd h (by simp [sendPieces])
  | cons piece rest ih =>
    unfold sendPieces at h
    cases ha : env.accepted r.stream i with
    | error cause =>
      refine Or.inl ⟨i, ?_⟩
      rw [ha] at h ⊢
      cases hc : loop.cleanUp i cause <;> simp only [hc] at h <;> cases h <;> rfl
    | ok id =>
      cases hc : loop.recheck i id rest with
      | some cause =>
        simp only [ha, hc, Except.error.injEq] at h
        exact Or.inr ⟨i, id, rest, List.suffix_refl rest, h ▸ hc⟩
      | none =>
        simp only [ha, hc] at h
        rcases ih h with hanswer | ⟨j, id', later, hlater, hrecheck⟩
        · exact Or.inl hanswer
        · exact Or.inr ⟨j, id', later, hlater.trans (List.tail_suffix rest), hrecheck⟩

theorem sendChunks_not_bad (batchId : String) {chunks : List (List Content)}
    (hchunks : chunks.tail = []) (w : Sending) :
    ¬ (sendChunks r env batchId chunks w).2.BadRequest := by
  unfold sendChunks
  cases hsend : sendPieces (contentLoop r) r env batchId chunks 0 r.params.previousInteractionId w
    with
  | mk w' result =>
    cases result with
    | error e =>
      rcases sendPieces_error (congrArg Prod.snd hsend) with ⟨j, hj⟩ | ⟨j, id, later, hlater, hj⟩
      · exact accepted_not_tooLarge hj batchId
      · rw [hchunks, List.suffix_nil] at hlater
        rw [hlater, contentLoop] at hj
        simp [firstTooLarge] at hj
    | ok u =>
      show ¬ (finishContent env batchId w').2.BadRequest
      unfold finishContent
      cases w'.completeBatch env batchId with
      | mk w'' result =>
        cases result with
        | error e => exact id
        | ok node => cases env.translation <;> exact id

theorem finishSystemStream_not_bad (batchId : String) (w : Sending) :
    ¬ (finishSystemStream r env batchId w).2.BadRequest := by
  unfold finishSystemStream
  cases w.received.getLast? with
  | none => exact id
  | some finalId =>
    cases env.translation with
    | error message => exact id
    | ok u =>
      cases w.completeBatch env batchId with
      | mk w' result => cases result <;> exact id

theorem finishSystem_not_bad (batchId : String) (w : Sending) :
    ¬ (finishSystem r env batchId w).2.BadRequest := by
  unfold finishSystem
  cases w.completeBatch env batchId with
  | mk w' result =>
    cases result with
    | error e => exact id
    | ok node => cases env.translation <;> exact id

theorem sendPlans_not_bad (batchId : String) (plans : List SplitPiecePlan) (w : Sending) :
    ¬ (sendPlans r env batchId plans w).2.BadRequest := by
  unfold sendPlans
  cases hsend : sendPieces (systemLoop r) r env batchId plans 0 r.params.previousInteractionId w
    with
  | mk w' result =>
    cases result with
    | error e =>
      rcases sendPieces_error (congrArg Prod.snd hsend) with ⟨j, hj⟩ | ⟨j, id, later, _, hj⟩
      · exact accepted_not_tooLarge hj batchId
      · simp [systemLoop] at hj
    | ok u =>
      cases hs : r.stream with
      | true => exact finishSystemStream_not_bad batchId w'
      | false => exact finishSystem_not_bad batchId w'

theorem systemSplit_isSome_iff (r : SplitRequest) (chunks : List (List Content)) :
    (r.systemSplit chunks).isSome ↔
      r.params.systemInstruction.isSome ∧ r.limit < bodySize r.firstEnvelope := by
  unfold SplitRequest.systemSplit
  cases r.params.systemInstruction with
  | none => simp
  | some sys =>
    rw [Option.bind_some]
    split <;> simp_all

/-- Without a later chunk, what can be split is not answered with a 400. -/
theorem not_badRequest (hsend : r.CanSend) (hone : r.NoLaterChunk) (w : Sending) :
    ¬ (handleSplitSend r env w).2.BadRequest := by
  obtain ⟨chunks, hp, hplans⟩ := hsend
  unfold handleSplitSend
  rw [hp]
  simp only
  cases hs : r.systemSplit chunks with
  | some s =>
    obtain ⟨plans, hok⟩ := hplans s hs
    simp only
    unfold sendSplitSystemInstruction
    rw [hok]
    exact sendPlans_not_bad _ _ _
  | none =>
    have hchunks : chunks.tail = [] := by
      rcases hone with hsystem | hone
      · have hsome := (systemSplit_isSome_iff r chunks).mpr hsystem
        simp [hs] at hsome
      · exact pack_tail_of_fits hp hone
    simp only
    cases findKeyed env.batches (r.key env) with
    | some existing => exact id
    | none => exact sendChunks_not_bad _ hchunks _

end

/-! ## A long id -/

/-- An upstream whose first answer is this id. -/
def answersWith (id : String) : Environment :=
  { xxh3 := fun _ => 0
    answers := fun _ => .success (.ok id) (.ok id)
    times := fun _ => ⟨0, 0, 0, 0⟩
    second := 0, createdAt := 0, endedAt := 0, sessionAt := 0, batches := []
    translation := .ok () }

theorem accepted_answersWith (stream : Bool) (i : Nat) (id : String) :
    (answersWith id).accepted stream i = .ok id := by
  cases stream <;> rfl

theorem escapedSize_replicate (n : Nat) :
    escapedSize (String.ofList (List.replicate n 'x')) = n := by
  unfold escapedSize escape
  rw [String.toList_ofList, List.map_replicate]
  induction n with
  | zero => rfl
  | succ n ih =>
    rw [List.replicate_succ, String.join_cons, String.utf8ByteSize_append, ih,
      show (escapeChar 'x').utf8ByteSize = 1 from rfl, Nat.add_comm]

/-- A later chunk is too large after an id that is long enough. -/
theorem badRequest_of_laterChunk {r : SplitRequest} (hsend : r.CanSend) (h : ¬ r.NoLaterChunk) :
    ∃ env, ∀ w, (handleSplitSend r env w).2.BadRequest := by
  obtain ⟨chunks, hp, _⟩ := hsend
  have hnot := not_or.mp h
  have hsplit : r.systemSplit chunks = none := by
    rw [← Option.not_isSome_iff_eq_none, systemSplit_isSome_iff]
    exact hnot.1
  have htail : chunks.tail ≠ [] := fun hnil => hnot.2 (fits_of_pack_tail hp hnil)
  have hne : chunks ≠ [] := fun hnil => htail (congrArg List.tail hnil)
  obtain ⟨first, later, hchunks⟩ := List.exists_cons_of_ne_nil hne
  rw [hchunks, List.tail_cons] at htail
  obtain ⟨second, rest, hlater⟩ := List.exists_cons_of_ne_nil htail
  let id := String.ofList (List.replicate (r.limit + 1) 'x')
  have hlarge : r.limit < bodySize (buildPackBody (r.subsequentEnvelope id) second) := by
    have hid : escapedSize id = r.limit + 1 := escapedSize_replicate _
    have hsize := bodySize_emptied (buildPackBody (r.subsequentEnvelope id) second)
    have hprev : (buildPackBody (r.subsequentEnvelope id) second).previousInteractionId.getD "" =
        id := rfl
    rw [hprev] at hsize
    omega
  refine ⟨answersWith id, fun w => ?_⟩
  unfold handleSplitSend
  rw [hp]
  simp only [hsplit]
  show (sendChunks r (answersWith id) _ chunks _).2.BadRequest
  rw [hchunks, hlater]
  unfold sendChunks sendPieces
  have hrecheck : (contentLoop r).recheck 0 id (second :: rest) = some (.chunkTooLarge 1
      (bodySize (buildPackBody (r.subsequentEnvelope id) second)) r.limit) := by
    show firstTooLarge (r.subsequentEnvelope id) r.limit (second :: rest) 1 = _
    rw [firstTooLarge]
    exact if_pos hlarge
  simp only [accepted_answersWith, hrecheck]
  trivial

/-! ## Agreement -/

/-- What the check promises of the splitters. -/
def SplitsAsChecked (params : CreateModelInteractionParams) (limit : Nat) (r : SplitRequest) :
    Prop :=
  canSplitUnderLimit params limit = .ok () → r.CanSend

/-- What it promises the client: no 400, whatever the upstream answers. -/
def AnsweredAsChecked (params : CreateModelInteractionParams) (limit : Nat) (r : SplitRequest) :
    Prop :=
  canSplitUnderLimit params limit = .ok () → ∀ env w, ¬ (handleSplitSend r env w).2.BadRequest

/-- **The check and the splitters agree exactly on the requests that fail the check and on those
whose contents and system instruction fit by the measure of the send.** A 400 is ruled out where
besides no chunk comes after another one. -/
theorem check_agrees_iff (params : CreateModelInteractionParams) (limit : Nat)
    (sessionId : String) (harnessHashes : List UInt64) (stream : Bool) (dropFields : List String) :
    let r := splitRequest params limit sessionId harnessHashes stream dropFields
    (SplitsAsChecked params limit r ↔
        (∃ e, canSplitUnderLimit params limit = .error e) ∨ r.ContentsFit ∧ r.SystemFits) ∧
      (SplitsAsChecked params limit r ∧ AnsweredAsChecked params limit r ↔
        (∃ e, canSplitUnderLimit params limit = .error e) ∨
          r.ContentsFit ∧ r.SystemFits ∧ r.NoLaterChunk) := by
  intro r
  unfold SplitsAsChecked AnsweredAsChecked
  rw [← and_assoc, ← canSend_iff]
  cases canSplitUnderLimit params limit with
  | error e =>
    refine ⟨iff_of_true (fun h => by simp at h) (Or.inl ⟨e, rfl⟩), ?_⟩
    exact iff_of_true ⟨fun h => by simp at h, fun h => by simp at h⟩ (Or.inl ⟨e, rfl⟩)
  | ok u =>
    have hpass : ¬ ∃ e : FeasibilityError, Except.ok u = Except.error e := fun ⟨e, he⟩ => by
      simp at he
    rw [or_iff_right hpass, or_iff_right hpass]
    refine ⟨⟨fun h => h rfl, fun h _ => h⟩, ?_⟩
    constructor
    · intro ⟨hsend, hanswer⟩
      refine ⟨hsend rfl, ?_⟩
      by_contra hlater
      obtain ⟨env, hbad⟩ := badRequest_of_laterChunk (hsend rfl) hlater
      exact hanswer rfl env (Sending.ofStore StoreV2.new) (hbad _)
    · intro ⟨hsend, hone⟩
      exact ⟨fun _ => hsend, fun _ env w => not_badRequest hsend hone w⟩

/-- A greeting under a system instruction of two sentences. -/
def twoSentences : CreateModelInteractionParams :=
  { model := "test-model", input := [⟨"hello"⟩], stream := some false
    systemInstruction := some "You are a helpful assistant. Each sentence can be split."
    tools := none, generationConfig := none, previousInteractionId := none }

/-- The greeting and every word fit into 100 bytes on their own, but the greeting is not sent
without the system instruction. -/
theorem check_not_always_kept :
    ¬ ∀ params limit sessionId harnessHashes stream dropFields,
      SplitsAsChecked params limit
          (splitRequest params limit sessionId harnessHashes stream dropFields) ∧
        AnsweredAsChecked params limit
          (splitRequest params limit sessionId harnessHashes stream dropFields) := by
  intro h
  have hpass : canSplitUnderLimit twoSentences 100 = .ok () := by decide +kernel
  have hsend := (canSend_iff _).mp ((h twoSentences 100 "s" [1] false []).1 hpass)
  rcases hsend.1 0 ⟨"hello"⟩ rfl with hfit | ⟨hlt, _⟩
  · exact absurd hfit (by decide +kernel)
  · exact Nat.lt_irrefl 0 hlt

end InfSplitter.SplitSend
