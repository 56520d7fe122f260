import InfSplitter.Responses.Merge
import InfSplitter.Streams.Events

/-!
# The streamed and the plain answer

An interaction can be delivered as a stream, and is then translated event by event, or as a whole,
and then by `build_response_from_interaction`. The two translators read different things: the first
opens a `tool_use` block at every start of a call, ends every message with `end_turn` and passes the
token counts on as they are; the second looks at the status and clamps. What a `message_delta` is
built with of the counts is up to its type, and where that does not take them the translator panics.

They agree on the interactions without calls whose counts arrive as the plain answer has them, and
on no others; for the crate's type that is an input count that is not positive and an output count
of 32 bits (`stream_agrees_iff`).
-/

set_option autoImplicit false

namespace InfSplitter.Streams

open Interactions Responses

/-! ## A stream that delivers an interaction -/

def deliveredText (deltas : List StepDeltaData) : String :=
  String.join (deltas.filterMap fun
    | .textDelta text => some text
    | _ => none)

def deliveredArguments (deltas : List StepDeltaData) : String :=
  String.join (deltas.filterMap fun
    | .argumentsDelta arguments => arguments
    | _ => none)

/-- The run announces the step when it starts, and its deltas carry the text or the arguments; these
may also come with the start. -/
def DeliversStep : Step → StepRun → Prop
  | .functionCallStep id name arguments, run =>
    run.stopped = true ∧ ∃ atStart, run.step = .functionCallStep id name atStart ∧
      (atStart = arguments ∧ deliveredArguments run.deltas = "" ∨
        deliveredArguments run.deltas = (arguments.map Json.render).getD "")
  | .modelOutputStep content, run =>
    run.stopped = true ∧ (∃ atStart, run.step = .modelOutputStep atStart) ∧
      deliveredText run.deltas = ((Step.modelOutputStep content).text?).getD ""
  | .other type, run => run.stopped = true ∧ run.step = .other type

/-- Created, every step in order, completed with the status and usage of the interaction. The
indexes are any. -/
inductive Delivers (interaction : Interaction) : List InteractionSseEvent → Prop
  | stream {created completed : Interaction} {runs : List StepRun}
      (createdId : created.id = interaction.id) (completedId : completed.id = interaction.id)
      (status : completed.status = interaction.status)
      (usage : completed.usage = interaction.usage)
      (steps : List.Forall₂ DeliversStep interaction.stepList runs) :
      Delivers interaction (.interactionCreatedEvent created ::
        (runs.flatMap StepRun.events ++ [.interactionCompletedEvent completed]))

/-! ## Reading the answers -/

/-- The partial JSON sent for the block at `index` before it is stopped. -/
def inputText (index : UInt32) : List StreamEvent → String
  | [] => ""
  | .contentBlockDelta i (.inputJsonDelta partialJson) :: rest =>
    if i = index then partialJson ++ inputText index rest else inputText index rest
  | .contentBlockStop i :: rest => if i = index then "" else inputText index rest
  | _ :: rest => inputText index rest

/-- The `tool_use` blocks of a stream, each with the text of its input. -/
def toolBlocks : List StreamEvent → List (String × String × String)
  | [] => []
  | .contentBlockStart index (.toolUse id name) :: rest =>
    (id, name, inputText index rest) :: toolBlocks rest
  | _ :: rest => toolBlocks rest

def ContentBlock.tool? : ContentBlock → Option (String × String × String)
  | .text _ => none
  | .toolUse id name input => some (id, name, input.render)

def stopReasonText : StopReason → String
  | .endTurn => "end_turn"
  | .toolUse => "tool_use"

/-- What the `message_start`s of a stream count. -/
def messageStarts (events : List StreamEvent) : List (UInt64 × UInt64) :=
  events.filterMap fun
    | .messageStart _ _ inputTokens outputTokens => some (inputTokens, outputTokens)
    | _ => none

/-- What the `message_delta`s of a stream say. -/
def messageDeltas (events : List StreamEvent) : List (String × DeltaUsage) :=
  events.filterMap fun
    | .messageDelta stopReason usage => some (stopReason, usage)
    | _ => none

def clampU64 (n : UInt64) : Nat := min n.toNat 4294967295

/-- Same stop reason, same `tool_use` blocks, same token counts once clamped. A count that the
`message_delta` leaves out is the one of the `message_start`. -/
def AgreesWith (events : List StreamEvent) (response : MessageResponse) : Prop :=
  ∃ started stopReason usage,
    messageStarts events = [started] ∧ messageDeltas events = [(stopReason, usage)] ∧
      response.stopReason.map stopReasonText = some stopReason ∧
      toolBlocks events = response.content.filterMap ContentBlock.tool? ∧
      clampU64 (usage.inputTokens.getD started.1) = response.usage.inputTokens.toNat ∧
      clampU64 (usage.outputTokens.getD started.2) = response.usage.outputTokens.toNat

/-- The plain answer to an Anthropic client. -/
def plainResponse (interaction : Interaction) (model : String) : MessageResponse :=
  messageResponse interaction model (extractInteractionText interaction)
    (extractInteractionToolCalls interaction)
    (clampI64ToU32 (interaction.tokens Usage.totalInputTokens))
    (clampI64ToU32 (interaction.tokens Usage.totalOutputTokens))

/-- It is what the translation of the interaction answers with. -/
theorem buildTypedResponse_anthropic (interaction : Interaction) (model : String) :
    buildTypedResponse interaction model .anthropic =
      .anthropic (plainResponse interaction model) := rfl

/-! ## Token counts -/

theorem toNat_asU64 (n : Int64) :
    ((asU64 n).toNat : Int) =
      if n.toInt < 0 then n.toInt + 18446744073709551616 else n.toInt := by
  have hint : n.toInt = n.toBitVec.toInt := rfl
  have hnat : (asU64 n).toNat = n.toBitVec.toNat := rfl
  have hlt := n.toBitVec.isLt
  rw [hint, hnat, BitVec.toInt_eq_toNat_cond]
  split <;> split <;> omega

theorem toNat_clampI64ToU32 (n : Int64) :
    (clampI64ToU32 n).toNat = if n.toInt < 0 then 0 else clampU64 (asU64 n) := by
  have hn := toNat_asU64 n
  have hneg : n < 0 ↔ n.toInt < 0 := Int64.lt_iff_toInt_lt
  have hbig : n > 4294967295 ↔ 4294967295 < n.toInt := Int64.lt_iff_toInt_lt
  have hcast : n.toUInt64.toUInt32.toNat = (asU64 n).toNat % 4294967296 :=
    UInt64.toNat_toUInt32 _
  unfold clampI64ToU32 clampU64
  simp only [hneg, hbig]
  by_cases h0 : n.toInt < 0
  · rw [if_pos h0, if_pos h0]
    rfl
  · rw [if_neg h0] at hn
    rw [if_neg h0, if_neg h0]
    by_cases h1 : 4294967295 < n.toInt
    · rw [if_pos h1, show (4294967295 : UInt32).toNat = 4294967295 from rfl]
      omega
    · rw [if_neg h1, hcast]
      omega

/-- The counts that arrive are those of the plain answer; the `message_start` has said 0. -/
def DeltaUsage.CountsOf (usage : DeltaUsage) (interaction : Interaction) : Prop :=
  clampU64 (usage.inputTokens.getD 0) =
      (clampI64ToU32 (interaction.tokens Usage.totalInputTokens)).toNat ∧
    clampU64 (usage.outputTokens.getD 0) =
      (clampI64ToU32 (interaction.tokens Usage.totalOutputTokens)).toNat

theorem crateUsage_eq_some_iff {inputTokens outputTokens : UInt64} {usage : DeltaUsage} :
    crateUsage inputTokens outputTokens = some usage ↔
      outputTokens ≤ 4294967295 ∧
        { inputTokens := none, outputTokens := some outputTokens } = usage := by
  unfold crateUsage
  by_cases h : outputTokens ≤ 4294967295
  · rw [if_pos h, Option.some.injEq, and_iff_right h]
  · simp [h]

theorem clampI64ToU32_eq_zero_iff (n : Int64) : 0 = (clampI64ToU32 n).toNat ↔ n.toInt ≤ 0 := by
  have hn := toNat_asU64 n
  rw [toNat_clampI64ToU32]
  unfold clampU64
  by_cases h0 : n.toInt < 0
  · rw [if_pos h0]
    exact iff_of_true rfl (Int.le_of_lt h0)
  · rw [if_neg h0] at hn ⊢
    omega

/-- The counts that pass as 32 bits. -/
theorem asU64_small_iff (n : Int64) :
    asU64 n ≤ 4294967295 ↔ 0 ≤ n.toInt ∧ n.toInt ≤ 4294967295 := by
  have hn := toNat_asU64 n
  have hlow := n.le_toInt
  rw [UInt64.le_iff_toNat_le, show (4294967295 : UInt64).toNat = 4294967295 from rfl]
  by_cases h0 : n.toInt < 0
  · rw [if_pos h0] at hn
    omega
  · rw [if_neg h0] at hn
    omega

theorem clampU64_asU64 {n : Int64} (h : 0 ≤ n.toInt) :
    clampU64 (asU64 n) = (clampI64ToU32 n).toNat := by
  rw [toNat_clampI64ToU32, if_neg (Int.not_lt.mpr h)]

/-- The counts arrive with the crate's usage if the input count is shown as 0 anyway and the output
count has 32 bits. -/
theorem crateUsage_countsOf_iff (interaction : Interaction) :
    (∃ usage, crateUsage (passedOn interaction).1 (passedOn interaction).2 = some usage ∧
        usage.CountsOf interaction) ↔
      (interaction.tokens Usage.totalInputTokens).toInt ≤ 0 ∧
        0 ≤ (interaction.tokens Usage.totalOutputTokens).toInt ∧
        (interaction.tokens Usage.totalOutputTokens).toInt ≤ 4294967295 := by
  rw [← clampI64ToU32_eq_zero_iff, ← asU64_small_iff]
  constructor
  · intro ⟨usage, husage, hin, _⟩
    obtain ⟨hsmall, rfl⟩ := crateUsage_eq_some_iff.mp husage
    exact ⟨hin, hsmall⟩
  · intro ⟨hin, hsmall⟩
    exact ⟨_, crateUsage_eq_some_iff.mpr ⟨hsmall, rfl⟩, hin,
      clampU64_asU64 ((asU64_small_iff _).mp hsmall).1⟩

/-! ## Blocks -/

def StreamEvent.isToolStart : StreamEvent → Bool
  | .contentBlockStart _ (.toolUse _ _) => true
  | _ => false

theorem toolBlocks_eq_nil_iff {events : List StreamEvent} :
    toolBlocks events = [] ↔ ∀ event ∈ events, event.isToolStart = false := by
  induction events with
  | nil => simp [toolBlocks]
  | cons event rest ih =>
    rw [List.forall_mem_cons, ← ih]
    cases event with
    | contentBlockStart index block => cases block <;> simp [toolBlocks, StreamEvent.isToolStart]
    | messageStart => simp [toolBlocks, StreamEvent.isToolStart]
    | contentBlockDelta => simp [toolBlocks, StreamEvent.isToolStart]
    | contentBlockStop => simp [toolBlocks, StreamEvent.isToolStart]
    | messageDelta => simp [toolBlocks, StreamEvent.isToolStart]
    | messageStop => simp [toolBlocks, StreamEvent.isToolStart]
    | error => simp [toolBlocks, StreamEvent.isToolStart]

theorem messageStarts_runs (runs : List StepRun) :
    messageStarts (runs.flatMap StepRun.clientEvents) = [] := by
  unfold messageStarts
  rw [List.filterMap_eq_nil_iff]
  intro event hevent
  obtain ⟨run, _, hmem⟩ := List.mem_flatMap.mp hevent
  rcases mem_clientEvents hmem with rfl | ⟨delta, rfl⟩ | rfl <;> rfl

theorem messageDeltas_runs (runs : List StepRun) :
    messageDeltas (runs.flatMap StepRun.clientEvents) = [] := by
  unfold messageDeltas
  rw [List.filterMap_eq_nil_iff]
  intro event hevent
  obtain ⟨run, _, hmem⟩ := List.mem_flatMap.mp hevent
  rcases mem_clientEvents hmem with rfl | ⟨delta, rfl⟩ | rfl <;> rfl

/-- A step that is delivered opens a `tool_use` block exactly if it is a call. -/
theorem DeliversStep.isTool_iff {step : Step} {run : StepRun} (h : DeliversStep step run) :
    (∃ id name, blockStart run.step = .toolUse id name) ↔ step.call?.isSome = true := by
  cases step with
  | functionCallStep id name arguments =>
    obtain ⟨_, atStart, hrun, _⟩ := h
    rw [hrun]
    exact iff_of_true ⟨id, name, rfl⟩ rfl
  | modelOutputStep content =>
    obtain ⟨_, ⟨atStart, hrun⟩, _⟩ := h
    rw [hrun]
    simp [blockStart, Step.call?]
  | other type =>
    obtain ⟨_, hrun⟩ := h
    rw [hrun]
    simp [blockStart, Step.call?]

theorem DeliversStep.stopped {step : Step} {run : StepRun} (h : DeliversStep step run) :
    run.stopped = true := by
  cases step <;> exact h.1

theorem toolBlocks_eq_nil_iff_of_delivers {steps : List Step} {runs : List StepRun}
    (h : List.Forall₂ DeliversStep steps runs) :
    (∀ event ∈ runs.flatMap StepRun.clientEvents, event.isToolStart = false) ↔
      ¬ HasCalls steps := by
  induction h with
  | nil => simp [HasCalls]
  | @cons step run steps runs hstep _ ih =>
    have hsplit : HasCalls (step :: steps) ↔ step.call?.isSome = true ∨ HasCalls steps := by
      unfold HasCalls
      rw [List.exists_mem_cons_iff]
    have hrun : (∀ event ∈ run.clientEvents, event.isToolStart = false) ↔
        ¬ step.call?.isSome = true := by
      rw [← hstep.isTool_iff]
      constructor
      · intro hall ⟨id, name, hb⟩
        have hmem : StreamEvent.contentBlockStart (asU32 run.index) (blockStart run.step) ∈
            run.clientEvents := List.mem_append_left _ (List.mem_cons_self ..)
        have := hall _ hmem
        rw [hb] at this
        simp [StreamEvent.isToolStart] at this
      · intro hnone event hevent
        rcases mem_clientEvents hevent with rfl | ⟨delta, rfl⟩ | rfl
        · cases hb : blockStart run.step with
          | text => rfl
          | toolUse id name => exact absurd ⟨id, name, hb⟩ hnone
        · rfl
        · rfl
    rw [hsplit, not_or, ← ih, ← hrun, List.flatMap_cons, List.forall_mem_append]

theorem stopped_of_delivers {steps : List Step} {runs : List StepRun}
    (h : List.Forall₂ DeliversStep steps runs) : ∀ run ∈ runs, run.stopped = true := by
  induction h with
  | nil => simp
  | cons hstep _ ih => exact List.forall_mem_cons.mpr ⟨hstep.stopped, ih⟩

theorem lastActiveAfter_stopped {runs : List StepRun} (h : ∀ run ∈ runs, run.stopped = true) :
    lastActiveAfter none runs = none := by
  unfold lastActiveAfter
  induction runs with
  | nil => rfl
  | cons run runs ih =>
    rw [List.foldl_cons]
    have hrun : run.lastActive = none := if_pos (h run (List.mem_cons_self ..))
    rw [hrun]
    exact ih fun r hr => h r (List.mem_cons_of_mem _ hr)

/-! ## Agreement -/

section
variable {interaction : Interaction} {stream : List InteractionSseEvent}

/-- **What a delivered interaction is translated to**, if its token counts are taken. -/
theorem Delivers.translated (h : Delivers interaction stream)
    (usageOf : UInt64 → UInt64 → Option DeltaUsage) (model : String) :
    ∃ runs, List.Forall₂ DeliversStep interaction.stepList runs ∧
      translateAll usageOf model none stream =
        (usageOf (passedOn interaction).1 (passedOn interaction).2).map fun usage =>
          .messageStart interaction.id model 0 0 :: (runs.flatMap StepRun.clientEvents ++
            [.messageDelta "end_turn" usage, .messageStop]) := by
  obtain @⟨created, completed, runs, createdId, _, _, usage, steps⟩ := h
  refine ⟨runs, steps, ?_⟩
  have htokens : passedOn completed = passedOn interaction := by
    unfold passedOn Interaction.tokens
    rw [usage]
  rw [translateAll_cons rfl, translateAll_runs, lastActiveAfter_stopped (stopped_of_delivers steps),
    translateAll_completed, htokens, createdId, Option.map_map, Option.map_map]
  rfl

theorem messageStarts_answer (id model : String) (runs : List StepRun) (usage : DeltaUsage) :
    messageStarts (.messageStart id model 0 0 :: (runs.flatMap StepRun.clientEvents ++
      [.messageDelta "end_turn" usage, .messageStop])) = [(0, 0)] := by
  have hruns := messageStarts_runs runs
  unfold messageStarts at hruns ⊢
  rw [List.filterMap_cons, List.filterMap_append, hruns]
  rfl

theorem messageDeltas_answer (id model : String) (runs : List StepRun) (usage : DeltaUsage) :
    messageDeltas (.messageStart id model 0 0 :: (runs.flatMap StepRun.clientEvents ++
      [.messageDelta "end_turn" usage, .messageStop])) = [("end_turn", usage)] := by
  have hruns := messageDeltas_runs runs
  unfold messageDeltas at hruns ⊢
  rw [List.filterMap_cons_none rfl, List.filterMap_append, hruns]
  rfl

theorem toolBlocks_answer {steps : List Step} {runs : List StepRun}
    (h : List.Forall₂ DeliversStep steps runs) (id model : String) (usage : DeltaUsage) :
    toolBlocks (.messageStart id model 0 0 :: (runs.flatMap StepRun.clientEvents ++
      [.messageDelta "end_turn" usage, .messageStop])) = [] ↔ ¬ HasCalls steps := by
  rw [toolBlocks_eq_nil_iff, List.forall_mem_cons, List.forall_mem_append,
    toolBlocks_eq_nil_iff_of_delivers h]
  simp [StreamEvent.isToolStart]

/-- The plain answer ends the turn exactly if it shows no call. -/
theorem plainResponse_ends (interaction : Interaction) (model : String) :
    (plainResponse interaction model).stopReason.map stopReasonText = some "end_turn" ↔
      ¬ AwaitsCalls interaction := by
  unfold plainResponse messageResponse
  rw [extractInteractionToolCalls_eq]
  by_cases ha : AwaitsCalls interaction
  · simp [ha, stopReasonText]
  · simp [ha, stopReasonText]

theorem plainResponse_tools {interaction : Interaction} (h : ¬ AwaitsCalls interaction)
    (model : String) :
    (plainResponse interaction model).content.filterMap ContentBlock.tool? = [] := by
  unfold plainResponse messageResponse
  rw [extractInteractionToolCalls_eq, if_neg h]
  rfl

/-- The streamed answer agrees with the plain one exactly if there are no calls and the counts
arrive, whatever the event type makes of them. -/
theorem stream_agrees_with_usage_iff (h : Delivers interaction stream) (model : String)
    (usageOf : UInt64 → UInt64 → Option DeltaUsage) :
    (∃ events, translateAll usageOf model none stream = some events ∧
        AgreesWith events (plainResponse interaction model)) ↔
      ¬ HasCalls interaction.stepList ∧
        ∃ usage, usageOf (passedOn interaction).1 (passedOn interaction).2 = some usage ∧
          usage.CountsOf interaction := by
  obtain ⟨runs, steps, htranslated⟩ := h.translated usageOf model
  rw [htranslated]
  cases husage : usageOf (passedOn interaction).1 (passedOn interaction).2 with
  | none => simp
  | some usage =>
    have hstarts := messageStarts_answer interaction.id model runs usage
    have hdeltas := messageDeltas_answer interaction.id model runs usage
    have htools := toolBlocks_answer steps interaction.id model usage
    rw [Option.map_some]
    constructor
    · intro ⟨events, hevents, started, stopReason, usage', hm, hd, hs, ht, hin, hout⟩
      rw [← Option.some.inj hevents] at hm hd ht
      rw [hstarts] at hm
      rw [hdeltas] at hd
      cases hm
      cases hd
      have hends := (plainResponse_ends interaction model).mp hs
      rw [plainResponse_tools hends] at ht
      exact ⟨htools.mp ht, usage, rfl, hin, hout⟩
    · intro ⟨hcalls, usage', husage', hcounts⟩
      cases husage'
      have hends : ¬ AwaitsCalls interaction := fun ha => hcalls ha.2
      refine ⟨_, rfl, (0, 0), "end_turn", usage, hstarts, hdeltas,
        (plainResponse_ends interaction model).mpr hends, ?_, hcounts.1, hcounts.2⟩
      rw [plainResponse_tools hends]
      exact htools.mpr hcalls

/-- **The streamed answer agrees with the plain one** exactly for interactions without calls, with
an input count that is not positive and an output count of 32 bits; for another event type, with
counts that arrive. -/
theorem stream_agrees_iff (h : Delivers interaction stream) (model : String) :
    ((∃ events, translateAll crateUsage model none stream = some events ∧
        AgreesWith events (plainResponse interaction model)) ↔
      ¬ HasCalls interaction.stepList ∧
        (interaction.tokens Usage.totalInputTokens).toInt ≤ 0 ∧
        0 ≤ (interaction.tokens Usage.totalOutputTokens).toInt ∧
        (interaction.tokens Usage.totalOutputTokens).toInt ≤ 4294967295) ∧
      ∀ usageOf, (∃ events, translateAll usageOf model none stream = some events ∧
          AgreesWith events (plainResponse interaction model)) ↔
        ¬ HasCalls interaction.stepList ∧
          ∃ usage, usageOf (passedOn interaction).1 (passedOn interaction).2 = some usage ∧
            usage.CountsOf interaction := by
  refine ⟨?_, stream_agrees_with_usage_iff h model⟩
  rw [stream_agrees_with_usage_iff h, crateUsage_countsOf_iff]

end

/-! ## Two streams -/

/-- An answer of one text. -/
def helloAnswer : Interaction :=
  { id := "int-1", status := "completed", created := none, updated := none, model := none
    steps := some [.modelOutputStep (some [.textContent "hello"])], usage := none }

/-- The same with a call that waits for its result. -/
def callAnswer : Interaction :=
  { id := "int-1", status := "requires_action", created := none, updated := none, model := none
    steps := some [.functionCallStep "call-1" "get_weather" none], usage := none }

def streamOf (interaction : Interaction) (run : StepRun) : List InteractionSseEvent :=
  .interactionCreatedEvent interaction ::
    ([run].flatMap StepRun.events ++ [.interactionCompletedEvent interaction])

def helloRun : StepRun :=
  { index := 0, step := .modelOutputStep none, deltas := [.textDelta "hel", .textDelta "lo"],
    stopped := true }

def callRun : StepRun :=
  { index := 0, step := .functionCallStep "call-1" "get_weather" none, deltas := [],
    stopped := true }

theorem hello_delivered : Delivers helloAnswer (streamOf helloAnswer helloRun) := by
  refine Delivers.stream rfl rfl rfl rfl (List.Forall₂.cons ?_ List.Forall₂.nil)
  exact ⟨rfl, ⟨none, rfl⟩, rfl⟩

theorem call_delivered : Delivers callAnswer (streamOf callAnswer callRun) := by
  refine Delivers.stream rfl rfl rfl rfl (List.Forall₂.cons ?_ List.Forall₂.nil)
  exact ⟨rfl, none, rfl, Or.inl ⟨rfl, rfl⟩⟩

theorem stream_agrees_iff_hello :
    ∃ events, translateAll crateUsage "model" none (streamOf helloAnswer helloRun) =
      some events ∧ AgreesWith events (plainResponse helloAnswer "model") := by
  refine (stream_agrees_iff hello_delivered "model").1.mpr ⟨?_, by decide, by decide, by decide⟩
  simp [HasCalls, helloAnswer, Interaction.stepList, Step.call?]

/-- The stream of a call says `end_turn` where the plain answer says `tool_use`. -/
theorem stream_not_always_agrees :
    ¬ ∀ (interaction : Interaction) (stream : List InteractionSseEvent) (model : String),
      Delivers interaction stream →
        ∃ events, translateAll crateUsage model none stream = some events ∧
          AgreesWith events (plainResponse interaction model) := by
  intro hall
  obtain ⟨events, hevents, started, stopReason, usage, _, hd, hs, _⟩ :=
    hall _ _ "model" call_delivered
  have htranslated : translateAll crateUsage "model" none (streamOf callAnswer callRun) =
      some [.messageStart "int-1" "model" 0 0,
        .contentBlockStart 0 (.toolUse "call-1" "get_weather"), .contentBlockStop 0,
        .messageDelta "end_turn" { inputTokens := none, outputTokens := some 0 },
        .messageStop] := rfl
  rw [htranslated] at hevents
  rw [← Option.some.inj hevents] at hd
  cases hd
  exact absurd hs (by decide)

end InfSplitter.Streams
