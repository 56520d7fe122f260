import InfSplitter.Responses.Interaction

/-!
# Translating stream events

`translate_stream_event_from_parsed` turns one event of an upstream stream into the events the
client gets for it. It carries one thing from event to event, the index of the step that was started
last and has not been stopped.

The client events are built by deserializing JSON into types of a third-party crate, with
`.expect(..)`. All shapes are fixed but for the token counts of a `message_delta`, so what the
crate's type makes of them is the parameter `usageOf`: the counts the event carries, or a refusal,
which is the panic, `none`. `crateUsage` is what the crate does.
-/

set_option autoImplicit false

namespace InfSplitter.Streams

open Responses

/-! ## Upstream events -/

inductive StepDeltaData
  | textDelta (text : String)
  | thoughtSignatureDelta (signature : Option String)
  | argumentsDelta (arguments : Option String)
  -- the kinds that are dropped
  | other (type : String)
deriving DecidableEq, Repr

structure ErrorInfo where
  code : Option String
  message : Option String
deriving DecidableEq, Repr

inductive InteractionSseEvent
  | interactionCreatedEvent (interaction : Interaction)
  | interactionCompletedEvent (interaction : Interaction)
  | interactionStatusUpdate (interactionId status : String)
  | errorEvent (error : Option ErrorInfo)
  | stepStart (index : Int64) (step : Step)
  | stepDelta (index : Int64) (delta : StepDeltaData)
  | stepStop (index : Int64)

def InteractionSseEvent.isCompleted : InteractionSseEvent → Bool
  | .interactionCompletedEvent _ => true
  | _ => false

/-! ## Client events -/

/-- The content block of a `content_block_start`: an empty text, or a call with no input yet. -/
inductive BlockStart
  | text
  | toolUse (id name : String)
deriving DecidableEq, Repr

inductive Delta
  | textDelta (text : String)
  | signatureDelta (signature : String)
  | inputJsonDelta (partialJson : String)
deriving DecidableEq, Repr

/-- The token counts a `message_delta` carries. -/
structure DeltaUsage where
  inputTokens : Option UInt64
  outputTokens : Option UInt64
deriving DecidableEq, Repr

/-- The crate's usage has an output count of 32 bits; the input count is passed over. -/
def crateUsage (_inputTokens outputTokens : UInt64) : Option DeltaUsage :=
  if outputTokens ≤ 4294967295 then
    some { inputTokens := none, outputTokens := some outputTokens }
  else none

inductive StreamEvent
  | messageStart (id model : String) (inputTokens outputTokens : UInt64)
  | contentBlockStart (index : UInt32) (block : BlockStart)
  | contentBlockDelta (index : UInt32) (delta : Delta)
  | contentBlockStop (index : UInt32)
  | messageDelta (stopReason : String) (usage : DeltaUsage)
  | messageStop
  | error (type message : String)
deriving DecidableEq, Repr

def StreamEvent.isMessageStart : StreamEvent → Bool
  | .messageStart .. => true
  | _ => false

/-! ## The translation -/

/-- `as u32` on an `i64`. -/
def asU32 (index : Int64) : UInt32 := index.toUInt64.toUInt32

/-- `as u64` on an `i64`. -/
def asU64 (n : Int64) : UInt64 := n.toUInt64

/-- What an event is translated to, and the `last_active_index` after it. -/
structure Translated where
  events : Option (List StreamEvent)
  lastActiveIndex : Option UInt32
deriving DecidableEq, Repr

def blockStart : Step → BlockStart
  | .functionCallStep id name _ => .toolUse id name
  | _ => .text

def clientDelta : StepDeltaData → Option Delta
  | .textDelta text => some (.textDelta text)
  | .thoughtSignatureDelta signature => some (.signatureDelta (signature.getD ""))
  | .argumentsDelta arguments => some (.inputJsonDelta (arguments.getD ""))
  | .other _ => none

/-- The token counts as the translator passes them on. -/
def passedOn (interaction : Interaction) : UInt64 × UInt64 :=
  (asU64 (interaction.tokens Usage.totalInputTokens),
    asU64 (interaction.tokens Usage.totalOutputTokens))

section
variable (usageOf : UInt64 → UInt64 → Option DeltaUsage)

/-- The events of a completed interaction; a block that is still open is stopped first. -/
def completedEvents (interaction : Interaction) (lastActiveIndex : Option UInt32) :
    Option (List StreamEvent) :=
  let (inputTokens, outputTokens) := passedOn interaction
  (usageOf inputTokens outputTokens).map fun usage =>
    lastActiveIndex.toList.map StreamEvent.contentBlockStop ++
      [.messageDelta "end_turn" usage, .messageStop]

def translateStreamEventFromParsed (model : String) (lastActiveIndex : Option UInt32) :
    InteractionSseEvent → Option Translated
  | .interactionCreatedEvent interaction =>
    some { events := some [.messageStart interaction.id model 0 0], lastActiveIndex }
  | .stepStart index step =>
    some { events := some [.contentBlockStart (asU32 index) (blockStart step)],
           lastActiveIndex := some (asU32 index) }
  | .stepDelta index delta =>
    some { events := (clientDelta delta).map fun d => [.contentBlockDelta (asU32 index) d],
           lastActiveIndex }
  | .stepStop index =>
    some { events := some [.contentBlockStop (asU32 index)], lastActiveIndex := none }
  | .interactionStatusUpdate _ _ => some { events := none, lastActiveIndex }
  | .interactionCompletedEvent interaction =>
    (completedEvents usageOf interaction lastActiveIndex).map fun events =>
      { events := some events, lastActiveIndex := none }
  | .errorEvent error =>
    let message := (error.bind ErrorInfo.message).getD "unknown error"
    let code := (error.bind ErrorInfo.code).getD "api_error"
    some { events := some [.error code message], lastActiveIndex }

/-- The translation of one event after another. -/
def translateAll (model : String) :
    Option UInt32 → List InteractionSseEvent → Option (List StreamEvent)
  | _, [] => some []
  | last, event :: rest =>
    (translateStreamEventFromParsed usageOf model last event).bind fun t =>
      (translateAll model t.lastActiveIndex rest).map (t.events.getD [] ++ ·)

end

/-! ## Streams with steps in order -/

/-- The events of one step: its start, its deltas and, if it is `stopped`, its stop. -/
structure StepRun where
  index : Int64
  step : Step
  deltas : List StepDeltaData
  stopped : Bool

namespace StepRun

def events (run : StepRun) : List InteractionSseEvent :=
  .stepStart run.index run.step :: run.deltas.map (.stepDelta run.index) ++
    (if run.stopped then [.stepStop run.index] else [])

/-- What the client gets for the deltas of the step. -/
def clientDeltas (run : StepRun) : List StreamEvent :=
  (run.deltas.filterMap clientDelta).map (.contentBlockDelta (asU32 run.index))

def clientEvents (run : StepRun) : List StreamEvent :=
  .contentBlockStart (asU32 run.index) (blockStart run.step) :: run.clientDeltas ++
    (if run.stopped then [.contentBlockStop (asU32 run.index)] else [])

/-- The open index after the step. -/
def lastActive (run : StepRun) : Option UInt32 :=
  if run.stopped then none else some (asU32 run.index)

end StepRun

/-- The client events of a step: its start, deltas, and perhaps a stop. -/
theorem mem_clientEvents {run : StepRun} {event : StreamEvent} (h : event ∈ run.clientEvents) :
    event = .contentBlockStart (asU32 run.index) (blockStart run.step) ∨
      (∃ delta, event = .contentBlockDelta (asU32 run.index) delta) ∨
      event = .contentBlockStop (asU32 run.index) := by
  unfold StepRun.clientEvents StepRun.clientDeltas at h
  rcases List.mem_append.mp h with h | h
  · rcases List.mem_cons.mp h with h | h
    · exact Or.inl h
    · obtain ⟨delta, _, rfl⟩ := List.mem_map.mp h
      exact Or.inr (Or.inl ⟨delta, rfl⟩)
  · cases hs : run.stopped with
    | false => simp [hs] at h
    | true =>
      rw [hs, if_pos rfl] at h
      exact Or.inr (Or.inr (List.mem_singleton.mp h))

/-- The open index after some steps that found `last` open. -/
def lastActiveAfter (last : Option UInt32) (runs : List StepRun) : Option UInt32 :=
  runs.foldl (fun _ run => run.lastActive) last

section
variable {usageOf : UInt64 → UInt64 → Option DeltaUsage} {model : String}

/-- One event that does not panic. -/
theorem translateAll_cons {event : InteractionSseEvent} {last : Option UInt32} {t : Translated}
    (h : translateStreamEventFromParsed usageOf model last event = some t)
    (rest : List InteractionSseEvent) :
    translateAll usageOf model last (event :: rest) =
      (translateAll usageOf model t.lastActiveIndex rest).map (t.events.getD [] ++ ·) := by
  rw [translateAll, h, Option.bind_some]

theorem translateAll_deltas (index : Int64) (deltas : List StepDeltaData) (last : Option UInt32)
    (rest : List InteractionSseEvent) :
    translateAll usageOf model last (deltas.map (.stepDelta index) ++ rest) =
      (translateAll usageOf model last rest).map
        ((deltas.filterMap clientDelta).map (.contentBlockDelta (asU32 index)) ++ ·) := by
  induction deltas with
  | nil => simp
  | cons delta deltas ih =>
    rw [List.map_cons, List.cons_append, translateAll_cons rfl, ih, Option.map_map]
    cases hd : clientDelta delta <;> simp [hd, Function.comp_def]

theorem translateAll_run (run : StepRun) (last : Option UInt32)
    (rest : List InteractionSseEvent) :
    translateAll usageOf model last (run.events ++ rest) =
      (translateAll usageOf model run.lastActive rest).map (run.clientEvents ++ ·) := by
  unfold StepRun.events StepRun.clientEvents StepRun.clientDeltas StepRun.lastActive
  rw [List.cons_append, List.cons_append, List.append_assoc, translateAll_cons rfl,
    translateAll_deltas, Option.map_map]
  cases run.stopped with
  | false => simp [Function.comp_def]
  | true =>
    rw [if_pos rfl, if_pos rfl, if_pos rfl, List.singleton_append, translateAll_cons rfl,
      Option.map_map]
    simp [Function.comp_def]

/-- **Steps are translated one by one**, whatever follows them. -/
theorem translateAll_runs (runs : List StepRun) (last : Option UInt32)
    (rest : List InteractionSseEvent) :
    translateAll usageOf model last (runs.flatMap StepRun.events ++ rest) =
      (translateAll usageOf model (lastActiveAfter last runs) rest).map
        (runs.flatMap StepRun.clientEvents ++ ·) := by
  induction runs generalizing last with
  | nil => simp [lastActiveAfter]
  | cons run runs ih =>
    rw [List.flatMap_cons, List.append_assoc, translateAll_run, ih, Option.map_map,
      List.flatMap_cons]
    simp [Function.comp_def, lastActiveAfter]

/-- The final event closes the open block. -/
theorem translateAll_completed (interaction : Interaction) (last : Option UInt32) :
    translateAll usageOf model last [.interactionCompletedEvent interaction] =
      (usageOf (passedOn interaction).1 (passedOn interaction).2).map fun usage =>
        last.toList.map StreamEvent.contentBlockStop ++
          [.messageDelta "end_turn" usage, .messageStop] := by
  unfold translateAll translateStreamEventFromParsed completedEvents
  cases h : usageOf (passedOn interaction).1 (passedOn interaction).2 with
  | none => simp [h]
  | some usage => simp [h, translateAll]

/-- Translating on from where a translation has stopped. -/
theorem translateAll_append (usageOf : UInt64 → UInt64 → Option DeltaUsage) (model : String)
    (a : List InteractionSseEvent) (last : Option UInt32) :
    ∃ middle, ∀ b, translateAll usageOf model last (a ++ b) =
      (translateAll usageOf model last a).bind fun before =>
        (translateAll usageOf model middle b).map (before ++ ·) := by
  induction a generalizing last with
  | nil => exact ⟨last, fun b => by simp [translateAll]⟩
  | cons event rest ih =>
    cases ht : translateStreamEventFromParsed usageOf model last event with
    | none => exact ⟨none, fun b => by simp [translateAll, ht]⟩
    | some t =>
      obtain ⟨middle, hmiddle⟩ := ih t.lastActiveIndex
      refine ⟨middle, fun b => ?_⟩
      rw [List.cons_append, translateAll_cons ht, translateAll_cons ht, hmiddle, Option.map_bind,
        Option.bind_map]
      simp [Function.comp_def]

/-- The crate takes the counts of the event, if it is one of a completed interaction. -/
def CountsAccepted (usageOf : UInt64 → UInt64 → Option DeltaUsage) : InteractionSseEvent → Prop
  | .interactionCompletedEvent interaction =>
    (usageOf (passedOn interaction).1 (passedOn interaction).2).isSome = true
  | _ => True

theorem translateStreamEventFromParsed_isSome_iff (usageOf : UInt64 → UInt64 → Option DeltaUsage)
    (model : String) (event : InteractionSseEvent) (last : Option UInt32) :
    (∃ t, translateStreamEventFromParsed usageOf model last event = some t) ↔
      CountsAccepted usageOf event := by
  cases event with
  | interactionCompletedEvent interaction =>
    unfold translateStreamEventFromParsed completedEvents CountsAccepted
    rw [← Option.isSome_iff_exists, Option.isSome_map, Option.isSome_map]
  | _ => exact iff_of_true ⟨_, rfl⟩ trivial

/-- **Only the counts of a completed interaction can fail.** -/
theorem translateAll_isSome_iff (usageOf : UInt64 → UInt64 → Option DeltaUsage) (model : String)
    (events : List InteractionSseEvent) (last : Option UInt32) :
    (∃ translated, translateAll usageOf model last events = some translated) ↔
      ∀ event ∈ events, CountsAccepted usageOf event := by
  induction events generalizing last with
  | nil => exact iff_of_true ⟨[], rfl⟩ (List.forall_mem_nil _)
  | cons event rest ih =>
    rw [List.forall_mem_cons, ← translateStreamEventFromParsed_isSome_iff usageOf model event last]
    constructor
    · intro ⟨translated, hall⟩
      obtain ⟨t, ht, hrest⟩ := Option.bind_eq_some_iff.mp hall
      obtain ⟨after, hafter, _⟩ := Option.map_eq_some_iff.mp hrest
      exact ⟨⟨t, ht⟩, (ih t.lastActiveIndex).mp ⟨after, hafter⟩⟩
    · intro ⟨⟨t, ht⟩, hrest⟩
      obtain ⟨translated, hafter⟩ := (ih t.lastActiveIndex).mpr hrest
      exact ⟨_, by rw [translateAll_cons ht, hafter, Option.map_some]⟩

theorem translateAll_isSome (usageOf : UInt64 → UInt64 → Option DeltaUsage) (model : String)
    {events : List InteractionSseEvent} (h : ∀ event ∈ events, event.isCompleted = false)
    (last : Option UInt32) :
    ∃ translated, translateAll usageOf model last events = some translated := by
  refine (translateAll_isSome_iff usageOf model events last).mpr fun event hevent => ?_
  have hnot := h event hevent
  cases event with
  | interactionCompletedEvent => cases hnot
  | _ => trivial

end

end InfSplitter.Streams
