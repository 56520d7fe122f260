import Mathlib.Data.List.Nodup
import InfSplitter.Streams.Buffered

/-!
# A merged stream is one message

The streams of the pieces are read as one, with the first `created` and the last `completed` of them
all. The steps in between are passed on with the indexes they have in their piece, and the marker of
the open block is carried from one piece into the next.

What is sent is therefore the blocks of all steps of all pieces, and the last of them is closed by
the final event if it has to be. It is one message (`WellFormedMessage`) exactly if no index occurs
twice among all pieces and no step is left open before the last one (`merged_message_iff`).
-/

set_option autoImplicit false

namespace InfSplitter.Streams

open Interactions Lib Responses

/-! ## One message -/

/-- The content block an event is about. -/
def StreamEvent.block? : StreamEvent → Option UInt32
  | .contentBlockStart index _ => some index
  | .contentBlockDelta index _ => some index
  | .contentBlockStop index => some index
  | _ => none

/-- Not there at all, or started, some deltas, and stopped. -/
def OneBlock (index : UInt32) (events : List StreamEvent) : Prop :=
  events = [] ∨ ∃ (block : BlockStart) (deltas : List Delta), events =
    .contentBlockStart index block :: (deltas.map (.contentBlockDelta index) ++
      [.contentBlockStop index])

structure WellFormedMessage (events : List StreamEvent) : Prop where
  start : ∃ id model inputTokens outputTokens rest,
    events = .messageStart id model inputTokens outputTokens :: rest ∧
      ∀ event ∈ rest, event.isMessageStart = false
  stop : ∃ before, events = before ++ [.messageStop] ∧ ∀ event ∈ before, event ≠ .messageStop
  blocks : ∀ index, OneBlock index (events.filter fun event => event.block? = some index)

/-! ## Streams of pieces -/

/-- Created, steps under indexes of their own, completed. Only the last step may be left open. -/
structure PieceStream where
  created : Interaction
  runs : List StepRun
  completed : Interaction
  distinct : (runs.map StepRun.index).Nodup
  stopped : ∀ run ∈ runs.dropLast, run.stopped = true

def PieceStream.events (stream : PieceStream) : List InteractionSseEvent :=
  .interactionCreatedEvent stream.created ::
    (stream.runs.flatMap StepRun.events ++ [.interactionCompletedEvent stream.completed])

/-- The steps of all pieces. -/
def allRuns (streams : List PieceStream) : List StepRun := streams.flatMap PieceStream.runs

/-- The bytes are a text of whole events, and these are the stream. -/
def Carries {τ χ : Type} (lib : External τ χ) (bytes : List UInt8) (stream : PieceStream) : Prop :=
  ∃ text, bytes = encodeUtf8 text ∧ (frames eventEnd text).2 = [] ∧
    parseEvents lib text = stream.events

/-! ## The blocks of closed steps -/

def StepRun.block (run : StepRun) : UInt32 := asU32 run.index

/-- The last step closed, by the final event if not by itself. -/
def closeLast : List StepRun → List StepRun
  | [] => []
  | [run] => [{ run with stopped := true }]
  | run :: next :: rest => run :: closeLast (next :: rest)

theorem clientEvents_closed (run : StepRun) :
    ({ run with stopped := true } : StepRun).clientEvents =
      run.clientEvents ++ run.lastActive.toList.map StreamEvent.contentBlockStop := by
  unfold StepRun.clientEvents StepRun.clientDeltas StepRun.lastActive
  cases run.stopped <;> simp

theorem lastActiveAfter_cons (last : Option UInt32) (run : StepRun) (rest : List StepRun) :
    lastActiveAfter last (run :: rest) = lastActiveAfter run.lastActive rest := rfl

theorem flatMap_closeLast (runs : List StepRun) (last : Option UInt32) (h : runs ≠ []) :
    (closeLast runs).flatMap StepRun.clientEvents =
      runs.flatMap StepRun.clientEvents ++
        (lastActiveAfter last runs).toList.map StreamEvent.contentBlockStop := by
  induction runs generalizing last with
  | nil => exact absurd rfl h
  | cons run rest ih =>
    cases rest with
    | nil =>
      have hclosed := clientEvents_closed run
      simpa [closeLast, lastActiveAfter] using hclosed
    | cons next rest =>
      rw [closeLast, List.flatMap_cons, ih run.lastActive (List.cons_ne_nil _ _),
        lastActiveAfter_cons last, @List.flatMap_cons _ _ run (next :: rest), List.append_assoc]

theorem closeLast_blocks (runs : List StepRun) :
    (closeLast runs).map StepRun.block = runs.map StepRun.block := by
  induction runs with
  | nil => rfl
  | cons run rest ih =>
    cases rest with
    | nil => rfl
    | cons next rest =>
      rw [closeLast, List.map_cons, ih]
      rfl

theorem closeLast_stopped_iff (runs : List StepRun) :
    (∀ run ∈ closeLast runs, run.stopped = true) ↔
      ∀ run ∈ runs.dropLast, run.stopped = true := by
  induction runs with
  | nil => exact Iff.rfl
  | cons run rest ih =>
    cases rest with
    | nil => simp [closeLast]
    | cons next rest =>
      rw [closeLast, List.dropLast_cons_of_ne_nil (List.cons_ne_nil _ _), List.forall_mem_cons,
        List.forall_mem_cons, ih]

/-! ## Blocks apart -/

theorem block_of_mem_clientEvents {run : StepRun} {event : StreamEvent}
    (h : event ∈ run.clientEvents) : event.block? = some run.block := by
  rcases mem_clientEvents h with rfl | ⟨delta, rfl⟩ | rfl <;> rfl

/-- The events about one block are those of the steps with its index. -/
theorem filter_block (index : UInt32) (runs : List StepRun) :
    (runs.flatMap StepRun.clientEvents).filter (fun event => event.block? = some index) =
      (runs.filter fun run => run.block = index).flatMap StepRun.clientEvents := by
  induction runs with
  | nil => rfl
  | cons run rest ih =>
    rw [List.flatMap_cons, List.filter_append, ih, List.filter_cons]
    by_cases hi : run.block = index
    · have hall : run.clientEvents.filter (fun event => event.block? = some index) =
          run.clientEvents := by
        rw [List.filter_eq_self]
        intro event hevent
        simpa [hi] using block_of_mem_clientEvents hevent
      rw [hall, if_pos (by simpa using hi), List.flatMap_cons]
    · have hnone : run.clientEvents.filter (fun event => event.block? = some index) = [] := by
        rw [List.filter_eq_nil_iff]
        intro event hevent
        simpa [block_of_mem_clientEvents hevent] using hi
      rw [hnone, if_neg (by simpa using hi), List.nil_append]

def StreamEvent.isStart : StreamEvent → Bool
  | .contentBlockStart .. => true
  | _ => false

def StreamEvent.isStop : StreamEvent → Bool
  | .contentBlockStop _ => true
  | _ => false

theorem countP_deltas (p : StreamEvent → Bool) (index : UInt32) (deltas : List Delta)
    (h : ∀ delta, p (.contentBlockDelta index delta) = false) :
    (deltas.map (StreamEvent.contentBlockDelta index)).countP p = 0 := by
  rw [List.countP_eq_zero]
  intro event hevent
  obtain ⟨delta, _, rfl⟩ := List.mem_map.mp hevent
  simp [h]

/-- A block is started at most once, and stopped as often as started. -/
theorem OneBlock.counts {index : UInt32} {events : List StreamEvent} (h : OneBlock index events) :
    events.countP StreamEvent.isStart ≤ 1 ∧
      events.countP StreamEvent.isStart = events.countP StreamEvent.isStop := by
  rcases h with rfl | ⟨block, deltas, rfl⟩
  · simp
  · have hstart := countP_deltas StreamEvent.isStart index deltas fun _ => rfl
    have hstop := countP_deltas StreamEvent.isStop index deltas fun _ => rfl
    rw [List.countP_cons, List.countP_cons, List.countP_append, List.countP_append, hstart, hstop]
    simp [StreamEvent.isStart, StreamEvent.isStop]

theorem countP_clientEvents (run : StepRun) :
    run.clientEvents.countP StreamEvent.isStart = 1 ∧
      run.clientEvents.countP StreamEvent.isStop = if run.stopped then 1 else 0 := by
  unfold StepRun.clientEvents StepRun.clientDeltas
  have hstart := countP_deltas StreamEvent.isStart (asU32 run.index)
    (run.deltas.filterMap clientDelta) fun _ => rfl
  have hstop := countP_deltas StreamEvent.isStop (asU32 run.index)
    (run.deltas.filterMap clientDelta) fun _ => rfl
  rw [List.countP_append, List.countP_append, List.countP_cons, List.countP_cons, hstart, hstop]
  cases run.stopped <;> simp [StreamEvent.isStart, StreamEvent.isStop]

theorem countP_flatMap_clientEvents (runs : List StepRun) :
    (runs.flatMap StepRun.clientEvents).countP StreamEvent.isStart = runs.length ∧
      (runs.flatMap StepRun.clientEvents).countP StreamEvent.isStop =
        (runs.filter StepRun.stopped).length := by
  induction runs with
  | nil => exact ⟨rfl, rfl⟩
  | cons run rest ih =>
    obtain ⟨hstart, hstop⟩ := countP_clientEvents run
    rw [List.flatMap_cons, List.countP_append, List.countP_append, hstart, hstop, ih.1, ih.2,
      List.length_cons, List.filter_cons]
    constructor
    · exact Nat.add_comm _ _
    · cases run.stopped <;> simp [Nat.add_comm]

/-- A stopped step is one block. -/
theorem oneBlock_clientEvents {run : StepRun} (h : run.stopped = true) :
    OneBlock run.block run.clientEvents := by
  refine Or.inr ⟨blockStart run.step, run.deltas.filterMap clientDelta, ?_⟩
  unfold StepRun.clientEvents StepRun.clientDeltas
  rw [h, if_pos rfl, List.cons_append]
  rfl

/-- **Steps make blocks** exactly if every index is used once and every step is stopped. -/
theorem oneBlock_runs_iff (runs : List StepRun) :
    (∀ index, OneBlock index ((runs.flatMap StepRun.clientEvents).filter
        fun event => event.block? = some index)) ↔
      (runs.map StepRun.block).Nodup ∧ ∀ run ∈ runs, run.stopped = true := by
  simp only [filter_block]
  constructor
  · intro h
    have hcounts : ∀ index, (runs.filter fun run => run.block = index).length ≤ 1 ∧
        (runs.filter fun run => run.block = index).length =
          ((runs.filter fun run => run.block = index).filter StepRun.stopped).length := by
      intro index
      have hone := (h index).counts
      rw [(countP_flatMap_clientEvents _).1, (countP_flatMap_clientEvents _).2] at hone
      exact hone
    constructor
    · rw [List.nodup_iff_count_le_one]
      intro index
      have hle := (hcounts index).1
      rw [← List.countP_eq_length_filter] at hle
      rw [List.count, List.countP_map]
      simpa [Function.comp_def, beq_eq_decide] using hle
    · intro run hrun
      have heq := (hcounts run.block).2
      have hall := List.length_filter_eq_length_iff.mp heq.symm
      exact hall run (List.mem_filter.mpr ⟨hrun, by simp⟩)
  · intro ⟨hnodup, hstopped⟩ index
    cases hf : runs.filter (fun run => run.block = index) with
    | nil => exact Or.inl rfl
    | cons run others =>
      have hmem : run ∈ runs.filter (fun run => run.block = index) := by
        rw [hf]
        exact List.mem_cons_self ..
      obtain ⟨hrun, hindex⟩ := List.mem_filter.mp hmem
      have hcount : (runs.filter fun run => run.block = index).length ≤ 1 := by
        have hle := List.nodup_iff_count_le_one.mp hnodup index
        rw [List.count, List.countP_map] at hle
        rw [← List.countP_eq_length_filter]
        simpa [Function.comp_def, beq_eq_decide] using hle
      have hothers : others = [] := by
        rw [hf, List.length_cons] at hcount
        exact List.length_eq_zero_iff.mp (by omega)
      rw [hothers, List.flatMap_singleton, ← of_decide_eq_true hindex]
      exact oneBlock_clientEvents (hstopped run hrun)

/-! ## From bytes to events -/

section
variable {τ χ : Type} {lib : External τ χ} {model : String}

/-- Pieces that carry streams carry them one after another. -/
theorem parse_drain {data : List (List UInt8)} {streams : List PieceStream}
    (h : List.Forall₂ (Carries lib) data streams) :
    ∃ text, data.flatten = encodeUtf8 text ∧
      parseEvents lib text = streams.flatMap PieceStream.events := by
  induction h with
  | nil => exact ⟨[], rfl, rfl⟩
  | cons hpiece _ ih =>
    obtain ⟨text, hbytes, hwhole, hparse⟩ := hpiece
    obtain ⟨rest, hrest, hparses⟩ := ih
    refine ⟨text ++ rest, ?_, ?_⟩
    · rw [List.flatten_cons, hbytes, hrest, encodeUtf8_append]
    · rw [parseEvents_append hwhole, hparse, hparses, List.flatMap_cons]

/-! ## The events that pass -/

theorem runs_plain (runs : List StepRun) :
    ∀ event ∈ runs.flatMap StepRun.events, event.isControl = false := by
  intro event hevent
  obtain ⟨run, _, hmem⟩ := List.mem_flatMap.mp hevent
  unfold StepRun.events at hmem
  rcases List.mem_append.mp hmem with hmem | hmem
  · rcases List.mem_cons.mp hmem with rfl | hmem
    · rfl
    · obtain ⟨delta, _, rfl⟩ := List.mem_map.mp hmem
      rfl
  · split at hmem
    · rw [List.mem_singleton.mp hmem]
      rfl
    · exact absurd hmem (by simp)

/-- Once a stream has started, only the steps and the last `completed` pass. -/
theorem controlled_streams (streams : List PieceStream) (hne : streams ≠ []) (n k : Nat)
    (hn : k + streams.length = n) :
    controlled n { seenStart := true, completedSeen := k } (streams.flatMap PieceStream.events) =
      (allRuns streams).flatMap StepRun.events ++
        [.interactionCompletedEvent (streams.getLast hne).completed] := by
  induction streams generalizing k with
  | nil => exact absurd rfl hne
  | cons stream rest ih =>
    have hruns := controlled_plain n { seenStart := true, completedSeen := k }
      (runs_plain stream.runs)
    have hsplit : (stream :: rest).flatMap PieceStream.events =
        .interactionCreatedEvent stream.created :: (stream.runs.flatMap StepRun.events ++
          (.interactionCompletedEvent stream.completed :: rest.flatMap PieceStream.events)) := by
      simp [PieceStream.events]
    rw [List.length_cons] at hn
    rw [hsplit, controlled_dropped rfl, controlled_append, hruns.1, hruns.2]
    cases rest with
    | nil =>
      rw [List.length_nil] at hn
      have hlast : Controls.next n { seenStart := true, completedSeen := k }
          (.interactionCompletedEvent stream.completed) =
            ({ seenStart := true, completedSeen := k + 1 }, true) := by
        simp [Controls.next, ← hn]
      rw [controlled_passed hlast]
      simp [allRuns, controlled]
    | cons next rest =>
      rw [List.length_cons] at hn
      have hmore : Controls.next n { seenStart := true, completedSeen := k }
          (.interactionCompletedEvent stream.completed) =
            ({ seenStart := true, completedSeen := k + 1 }, false) := by
        simp [Controls.next]
        omega
      rw [controlled_dropped hmore,
        ih (List.cons_ne_nil _ _) (k + 1) (by rw [List.length_cons]; omega)]
      simp [allRuns]

theorem countP_completed (streams : List PieceStream) :
    (streams.flatMap PieceStream.events).countP InteractionSseEvent.isCompleted =
      streams.length := by
  induction streams with
  | nil => rfl
  | cons stream rest ih =>
    have hruns : (stream.runs.flatMap StepRun.events).countP InteractionSseEvent.isCompleted = 0 := by
      rw [List.countP_eq_zero]
      intro event hevent
      have := runs_plain stream.runs event hevent
      cases event <;> simp_all [InteractionSseEvent.isControl, InteractionSseEvent.isCompleted]
    rw [List.flatMap_cons, List.countP_append, ih, PieceStream.events, List.countP_cons,
      List.countP_append, hruns]
    simp [InteractionSseEvent.isCompleted, Nat.add_comm]

/-! ## The merged answer -/

/-- **What pieces are translated to**: one message with the blocks of all steps. -/
theorem translated_streams (streams : List PieceStream) (hne : streams ≠ []) :
    translateAll lib.usageOf model none
        (controlled streams.length { seenStart := false, completedSeen := 0 }
          (streams.flatMap PieceStream.events)) =
      let counts := passedOn (streams.getLast hne).completed
      (lib.usageOf counts.1 counts.2).map fun usage =>
        .messageStart (streams.head hne).created.id model 0 0 ::
          ((closeLast (allRuns streams)).flatMap StepRun.clientEvents ++
            [.messageDelta "end_turn" usage, .messageStop]) := by
  have hkept : controlled streams.length { seenStart := false, completedSeen := 0 }
      (streams.flatMap PieceStream.events) =
        .interactionCreatedEvent (streams.head hne).created ::
          ((allRuns streams).flatMap StepRun.events ++
            [.interactionCompletedEvent (streams.getLast hne).completed]) := by
    have hstarted := controlled_streams streams hne streams.length 0 (Nat.zero_add _)
    cases streams with
    | nil => exact absurd rfl hne
    | cons stream rest =>
      rw [List.flatMap_cons, PieceStream.events, List.cons_append] at hstarted ⊢
      rw [controlled_dropped rfl] at hstarted
      rw [controlled_passed rfl, hstarted]
      rfl
  have hclosed : (closeLast (allRuns streams)).flatMap StepRun.clientEvents =
      (allRuns streams).flatMap StepRun.clientEvents ++
        (lastActiveAfter none (allRuns streams)).toList.map StreamEvent.contentBlockStop := by
    by_cases hruns : allRuns streams = []
    · rw [hruns]
      rfl
    · exact flatMap_closeLast _ none hruns
  rw [hkept, translateAll_cons rfl, translateAll_runs, translateAll_completed, hclosed]
  simp [Function.comp_def]

theorem wellFormedMessage_iff (id model : String) (usage : DeltaUsage) (runs : List StepRun) :
    WellFormedMessage (.messageStart id model 0 0 :: (runs.flatMap StepRun.clientEvents ++
        [.messageDelta "end_turn" usage, .messageStop])) ↔
      (runs.map StepRun.block).Nodup ∧ ∀ run ∈ runs, run.stopped = true := by
  have hmem : ∀ event ∈ runs.flatMap StepRun.clientEvents,
      event.isMessageStart = false ∧ event ≠ .messageStop := by
    intro event hevent
    obtain ⟨run, _, hrun⟩ := List.mem_flatMap.mp hevent
    rcases mem_clientEvents hrun with rfl | ⟨delta, rfl⟩ | rfl <;>
      exact ⟨rfl, StreamEvent.noConfusion⟩
  have hfilter : ∀ index, (StreamEvent.messageStart id model 0 0 ::
      (runs.flatMap StepRun.clientEvents ++
        [.messageDelta "end_turn" usage, .messageStop])).filter
          (fun event => event.block? = some index) =
      (runs.flatMap StepRun.clientEvents).filter fun event => event.block? = some index := by
    intro index
    rw [List.filter_cons_of_neg (by simp [StreamEvent.block?]), List.filter_append]
    simp [StreamEvent.block?]
  rw [← oneBlock_runs_iff]
  constructor
  · intro h index
    rw [← hfilter index]
    exact h.blocks index
  · intro h
    refine ⟨⟨id, model, 0, 0, _, rfl, ?_⟩,
      ⟨.messageStart id model 0 0 :: (runs.flatMap StepRun.clientEvents ++
        [.messageDelta "end_turn" usage]), by simp, ?_⟩, ?_⟩
    · rw [List.forall_mem_append]
      exact ⟨fun event hevent => (hmem event hevent).1, by simp [StreamEvent.isMessageStart]⟩
    · rw [List.forall_mem_cons, List.forall_mem_append]
      exact ⟨StreamEvent.noConfusion, fun event hevent => (hmem event hevent).2, by simp⟩
    · intro index
      rw [hfilter index]
      exact h index

/-- Exactly the events of one message are sent. -/
def SendsOneMessage (result : Except TranslateError (List (Sent χ))) : Prop :=
  ∃ events, result = .ok (events.map Sent.event) ∧ WellFormedMessage events

/-- Capturing pieces that carry streams translates the streams one after another. -/
theorem capture_eq {ingress : Protocol} {buffer : MemSseBuffer} {allIntIds : List String}
    {finalId : String} {streams : List PieceStream}
    (h : List.Forall₂ (Carries lib)
      (buffer.pieces.map fun p => substituted allIntIds finalId p.2) streams)
    (hids : ∀ id ∈ allIntIds.filter (· ≠ finalId), id ≠ "") :
    captureAndTranslateSse lib ingress model buffer allIntIds finalId =
      match translateEvents lib ingress model (streams.flatMap PieceStream.events) with
      | none => .error .panicked
      | some sent => .ok sent := by
  have hfold := foldlM_substituteId finalId (allIntIds.filter (· ≠ finalId)) buffer
  rw [if_pos (Or.inr hids)] at hfold
  obtain ⟨replaced, hreplaced, hpieces⟩ := Option.map_eq_some_iff.mp hfold
  obtain ⟨text, hbytes, hparse⟩ := parse_drain h
  have hdrain : fromUtf8 replaced.drain = some text := by
    rw [fromUtf8_eq_some_iff, MemSseBuffer.drain_eq, hpieces]
    exact hbytes
  unfold captureAndTranslateSse translateBufferedSseToClient
  rw [hreplaced]
  cases htranslated : translateEvents lib ingress model (streams.flatMap PieceStream.events) with
  | none => simp only [hdrain, hparse, htranslated]
  | some sent => simp only [hdrain, hparse, htranslated]

/-- **A merged stream is one message** exactly if no id that is searched for is empty, the indexes
of all steps of all pieces differ as they are sent, every step but the last of all is stopped by its
own piece, and the last piece's counts are taken. -/
theorem merged_message_iff {buffer : MemSseBuffer} {allIntIds : List String} {finalId : String}
    {streams : List PieceStream} (hne : streams ≠ [])
    (h : List.Forall₂ (Carries lib)
      (buffer.pieces.map fun p => substituted allIntIds finalId p.2) streams) :
    SendsOneMessage (captureAndTranslateSse lib .anthropic model buffer allIntIds finalId) ↔
      (∀ id ∈ allIntIds, id ≠ finalId → id ≠ "") ∧
        ((allRuns streams).map StepRun.block).Nodup ∧
        (∀ run ∈ (allRuns streams).dropLast, run.stopped = true) ∧
        lib.accepts (passedOn (streams.getLast hne).completed).1
          (passedOn (streams.getLast hne).completed).2 = true := by
  have hidsIff : (∀ id ∈ allIntIds.filter (· ≠ finalId), id ≠ "") ↔
      ∀ id ∈ allIntIds, id ≠ finalId → id ≠ "" := by simp
  by_cases hids : ∀ id ∈ allIntIds.filter (· ≠ finalId), id ≠ ""
  · rw [capture_eq h hids, translateEvents_anthropic _ _ (countP_completed streams),
      translated_streams streams hne, ← hidsIff]
    simp only
    by_cases haccepts : lib.accepts (passedOn (streams.getLast hne).completed).1
        (passedOn (streams.getLast hne).completed).2 = true
    · obtain ⟨usage, husage⟩ := External.accepts_iff.mp haccepts
      rw [husage]
      have hmessage := wellFormedMessage_iff (streams.head hne).created.id model usage
        (closeLast (allRuns streams))
      rw [closeLast_blocks, closeLast_stopped_iff] at hmessage
      constructor
      · intro ⟨events, hevents, hwell⟩
        have heq := List.map_injective_iff.mpr (fun _ _ => Sent.event.inj)
          (Except.ok.inj hevents)
        rw [← heq] at hwell
        exact ⟨hids, (hmessage.mp hwell).1, (hmessage.mp hwell).2, haccepts⟩
      · intro ⟨_, hdistinct, hstopped, _⟩
        exact ⟨_, rfl, hmessage.mpr ⟨hdistinct, hstopped⟩⟩
    · rw [External.not_accepts_iff.mp haccepts]
      constructor
      · intro ⟨events, hevents, _⟩
        exact absurd hevents (by simp)
      · intro hall
        exact absurd hall.2.2.2 haccepts
  · have hpieces : buffer.pieces ≠ [] := by
      intro hnil
      rw [hnil] at h
      exact hne (List.forall₂_nil_left_iff.mp h)
    have hfold := foldlM_substituteId finalId (allIntIds.filter (· ≠ finalId)) buffer
    rw [if_neg (fun hor => hor.elim hpieces hids)] at hfold
    unfold captureAndTranslateSse
    rw [Option.map_eq_none_iff.mp hfold]
    constructor
    · intro ⟨events, hevents, _⟩
      exact absurd hevents (by simp)
    · intro hall
      exact absurd (hidsIff.mpr hall.1) hids

end

/-! ## Pieces with one step each -/

def oneStepStream : PieceStream where
  created := bareInteraction "int-2" "in_progress"
  runs := [{ index := 0, step := .modelOutputStep none, deltas := [], stopped := true }]
  completed := bareInteraction "int-2" "completed"
  distinct := List.nodup_singleton _
  stopped := by simp

def oneStepExternal : External Unit Unit where
  fromStr := oneStepFromStr
  usageOf := crateUsage
  eventToString _ := none
  chunkToString _ := none
  newReverseStreamTranslator _ _ := ()
  processEvent _ _ := ((), [])

def oneStepBytes (id : String) : List UInt8 := encodeUtf8 (streamText (oneStepTexts id))

theorem oneStep_carried : Carries oneStepExternal (oneStepBytes "int-2") oneStepStream :=
  ⟨_, rfl, oneStep_whole, parse_oneStep rfl⟩

/-- A piece whose step has index 1. -/
def laterStepTexts : List (List Char) :=
  [interactionText "created" "int-2" "in_progress",
    "\x7b\"event_type\":\"step.start\",".toList ++ "\"index\":1,\"step\":".toList ++
      "\x7b\"type\":\"model_output\"\x7d\x7d".toList,
    "\x7b\"event_type\":\"step.stop\",".toList ++ "\"index\":1\x7d".toList,
    interactionText "completed" "int-2" "completed"]

def laterStepStream : PieceStream where
  created := bareInteraction "int-2" "in_progress"
  runs := [{ index := 1, step := .modelOutputStep none, deltas := [], stopped := true }]
  completed := bareInteraction "int-2" "completed"
  distinct := List.nodup_singleton _
  stopped := by simp

def knownTexts : List (List Char) := oneStepTexts "int-2" ++ laterStepTexts

/-- `serde_json::from_str` on the texts of both pieces. -/
def twoStepsExternal : External Unit Unit :=
  { oneStepExternal with
    fromStr := fun data => (oneStepEvents ++ laterStepStream.events)[knownTexts.idxOf data]? }

theorem parse_known (texts : List (List Char)) (indexes : List Nat)
    (hpayloads : (splitAll eventEnd (streamText texts)).flatMap payloads = texts)
    (hindexes : texts.map knownTexts.idxOf = indexes) :
    parseEvents twoStepsExternal (streamText texts) =
      indexes.filterMap fun i => (oneStepEvents ++ laterStepStream.events)[i]? := by
  unfold parseEvents
  rw [hpayloads, ← hindexes, List.filterMap_map]
  rfl

theorem twoSteps_first : Carries twoStepsExternal (oneStepBytes "int-2") oneStepStream :=
  ⟨_, rfl, oneStep_whole,
    parse_known (oneStepTexts "int-2") [0, 1, 2, 3] (by decide +kernel) (by decide +kernel)⟩

theorem twoSteps_later :
    Carries twoStepsExternal (encodeUtf8 (streamText laterStepTexts)) laterStepStream :=
  ⟨_, rfl, by decide +kernel,
    parse_known laterStepTexts [0, 5, 6, 3] (by decide +kernel) (by decide +kernel)⟩

/-- The indexes 0 and 1 make one message of two pieces. -/
theorem merged_message_iff_twoPieces :
    SendsOneMessage (captureAndTranslateSse twoStepsExternal .anthropic "model"
      (bufferOf [(0, oneStepBytes "int-1"), (1, encodeUtf8 (streamText laterStepTexts))] (by decide))
      ["int-1", "int-2"] "int-2") := by
  have hreplaced : replaceAll (bytesOf "int-1") (bytesOf "int-2") (oneStepBytes "int-1") =
        oneStepBytes "int-2" ∧
      replaceAll (bytesOf "int-1") (bytesOf "int-2") (encodeUtf8 (streamText laterStepTexts)) =
        encodeUtf8 (streamText laterStepTexts) := by
    decide +kernel
  have hne : [oneStepStream, laterStepStream] ≠ [] := List.cons_ne_nil _ _
  refine (merged_message_iff hne ?_).mpr
    ⟨by simp, by decide, by decide, rfl⟩
  have hdata : ((bufferOf [(0, oneStepBytes "int-1"),
      (1, encodeUtf8 (streamText laterStepTexts))] (by decide)).pieces.map fun p =>
        substituted ["int-1", "int-2"] "int-2" p.2) =
      [oneStepBytes "int-2", encodeUtf8 (streamText laterStepTexts)] := by
    simp [bufferOf, substituted, hreplaced]
  rw [hdata]
  exact List.Forall₂.cons twoSteps_first (List.Forall₂.cons twoSteps_later List.Forall₂.nil)

/-- Two pieces that both have a step at index 0. -/
theorem merged_message_not_always :
    ¬ ∀ (lib : External Unit Unit) (model : String) (buffer : MemSseBuffer)
        (allIntIds : List String) (finalId : String) (streams : List PieceStream), streams ≠ [] →
      List.Forall₂ (Carries lib)
        (buffer.pieces.map fun p => substituted allIntIds finalId p.2) streams →
      SendsOneMessage (captureAndTranslateSse lib .anthropic model buffer allIntIds finalId) := by
  intro hall
  let ids := ["int-1", "int-2"]
  let buffer := bufferOf [(0, oneStepBytes "int-1"), (1, oneStepBytes "int-2")] (by simp)
  have hreplaced : replaceAll (bytesOf "int-1") (bytesOf "int-2") (oneStepBytes "int-1") =
        oneStepBytes "int-2" ∧
      replaceAll (bytesOf "int-1") (bytesOf "int-2") (oneStepBytes "int-2") =
        oneStepBytes "int-2" := by
    decide +kernel
  have hdata : (buffer.pieces.map fun p => substituted ids "int-2" p.2) =
      [oneStepBytes "int-2", oneStepBytes "int-2"] := by
    simp [buffer, bufferOf, ids, substituted, hreplaced]
  have hstreams : List.Forall₂ (Carries oneStepExternal)
      (buffer.pieces.map fun p => substituted ids "int-2" p.2) [oneStepStream, oneStepStream] := by
    rw [hdata]
    exact List.Forall₂.cons oneStep_carried (List.Forall₂.cons oneStep_carried List.Forall₂.nil)
  obtain ⟨events, hevents, hwell⟩ := hall oneStepExternal "model" buffer ids "int-2"
    [oneStepStream, oneStepStream] (List.cons_ne_nil _ _) hstreams
  rw [capture_eq hstreams (by simp [ids])] at hevents
  have htranslated : translateEvents oneStepExternal .anthropic "model"
      ([oneStepStream, oneStepStream].flatMap PieceStream.events) =
        some ([.messageStart "int-2" "model" 0 0, .contentBlockStart 0 .text, .contentBlockStop 0,
          .contentBlockStart 0 .text, .contentBlockStop 0, 
          .messageDelta "end_turn" { inputTokens := none, outputTokens := some 0 },
          .messageStop].map Sent.event) := rfl
  rw [htranslated] at hevents
  have heq := List.map_injective_iff.mpr (fun _ _ => Sent.event.inj) (Except.ok.inj hevents)
  rw [← heq] at hwell
  have hcounts := (hwell.blocks 0).counts.1
  exact absurd hcounts (by decide)

end InfSplitter.Streams
