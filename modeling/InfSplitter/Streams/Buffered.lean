import InfSplitter.Lib.Replace
import InfSplitter.Streams.Sse

/-!
# The answer to a streamed split send

Every piece of a split send is answered by a stream of its own. The bytes are kept in a
`MemSseBuffer` until all pieces are answered; then the ids of the pieces are replaced by the id of
the last one, everything is read as one text, and of the `interaction.created` and
`interaction.completed` events of all pieces only the first and the last are translated.

What is dropped is decided in the same loop that translates. `controlled` is the list of events that
pass, and the loop is the plain translation of them (`secondPass_eq`).
-/

set_option autoImplicit false

namespace InfSplitter.Streams

open Interactions Lib Responses

/-! ## The buffer -/

/-- The bytes of an id. -/
def bytesOf (id : String) : List UInt8 := encodeUtf8 id.toList

/-- Bytes by piece index. -/
structure MemSseBuffer where
  pieces : List (Nat × List UInt8)
  limitBytes : Nat
  currentBytes : Nat
  sorted : (pieces.map Prod.fst).Pairwise (· < ·)

namespace MemSseBuffer

def pushPiece (pieceIndex : Nat) (bytes : List UInt8) :
    List (Nat × List UInt8) → List (Nat × List UInt8)
  | [] => [(pieceIndex, bytes)]
  | (index, data) :: rest =>
    if pieceIndex = index then (index, data ++ bytes) :: rest
    else if pieceIndex < index then (pieceIndex, bytes) :: (index, data) :: rest
    else (index, data) :: pushPiece pieceIndex bytes rest

theorem mem_pushPiece {pieceIndex index : Nat} {bytes : List UInt8}
    {pieces : List (Nat × List UInt8)}
    (h : index ∈ (pushPiece pieceIndex bytes pieces).map Prod.fst) :
    index = pieceIndex ∨ index ∈ pieces.map Prod.fst := by
  induction pieces with
  | nil => simpa [pushPiece] using h
  | cons piece rest ih =>
    unfold pushPiece at h
    split at h
    · exact Or.inr h
    · split at h
      · exact List.mem_cons.mp h
      · rcases List.mem_cons.mp h with h | h
        · exact Or.inr (List.mem_cons.mpr (Or.inl h))
        · exact (ih h).imp_right (List.mem_cons_of_mem _)

theorem length_pushPiece (pieceIndex : Nat) (bytes : List UInt8)
    (pieces : List (Nat × List UInt8)) :
    ((pushPiece pieceIndex bytes pieces).flatMap Prod.snd).length =
      (pieces.flatMap Prod.snd).length + bytes.length := by
  induction pieces with
  | nil => simp [pushPiece]
  | cons piece rest ih =>
    unfold pushPiece
    split
    · simp only [List.flatMap_cons, List.length_append]
      omega
    · split
      · simp only [List.flatMap_cons, List.length_append]
        omega
      · simp only [List.flatMap_cons, List.length_append, ih]
        omega

theorem pushPiece_sorted (pieceIndex : Nat) (bytes : List UInt8)
    {pieces : List (Nat × List UInt8)} (h : (pieces.map Prod.fst).Pairwise (· < ·)) :
    ((pushPiece pieceIndex bytes pieces).map Prod.fst).Pairwise (· < ·) := by
  induction pieces with
  | nil => simp [pushPiece]
  | cons piece rest ih =>
    rw [List.map_cons, List.pairwise_cons] at h
    unfold pushPiece
    split
    · exact List.pairwise_cons.mpr h
    · split
      · next hlt =>
        refine List.pairwise_cons.mpr ⟨?_, List.pairwise_cons.mpr h⟩
        intro index hindex
        rcases List.mem_cons.mp hindex with rfl | hindex
        · exact hlt
        · exact Nat.lt_trans hlt (h.1 index hindex)
      · refine List.pairwise_cons.mpr ⟨?_, ih h.2⟩
        intro index hindex
        rcases mem_pushPiece hindex with rfl | hindex
        · omega
        · exact h.1 index hindex

/-- `none` is an overflow. -/
def push (buffer : MemSseBuffer) (pieceIndex : Nat) (bytes : List UInt8) : Option MemSseBuffer :=
  if buffer.currentBytes + bytes.length > buffer.limitBytes then none
  else some
    { pieces := pushPiece pieceIndex bytes buffer.pieces
      limitBytes := buffer.limitBytes
      currentBytes := buffer.currentBytes + bytes.length
      sorted := pushPiece_sorted pieceIndex bytes buffer.sorted }

/-- `windows(0)` panics, so an empty id must not be searched: `none`. -/
def substituteId (buffer : MemSseBuffer) (id final : String) : Option MemSseBuffer :=
  if bytesOf id = [] ∧ buffer.pieces ≠ [] then none
  else some
    { buffer with
      pieces := buffer.pieces.map fun p => (p.1, replaceAll (bytesOf id) (bytesOf final) p.2)
      sorted := by simpa [List.map_map, Function.comp_def] using buffer.sorted }

def drain (buffer : MemSseBuffer) : List UInt8 := buffer.pieces.flatMap Prod.snd

theorem drain_eq (buffer : MemSseBuffer) : buffer.drain = (buffer.pieces.map Prod.snd).flatten := by
  unfold drain
  rw [List.flatMap_def]

def DEFAULT_SSE_BUFFER_LIMIT : Nat := 104857600

def default : MemSseBuffer :=
  { pieces := [], limitBytes := DEFAULT_SSE_BUFFER_LIMIT, currentBytes := 0
    sorted := List.Pairwise.nil }

end MemSseBuffer

/-! ## Replacing the ids -/

theorem bytesOf_eq_nil_iff (id : String) : bytesOf id = [] ↔ id = "" := by
  unfold bytesOf encodeUtf8
  rw [List.flatMap_eq_nil_iff]
  constructor
  · intro h
    have hnil : id.toList = [] := by
      rw [List.eq_nil_iff_forall_not_mem]
      exact fun c hc => utf8EncodeChar_ne_nil c (h c hc)
    simpa using hnil
  · intro h
    simp [h]

theorem bytesOf_inj {id id' : String} : bytesOf id = bytesOf id' ↔ id = id' := by
  refine ⟨fun h => ?_, congrArg bytesOf⟩
  have hself : fromUtf8 (bytesOf id) = some id.toList := fromUtf8_eq_some_iff.mpr rfl
  rw [fromUtf8_eq_some_iff.mpr h] at hself
  exact (String.toList_inj.mp (Option.some.inj hself)).symm

/-- Substituting every id, as long as none of them is empty. -/
theorem foldlM_substituteId (finalId : String) (ids : List String) (buffer : MemSseBuffer) :
    (ids.foldlM (fun b id => MemSseBuffer.substituteId b id finalId) buffer).map
        (fun b => b.pieces.map Prod.snd) =
      if buffer.pieces = [] ∨ ∀ id ∈ ids, id ≠ "" then
        some (buffer.pieces.map fun p => ids.foldl
          (fun data id => replaceAll (bytesOf id) (bytesOf finalId) data) p.2)
      else none := by
  induction ids generalizing buffer with
  | nil => simp
  | cons id ids ih =>
    rw [List.foldlM_cons]
    by_cases hpanic : bytesOf id = [] ∧ buffer.pieces ≠ []
    · have hstep : buffer.substituteId id finalId = none := if_pos hpanic
      have hcond : ¬ (buffer.pieces = [] ∨ ∀ i ∈ id :: ids, i ≠ "") := by
        rintro (hnil | hall)
        · exact hpanic.2 hnil
        · exact hall id (List.mem_cons_self ..) ((bytesOf_eq_nil_iff id).mp hpanic.1)
      rw [hstep, if_neg hcond]
      rfl
    · have hstep : buffer.substituteId id finalId = some
          { buffer with
            pieces := buffer.pieces.map fun p =>
              (p.1, replaceAll (bytesOf id) (bytesOf finalId) p.2)
            sorted := by simpa [List.map_map, Function.comp_def] using buffer.sorted } :=
        if_neg hpanic
      rw [hstep, Option.bind_eq_bind, Option.bind_some, ih]
      rw [bytesOf_eq_nil_iff] at hpanic
      have hcond : (buffer.pieces = [] ∨ ∀ i ∈ id :: ids, i ≠ "") ↔
          (buffer.pieces = [] ∨ ∀ i ∈ ids, i ≠ "") := by
        rw [List.forall_mem_cons]
        by_cases hp : buffer.pieces = []
        · simp [hp]
        · have hid : id ≠ "" := fun he => hpanic ⟨he, hp⟩
          simp [hid]
      simp only [hcond]
      simp [Function.comp_def]

/-- The bytes of a piece once its ids are replaced. -/
def substituted (allIntIds : List String) (finalId : String) (data : List UInt8) : List UInt8 :=
  (allIntIds.filter (· ≠ finalId)).foldl
    (fun data id => replaceAll (bytesOf id) (bytesOf finalId) data) data

/-! ## The translation of a buffered stream -/

def parseEvents {τ χ : Type} (lib : External τ χ) (text : List Char) : List InteractionSseEvent :=
  ((splitAll eventEnd text).flatMap payloads).filterMap lib.fromStr

/-- What the second pass has seen of the control events. -/
structure Controls where
  seenStart : Bool
  completedSeen : Nat
deriving DecidableEq, Repr

/-- The controls after an event, and whether the event is translated. -/
def Controls.next (completedCount : Nat) (controls : Controls) :
    InteractionSseEvent → Controls × Bool
  | .interactionCreatedEvent _ => ({ controls with seenStart := true }, !controls.seenStart)
  | .interactionCompletedEvent _ =>
    ({ controls with completedSeen := controls.completedSeen + 1 },
      !(controls.completedSeen + 1 < completedCount))
  | _ => (controls, true)

/-- The second pass between two events. -/
structure SecondPass (τ χ : Type) where
  controls : Controls
  lastActiveIndex : Option UInt32
  client : ClientSide τ χ

inductive TranslateError
  | invalidUtf8
  -- not an `Err` of the source: an `.expect` or `windows(0)`
  | panicked
deriving DecidableEq, Repr

section
variable {τ χ : Type} (lib : External τ χ) (ingress : Protocol) (model : String)

def SecondPass.step (completedCount : Nat) (pass : SecondPass τ χ) (event : InteractionSseEvent) :
    Option (SecondPass τ χ) :=
  let (controls, translated) := pass.controls.next completedCount event
  if translated then
    (translateStreamEventFromParsed lib.usageOf model pass.lastActiveIndex event).map fun t =>
      { controls, lastActiveIndex := t.lastActiveIndex
        client := (t.events.getD []).foldl (ClientSide.send lib id ingress model) pass.client }
  else some { pass with controls }

/-- `[DONE]` goes to an OpenAI client whose stream has started and is completed. -/
def finish (completedCount : Nat) (controls : Controls) (client : ClientSide τ χ) :
    List (Sent χ) :=
  if ingress = .openAi ∧ controls.seenStart = true ∧ controls.completedSeen = completedCount then
    client.sent ++ [.done]
  else client.sent

def translateEvents (parsed : List InteractionSseEvent) : Option (List (Sent χ)) :=
  let completedCount := parsed.countP InteractionSseEvent.isCompleted
  (parsed.foldlM (SecondPass.step lib ingress model completedCount)
    { controls := { seenStart := false, completedSeen := 0 }, lastActiveIndex := none
      client := ClientSide.fresh }).map fun pass =>
    finish ingress completedCount pass.controls pass.client

def translateBufferedSseToClient (sseBytes : List UInt8) :
    Except TranslateError (List (Sent χ)) :=
  match fromUtf8 sseBytes with
  | none => .error .invalidUtf8
  | some text =>
    match translateEvents lib ingress model (parseEvents lib text) with
    | none => .error .panicked
    | some sent => .ok sent

def captureAndTranslateSse (sseBuffer : MemSseBuffer) (allIntIds : List String) (finalId : String) :
    Except TranslateError (List (Sent χ)) :=
  match (allIntIds.filter (· ≠ finalId)).foldlM
      (fun buffer id => MemSseBuffer.substituteId buffer id finalId) sseBuffer with
  | none => .error .panicked
  | some buffer => translateBufferedSseToClient lib ingress model buffer.drain

end

/-! ## The second pass as a filter -/

/-- The events the second pass translates. -/
def controlled (completedCount : Nat) : Controls → List InteractionSseEvent →
    List InteractionSseEvent
  | _, [] => []
  | controls, event :: rest =>
    if (controls.next completedCount event).2 then
      event :: controlled completedCount (controls.next completedCount event).1 rest
    else controlled completedCount (controls.next completedCount event).1 rest

def controlsAfter (completedCount : Nat) (controls : Controls)
    (events : List InteractionSseEvent) : Controls :=
  events.foldl (fun c event => (c.next completedCount event).1) controls

def InteractionSseEvent.isControl : InteractionSseEvent → Bool
  | .interactionCreatedEvent _ => true
  | .interactionCompletedEvent _ => true
  | _ => false

theorem controlled_append (n : Nat) (controls : Controls) (a b : List InteractionSseEvent) :
    controlled n controls (a ++ b) =
      controlled n controls a ++ controlled n (controlsAfter n controls a) b := by
  induction a generalizing controls with
  | nil => rfl
  | cons event rest ih =>
    rw [List.cons_append, controlled, controlled, ih]
    split <;> rfl

theorem controlsAfter_append (n : Nat) (controls : Controls) (a b : List InteractionSseEvent) :
    controlsAfter n controls (a ++ b) = controlsAfter n (controlsAfter n controls a) b :=
  List.foldl_append

/-- Only control events are ever dropped or remembered. -/
theorem controlled_plain (n : Nat) (controls : Controls) {events : List InteractionSseEvent}
    (h : ∀ event ∈ events, event.isControl = false) :
    controlled n controls events = events ∧ controlsAfter n controls events = controls := by
  induction events with
  | nil => exact ⟨rfl, rfl⟩
  | cons event rest ih =>
    rw [List.forall_mem_cons] at h
    have hnext : controls.next n event = (controls, true) := by
      cases event <;> first | rfl | exact absurd h.1 (by simp [InteractionSseEvent.isControl])
    have hafter : controlsAfter n controls (event :: rest) =
        controlsAfter n (controls.next n event).1 rest := rfl
    rw [controlled, hafter, hnext]
    exact ⟨congrArg (event :: ·) (ih h.2).1, (ih h.2).2⟩

theorem controlled_passed {n : Nat} {controls next : Controls} {event : InteractionSseEvent}
    (h : controls.next n event = (next, true)) (rest : List InteractionSseEvent) :
    controlled n controls (event :: rest) = event :: controlled n next rest := by
  rw [controlled, h]
  rfl

theorem controlled_dropped {n : Nat} {controls next : Controls} {event : InteractionSseEvent}
    (h : controls.next n event = (next, false)) (rest : List InteractionSseEvent) :
    controlled n controls (event :: rest) = controlled n next rest := by
  rw [controlled, h]
  rfl

section
variable {τ χ : Type} {lib : External τ χ} {ingress : Protocol} {model : String}

/-- **The second pass translates the events that pass**, and sends what they are translated to. -/
theorem secondPass_eq (lib : External τ χ) (ingress : Protocol) (model : String)
    (completedCount : Nat) (events : List InteractionSseEvent) (pass : SecondPass τ χ) :
    (events.foldlM (SecondPass.step lib ingress model completedCount) pass).map
        (fun p => (p.controls, p.client)) =
      (translateAll lib.usageOf model pass.lastActiveIndex
          (controlled completedCount pass.controls events)).map
        (fun translated => (controlsAfter completedCount pass.controls events,
          translated.foldl (ClientSide.send lib id ingress model) pass.client)) := by
  induction events generalizing pass with
  | nil => rfl
  | cons event rest ih =>
    rw [List.foldlM_cons, SecondPass.step, controlled]
    cases hnext : (pass.controls.next completedCount event).2 with
    | false =>
      have hstep : pass.controls.next completedCount event =
          ((pass.controls.next completedCount event).1, false) := by rw [← hnext]
      rw [hstep]
      exact ih _
    | true =>
      have hstep : pass.controls.next completedCount event =
          ((pass.controls.next completedCount event).1, true) := by rw [← hnext]
      rw [hstep, if_pos rfl]
      cases ht : translateStreamEventFromParsed lib.usageOf model pass.lastActiveIndex event with
      | none => simp [translateAll, ht]
      | some t =>
        rw [translateAll_cons ht, Option.map_map]
        simp only [if_true, Option.map_some, Option.bind_eq_bind, Option.bind_some]
        rw [ih]
        simp [Function.comp_def, List.foldl_append, controlsAfter]

/-- What is sent is a function of the events that pass and of the controls. -/
theorem translateEvents_eq (parsed : List InteractionSseEvent) (completedCount : Nat)
    (hcount : parsed.countP InteractionSseEvent.isCompleted = completedCount) :
    translateEvents lib ingress model parsed =
      (translateAll lib.usageOf model none
          (controlled completedCount { seenStart := false, completedSeen := 0 } parsed)).map
        fun translated => finish ingress completedCount
          (controlsAfter completedCount { seenStart := false, completedSeen := 0 } parsed)
          (translated.foldl (ClientSide.send lib id ingress model) ClientSide.fresh) := by
  have hpass := congrArg (Option.map fun p => finish ingress completedCount p.1 p.2)
    (secondPass_eq lib ingress model completedCount parsed
      { controls := { seenStart := false, completedSeen := 0 }, lastActiveIndex := none
        client := ClientSide.fresh })
  rw [Option.map_map, Option.map_map] at hpass
  unfold translateEvents
  rw [hcount]
  exact hpass

/-- An Anthropic client is sent every event as it is. -/
theorem foldl_send_anthropic (pick : List χ → List χ) (events : List StreamEvent)
    (client : ClientSide τ χ) :
    events.foldl (ClientSide.send lib pick .anthropic model) client =
      { client with sent := client.sent ++ events.map Sent.event } := by
  induction events generalizing client with
  | nil => simp
  | cons event rest ih =>
    rw [List.foldl_cons, ih]
    simp [ClientSide.send]

theorem translateEvents_anthropic (parsed : List InteractionSseEvent) (completedCount : Nat)
    (hcount : parsed.countP InteractionSseEvent.isCompleted = completedCount) :
    translateEvents lib .anthropic model parsed =
      (translateAll lib.usageOf model none
          (controlled completedCount { seenStart := false, completedSeen := 0 } parsed)).map
        fun translated => translated.map Sent.event := by
  rw [translateEvents_eq parsed completedCount hcount]
  congr 1
  funext translated
  rw [foldl_send_anthropic]
  simp [finish, ClientSide.fresh]

theorem payloads_nil : payloads [] = [] := rfl

theorem parseEvents_append {a : List Char} (h : (frames eventEnd a).2 = []) (b : List Char) :
    parseEvents lib (a ++ b) = parseEvents lib a ++ parseEvents lib b := by
  unfold parseEvents splitAll
  rw [frames_append_of_whole eventEnd_ne_nil h, h]
  simp [payloads_nil, List.filterMap_append]

end

/-! ## A stream with one step -/

def bufferOf (pieces : List (Nat × List UInt8)) (sorted : (pieces.map Prod.fst).Pairwise (· < ·)) :
    MemSseBuffer :=
  { pieces, limitBytes := 104857600, currentBytes := (pieces.map fun p => p.2.length).sum, sorted }

def interactionText (type id status : String) : List Char :=
  "\x7b\"event_type\":\"interaction.".toList ++ type.toList ++
    "\",\"interaction\":\x7b\"id\":\"".toList ++ id.toList ++ "\",\"status\":\"".toList ++
    status.toList ++ "\"\x7d\x7d".toList

def stepStartText : List Char :=
  "\x7b\"event_type\":\"step.start\",".toList ++ "\"index\":0,\"step\":".toList ++
    "\x7b\"type\":\"model_output\"\x7d\x7d".toList

def stepStopText : List Char :=
  "\x7b\"event_type\":\"step.stop\",".toList ++ "\"index\":0\x7d".toList

/-- Created, one step at index 0, completed. -/
def oneStepTexts (id : String) : List (List Char) :=
  [interactionText "created" id "in_progress", stepStartText, stepStopText,
    interactionText "completed" id "completed"]

def streamText (texts : List (List Char)) : List Char :=
  texts.flatMap fun payload => "data: ".toList ++ payload ++ eventEnd

def bareInteraction (id status : String) : Interaction :=
  { id, status, created := none, updated := none, steps := none, model := none, usage := none }

def oneStepEvents : List InteractionSseEvent :=
  [.interactionCreatedEvent (bareInteraction "int-2" "in_progress"),
    .stepStart 0 (.modelOutputStep none), .stepStop 0,
    .interactionCompletedEvent (bareInteraction "int-2" "completed")]

/-- `serde_json::from_str` on the texts of `int-2`. -/
def oneStepFromStr (data : List Char) : Option InteractionSseEvent :=
  oneStepEvents[(oneStepTexts "int-2").idxOf data]?

theorem oneStep_whole : (frames eventEnd (streamText (oneStepTexts "int-2"))).2 = [] := by
  decide +kernel

theorem parse_oneStep {τ χ : Type} {lib : External τ χ} (h : lib.fromStr = oneStepFromStr) :
    parseEvents lib (streamText (oneStepTexts "int-2")) = oneStepEvents := by
  have hpayloads : (splitAll eventEnd (streamText (oneStepTexts "int-2"))).flatMap payloads =
      oneStepTexts "int-2" := by
    decide +kernel
  have hindexes : (oneStepTexts "int-2").map (oneStepTexts "int-2").idxOf = [0, 1, 2, 3] := by
    decide +kernel
  have hparse : parseEvents lib (streamText (oneStepTexts "int-2")) =
      ((oneStepTexts "int-2").map (oneStepTexts "int-2").idxOf).filterMap fun i =>
        oneStepEvents[i]? := by
    unfold parseEvents
    rw [hpayloads, h, List.filterMap_map]
    rfl
  rw [hparse, hindexes]
  rfl

end InfSplitter.Streams
