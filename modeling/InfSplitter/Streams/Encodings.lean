import InfSplitter.Streams.Lines
import InfSplitter.Streams.Readers

/-!
# Streams that are written differently

The same events can be written with `\n` or with `\r\n` at the end of a line, and with or without a
space behind `data:`. `EventStream.encode` writes them in each of the four ways, and the five
readers are compared on what it writes.

The buffered translation reads all four alike. The two that look for `\n\n` find no event where
lines end with `\r\n`, and the two that look for `data: ` find no data where the space is missing.
So two ways of writing a stream are read alike exactly if they do not differ in what some reader
needs to read it (`read_alike_iff`).
-/

set_option autoImplicit false

namespace InfSplitter.Streams

open Interactions Lib

/-! ## Events and how they are written -/

/-- A line of an event. A value that begins with a space could not be written without the optional
one. -/
inductive EventLine
  | data (value : List Char) (oneLine : '\n' ∉ value ∧ '\r' ∉ value)
      (plain : ¬ [' '] <+: value)
  | other (text : List Char) (oneLine : '\n' ∉ text ∧ '\r' ∉ text) (nonempty : text ≠ [])
      (notData : ¬ "data:".toList <+: text)

/-- The lines of one event after another. -/
abbrev EventStream := List (List EventLine)

structure Encoding where
  crlf : Bool
  space : Bool
deriving DecidableEq, Repr

/-- What stands in front of the `\n`. -/
def Encoding.return (e : Encoding) : List Char := if e.crlf then ['\r'] else []

def Encoding.dataStart (e : Encoding) : List Char :=
  if e.space then "data: ".toList else "data:".toList

def EventLine.encode (e : Encoding) : EventLine → List Char
  | .data value _ _ => e.dataStart ++ value
  | .other text _ _ _ => text

/-- The lines of a stream, an empty one behind each event. -/
def EventStream.lines (e : Encoding) (events : EventStream) : List (List Char) :=
  events.flatMap fun event => event.map (EventLine.encode e) ++ [[]]

def EventStream.encode (e : Encoding) (events : EventStream) : List Char :=
  (events.lines e).flatMap fun line => line ++ e.return ++ ['\n']

def EventLine.value? : EventLine → Option (List Char)
  | .data value _ _ => some (trim value)
  | .other .. => none

/-- The values of the data lines. -/
def EventStream.values (events : EventStream) : List (List Char) :=
  events.flatten.filterMap EventLine.value?

/-! ## The line readers -/

/-- The parts of third-party crates behind the stream converters: `τ` is the state of a
`StreamingTranslator`, `χ` a `ChatCompletionChunk` and `ε` a `StreamEvent`. -/
structure LineExternal (τ χ ε : Type) where
  /-- `serde_json::from_str::<ChatCompletionChunk>` -/
  chunkFromStr : List Char → Option χ
  newStreamingTranslator : String → τ
  processChunk : τ → χ → τ × List ε
  finish : τ → τ × List ε
  /-- `serde_json::from_str::<StreamEvent>` -/
  eventFromStr : List Char → Option ε

/-- The lines both converters go through. -/
def streamLines (text : List Char) : List (List Char) := (frames ['\n'] text).1.map trimReturns

section
variable {τ χ ε : Type} (ext : LineExternal τ χ ε)

def parseSseLine (line : List Char) (translator : τ) : τ × Option (List ε) :=
  match stripPrefix "data: ".toList line with
  | none => (translator, none)
  | some data =>
    if trim data = "[DONE]".toList then
      ((ext.finish translator).1, some (ext.finish translator).2)
    else
      match ext.chunkFromStr (trim data) with
      | none => (translator, none)
      | some chunk =>
        ((ext.processChunk translator chunk).1, some (ext.processChunk translator chunk).2)

def parseAnthropicSseEvent (line : List Char) : Option ε :=
  (stripPrefix "data: ".toList line).bind fun data =>
    if trim data = [] then none else ext.eventFromStr (trim data)

/-- What `parse_sse_line` answers to one line after another, where it answers. -/
def answers : τ → List (List Char) → List (List ε)
  | _, [] => []
  | translator, line :: rest =>
    match parseSseLine ext line translator with
    | (next, some events) => events :: answers next rest
    | (next, none) => answers next rest

end

/-! ## What is asked of two ways to write a stream -/

section
variable {τ χ τ' χ' ε : Type} (lib : External τ χ) (ext : LineExternal τ' χ' ε)

structure SameReadings (a b : List Char) : Prop where
  events : wholeEvents lib a = wholeEvents lib b
  live : ∀ ingress model,
    liveTranslation lib ingress model a = liveTranslation lib ingress model b
  buffered : ∀ ingress model, translateBufferedSseToClient lib ingress model (encodeUtf8 a) =
    translateBufferedSseToClient lib ingress model (encodeUtf8 b)
  interactionId : (parseSseForInteractionId lib a).1 = (parseSseForInteractionId lib b).1
  sseLines : ∀ model, answers ext (ext.newStreamingTranslator model) (streamLines a) =
    answers ext (ext.newStreamingTranslator model) (streamLines b)
  anthropicLines : (streamLines a).filterMap (parseAnthropicSseEvent ext) =
    (streamLines b).filterMap (parseAnthropicSseEvent ext)

/-- No data line is an event of an interaction. -/
def NoInteractionEvents (events : EventStream) : Prop :=
  ∀ value ∈ events.values, value ≠ [] → value ≠ "[DONE]".toList → lib.fromStr value = none

/-- No data line is a chunk or an event of the two protocols, nor the end of the chunks. -/
def NoProtocolEvents (events : EventStream) : Prop :=
  ∀ value ∈ events.values, value ≠ "[DONE]".toList ∧ ext.chunkFromStr value = none ∧
    (value ≠ [] → ext.eventFromStr value = none)

end

/-! ## The lines of an encoded stream -/

section
variable {e : Encoding} {line : EventLine}

theorem dataStart_oneLine (e : Encoding) : '\n' ∉ e.dataStart ∧ '\r' ∉ e.dataStart := by
  unfold Encoding.dataStart
  split <;> decide

theorem encode_oneLine (e : Encoding) (line : EventLine) :
    '\n' ∉ line.encode e ∧ '\r' ∉ line.encode e := by
  cases line with
  | data value oneLine plain =>
    obtain ⟨hn, hr⟩ := dataStart_oneLine e
    simp [EventLine.encode, hn, hr, oneLine]
  | other text oneLine => exact oneLine

theorem lines_oneLine {events : EventStream} {text : List Char} (h : text ∈ events.lines e) :
    '\n' ∉ text ∧ '\r' ∉ text := by
  obtain ⟨event, _, hin⟩ := List.mem_flatMap.mp h
  rcases List.mem_append.mp hin with hline | hempty
  · obtain ⟨line, _, rfl⟩ := List.mem_map.mp hline
    exact encode_oneLine e line
  · rw [List.mem_singleton.mp hempty]
    simp

theorem return_no_break (e : Encoding) : '\n' ∉ e.return := by
  unfold Encoding.return
  split <;> decide

theorem cutAt_lineBreak {text : List Char} (h : '\n' ∉ text) (rest : List Char) :
    cutAt ['\n'] (text ++ '\n' :: rest) = some (text, rest) := by
  refine cutAt_eq_some_iff.mpr ⟨by simp, fun earlier hearlier => ?_⟩
  by_contra hlt
  have hin : earlier ++ ['\n'] <+: text :=
    List.prefix_of_prefix_length_le hearlier (List.prefix_append _ _)
      (by rw [List.length_append, List.length_singleton]; omega)
  exact h (hin.subset (by simp))

/-- Lines that are written one after another are read one after another. -/
theorem frames_lines {lines : List (List Char)} (h : ∀ line ∈ lines, '\n' ∉ line) :
    frames ['\n'] (lines.flatMap (· ++ ['\n'])) = (lines, []) := by
  induction lines with
  | nil => rfl
  | cons line lines ih =>
    rw [List.forall_mem_cons] at h
    rw [List.flatMap_cons, List.append_assoc, List.singleton_append,
      frames_of_some lineBreak_ne_nil (cutAt_lineBreak h.1 _), ih h.2]

theorem frames_encode (e : Encoding) (events : EventStream) :
    frames ['\n'] (events.encode e) = ((events.lines e).map (· ++ e.return), []) := by
  have hbreaks : ∀ line ∈ (events.lines e).map (· ++ e.return), '\n' ∉ line := by
    intro line hline
    obtain ⟨text, htext, rfl⟩ := List.mem_map.mp hline
    simp [(lines_oneLine htext).1, return_no_break e]
  have h := frames_lines hbreaks
  rw [List.flatMap_map] at h
  exact h

theorem streamLines_encode (e : Encoding) (events : EventStream) :
    streamLines (events.encode e) = events.lines e := by
  unfold streamLines
  rw [frames_encode, List.map_map]
  refine (List.map_congr_left fun line hline => ?_).trans (List.map_id _)
  have hfree := (lines_oneLine hline).2
  have htrim : ∀ text : List Char, '\r' ∉ text → trimReturns text = text := by
    intro text htext
    unfold trimReturns
    cases hrev : text.reverse with
    | nil => simpa using hrev.symm
    | cons c rest =>
      have hc : c ≠ '\r' := by
        rintro rfl
        exact htext (List.mem_reverse.mp (hrev ▸ List.mem_cons_self))
      rw [List.dropWhile_cons_of_neg (by simpa using hc), ← hrev, List.reverse_reverse]
  unfold Encoding.return
  dsimp only [Function.comp]
  split
  · unfold trimReturns
    rw [List.reverse_append]
    exact htrim line hfree
  · rw [List.append_nil, htrim line hfree]
    rfl

/-! ## What is read of one line -/

theorem not_prefix_other {text : List Char} (h : ¬ "data:".toList <+: text) :
    stripPrefix "data: ".toList text = none ∧ stripPrefix "data:".toList text = none := by
  refine ⟨if_neg fun hp => h ?_, if_neg h⟩
  exact (by decide : "data:".toList <+: "data: ".toList).trans hp

theorem stripPrefix_space (value : List Char) :
    stripPrefix "data: ".toList ("data: ".toList ++ value) = some value := by
  unfold stripPrefix
  rw [if_pos (List.prefix_append _ _), List.drop_left]

theorem stripPrefix_no_space {value : List Char} (plain : ¬ [' '] <+: value) :
    stripPrefix "data: ".toList ("data:".toList ++ value) = none ∧
      stripPrefix "data:".toList ("data:".toList ++ value) = some value := by
  constructor
  · refine if_neg fun h => plain ?_
    exact (List.prefix_append_right_inj "data:".toList).mp h
  · unfold stripPrefix
    rw [if_pos (List.prefix_append _ _), List.drop_left]

/-- **A data line is read alike, however it is written.** -/
theorem payload?_encode (e : Encoding) (line : EventLine) :
    payload? (line.encode e ++ e.return) =
      line.value?.bind fun data => if data = [] ∨ data = "[DONE]".toList then none else some data := by
  have hreturn : payload? (line.encode e ++ e.return) = payload? (line.encode e) := by
    unfold Encoding.return
    split
    · exact payload?_return _
    · rw [List.append_nil]
  rw [hreturn]
  unfold payload?
  cases line with
  | data value oneLine plain =>
    unfold EventLine.encode Encoding.dataStart EventLine.value?
    dsimp only
    split
    · rw [stripPrefix_space]
      rfl
    · rw [(stripPrefix_no_space plain).1, (stripPrefix_no_space plain).2]
      rfl
  | other text oneLine nonempty notData =>
    unfold EventLine.encode EventLine.value?
    dsimp only
    rw [(not_prefix_other notData).1, (not_prefix_other notData).2]
    rfl

/-- The data that is read at all. -/
def EventStream.payloads (events : EventStream) : List (List Char) :=
  events.values.filter fun data => ¬ (data = [] ∨ data = "[DONE]".toList)

theorem payloads_encode (e : Encoding) (events : EventStream) :
    Streams.payloads (events.encode e) = events.payloads := by
  have hlines : ∀ event : List EventLine,
      ((event.map (EventLine.encode e) ++ [[]]).map (· ++ e.return)).filterMap payload? =
        (event.filterMap EventLine.value?).filter
          fun data => ¬ (data = [] ∨ data = "[DONE]".toList) := by
    intro event
    have hempty : payload? ([] ++ e.return) = none := by
      unfold Encoding.return
      split <;> rfl
    rw [List.map_append, List.filterMap_append, List.map_cons, List.map_nil,
      List.filterMap_cons_none hempty, List.filterMap_nil, List.append_nil, List.map_map,
      List.filterMap_map, ← List.filterMap_eq_filter, List.filterMap_filterMap]
    refine List.filterMap_congr fun line _ => ?_
    refine (payload?_encode e line).trans ?_
    cases line.value? with
    | none => rfl
    | some data => simp only [Option.bind_some, Option.guard]; split <;> simp_all
  rw [payloads_eq, rawLines, splitAll, frames_encode]
  unfold EventStream.lines EventStream.payloads EventStream.values
  rw [List.filterMap_append, List.filterMap_cons_none payload?_nil, List.filterMap_nil,
    List.append_nil, List.map_flatMap, List.filterMap_flatMap]
  induction events with
  | nil => rfl
  | cons event events ih =>
    rw [List.flatMap_cons, hlines, ih, List.flatten_cons, List.filterMap_append,
      List.filter_append]

end

/-! ## The readers of whole events -/

/-- With `\n` at the end of a line, a stream ends with an event, if it has anything in it. -/
theorem encode_short_or_ends {e : Encoding} (he : e.crlf = false) (events : EventStream) :
    (events.encode e = [] ∨ events.encode e = ['\n']) ∨ eventEnd <:+ events.encode e := by
  have hreturn : e.return = [] := by simp [Encoding.return, he]
  have hcut : ∀ init : List (List Char), (init ++ [[]]).flatMap (fun line => line ++ e.return ++
      ['\n']) = init.flatMap (· ++ ['\n']) ++ ['\n'] := by
    simp [hreturn]
  have hends : ∀ init : List (List Char), init ≠ [] →
      eventEnd <:+ init.flatMap (· ++ ['\n']) ++ ['\n'] := by
    intro init hne
    obtain ⟨front, last, rfl⟩ := (List.eq_nil_or_concat' init).resolve_left hne
    refine ⟨front.flatMap (· ++ ['\n']) ++ last, ?_⟩
    simp [eventEnd]
  rcases List.eq_nil_or_concat' events with rfl | ⟨front, last, rfl⟩
  · exact Or.inl (Or.inl rfl)
  · have hlines : EventStream.lines e (front ++ [last]) =
        (EventStream.lines e front ++ last.map (EventLine.encode e)) ++ [[]] := by
      simp [EventStream.lines]
    unfold EventStream.encode
    rw [hlines, hcut]
    by_cases hne : EventStream.lines e front ++ last.map (EventLine.encode e) = []
    · rw [hne]
      exact Or.inl (Or.inr rfl)
    · exact Or.inr (hends _ hne)

/-- Where lines end with `\n`, the events are found. -/
theorem frames_lf {e : Encoding} (he : e.crlf = false) (events : EventStream) :
    (frames eventEnd (events.encode e)).1.flatMap Streams.payloads = events.payloads := by
  rw [← payloads_encode e]
  rcases encode_short_or_ends he events with hshort | hends
  · rw [payloads_short hshort]
    rcases hshort with h | h <;> rw [h] <;> rfl
  · exact payloads_whole hends

/-- Where lines end with `\r\n`, no line is empty before the last. -/
theorem frames_crlf {e : Encoding} (he : e.crlf = true) (events : EventStream) :
    (frames eventEnd (events.encode e)).1 = [] := by
  have hfree : ¬ eventEnd <:+: events.encode e := by
    intro ⟨before, after, htext⟩
    have hlines : rawLines (events.encode e) = (events.lines e).map (· ++ ['\r']) ++ [[]] := by
      unfold rawLines splitAll
      rw [frames_encode, Encoding.return, if_pos he]
    have hbreaks : before ++ eventEnd ++ after = before ++ '\n' :: ([] ++ '\n' :: after) := by
      simp [eventEnd]
    have hafter : rawLines after ≠ [] := by simp [rawLines, splitAll]
    rw [← htext, hbreaks, rawLines_break, rawLines_break, ← List.append_assoc] at hlines
    have hfront := congrArg List.dropLast hlines
    rw [List.dropLast_append_of_ne_nil hafter, List.dropLast_concat] at hfront
    have hempty : [] ∈ (events.lines e).map (· ++ ['\r']) := by
      rw [← hfront]
      simp [rawLines, splitAll, frames, framesFrom]
    simp at hempty
  rw [frames_of_none ((cutAt_eq_none_iff eventEnd_ne_nil).mpr hfree)]

section
variable {τ χ : Type} (lib : External τ χ)

/-- The events of an interaction that the data lines are. -/
def EventStream.interactionEvents (events : EventStream) : List InteractionSseEvent :=
  events.payloads.filterMap lib.fromStr

theorem wholeEvents_encode (e : Encoding) (events : EventStream) :
    wholeEvents lib (events.encode e) =
      if e.crlf then [] else events.interactionEvents lib := by
  unfold wholeEvents EventStream.interactionEvents
  by_cases he : e.crlf
  · rw [if_pos he, frames_crlf he]
    rfl
  · rw [if_neg he, frames_lf (by simpa using he)]

theorem parseEvents_encode (e : Encoding) (events : EventStream) :
    parseEvents lib (events.encode e) = events.interactionEvents lib := by
  unfold parseEvents EventStream.interactionEvents
  rw [payloads_splitAll, payloads_encode]

theorem interactionEvents_eq_nil_iff (events : EventStream) :
    events.interactionEvents lib = [] ↔ NoInteractionEvents lib events := by
  unfold EventStream.interactionEvents EventStream.payloads NoInteractionEvents
  rw [List.filterMap_eq_nil_iff]
  simp only [List.mem_filter, decide_eq_true_eq, not_or, and_imp]

/-- A payload that is no event is passed over, and of the others the event is all that counts. -/
theorem foldl_onPayload_congr (ingress : Protocol) (model : String) {a b : List (List Char)}
    (h : a.filterMap lib.fromStr = b.filterMap lib.fromStr) (live : Live τ χ) :
    a.foldl (Live.onPayload lib ingress model) live =
      b.foldl (Live.onPayload lib ingress model) live := by
  have hskip : ∀ {text : List Char}, lib.fromStr text = none → ∀ live : Live τ χ,
      live.onPayload lib ingress model text = live := by
    intro text hnone live
    simp [Live.onPayload, hnone]
  have hsame : ∀ {text text' : List Char}, lib.fromStr text = lib.fromStr text' →
      ∀ live : Live τ χ,
        live.onPayload lib ingress model text = live.onPayload lib ingress model text' := by
    intro text text' heq live
    simp only [Live.onPayload, heq]
  induction a generalizing b live with
  | nil =>
    have hnone := List.filterMap_eq_nil_iff.mp h.symm
    clear h
    induction b with
    | nil => rfl
    | cons text rest ih =>
      rw [List.forall_mem_cons] at hnone
      rw [List.foldl_cons, hskip hnone.1]
      exact ih hnone.2
  | cons text rest ih =>
    cases hfrom : lib.fromStr text with
    | none =>
      rw [List.filterMap_cons_none hfrom] at h
      rw [List.foldl_cons, hskip hfrom]
      exact ih h live
    | some event =>
      rw [List.filterMap_cons_some hfrom] at h
      induction b generalizing live with
      | nil => cases h
      | cons text' rest' ihb =>
        cases hfrom' : lib.fromStr text' with
        | none =>
          rw [List.filterMap_cons_none hfrom'] at h
          rw [List.foldl_cons (l := rest'), hskip hfrom']
          exact ihb live h
        | some event' =>
          rw [List.filterMap_cons_some hfrom', List.cons.injEq] at h
          rw [List.foldl_cons, List.foldl_cons,
            hsame (hfrom.trans ((congrArg some h.1).trans hfrom'.symm))]
          exact ih h.2 _

/-- The live translation depends on the events only. -/
theorem liveTranslation_congr {a b : List Char} (h : wholeEvents lib a = wholeEvents lib b)
    (ingress : Protocol) (model : String) :
    liveTranslation lib ingress model a = liveTranslation lib ingress model b := by
  rw [liveTranslation_eq, liveTranslation_eq]
  exact foldl_onPayload_congr lib ingress model h _

/-- The id that is found is that of the first event that has one. -/
theorem interactionId_eq (text : List Char) :
    (parseSseForInteractionId lib text).1 =
      (wholeEvents lib text).findSome? InteractionSseEvent.createdId? := by
  obtain ⟨searched, hframes, _, hids, hnone⟩ := parseSseForInteractionId_spec lib text
  have hwhole : ∀ events : List (List Char),
      (((events.flatMap payloads).filterMap lib.fromStr).findSome?
        InteractionSseEvent.createdId?) = (events.filterMap (createdIn lib)).head? := by
    intro events
    rw [List.head?_filterMap]
    induction events with
    | nil => rfl
    | cons event events ih =>
      rw [List.flatMap_cons, List.filterMap_append, List.findSome?_append, ih,
        List.findSome?_cons]
      unfold createdIn
      cases ((payloads event).filterMap lib.fromStr).findSome? InteractionSseEvent.createdId? <;>
        rfl
  rw [wholeEvents, hwhole, hframes, List.filterMap_append, hids]
  cases hfound : (parseSseForInteractionId lib text).1 with
  | none => rw [hnone hfound]; rfl
  | some id => rfl

end

/-! ## The readers of lines -/

section
variable {τ χ ε : Type} (ext : LineExternal τ χ ε)

theorem parseSseLine_none {line : List Char} (h : stripPrefix "data: ".toList line = none)
    (translator : τ) : parseSseLine ext line translator = (translator, none) := by
  unfold parseSseLine
  rw [h]

theorem answers_eq_nil {lines : List (List Char)}
    (h : ∀ line ∈ lines, ∀ translator, parseSseLine ext line translator = (translator, none))
    (translator : τ) : answers ext translator lines = [] := by
  induction lines with
  | nil => rfl
  | cons line lines ih =>
    rw [List.forall_mem_cons] at h
    rw [answers, h.1]
    exact ih h.2

/-- Without the space no line of a stream begins with what the line readers look for. -/
theorem stripPrefix_lines {e : Encoding} (he : e.space = false) {events : EventStream}
    {line : List Char} (h : line ∈ events.lines e) : stripPrefix "data: ".toList line = none := by
  obtain ⟨event, _, hin⟩ := List.mem_flatMap.mp h
  rcases List.mem_append.mp hin with hline | hempty
  · obtain ⟨l, _, rfl⟩ := List.mem_map.mp hline
    cases l with
    | data value oneLine plain =>
      simp only [EventLine.encode, Encoding.dataStart, he, Bool.false_eq_true, if_false]
      exact (stripPrefix_no_space plain).1
    | other text oneLine nonempty notData => exact (not_prefix_other notData).1
  · rw [List.mem_singleton.mp hempty]
    rfl

/-- The lines of a stream do not depend on how they end. -/
theorem lines_congr {e e' : Encoding} (h : e.space = e'.space) (events : EventStream) :
    events.lines e = events.lines e' := by
  have hstart : e.dataStart = e'.dataStart := by
    unfold Encoding.dataStart
    rw [h]
  unfold EventStream.lines
  refine List.flatMap_congr fun event _ => ?_
  congr 1
  refine List.map_congr_left fun line _ => ?_
  cases line <;> simp [EventLine.encode, hstart]

/-- A data line with the space in it. -/
theorem mem_lines {e : Encoding} (he : e.space = true) {events : EventStream} {data : List Char}
    (h : data ∈ events.values) :
    ∃ line ∈ events.lines e, ∃ value, stripPrefix "data: ".toList line = some value ∧
      trim value = data := by
  obtain ⟨l, hl, hvalue⟩ := List.mem_filterMap.mp h
  obtain ⟨event, hevent, hin⟩ := List.mem_flatten.mp hl
  cases l with
  | data value oneLine plain =>
    refine ⟨(EventLine.data value oneLine plain).encode e, ?_, value, ?_, ?_⟩
    · exact List.mem_flatMap.mpr ⟨event, hevent,
        List.mem_append_left _ (List.mem_map_of_mem hin)⟩
    · simp only [EventLine.encode, Encoding.dataStart, he, if_true]
      exact stripPrefix_space value
    · exact Option.some.inj hvalue
  | other text oneLine nonempty notData => cases hvalue

/-- What a line reader finds is the value of a data line. -/
theorem of_mem_lines {e : Encoding} {events : EventStream} {line value : List Char}
    (h : line ∈ events.lines e) (hvalue : stripPrefix "data: ".toList line = some value) :
    trim value ∈ events.values := by
  obtain ⟨event, hevent, hin⟩ := List.mem_flatMap.mp h
  rcases List.mem_append.mp hin with hline | hempty
  · obtain ⟨l, hl, rfl⟩ := List.mem_map.mp hline
    refine List.mem_filterMap.mpr ⟨l, List.mem_flatten.mpr ⟨event, hevent, hl⟩, ?_⟩
    cases l with
    | data text oneLine plain =>
      unfold EventLine.encode Encoding.dataStart at hvalue
      dsimp only at hvalue
      split at hvalue
      · rw [stripPrefix_space] at hvalue
        cases hvalue
        rfl
      · rw [(stripPrefix_no_space plain).1] at hvalue
        cases hvalue
    | other text oneLine nonempty notData =>
      rw [EventLine.encode, (not_prefix_other notData).1] at hvalue
      cases hvalue
  · rw [List.mem_singleton.mp hempty] at hvalue
    cases hvalue

/-- **Nothing is read of any line** exactly if no data line is for these readers. -/
theorem nothing_read_iff {e : Encoding} (he : e.space = true) (events : EventStream) (start : τ) :
    (answers ext start (events.lines e) = [] ∧
        (events.lines e).filterMap (parseAnthropicSseEvent ext) = []) ↔
      NoProtocolEvents ext events := by
  rw [List.filterMap_eq_nil_iff]
  constructor
  · intro ⟨hsse, hanthropic⟩ data hdata
    obtain ⟨line, hline, value, hstrip, rfl⟩ := mem_lines he hdata
    have hnone : ∀ (lines : List (List Char)) (translator : τ), answers ext translator lines = [] →
        ∀ l ∈ lines, ∀ v, stripPrefix "data: ".toList l = some v →
          trim v ≠ "[DONE]".toList ∧ ext.chunkFromStr (trim v) = none := by
      intro lines
      induction lines with
      | nil => exact fun _ _ l hl => absurd hl (List.not_mem_nil)
      | cons first rest ih =>
        intro translator hnil l hl v hv
        rw [answers] at hnil
        have hfirst : (parseSseLine ext first translator).2 = none := by
          cases hp : parseSseLine ext first translator with
          | mk next read =>
            rw [hp] at hnil
            cases read with
            | none => rfl
            | some events => cases hnil
        rcases List.mem_cons.mp hl with rfl | hl
        · unfold parseSseLine at hfirst
          rw [hv] at hfirst
          dsimp only at hfirst
          split at hfirst
          · cases hfirst
          · next hdone =>
            cases hchunk : ext.chunkFromStr (trim v) with
            | none => exact ⟨hdone, rfl⟩
            | some chunk =>
              rw [hchunk] at hfirst
              cases hfirst
        · cases hp : parseSseLine ext first translator with
          | mk next read =>
            rw [hp] at hnil hfirst
            cases hfirst
            exact ih next hnil l hl v hv
    obtain ⟨hdone, hchunk⟩ := hnone _ _ hsse line hline value hstrip
    refine ⟨hdone, hchunk, fun hne => ?_⟩
    have hevent := hanthropic line hline
    rw [parseAnthropicSseEvent, hstrip, Option.bind_some, if_neg hne] at hevent
    exact hevent
  · intro hno
    constructor
    · refine answers_eq_nil ext (fun line hline translator => ?_) start
      unfold parseSseLine
      cases hstrip : stripPrefix "data: ".toList line with
      | none => rfl
      | some value =>
        obtain ⟨hdone, hchunk, _⟩ := hno _ (of_mem_lines hline hstrip)
        dsimp only
        rw [if_neg hdone, hchunk]
    · intro line hline
      unfold parseAnthropicSseEvent
      cases hstrip : stripPrefix "data: ".toList line with
      | none => rfl
      | some value =>
        obtain ⟨_, _, hevent⟩ := hno _ (of_mem_lines hline hstrip)
        rw [Option.bind_some]
        split
        · rfl
        · next hne => exact hevent hne

end

/-! ## The law -/

section
variable {τ χ τ' χ' ε : Type} {lib : External τ χ} {ext : LineExternal τ' χ' ε}

theorem wholeEvents_alike_iff (lib : External τ χ) (e e' : Encoding) (events : EventStream) :
    wholeEvents lib (events.encode e) = wholeEvents lib (events.encode e') ↔
      e.crlf = e'.crlf ∨ NoInteractionEvents lib events := by
  rw [wholeEvents_encode, wholeEvents_encode, ← interactionEvents_eq_nil_iff]
  cases e.crlf <;> cases e'.crlf
  · simp
  · simp
  · simp [eq_comm (a := ([] : List InteractionSseEvent))]
  · simp

/-- Both line readers read nothing without the space. -/
theorem line_readers_alike_iff (ext : LineExternal τ' χ' ε) (e e' : Encoding)
    (events : EventStream) :
    ((∀ model, answers ext (ext.newStreamingTranslator model) (streamLines (events.encode e)) =
        answers ext (ext.newStreamingTranslator model) (streamLines (events.encode e'))) ∧
      (streamLines (events.encode e)).filterMap (parseAnthropicSseEvent ext) =
        (streamLines (events.encode e')).filterMap (parseAnthropicSseEvent ext)) ↔
      e.space = e'.space ∨ NoProtocolEvents ext events := by
  simp only [streamLines_encode]
  have hbare : ∀ {e : Encoding}, e.space = false →
      (∀ translator, answers ext translator (events.lines e) = []) ∧
        (events.lines e).filterMap (parseAnthropicSseEvent ext) = [] := by
    intro e he
    constructor
    · exact answers_eq_nil ext fun line hline => parseSseLine_none ext (stripPrefix_lines he hline)
    · refine List.filterMap_eq_nil_iff.mpr fun line hline => ?_
      rw [parseAnthropicSseEvent, stripPrefix_lines he hline]
      rfl
  have hread : ∀ {e : Encoding}, e.space = true →
      ((∀ model, answers ext (ext.newStreamingTranslator model) (events.lines e) = []) ∧
        (events.lines e).filterMap (parseAnthropicSseEvent ext) = [] ↔
          NoProtocolEvents ext events) := by
    intro e he
    constructor
    · intro ⟨hsse, hanthropic⟩
      exact (nothing_read_iff ext he events _).mp ⟨hsse "", hanthropic⟩
    · intro hno
      exact ⟨fun model => ((nothing_read_iff ext he events _).mpr hno).1,
        ((nothing_read_iff ext he events (ext.newStreamingTranslator "")).mpr hno).2⟩
  by_cases hsame : e.space = e'.space
  · rw [lines_congr hsame]
    simp [hsame]
  · rw [or_iff_right hsame]
    cases he : e.space with
    | true =>
      have he' : e'.space = false := Bool.eq_false_iff.mpr fun h => hsame (he.trans h.symm)
      simp only [(hbare he').1, (hbare he').2]
      exact hread he
    | false =>
      have he' : e'.space = true := (Bool.not_eq_false _).mp fun h => hsame (he.trans h.symm)
      rw [← hread he']
      simp only [(hbare he).1, (hbare he).2]
      exact and_congr (forall_congr' fun model => eq_comm) eq_comm

/-- **Two ways of writing a stream are read alike** exactly if they end their lines alike or there
is nothing for the readers of events, and they agree on the space or there is nothing for the
readers of lines. -/
theorem read_alike_iff (lib : External τ χ) (ext : LineExternal τ' χ' ε) (e e' : Encoding)
    (events : EventStream) :
    SameReadings lib ext (events.encode e) (events.encode e') ↔
      (e.crlf = e'.crlf ∨ NoInteractionEvents lib events) ∧
        (e.space = e'.space ∨ NoProtocolEvents ext events) := by
  rw [← wholeEvents_alike_iff, ← line_readers_alike_iff]
  constructor
  · exact fun h => ⟨h.events, h.sseLines, h.anthropicLines⟩
  · intro ⟨hevents, hsse, hanthropic⟩
    refine ⟨hevents, liveTranslation_congr lib hevents, fun ingress model => ?_, ?_, hsse,
      hanthropic⟩
    · unfold translateBufferedSseToClient
      rw [fromUtf8_eq_some_iff.mpr rfl, fromUtf8_eq_some_iff.mpr rfl]
      dsimp only
      rw [parseEvents_encode, parseEvents_encode]
    · rw [interactionId_eq, interactionId_eq, hevents]

end

/-! ## A stream of one chunk -/

/-- A line reader that takes every text for a chunk. -/
def anyChunk : LineExternal Unit (List Char) (List Char) where
  chunkFromStr := some
  newStreamingTranslator _ := ()
  processChunk _ chunk := ((), [chunk])
  finish _ := ((), [])
  eventFromStr _ := none

theorem not_read_alike :
    ¬ ∀ (lib : External Unit Nat) (ext : LineExternal Unit (List Char) (List Char))
      (e e' : Encoding) (events : EventStream),
      SameReadings lib ext (events.encode e) (events.encode e') := by
  intro hall
  have h := (hall (answering []) anyChunk { crlf := false, space := true }
    { crlf := false, space := false }
    [[.data "1".toList (by decide) (by decide)]]).sseLines "model"
  exact absurd h (by decide +kernel)

end InfSplitter.Streams
