import InfSplitter.Json.Reading
import InfSplitter.Streams.Chunks
import InfSplitter.Streams.Converters

/-!
# A converter behind another one

What a converter sends to its client is a stream of the other protocol, and can be read by a
converter for that. The network may cut it anywhere between two characters.

The second one reads what the first one has written: exactly those chunks or events, in their order
(`chunk_lines`, `event_lines`). So two of them, one behind the other, are the two translators
one behind the other (`conversions_chain`).
-/

set_option autoImplicit false

namespace InfSplitter.Streams

open Lib Diagnostics

/-! ## Lines that come in whole characters -/

section
variable {finishes : List (List Char) → Bool} {texts : List (List Char)}

/-- As long as no line is too long, the reader cuts what has come. -/
theorem onChunk_feedUntil {reader : LineReader} {text : List Char}
    (h : (reader.onChunk finishes (encodeUtf8 text)).tooLong = false) :
    reader.tooLong = false ∧
      ((reader.onChunk finishes (encodeUtf8 text)).fed,
          (reader.onChunk finishes (encodeUtf8 text)).buffer) =
        feedUntil ['\n'] (Fed.feed finishes) Fed.finished (reader.fed, reader.buffer) text := by
  obtain ⟨fed, buffer, tooLong⟩ := reader
  have hdecode : decodeChunk (encodeUtf8 text) = text := by
    unfold decodeChunk
    rw [fromUtf8_eq_some_iff.mpr rfl, Option.getD_some]
  unfold LineReader.onChunk at h ⊢
  unfold feedUntil feedInto
  rw [hdecode] at h ⊢
  cases hfinished : fed.finished with
  | true =>
    simp only [hfinished, Bool.true_or, if_true] at h ⊢
    exact ⟨h, trivial⟩
  | false =>
    cases tooLong with
    | true =>
      simp only [Bool.or_true, if_true] at h
      cases h
    | false =>
      simp only [hfinished, Bool.or_false, Bool.false_eq_true, if_false] at h ⊢
      by_cases hlong : (encodeUtf8 (buffer ++ text)).length > MAX_SSE_LINE_LENGTH
      · rw [if_pos hlong] at h
        cases h
      · rw [if_neg hlong]
        exact ⟨trivial, rfl⟩

theorem readLines_feedUntil (h : (readLines finishes (texts.map encodeUtf8)).tooLong = false) :
    ((readLines finishes (texts.map encodeUtf8)).fed,
        (readLines finishes (texts.map encodeUtf8)).buffer) =
      texts.foldl (feedUntil ['\n'] (Fed.feed finishes) Fed.finished)
        (({ lines := [], finished := false } : Fed), []) := by
  induction texts using List.reverseRecOn with
  | nil => rfl
  | append_singleton texts text ih =>
    have hlast : readLines finishes ((texts ++ [text]).map encodeUtf8) =
        (readLines finishes (texts.map encodeUtf8)).onChunk finishes (encodeUtf8 text) := by
      rw [List.map_append, List.map_singleton, readLines, List.foldl_concat, ← readLines]
    rw [hlast] at h ⊢
    obtain ⟨hbefore, hstep⟩ := onChunk_feedUntil h
    rw [hstep, ih hbefore, List.foldl_concat]

/-- **The lines are those of the text**, up to the one that finishes the stream. -/
theorem readLines_fed (h : (readLines finishes (texts.map encodeUtf8)).tooLong = false) :
    (readLines finishes (texts.map encodeUtf8)).fed =
      (frames ['\n'] texts.flatten).1.foldl (Fed.feed finishes)
        { lines := [], finished := false } := by
  have hfed := congrArg Prod.fst (readLines_feedUntil h)
  rw [feedUntil_chunks fun fed line hfinished => feed_of_finished hfinished line,
    feedInto_chunks lineBreak_ne_nil] at hfed
  exact hfed

end

section
variable {τ : Type} {c : Converter τ} {t₀ : τ} {texts : List (List Char)}

/-- A converter's answers to a stream in whole characters. -/
theorem converted_texts
    (h : (readLines (fun lines => (converted c t₀ lines).2.2)
      (texts.map encodeUtf8)).tooLong = false) :
    converted c t₀ (readLines (fun lines => (converted c t₀ lines).2.2)
        (texts.map encodeUtf8)).fed.lines = converted c t₀ (streamLines texts.flatten) ∧
      (readLines (fun lines => (converted c t₀ lines).2.2)
        (texts.map encodeUtf8)).fed.finished =
          (converted c t₀ (streamLines texts.flatten)).2.2 := by
  rw [readLines_fed h]
  exact converted_fed c t₀ _ rfl rfl

end

/-! ## Texts of whole lines -/

theorem trimReturns_of_free {line : List Char} (h : '\r' ∉ line) : trimReturns line = line := by
  unfold trimReturns
  cases hrev : line.reverse with
  | nil => exact (List.reverse_eq_nil_iff.mp hrev).symm
  | cons c rest =>
    have hc : c ≠ '\r' := by
      rintro rfl
      exact h (List.mem_reverse.mp (hrev ▸ List.mem_cons_self))
    rw [List.dropWhile_cons_of_neg (by simpa using hc), ← hrev, List.reverse_reverse]

/-- The texts are made of these lines, each with its end. -/
def lineText (lines : List (List Char)) : List Char := lines.flatMap (· ++ ['\n'])

theorem streamLines_lineText {lines : List (List Char)}
    (h : ∀ line ∈ lines, '\n' ∉ line ∧ '\r' ∉ line) : streamLines (lineText lines) = lines := by
  unfold streamLines lineText
  rw [frames_lines fun line hline => (h line hline).1]
  refine (List.map_congr_left fun line hline => ?_).trans (List.map_id _)
  exact trimReturns_of_free (h line hline).2

/-! ## What `serde_json` writes -/

/-- A text that begins and ends with no white space. -/
theorem trim_of_ends {c d : Char} (hc : isWhitespace c = false) (hd : isWhitespace d = false)
    (text : List Char) : trim (c :: text ++ [d]) = c :: text ++ [d] := by
  unfold trim
  rw [List.cons_append, List.dropWhile_cons_of_neg (by simp [hc]), ← List.cons_append,
    List.reverse_append, List.reverse_singleton, List.singleton_append,
    List.dropWhile_cons_of_neg (by simp [hd]), List.reverse_cons, List.reverse_reverse]

theorem render_obj (members : List (String × Json)) :
    ∃ text, (Json.render (.obj members)).toList = '\x7b' :: text ++ ['\x7d'] := by
  rw [Json.render, String.toList_append, String.toList_append]
  exact ⟨_, rfl⟩

theorem trim_render (members : List (String × Json)) :
    trim (Json.render (.obj members)).toList = (Json.render (.obj members)).toList := by
  obtain ⟨text, htext⟩ := render_obj members
  rw [htext]
  exact trim_of_ends (by decide) (by decide) text

theorem render_oneLine {j : Json} (h : Json.Numeric j) :
    '\n' ∉ (Json.render j).toList ∧ '\r' ∉ (Json.render j).toList := by
  have hprintable := Json.render_printable h
  constructor
  · intro hmem
    exact absurd (hprintable _ hmem) (by decide)
  · intro hmem
    exact absurd (hprintable _ hmem) (by decide)

namespace ConverterExternal

variable {τ ρ χ ε : Type} (lib : ConverterExternal τ ρ χ ε)

/-- `serde_json` writes a chunk or an event as an object, and reads it back. The name of an event is
one of those `format_sse_event_str` has. -/
structure ReadsBack : Prop where
  chunk : ∀ c, ∃ members, Json.Numeric (.obj members) ∧
    lib.chunkToString c = some (Json.render (.obj members)) ∧
    lib.chunkFromStr (Json.render (.obj members)).toList = some c
  event : ∀ e, ∃ members, Json.Numeric (.obj members) ∧
    lib.eventToString e = some (Json.render (.obj members)) ∧
    lib.eventFromStr (Json.render (.obj members)).toList = some e
  name : ∀ e, lib.eventName e ∈ ["message_start", "content_block_start", "content_block_delta",
    "content_block_stop", "message_delta", "message_stop", "ping", "error", "message"]

/-- What `handle_stream_manual` finds in a line: a chunk, or the end of them. -/
def readChunk (line : List Char) : Option (Option χ) :=
  (stripPrefix "data: ".toList line).bind fun data =>
    if trim data = "[DONE]".toList then some none else (lib.chunkFromStr (trim data)).map some

/-- What is written for it. -/
def writeChunk : Option χ → String
  | some chunk => lib.formatOpenaiSseChunk chunk
  | none => doneEvent

variable {lib}

theorem readChunk_data (data : List Char) :
    lib.readChunk ("data: ".toList ++ data) =
      if trim data = "[DONE]".toList then some none
      else (lib.chunkFromStr (trim data)).map some := by
  unfold readChunk
  rw [stripPrefix_space, Option.bind_some]

theorem parseAnthropicSseEvent_data (data : List Char) :
    parseAnthropicSseEvent lib.toLineExternal ("data: ".toList ++ data) =
      if trim data = [] then none else lib.eventFromStr (trim data) := by
  unfold parseAnthropicSseEvent
  rw [stripPrefix_space, Option.bind_some]

/-- **A chunk is read as it was written**, and so is the end. -/
theorem chunk_lines (h : lib.ReadsBack) (value : Option χ) :
    ∃ lines, (lib.writeChunk value).toList = lineText lines ∧
      (∀ line ∈ lines, '\n' ∉ line ∧ '\r' ∉ line) ∧ lines.filterMap lib.readChunk = [value] := by
  cases value with
  | none =>
    have hwritten : doneEvent.toList = lineText ["data: [DONE]".toList, []] := by decide
    refine ⟨["data: [DONE]".toList, []], hwritten, by decide, ?_⟩
    have hdone : lib.readChunk "data: [DONE]".toList = some none := readChunk_data "[DONE]".toList
    rw [List.filterMap_cons_some hdone]
    rfl
  | some chunk =>
    obtain ⟨members, hnumeric, hwritten, hread⟩ := h.chunk chunk
    obtain ⟨hn, hr⟩ := render_oneLine hnumeric
    have hmark : trim (Json.render (.obj members)).toList ≠ "[DONE]".toList := by
      obtain ⟨text, htext⟩ := render_obj members
      rw [trim_render, htext]
      intro heq
      cases heq
    have hline : lib.readChunk ("data: ".toList ++ (Json.render (.obj members)).toList) =
        some (some chunk) := by
      rw [readChunk_data, if_neg hmark, trim_render, hread, Option.map_some]
    refine ⟨["data: ".toList ++ (Json.render (.obj members)).toList, []], ?_, ?_, ?_⟩
    · rw [writeChunk, formatOpenaiSseChunk, hwritten, Option.getD_some, String.toList_append,
        String.toList_append]
      simp [lineText]
    · rw [List.forall_mem_cons]
      refine ⟨⟨?_, ?_⟩, by simp⟩
      · simp [hn]
      · simp [hr]
    · rw [List.filterMap_cons_some hline]
      rfl

/-- **An event is read as it was written.** -/
theorem event_lines (h : lib.ReadsBack) (event : ε) :
    ∃ lines, (lib.formatSseEventStr event).toList = lineText lines ∧
      (∀ line ∈ lines, '\n' ∉ line ∧ '\r' ∉ line) ∧
      lines.filterMap (parseAnthropicSseEvent lib.toLineExternal) = [event] := by
  obtain ⟨members, hnumeric, hwritten, hread⟩ := h.event event
  obtain ⟨hn, hr⟩ := render_oneLine hnumeric
  have hname : '\n' ∉ (lib.eventName event).toList ∧ '\r' ∉ (lib.eventName event).toList := by
    have hall : ∀ name ∈ ["message_start", "content_block_start", "content_block_delta",
        "content_block_stop", "message_delta", "message_stop", "ping", "error", "message"],
        '\n' ∉ name.toList ∧ '\r' ∉ name.toList := by decide
    exact hall _ (h.name event)
  have hfirst : parseAnthropicSseEvent lib.toLineExternal
      ("event: ".toList ++ (lib.eventName event).toList) = none := rfl
  have hempty : trim (Json.render (.obj members)).toList ≠ [] := by
    obtain ⟨text, htext⟩ := render_obj members
    rw [trim_render, htext]
    exact List.cons_ne_nil _ _
  have hline : parseAnthropicSseEvent lib.toLineExternal
      ("data: ".toList ++ (Json.render (.obj members)).toList) = some event := by
    rw [parseAnthropicSseEvent_data, if_neg hempty, trim_render, hread]
  refine ⟨["event: ".toList ++ (lib.eventName event).toList,
    "data: ".toList ++ (Json.render (.obj members)).toList, []], ?_, ?_, ?_⟩
  · rw [formatSseEventStr, hwritten, Option.getD_some]
    simp [lineText]
  · rw [List.forall_mem_cons, List.forall_mem_cons]
    refine ⟨⟨?_, ?_⟩, ⟨?_, ?_⟩, by simp⟩
    · simp [hname.1]
    · simp [hname.2]
    · simp [hn]
    · simp [hr]
  · rw [List.filterMap_cons_none hfirst, List.filterMap_cons_some hline]
    rfl

end ConverterExternal

/-! ## What is read of a whole stream -/

/-- What is written one after another is read one after another. -/
theorem values_written {α : Type} {write : α → String} {read : List Char → Option α}
    (h : ∀ a, ∃ lines, (write a).toList = lineText lines ∧
      (∀ line ∈ lines, '\n' ∉ line ∧ '\r' ∉ line) ∧ lines.filterMap read = [a])
    (values : List α) :
    (streamLines (String.join (values.map write)).toList).filterMap read = values := by
  have hall : ∃ lines, (String.join (values.map write)).toList = lineText lines ∧
      (∀ line ∈ lines, '\n' ∉ line ∧ '\r' ∉ line) ∧ lines.filterMap read = values := by
    induction values with
    | nil => exact ⟨[], rfl, nofun, rfl⟩
    | cons a values ih =>
      obtain ⟨first, hfirst, hfree, hread⟩ := h a
      obtain ⟨rest, hrest, hfree', hread'⟩ := ih
      refine ⟨first ++ rest, ?_, List.forall_mem_append.mpr ⟨hfree, hfree'⟩, ?_⟩
      · rw [List.map_cons, String.join_cons, String.toList_append, hfirst, hrest]
        exact List.flatMap_append.symm
      · rw [List.filterMap_append, hread, hread', List.singleton_append]
  obtain ⟨lines, hlines, hfree, hread⟩ := hall
  rw [hlines, streamLines_lineText hfree, hread]

namespace ConverterExternal

variable {τ ρ χ ε : Type} (lib : ConverterExternal τ ρ χ ε)

/-- The translator of `handle_stream_manual`, from one chunk to the next. -/
def manualRun : τ → List (Option χ) → List (List ε) × τ
  | t, [] => ([], t)
  | t, none :: rest =>
    ((lib.finish t).2 :: (manualRun (lib.finish t).1 rest).1, (manualRun (lib.finish t).1 rest).2)
  | t, some chunk :: rest =>
    ((lib.processChunk t chunk).2 :: (manualRun (lib.processChunk t chunk).1 rest).1,
      (manualRun (lib.processChunk t chunk).1 rest).2)

/-- The translator of `handle_from_openai_stream`, from one event to the next. -/
def chunksOf (model : String) : Option ρ → List ε → List χ
  | _, [] => []
  | translator, event :: rest =>
    match lib.messageStart event with
    | some id => chunksOf model (some (lib.newReverseStreamTranslator id model)) rest
    | none =>
      match translator with
      | none => chunksOf model none rest
      | some active =>
        match lib.processEvent active event with
        | (active, chunk :: _) => chunk :: chunksOf model (some active) rest
        | (active, []) => if lib.isDone active then [] else chunksOf model (some active) rest

variable {lib}

theorem manualRun_append (t : τ) (a b : List (Option χ)) :
    lib.manualRun t (a ++ b) =
      ((lib.manualRun t a).1 ++ (lib.manualRun (lib.manualRun t a).2 b).1,
        (lib.manualRun (lib.manualRun t a).2 b).2) := by
  induction a generalizing t with
  | nil => rfl
  | cons value a ih =>
    cases value with
    | none => rw [List.cons_append, manualRun, manualRun, ih, List.cons_append]
    | some chunk => rw [List.cons_append, manualRun, manualRun, ih, List.cons_append]

theorem parseSseLine_eq (t : τ) (line : List Char) :
    parseSseLine lib.toLineExternal line t =
      match lib.readChunk line with
      | none => (t, none)
      | some none => ((lib.finish t).1, some (lib.finish t).2)
      | some (some chunk) =>
        ((lib.processChunk t chunk).1, some (lib.processChunk t chunk).2) := by
  unfold parseSseLine readChunk
  cases stripPrefix "data: ".toList line with
  | none => rfl
  | some data =>
    rw [Option.bind_some]
    dsimp only
    by_cases hdone : trim data = "[DONE]".toList
    · rw [if_pos hdone, if_pos hdone]
    · rw [if_neg hdone, if_neg hdone]
      cases lib.chunkFromStr (trim data) <;> rfl

theorem onLine_streamManual (t : τ) (line : List Char) :
    lib.streamManual.onLine t line =
      match lib.readChunk line with
      | none => (t, .nothing)
      | some none => ((lib.finish t).1, .payload (lib.formatSseEvents (lib.finish t).2))
      | some (some chunk) =>
        ((lib.processChunk t chunk).1,
          .payload (lib.formatSseEvents (lib.processChunk t chunk).2)) := by
  simp only [streamManual, parseSseLine_eq]
  cases lib.readChunk line with
  | none => rfl
  | some value => cases value <;> rfl

theorem converted_streamManual (t : τ) (lines : List (List Char)) :
    converted lib.streamManual t lines =
      ((lib.manualRun t (lines.filterMap lib.readChunk)).1.map lib.formatSseEvents,
        (lib.manualRun t (lines.filterMap lib.readChunk)).2, false) := by
  induction lines generalizing t with
  | nil => rfl
  | cons line lines ih =>
    rw [converted, onLine_streamManual]
    cases hread : lib.readChunk line with
    | none =>
      rw [List.filterMap_cons_none hread]
      exact ih t
    | some value =>
      rw [List.filterMap_cons_some hread]
      cases value with
      | none =>
        dsimp only
        rw [ih, manualRun, List.map_cons]
      | some chunk =>
        dsimp only
        rw [ih, manualRun, List.map_cons]

theorem converted_fromOpenaiStream (model : String) (t : Option ρ) (lines : List (List Char)) :
    (converted (lib.fromOpenaiStream model) t lines).1 =
      (lib.chunksOf model t
        (lines.filterMap (parseAnthropicSseEvent lib.toLineExternal))).map
          lib.formatOpenaiSseChunk := by
  induction lines generalizing t with
  | nil => rfl
  | cons line lines ih =>
    rw [converted]
    simp only [fromOpenaiStream]
    cases hread : parseAnthropicSseEvent lib.toLineExternal line with
    | none =>
      rw [List.filterMap_cons_none hread]
      exact ih t
    | some event =>
      rw [List.filterMap_cons_some hread, chunksOf.eq_def]
      dsimp only
      cases lib.messageStart event with
      | some id => exact ih _
      | none =>
        cases t with
        | none => exact ih _
        | some active =>
          dsimp only
          cases lib.processEvent active event with
          | mk active chunks =>
            cases chunks with
            | cons chunk more => exact congrArg _ (ih _)
            | nil =>
              dsimp only
              cases lib.isDone active with
              | true => rfl
              | false => exact ih _

end ConverterExternal

/-! ## One behind the other -/

section
variable {τ : Type} {c : Converter τ} {t₀ : τ}

theorem scriptOf_texts {texts : List (List Char)}
    (h : (readLines (fun lines => (converted c t₀ lines).2.2)
      (texts.map encodeUtf8)).tooLong = false) :
    (scriptOf c t₀ (texts.map encodeUtf8) none).payloads =
        (converted c t₀ (streamLines texts.flatten)).1 ∧
      (scriptOf c t₀ (texts.map encodeUtf8) none).ending =
        if (converted c t₀ (streamLines texts.flatten)).2.2 then some (.ok doneEvent)
        else (c.onEnd (converted c t₀ (streamLines texts.flatten)).2.1).2.map Except.ok := by
  obtain ⟨hlines, hfinished⟩ := converted_texts h
  constructor
  · exact congrArg Prod.fst hlines
  · unfold scriptOf streamEnd
    dsimp only
    rw [hfinished, hlines, h]
    rfl

theorem map_ok_injective {ε α : Type} {a b : List α}
    (h : a.map (Except.ok : α → Except ε α) = b.map Except.ok) : a = b :=
  List.map_injective_iff.mpr (fun _ _ hab => Except.ok.inj hab) h

/-- A client that has polled behind the end without an error has got all there is. -/
theorem received_whole (hends : c.EndsOnce) {context : StreamContext} {times : List Moment}
    {request : GuardedRequest} {calls : List GuardCall} {chunks : List (List UInt8)}
    {failure : Option String} {outs : List String}
    (h : (received c context times (upstreamItems chunks failure)
      (.start t₀ (runCalls (.new request) calls))).1 = outs.map Except.ok)
    (hpolled : outs.length < times.length) :
    ∃ last : Option String, (scriptOf c t₀ chunks failure).ending = last.map Except.ok ∧
      outs = (scriptOf c t₀ chunks failure).payloads ++ last.toList := by
  rw [received_start hends] at h
  have hlength := congrArg List.length h
  rw [List.length_take, List.length_map] at hlength
  rw [List.take_of_length_le (by omega)] at h
  cases hending : (scriptOf c t₀ chunks failure).ending with
  | none =>
    rw [hending, Option.toList_none, List.append_nil] at h
    exact ⟨none, rfl, by rw [← map_ok_injective h, Option.toList_none, List.append_nil]⟩
  | some ending =>
    rw [hending, Option.toList_some] at h
    cases ending with
    | ok last =>
      rw [← List.map_singleton, ← List.map_append] at h
      exact ⟨some last, rfl, (map_ok_injective h).symm⟩
    | error e =>
      have hmem : (.error e : Except String String) ∈ outs.map Except.ok :=
        h ▸ List.mem_append_right _ (List.mem_singleton_self _)
      obtain ⟨_, -, hno⟩ := List.mem_map.mp hmem
      cases hno

end

namespace ConverterExternal

section
variable {τ ρ χ ε : Type} {lib : ConverterExternal τ ρ χ ε} {model : String}
  {context : StreamContext} {times : List Moment} {request : GuardedRequest}
  {calls : List GuardCall} {chunks : List (List UInt8)} {failure : Option String}
  {outs : List String} {texts : List (List Char)}

theorem fromOpenaiStream_endsOnce (model : String) : (lib.fromOpenaiStream model).EndsOnce :=
  Or.inl rfl

theorem streamManual_endsOnce (hfinish : ∀ t, (lib.finish (lib.finish t).1).2 = []) :
    lib.streamManual.EndsOnce := by
  refine Or.inr ⟨fun t line => ?_, fun t => ?_⟩
  · rw [onLine_streamManual]
    cases lib.readChunk line with
    | none => exact nofun
    | some value => cases value <;> exact nofun
  · simp only [streamManual, hfinish]
    rfl

/-- The events of the lines `handle_from_openai_stream` reads. -/
def eventsRead (lib : ConverterExternal τ ρ χ ε) (model : String) (chunks : List (List UInt8)) :
    List ε :=
  (handleFromOpenaiStream (lib.endsStream model) chunks).1.filterMap
    (parseAnthropicSseEvent lib.toLineExternal)

/-- The chunks of the lines `handle_stream_manual` reads. -/
def chunksReadBy (lib : ConverterExternal τ ρ χ ε) (chunks : List (List UInt8)) :
    List (Option χ) :=
  (handleStreamManual chunks).1.filterMap lib.readChunk

/-- **What an OpenAI client gets** are chunks and the end. -/
theorem outs_fromOpenaiStream
    (h : (received (lib.fromOpenaiStream model) context times (upstreamItems chunks failure)
      (.start none (runCalls (.new request) calls))).1 = outs.map Except.ok)
    (hpolled : outs.length < times.length) :
    outs = ((lib.chunksOf model none (lib.eventsRead model chunks)).map some ++ [none]).map
      lib.writeChunk := by
  obtain ⟨last, hending, houts⟩ := received_whole (fromOpenaiStream_endsOnce model) h hpolled
  have hpayloads : (scriptOf (lib.fromOpenaiStream model) none chunks failure).payloads =
      (lib.chunksOf model none (lib.eventsRead model chunks)).map lib.formatOpenaiSseChunk :=
    converted_fromOpenaiStream model none _
  have hlast : last = some doneEvent := by
    have hopen : (scriptOf (lib.fromOpenaiStream model) none chunks failure).ending = some _ :=
      streamEnd_fromOpenaiStream lib model failure none _
    rw [hending] at hopen
    split at hopen
    · cases last with
      | none => cases hopen
      | some text =>
        rw [Option.map_some, Option.some_inj] at hopen
        rw [Except.ok.inj hopen]
    · split at hopen
      · cases last <;> cases hopen
      · cases failure with
        | some e => cases last <;> cases hopen
        | none =>
          cases last with
          | none => cases hopen
          | some text =>
            rw [Option.map_some, Option.elim_none, Option.some_inj] at hopen
            rw [Except.ok.inj hopen]
  rw [houts, hpayloads, hlast, List.map_append, List.map_map]
  rfl

theorem join_formatSseEvents (events : List (List ε)) :
    String.join (events.map lib.formatSseEvents) =
      String.join (events.flatten.map lib.formatSseEventStr) := by
  induction events with
  | nil => rfl
  | cons first events ih =>
    rw [List.map_cons, String.join_cons, ih, List.flatten_cons, List.map_append,
      String.join_append]
    rfl

/-- **What an Anthropic client gets** are events, those of the last finish behind the others. -/
theorem outs_streamManual (hfinish : ∀ t, (lib.finish (lib.finish t).1).2 = [])
    (h : (received lib.streamManual context times (upstreamItems chunks failure)
      (.start (lib.newStreamingTranslator model) (runCalls (.new request) calls))).1 =
        outs.map Except.ok)
    (hpolled : outs.length < times.length) :
    String.join outs = String.join ((lib.manualRun (lib.newStreamingTranslator model)
      (lib.chunksReadBy chunks ++ [none])).1.flatten.map lib.formatSseEventStr) := by
  obtain ⟨last, hending, houts⟩ := received_whole (streamManual_endsOnce hfinish) h hpolled
  have hnever : (fun lines => (converted lib.streamManual (lib.newStreamingTranslator model)
      lines).2.2) = fun _ => false := funext fun lines => streamManual_never_done lib _ lines
  have hconverted := @converted_streamManual _ _ _ _ lib (lib.newStreamingTranslator model)
    (handleStreamManual chunks).1
  have hpayloads : (scriptOf lib.streamManual (lib.newStreamingTranslator model) chunks
      failure).payloads = (lib.manualRun (lib.newStreamingTranslator model)
        (lib.chunksReadBy chunks)).1.map lib.formatSseEvents := by
    simp only [scriptOf, hnever]
    exact congrArg Prod.fst hconverted
  have hopen : (scriptOf lib.streamManual (lib.newStreamingTranslator model) chunks
      failure).ending = lib.manualEnding model chunks failure := by
    simp only [scriptOf, ConverterExternal.manualEnding, handleStreamManual, hnever]
    exact streamEnd_streamManual lib failure _ (readLines_unfinished chunks)
  -- what is sent last are the events of the last finish
  have hleft : String.join last.toList = lib.formatSseEvents (lib.finish
      (lib.manualRun (lib.newStreamingTranslator model) (lib.chunksReadBy chunks)).2).2 := by
    rw [hopen, ConverterExternal.manualEnding, hconverted] at hending
    dsimp only at hending
    split at hending
    · cases last <;> cases hending
    · cases failure with
      | some e => cases last <;> cases hending
      | none =>
        rw [Option.elim_none] at hending
        split at hending
        · next hempty =>
          cases last with
          | some text => cases hending
          | none => exact hempty.symm
        · cases last with
          | none => cases hending
          | some text =>
            rw [Option.map_some, Option.some_inj] at hending
            rw [Option.toList_some, String.join_cons, String.join_nil, String.append_empty,
              ← Except.ok.inj hending]
            rfl
  rw [houts, hpayloads, String.join_append, hleft, join_formatSseEvents, manualRun_append,
    List.flatten_append, List.map_append, String.join_append]
  simp only [manualRun, List.flatten_cons, List.flatten_nil, List.append_nil]
  rfl

/-- **The chunks and the end, read by `handle_stream_manual`**, are what its translator gets. -/
theorem received_streamManual (hfinish : ∀ t, (lib.finish (lib.finish t).1).2 = [])
    {values : List (Option χ)}
    (hvalues : (streamLines texts.flatten).filterMap lib.readChunk = values ++ [none])
    (hshort : (handleStreamManual (texts.map encodeUtf8)).2 = false) :
    (received lib.streamManual context times (upstreamItems (texts.map encodeUtf8) none)
      (.start (lib.newStreamingTranslator model) (runCalls (.new request) calls))).1 =
        ((lib.manualRun (lib.newStreamingTranslator model) (values ++ [none])).1.map fun events =>
          .ok (lib.formatSseEvents events)).take times.length := by
  have hnever : (fun lines => (converted lib.streamManual (lib.newStreamingTranslator model)
      lines).2.2) = fun _ => false := funext fun lines => streamManual_never_done lib _ lines
  have hlong : (readLines (fun lines => (converted lib.streamManual
      (lib.newStreamingTranslator model) lines).2.2) (texts.map encodeUtf8)).tooLong = false := by
    rw [hnever]
    exact hshort
  obtain ⟨hpayloads, hending⟩ := scriptOf_texts hlong
  rw [converted_streamManual, hvalues] at hpayloads hending
  have hnone : (scriptOf lib.streamManual (lib.newStreamingTranslator model)
      (texts.map encodeUtf8) none).ending = none := by
    rw [hending, manualRun_append]
    simp only [manualRun, streamManual, hfinish, Bool.false_eq_true, if_false]
    rfl
  rw [received_start (streamManual_endsOnce hfinish), hpayloads, hnone, Option.toList_none,
    List.append_nil, List.map_map]
  rfl

/-- **The events, read by `handle_from_openai_stream`**, are what its translator gets. -/
theorem received_fromOpenaiStream {events : List ε}
    (hevents : (streamLines texts.flatten).filterMap (parseAnthropicSseEvent lib.toLineExternal) =
      events)
    (hshort : (handleFromOpenaiStream (lib.endsStream model) (texts.map encodeUtf8)).2 = false) :
    (received (lib.fromOpenaiStream model) context times
      (upstreamItems (texts.map encodeUtf8) none)
      (.start none (runCalls (.new request) calls))).1 =
        (((lib.chunksOf model none events).map fun chunk =>
          Except.ok (lib.formatOpenaiSseChunk chunk)) ++ [Except.ok doneEvent]).take
            times.length := by
  have hlong : (readLines (fun lines => (converted (lib.fromOpenaiStream model) none lines).2.2)
      (texts.map encodeUtf8)).tooLong = false := hshort
  obtain ⟨hpayloads, hending⟩ := scriptOf_texts hlong
  rw [converted_fromOpenaiStream, hevents] at hpayloads
  have hdone : (scriptOf (lib.fromOpenaiStream model) none (texts.map encodeUtf8) none).ending =
      some (.ok doneEvent) := by
    rw [hending]
    split <;> rfl
  rw [received_start (fromOpenaiStream_endsOnce model), hpayloads, hdone, Option.toList_some,
    List.map_map]
  rfl

/-- **One converter behind the other.** If the first one's client has got the whole stream and sends
it on, cut anywhere between characters, the second one's translator gets what the first one's has
given: the chunks and the end, or the events. -/
theorem conversions_chain (h : lib.ReadsBack) (hfinish : ∀ t, (lib.finish (lib.finish t).1).2 = [])
    (hpolled : outs.length < times.length) (hcut : texts.flatten = (String.join outs).toList)
    {model' : String} {context' : StreamContext} {times' : List Moment}
    {request' : GuardedRequest} {calls' : List GuardCall} :
    ((received (lib.fromOpenaiStream model) context times (upstreamItems chunks failure)
        (.start none (runCalls (.new request) calls))).1 = outs.map Except.ok →
      (handleStreamManual (texts.map encodeUtf8)).2 = false →
      (received lib.streamManual context' times' (upstreamItems (texts.map encodeUtf8) none)
        (.start (lib.newStreamingTranslator model') (runCalls (.new request') calls'))).1 =
          ((lib.manualRun (lib.newStreamingTranslator model')
            ((lib.chunksOf model none (lib.eventsRead model chunks)).map some ++ [none])).1.map
              fun events => .ok (lib.formatSseEvents events)).take times'.length) ∧
    ((received lib.streamManual context times (upstreamItems chunks failure)
        (.start (lib.newStreamingTranslator model) (runCalls (.new request) calls))).1 =
          outs.map Except.ok →
      (handleFromOpenaiStream (lib.endsStream model') (texts.map encodeUtf8)).2 = false →
      (received (lib.fromOpenaiStream model') context' times'
        (upstreamItems (texts.map encodeUtf8) none)
        (.start none (runCalls (.new request') calls'))).1 =
          (((lib.chunksOf model' none (lib.manualRun (lib.newStreamingTranslator model)
            (lib.chunksReadBy chunks ++ [none])).1.flatten).map fun chunk =>
              Except.ok (lib.formatOpenaiSseChunk chunk)) ++ [Except.ok doneEvent]).take
                times'.length) := by
  constructor
  · intro hreceived hshort
    apply received_streamManual hfinish ?_ hshort
    rw [hcut, outs_fromOpenaiStream hreceived hpolled]
    exact values_written (chunk_lines h) _
  · intro hreceived hshort
    apply received_fromOpenaiStream ?_ hshort
    rw [hcut, outs_streamManual hfinish hreceived hpolled]
    exact values_written (event_lines h) _

end

end ConverterExternal

/-- Chunks and events with one field. -/
def oneField : ConverterExternal Bool Unit String String where
  chunkFromStr text := ((Json.parse (String.ofList text)).bind (·.get "delta")).bind Json.asStr
  newStreamingTranslator _ := false
  processChunk translator chunk := (translator, [chunk])
  finish translator := (true, if translator then [] else ["end"])
  eventFromStr text := ((Json.parse (String.ofList text)).bind (·.get "text")).bind Json.asStr
  messageStart event := if event = "start" then some "id" else none
  newReverseStreamTranslator _ _ := ()
  processEvent translator event := (translator, [event])
  isDone _ := false
  chunkToString chunk := some (Json.render (.obj [("delta", .str chunk)]))
  eventToString event := some (Json.render (.obj [("text", .str event)]))
  eventName _ := "message"

/-- A field is written and read. -/
theorem parse_field (key value : String) :
    ((Json.parse (String.ofList (Json.render (.obj [(key, .str value)])).toList)).bind
      (·.get key)).bind Json.asStr = some value := by
  have hnumeric : Json.Numeric (.obj [(key, .str value)]) :=
    .obj fun m hm => List.mem_singleton.mp hm ▸ .str value
  rw [String.ofList_toList, Json.parse_render hnumeric, Option.bind_some]
  simp [Json.get, Json.asStr]

theorem oneField_readsBack : oneField.ReadsBack where
  chunk c := by
    refine ⟨[("delta", .str c)], .obj fun m hm => List.mem_singleton.mp hm ▸ .str c, ?_, ?_⟩
    · simp only [oneField]
    · simp only [oneField]
      exact parse_field "delta" c
  event e := by
    refine ⟨[("text", .str e)], .obj fun m hm => List.mem_singleton.mp hm ▸ .str e, ?_, ?_⟩
    · simp only [oneField]
    · simp only [oneField]
      exact parse_field "text" e
  name _ := by simp [oneField]

/-- An Anthropic stream of two events. -/
def twoEvents : List UInt8 :=
  encodeUtf8 (oneField.formatSseEvents ["start", "hello"]).toList

/-- The chunk `hello` and the end. -/
def helloChunks : List String := [oneField.formatOpenaiSseChunk "hello", doneEvent]

theorem conversions_chain_hello :
    (received oneField.streamManual ⟨[], 7, 0, "upstream"⟩ (List.replicate 3 ⟨"t", "t"⟩)
        (upstreamItems ([(String.join helloChunks).toList].map encodeUtf8) none)
        (.start false (runCalls (.new ⟨"id", "section", "model"⟩) []))).1 =
      [.ok (oneField.formatSseEvents ["hello"]), .ok (oneField.formatSseEvents ["end"])] := by
  have hchain := (@ConverterExternal.conversions_chain _ _ _ _ oneField "model"
    ⟨[], 7, 0, "upstream"⟩ (List.replicate 3 ⟨"t", "t"⟩) ⟨"id", "section", "model"⟩ [] [twoEvents]
    none helloChunks [(String.join helloChunks).toList] oneField_readsBack
    (fun t => by cases t <;> rfl) (by decide) (by rw [List.flatten_singleton]) "model"
    ⟨[], 7, 0, "upstream"⟩ (List.replicate 3 ⟨"t", "t"⟩) ⟨"id", "section", "model"⟩ []).1
  have hfirst : (received (oneField.fromOpenaiStream "model") ⟨[], 7, 0, "upstream"⟩
      (List.replicate 3 ⟨"t", "t"⟩) (upstreamItems [twoEvents] none)
      (.start none (runCalls (.new ⟨"id", "section", "model"⟩) []))).1 =
        helloChunks.map Except.ok := by
    decide +kernel
  have hshort : (handleStreamManual
      ([(String.join helloChunks).toList].map encodeUtf8)).2 = false := by
    decide +kernel
  refine (hchain hfirst hshort).trans ?_
  decide +kernel

end InfSplitter.Streams
