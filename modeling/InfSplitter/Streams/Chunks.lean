import InfSplitter.Streams.Readers

/-!
# Streams in chunks

Where the network cuts a stream is chance, and a reader should not show it. The four readers show it
in three ways: a character cut in two makes the live translation fail, the search of the split send
stops in every chunk at the first id and takes the last one it has found, and a chunk can be too
long for a cap that every single event keeps.

So a stream is read alike however it is cut exactly if all its characters are single bytes, all
events that announce an interaction name the same one, and the whole of it fits the cap
(`chunking_irrelevant_iff`).
-/

set_option autoImplicit false

namespace InfSplitter.Streams

open Interactions Lib

/-- Every line, and with it every event, is shorter than the cap. -/
def LinesBelowCap (text : List Char) : Prop :=
  ∀ before, before <+: text → (encodeUtf8 (frames ['\n'] before).2).length < MAX_SSE_LINE_LENGTH

section
variable {τ χ : Type} (lib : External τ χ)

/-- All four readers end up with the same. -/
def ReadAlike (isDone : List (List Char) → Bool) (sseBuffer : MemSseBuffer) (pieceIndex : Nat)
    (chunks chunks' : List (List UInt8)) : Prop :=
  (∀ ingress model, handleStreamResponse lib ingress model chunks =
      handleStreamResponse lib ingress model chunks') ∧
    readStreamingChunkResponse lib sseBuffer pieceIndex chunks =
      readStreamingChunkResponse lib sseBuffer pieceIndex chunks' ∧
    handleStreamManual chunks = handleStreamManual chunks' ∧
    handleFromOpenaiStream isDone chunks = handleFromOpenaiStream isDone chunks'

end

/-! ## Readers that decode every chunk -/

section
variable {ρ σ : Type} {onChunk : ρ → List UInt8 → ρ} {delim : List Char}
  {handle : σ → List Char → σ} {cap : Nat}

theorem pending_length_le (hd : delim ≠ []) (text : List Char) :
    (encodeUtf8 (frames delim text).2).length ≤ (encodeUtf8 text).length := by
  have hflat := congrArg (fun t => (encodeUtf8 t).length) (frames_flatten hd text)
  simp only [encodeUtf8_append, List.length_append] at hflat
  omega

/-- A reader that does on short buffers what `feedUntil` does, does on a short stream what cutting
the whole of it does. -/
theorem reader_simulates (ok : ρ → Prop) (proj : ρ → σ × List Char) (done : σ → Bool)
    (hd : delim ≠ [])
    (hdone : ∀ state frame, done state → handle state frame = state)
    (hstep : ∀ reader text, ok reader → (encodeUtf8 ((proj reader).2 ++ text)).length ≤ cap →
      ok (onChunk reader (encodeUtf8 text)) ∧
        proj (onChunk reader (encodeUtf8 text)) =
          feedUntil delim handle done (proj reader) text)
    (texts : List (List Char)) (reader : ρ) (hok : ok reader) (hempty : (proj reader).2 = [])
    (hcap : (encodeUtf8 texts.flatten).length ≤ cap) :
    ok ((texts.map encodeUtf8).foldl onChunk reader) ∧
      (proj ((texts.map encodeUtf8).foldl onChunk reader)).1 =
        (frames delim texts.flatten).1.foldl handle (proj reader).1 := by
  have hsim : ∀ (texts : List (List Char)) (reader : ρ), ok reader →
      (encodeUtf8 (proj reader).2).length + (encodeUtf8 texts.flatten).length ≤ cap →
      ok ((texts.map encodeUtf8).foldl onChunk reader) ∧
        proj ((texts.map encodeUtf8).foldl onChunk reader) =
          texts.foldl (feedUntil delim handle done) (proj reader) := by
    intro texts
    induction texts with
    | nil => exact fun reader hok _ => ⟨hok, rfl⟩
    | cons text texts ih =>
      intro reader hok hcap
      rw [List.flatten_cons, encodeUtf8_append, List.length_append] at hcap
      obtain ⟨hok', hproj⟩ := hstep reader text hok (by
        rw [encodeUtf8_append, List.length_append]
        omega)
      have hsize : (encodeUtf8 (proj (onChunk reader (encodeUtf8 text))).2).length ≤
          (encodeUtf8 (proj reader).2).length + (encodeUtf8 text).length := by
        rw [hproj, feedUntil]
        split
        · exact Nat.le_add_right _ _
        · have hle := pending_length_le hd ((proj reader).2 ++ text)
          rw [encodeUtf8_append, List.length_append] at hle
          exact hle
      rw [List.map_cons, List.foldl_cons, List.foldl_cons, ← hproj]
      exact ih _ hok' (by omega)
  obtain ⟨hok', hproj⟩ := hsim texts reader hok (by simpa [hempty, encodeUtf8] using hcap)
  refine ⟨hok', ?_⟩
  have hstart : proj reader = ((proj reader).1, []) := by rw [← hempty]
  rw [hproj, feedUntil_chunks hdone, hstart, feedInto_chunks hd]

end

/-! ## The live translation and the converters -/

section
variable {τ χ : Type} {lib : External τ χ} {ingress : Protocol} {model : String}

theorem onEvent_of_ended {live : Live τ χ} (h : live.ended = true) (event : List Char) :
    live.onEvent lib ingress model event = live := by
  unfold Live.onEvent
  induction payloads event with
  | nil => rfl
  | cons data rest ih =>
    rw [List.foldl_cons]
    have hstep : live.onPayload lib ingress model data = live := if_pos h
    rw [hstep, ih]

/-- **The live translation of a short stream**, in whatever whole characters it comes. -/
theorem readStream_texts {texts : List (List Char)}
    (hcap : (encodeUtf8 texts.flatten).length ≤ MAX_SSE_BUFFER_BYTES) :
    (readStream lib ingress model (texts.map encodeUtf8)).live =
      liveTranslation lib ingress model texts.flatten := by
  refine (reader_simulates (fun _ => True)
    (fun reader : StreamReader τ χ => (reader.live, reader.buffer)) Live.ended eventEnd_ne_nil
    (fun live event hended => onEvent_of_ended hended event) ?_ texts _ trivial rfl hcap).2
  intro reader text _ hsize
  refine ⟨trivial, ?_⟩
  unfold StreamReader.onChunk feedUntil feedInto
  cases hended : reader.live.ended with
  | true => rfl
  | false =>
    rw [fromUtf8_eq_some_iff.mpr rfl]
    simp only [Bool.false_eq_true, if_false, if_neg (Nat.not_lt.mpr hsize)]

theorem feed_of_finished {finishes : List (List Char) → Bool} {fed : Fed}
    (h : fed.finished = true) (line : List Char) : fed.feed finishes line = fed := if_pos h

/-- **The lines of a short stream**, in whatever whole characters it comes. -/
theorem readLines_texts (finishes : List (List Char) → Bool) {texts : List (List Char)}
    (hcap : (encodeUtf8 texts.flatten).length ≤ MAX_SSE_LINE_LENGTH) :
    (readLines finishes (texts.map encodeUtf8)).tooLong = false ∧
      (readLines finishes (texts.map encodeUtf8)).fed =
        (frames ['\n'] texts.flatten).1.foldl (Fed.feed finishes)
          { lines := [], finished := false } := by
  refine reader_simulates (fun reader : LineReader => reader.tooLong = false)
    (fun reader : LineReader => (reader.fed, reader.buffer)) Fed.finished
    (List.cons_ne_nil _ _) (fun fed line hfinished => feed_of_finished hfinished line) ?_ texts _
    rfl rfl hcap
  intro reader text hlong hsize
  unfold LineReader.onChunk feedUntil feedInto decodeChunk
  rw [hlong, Bool.or_false]
  cases hfinished : reader.fed.finished with
  | true => exact ⟨hlong, rfl⟩
  | false =>
    rw [fromUtf8_eq_some_iff.mpr rfl]
    simp only [Bool.false_eq_true, if_false, Option.getD_some, if_neg (Nat.not_lt.mpr hsize)]
    exact ⟨trivial, trivial⟩

/-! ## The split send -/

/-- The reader of a split send after the text `read`: it has searched some events and has the rest
in its buffer, and there is an event in the buffer only if it has found an id. -/
structure Searched (lib : External τ χ) (room : Nat) (read : List Char) (reader : SplitReader) :
    Prop where
  going : reader.failed = false
  room : reader.sseBuffer.currentBytes + room ≤ reader.sseBuffer.limitBytes
  pending : (frames eventEnd reader.buffer).2 = (frames eventEnd read).2
  searched : ∃ searched, (frames eventEnd read).1 =
      searched ++ (frames eventEnd reader.buffer).1 ∧
    reader.chunkIntId = (searched.filterMap (createdIn lib)).getLast?
  found : reader.chunkIntId = none → (frames eventEnd reader.buffer).1 = []

theorem push_ok (buffer : MemSseBuffer) (bytes : List UInt8)
    (h : buffer.currentBytes + bytes.length ≤ buffer.limitBytes) (pieceIndex : Nat) :
    ∃ pushed, buffer.push pieceIndex bytes = some pushed ∧
      pushed.currentBytes = buffer.currentBytes + bytes.length ∧
      pushed.limitBytes = buffer.limitBytes :=
  ⟨_, if_neg (Nat.not_lt.mpr h), rfl, rfl⟩

theorem encode_length_le {a b : List Char} {whole : List (List Char)}
    (hframes : (frames eventEnd b).1 = whole ++ (frames eventEnd a).1)
    (hpending : (frames eventEnd a).2 = (frames eventEnd b).2) :
    (encodeUtf8 a).length ≤ (encodeUtf8 b).length := by
  have ha := congrArg (fun t => (encodeUtf8 t).length) (frames_flatten eventEnd_ne_nil a)
  have hb := congrArg (fun t => (encodeUtf8 t).length) (frames_flatten eventEnd_ne_nil b)
  rw [hframes, List.flatMap_append, ← hpending] at hb
  simp only [encodeUtf8_append, List.length_append] at ha hb
  omega

/-- One chunk that is text. -/
theorem Searched.onChunk {room : Nat} {read : List Char} {reader : SplitReader} {text : List Char}
    (h : Searched lib ((encodeUtf8 text).length + room) read reader)
    (hcap : (encodeUtf8 (reader.buffer ++ text)).length ≤ MAX_SSE_BUFFER_BYTES)
    (pieceIndex : Nat) :
    Searched lib room (read ++ text) (reader.onChunk lib pieceIndex (encodeUtf8 text)) ∧
      (reader.onChunk lib pieceIndex (encodeUtf8 text)).buffer =
        (parseSseForInteractionId lib (reader.buffer ++ text)).2 := by
  have hroom := h.room
  obtain ⟨pushed, hpush, hbytes, hlimit⟩ :=
    push_ok reader.sseBuffer (encodeUtf8 text) (by omega) pieceIndex
  obtain ⟨searched, hframes, hpending, hids, hnone⟩ :=
    parseSseForInteractionId_spec lib (reader.buffer ++ text)
  have hshort := Nat.le_trans (encode_length_le hframes hpending) hcap
  have hstep : reader.onChunk lib pieceIndex (encodeUtf8 text) =
      { sseBuffer := pushed
        buffer := (parseSseForInteractionId lib (reader.buffer ++ text)).2
        chunkIntId := (parseSseForInteractionId lib (reader.buffer ++ text)).1.or
          reader.chunkIntId
        failed := false } := by
    unfold SplitReader.onChunk
    rw [if_neg (by simp [h.going]), hpush, fromUtf8_eq_some_iff.mpr rfl]
    simp only [decide_eq_false (Nat.not_lt.mpr hshort)]
  obtain ⟨before, hbefore, hid⟩ := h.searched
  have hread := frames_append eventEnd_ne_nil read text
  have hbuffer := frames_append eventEnd_ne_nil reader.buffer text
  rw [h.pending] at hbuffer
  refine ⟨⟨?_, ?_, ?_, ⟨before ++ searched, ?_, ?_⟩, ?_⟩, ?_⟩
  · rw [hstep]
  · rw [hstep]
    simp only [hbytes, hlimit]
    omega
  · rw [hstep]
    simp only [hpending, hread, hbuffer]
  · rw [hstep]
    simp only [hread]
    rw [hbefore, List.append_assoc, List.append_assoc, ← hframes, hbuffer]
  · rw [hstep, List.filterMap_append, hids, List.getLast?_append, ← hid]
    cases (parseSseForInteractionId lib (reader.buffer ++ text)).1 <;> rfl
  · rw [hstep]
    intro hnot
    exact hnone (Option.or_eq_none_iff.mp hnot).1
  · rw [hstep]

theorem Searched.buffer_le {room : Nat} {read : List Char} {reader : SplitReader}
    (h : Searched lib room read reader) :
    (encodeUtf8 reader.buffer).length ≤ (encodeUtf8 read).length := by
  obtain ⟨searched, hframes, _⟩ := h.searched
  exact encode_length_le hframes h.pending

/-- All chunks of a short stream. -/
theorem Searched.texts {texts : List (List Char)} {read : List Char} {reader : SplitReader}
    (h : Searched lib (encodeUtf8 texts.flatten).length read reader)
    (hcap : (encodeUtf8 (read ++ texts.flatten)).length ≤ MAX_SSE_BUFFER_BYTES)
    (pieceIndex : Nat) :
    Searched lib 0 (read ++ texts.flatten)
      ((texts.map encodeUtf8).foldl (SplitReader.onChunk lib pieceIndex) reader) := by
  induction texts generalizing read reader with
  | nil => simpa [encodeUtf8] using h
  | cons text texts ih =>
    rw [List.flatten_cons] at h hcap ⊢
    rw [encodeUtf8_append, List.length_append] at h
    have hsize := h.buffer_le
    rw [encodeUtf8_append, encodeUtf8_append, List.length_append, List.length_append] at hcap
    have hchunk := (h.onChunk (by
      rw [encodeUtf8_append, List.length_append]
      omega) pieceIndex).1
    rw [List.map_cons, List.foldl_cons, ← List.append_assoc]
    apply ih hchunk
    rw [encodeUtf8_append, encodeUtf8_append, List.length_append, List.length_append]
    omega

theorem searched_start {sseBuffer : MemSseBuffer} {room : Nat}
    (h : sseBuffer.currentBytes + room ≤ sseBuffer.limitBytes) :
    Searched lib room [] (SplitReader.start sseBuffer) where
  going := rfl
  room := h
  pending := rfl
  searched := ⟨[], rfl, rfl⟩
  found _ := rfl

/-- The ids that were searched, and those that are still in the buffer. -/
theorem Searched.ids {room : Nat} {read : List Char} {reader : SplitReader}
    (h : Searched lib room read reader) :
    ∃ before, createdIds lib read = before ++ createdIds lib reader.buffer ∧
      reader.chunkIntId = before.getLast? := by
  obtain ⟨searched, hframes, hid⟩ := h.searched
  refine ⟨searched.filterMap (createdIn lib), ?_, hid⟩
  unfold createdIds
  rw [hframes, List.filterMap_append]

/-- If all ids are the same, the id that is found is that one. -/
theorem Searched.same {room : Nat} {read : List Char} {reader : SplitReader}
    (h : Searched lib room read reader)
    (hsame : ∀ a ∈ createdIds lib read, ∀ b ∈ createdIds lib read, a = b) :
    reader.chunkIntId = (createdIds lib read).head? := by
  obtain ⟨before, hids, hid⟩ := h.ids
  cases hfound : reader.chunkIntId with
  | none =>
    have hbefore : before = [] := List.getLast?_eq_none_iff.mp (hid ▸ hfound)
    have hbuffer : createdIds lib reader.buffer = [] := by
      unfold createdIds
      rw [h.found hfound]
      rfl
    rw [hids, hbefore, hbuffer]
    rfl
  | some a =>
    have ha : a ∈ createdIds lib read := by
      rw [hids]
      exact List.mem_append_left _ (List.mem_of_getLast? (hid ▸ hfound))
    cases hread : createdIds lib read with
    | nil => exact absurd ha (by simp [hread])
    | cons b rest =>
      rw [hsame a ha b (by simp [hread])]
      rfl

/-- Every search takes one id out of the buffer. -/
theorem createdIds_rest (lineBuf : List Char) :
    createdIds lib (parseSseForInteractionId lib lineBuf).2 = (createdIds lib lineBuf).drop 1 := by
  obtain ⟨searched, hframes, _, hids, hnone⟩ := parseSseForInteractionId_spec lib lineBuf
  have hsplit : createdIds lib lineBuf = (parseSseForInteractionId lib lineBuf).1.toList ++
      createdIds lib (parseSseForInteractionId lib lineBuf).2 := by
    unfold createdIds
    rw [hframes, List.filterMap_append, hids]
  rw [hsplit]
  cases hfound : (parseSseForInteractionId lib lineBuf).1 with
  | some id => rfl
  | none =>
    unfold createdIds
    rw [hnone hfound]
    rfl

/-- The whole stream in one chunk and then empty chunks: each of them finds the next id. -/
theorem searched_empty_chunks (lib : External τ χ) {sseBuffer : MemSseBuffer} {text : List Char}
    (hroom : sseBuffer.currentBytes + (encodeUtf8 text).length ≤ sseBuffer.limitBytes)
    (hcap : (encodeUtf8 text).length ≤ MAX_SSE_BUFFER_BYTES) (pieceIndex k : Nat) :
    let reader := (encodeUtf8 text :: List.replicate k []).foldl
      (SplitReader.onChunk lib pieceIndex) (SplitReader.start sseBuffer)
    Searched lib 0 text reader ∧
      createdIds lib reader.buffer = (createdIds lib text).drop (k + 1) := by
  induction k with
  | zero =>
    have hstart : Searched lib ((encodeUtf8 text).length + 0) [] (SplitReader.start sseBuffer) :=
      searched_start hroom
    obtain ⟨hsearched, hbuffer⟩ := hstart.onChunk hcap pieceIndex
    refine ⟨hsearched, ?_⟩
    rw [List.replicate_zero, List.foldl_cons, List.foldl_nil, hbuffer]
    exact createdIds_rest text
  | succ k ih =>
    obtain ⟨hsearched, hids⟩ := ih
    have hlast : encodeUtf8 text :: List.replicate (k + 1) ([] : List UInt8) =
        (encodeUtf8 text :: List.replicate k []) ++ [[]] := by
      rw [List.replicate_succ', List.cons_append]
    have hsize := Nat.le_trans hsearched.buffer_le hcap
    have hempty : Searched lib ((encodeUtf8 []).length + 0) text _ := hsearched
    obtain ⟨hnext, hbuffer⟩ := hempty.onChunk (by rwa [List.append_nil]) pieceIndex
    rw [List.append_nil] at hnext hbuffer
    rw [hlast, List.foldl_append, List.foldl_cons, List.foldl_nil]
    refine ⟨hnext, ?_⟩
    have hempty : encodeUtf8 [] = [] := rfl
    rw [hempty] at hbuffer
    rw [hbuffer, createdIds_rest, hids, List.drop_drop]

/-! ## Chunks that cut a character -/

/-- Whatever an OpenAI client is sent as an event is the error of a buffer that is too long. -/
def OnlyTooLong (live : Live τ χ) : Prop :=
  ∀ event, Sent.event event ∈ live.client.sent →
    event = .error "upstream_error" "sse buffer exceeded max line length"

theorem mem_sent_openAi {pick : List χ → List χ} {client : ClientSide τ χ}
    {events : List StreamEvent} {event : StreamEvent}
    (h : Sent.event event ∈ (events.foldl (ClientSide.send lib pick .openAi model) client).sent) :
    Sent.event event ∈ client.sent := by
  induction events generalizing client with
  | nil => exact h
  | cons first rest ih =>
    have hrest := ih h
    unfold ClientSide.send at hrest
    split at hrest
    · exact absurd ‹Protocol.openAi = Protocol.anthropic› (by decide)
    · exact hrest
    · exact hrest
    · rcases List.mem_append.mp hrest with hmem | hmem
      · exact hmem
      · exact absurd hmem (by simp)

theorem OnlyTooLong.onEvent {live : Live τ χ} (h : OnlyTooLong live) (event : List Char) :
    OnlyTooLong (live.onEvent lib .openAi model event) := by
  unfold Live.onEvent
  induction payloads event generalizing live with
  | nil => exact h
  | cons data rest ih =>
    apply ih
    intro e he
    unfold Live.onPayload at he
    split at he
    · exact h e he
    · split at he
      · exact h e he
      · split at he
        · exact h e he
        · exact h e (mem_sent_openAi he)

theorem OnlyTooLong.onEvents {live : Live τ χ} (h : OnlyTooLong live) (events : List (List Char)) :
    OnlyTooLong (events.foldl (Live.onEvent lib .openAi model) live) := by
  induction events generalizing live with
  | nil => exact h
  | cons event rest ih => exact ih (h.onEvent event)

theorem onlyTooLong_texts (texts : List (List Char)) :
    OnlyTooLong (readStream lib .openAi model (texts.map encodeUtf8)).live := by
  suffices hgen : ∀ (texts : List (List Char)) (reader : StreamReader τ χ),
      OnlyTooLong reader.live → OnlyTooLong ((texts.map encodeUtf8).foldl
        (StreamReader.onChunk lib .openAi model) reader).live by
    exact hgen texts _ fun event hevent => absurd hevent (by simp [Live.start, ClientSide.fresh])
  intro texts
  induction texts with
  | nil => exact fun _ h => h
  | cons text texts ih =>
    intro reader h
    apply ih
    unfold StreamReader.onChunk
    rw [fromUtf8_eq_some_iff.mpr rfl]
    split
    · exact h
    · simp only
      split
      · intro event hevent
        rcases List.mem_append.mp hevent with hmem | hmem
        · exact h event hmem
        · exact Sent.event.inj (List.mem_singleton.mp hmem)
      · exact h.onEvents _

/-- **A cut inside a character shows** in what an OpenAI client is sent. -/
theorem narrow_of_sent_alike (lib : External τ χ) (model : String) {text : List Char}
    (h : ∀ chunks chunks' : List (List UInt8), chunks.flatten = encodeUtf8 text →
      chunks'.flatten = encodeUtf8 text →
      handleStreamResponse lib .openAi model chunks =
        handleStreamResponse lib .openAi model chunks') :
    ∀ c ∈ text, c.utf8Size = 1 := by
  intro c hc
  by_contra hwide
  obtain ⟨before, after, htext⟩ := List.append_of_mem hc
  obtain ⟨b, tail, hb⟩ := List.exists_cons_of_ne_nil (utf8EncodeChar_ne_nil c)
  have htail : tail ≠ [] := by
    intro hnil
    have hlen := String.length_utf8EncodeChar c
    rw [hb, hnil] at hlen
    exact hwide hlen.symm
  have hcut : [encodeUtf8 before ++ [b], tail ++ encodeUtf8 after].flatten = encodeUtf8 text := by
    have hcons : encodeUtf8 (c :: after) = (b :: tail) ++ encodeUtf8 after := by
      rw [← hb]
      rfl
    rw [htext, encodeUtf8_append, hcons]
    simp
  have hwhole : ([text].map encodeUtf8).flatten = encodeUtf8 text := by simp
  have halike := congrArg Prod.fst (h _ _ hcut hwhole)
  have hfailed : (handleStreamResponse lib .openAi model
      [encodeUtf8 before ++ [b], tail ++ encodeUtf8 after]).1 =
        [.event (.error "upstream_error" "non-utf8 response from upstream")] := by
    unfold handleStreamResponse readStream
    rw [List.foldl_cons, List.foldl_cons, List.foldl_nil]
    have hfirst : StreamReader.onChunk lib .openAi model
        { buffer := [], live := Live.start } (encodeUtf8 before ++ [b]) =
          { buffer := [], live := Live.start.fail "non-utf8 response from upstream" } := by
      unfold StreamReader.onChunk
      rw [fromUtf8_cut_inside hb htail]
      rfl
    rw [hfirst]
    rfl
  have hmem : Sent.event (.error "upstream_error" "non-utf8 response from upstream") ∈
      (handleStreamResponse lib .openAi model ([text].map encodeUtf8)).1 := by
    rw [← halike, hfailed]
    exact List.mem_singleton.mpr rfl
  have hsent : Sent.event (.error "upstream_error" "non-utf8 response from upstream") ∈
      (readStream lib .openAi model ([text].map encodeUtf8)).live.client.sent := by
    unfold handleStreamResponse Live.flush at hmem
    simp only at hmem
    split at hmem
    · simpa using hmem
    · exact hmem
  exact absurd (onlyTooLong_texts [text] _ hsent) (by decide)

/-! ## Chunks that are too long -/

/-- Read character by character, short lines stay short. -/
theorem readLines_singles (before : List Char) {rest : List Char}
    (hlines : LinesBelowCap (before ++ rest)) (hnarrow : ∀ c ∈ rest, c.utf8Size = 1) {reader : LineReader}
    (hbuffer : reader.buffer = (frames ['\n'] before).2)
    (hgoing : reader.fed.finished = false ∧ reader.tooLong = false) :
    (((rest.map fun c => [c]).map encodeUtf8).foldl (LineReader.onChunk fun _ => false)
      reader).tooLong = false := by
  induction rest generalizing before reader with
  | nil => exact hgoing.2
  | cons c rest ih =>
    rw [List.forall_mem_cons] at hnarrow
    have hsize : (encodeUtf8 (reader.buffer ++ [c])).length ≤ MAX_SSE_LINE_LENGTH := by
      have hlt := hlines before (List.prefix_append _ _)
      have hone : (encodeUtf8 [c]).length = 1 := by
        rw [length_encode_cons, hnarrow.1]
        rfl
      rw [encodeUtf8_append, List.length_append, hone, hbuffer]
      exact hlt
    have hfed : ∀ (found : List (List Char)) (fed : Fed), fed.finished = false →
        (found.foldl (Fed.feed fun _ => false) fed).finished = false := by
      intro found
      induction found with
      | nil => exact fun _ h => h
      | cons line found ihFound =>
        intro fed h
        apply ihFound
        unfold Fed.feed
        rw [if_neg (by simp [h])]
    have hstep : reader.onChunk (fun _ => false) (encodeUtf8 [c]) =
        { fed := (frames ['\n'] (reader.buffer ++ [c])).1.foldl (Fed.feed fun _ => false) reader.fed
          buffer := (frames ['\n'] (reader.buffer ++ [c])).2
          tooLong := false } := by
      unfold LineReader.onChunk decodeChunk
      rw [hgoing.1, hgoing.2, fromUtf8_eq_some_iff.mpr rfl]
      simp only [Bool.or_self, Bool.false_eq_true, if_false, Option.getD_some,
        if_neg (Nat.not_lt.mpr hsize)]
    have hpending : (frames ['\n'] (reader.buffer ++ [c])).2 =
        (frames ['\n'] (before ++ [c])).2 := by
      rw [frames_append (List.cons_ne_nil _ _) before, hbuffer]
    rw [List.map_cons, List.map_cons, List.foldl_cons, hstep]
    refine ih (before ++ [c]) ?_ hnarrow.2 hpending ⟨hfed _ _ hgoing.1, rfl⟩
    rwa [List.append_assoc]

/-- **A stream longer than the cap shows** when it comes in one chunk. -/
theorem short_of_lines_alike {text : List Char} (hlines : LinesBelowCap text)
    (hnarrow : ∀ c ∈ text, c.utf8Size = 1)
    (h : ∀ chunks chunks' : List (List UInt8), chunks.flatten = encodeUtf8 text →
      chunks'.flatten = encodeUtf8 text →
      handleStreamManual chunks = handleStreamManual chunks') :
    (encodeUtf8 text).length ≤ MAX_SSE_LINE_LENGTH := by
  by_contra hlong
  have hsingles : ((text.map fun c => [c]).map encodeUtf8).flatten = encodeUtf8 text := by
    rw [flatten_map_encode, ← List.flatMap_def, List.flatMap_singleton']
  have halike := congrArg Prod.snd (h [encodeUtf8 text] _ (by simp) hsingles)
  have hshort : (handleStreamManual ((text.map fun c => [c]).map encodeUtf8)).2 = false :=
    readLines_singles [] hlines hnarrow rfl ⟨rfl, rfl⟩
  have hwhole : (handleStreamManual [encodeUtf8 text]).2 = true := by
    have hchunk : LineReader.onChunk (fun _ => false)
        { fed := { lines := [], finished := false }, buffer := [], tooLong := false }
        (encodeUtf8 text) =
          { fed := { lines := [], finished := false }, buffer := text, tooLong := true } := by
      unfold LineReader.onChunk decodeChunk
      rw [fromUtf8_eq_some_iff.mpr rfl]
      exact if_pos (Nat.not_le.mp hlong)
    exact congrArg LineReader.tooLong hchunk
  rw [hwhole, hshort] at halike
  exact absurd halike (by simp)

/-! ## Agreement -/

/-- **Another id shows** when the search finds it after the first. -/
theorem same_of_ids_alike {sseBuffer : MemSseBuffer} {pieceIndex : Nat} {text : List Char}
    (hroom : sseBuffer.currentBytes + (encodeUtf8 text).length ≤ sseBuffer.limitBytes)
    (hcap : (encodeUtf8 text).length ≤ MAX_SSE_BUFFER_BYTES)
    (h : ∀ chunks chunks' : List (List UInt8), chunks.flatten = encodeUtf8 text →
      chunks'.flatten = encodeUtf8 text →
      readStreamingChunkResponse lib sseBuffer pieceIndex chunks =
        readStreamingChunkResponse lib sseBuffer pieceIndex chunks') :
    ∀ a ∈ createdIds lib text, ∀ b ∈ createdIds lib text, a = b := by
  have hnth : ∀ (k : Nat) (a : String), (createdIds lib text)[k]? = some a →
      readStreamingChunkResponse lib sseBuffer pieceIndex
        (encodeUtf8 text :: List.replicate k []) = some (some a) := by
    intro k a ha
    obtain ⟨hsearched, hids⟩ := searched_empty_chunks lib hroom hcap pieceIndex k
    obtain ⟨before, hbefore, hid⟩ := hsearched.ids
    have hk : k < (createdIds lib text).length := (List.getElem?_eq_some_iff.mp ha).1
    rw [hids] at hbefore
    have hlen := congrArg List.length hbefore
    rw [List.length_append, List.length_drop] at hlen
    have hlast : before.getLast? = some a := by
      rw [hbefore, List.getElem?_append_left (by omega)] at ha
      rw [List.getLast?_eq_getElem?, ← ha]
      congr 1
      omega
    unfold readStreamingChunkResponse
    exact (if_neg (by rw [hsearched.going]; simp)).trans (congrArg some (hid.trans hlast))
  have hfirst : ∀ (k : Nat) (a : String), (createdIds lib text)[k]? = some a →
      (createdIds lib text)[0]? = some a := by
    intro k a ha
    have hlt : 0 < (createdIds lib text).length :=
      Nat.lt_of_le_of_lt (Nat.zero_le k) (List.getElem?_eq_some_iff.mp ha).1
    have hzero := hnth 0 _ (List.getElem?_eq_getElem hlt)
    rw [h _ (encodeUtf8 text :: List.replicate k []) (by simp) (by simp), hnth k a ha] at hzero
    rw [List.getElem?_eq_getElem hlt, Option.some.inj (Option.some.inj hzero)]
  intro a ha b hb
  obtain ⟨i, hi⟩ := List.getElem?_of_mem ha
  obtain ⟨j, hj⟩ := List.getElem?_of_mem hb
  exact Option.some.inj ((hfirst i a hi).symm.trans (hfirst j b hj))

/-- What the split send finds in a short stream with one id. -/
theorem readStreamingChunkResponse_texts {sseBuffer : MemSseBuffer} {texts : List (List Char)}
    (hroom : sseBuffer.currentBytes + (encodeUtf8 texts.flatten).length ≤ sseBuffer.limitBytes)
    (hcap : (encodeUtf8 texts.flatten).length ≤ MAX_SSE_BUFFER_BYTES)
    (hsame : ∀ a ∈ createdIds lib texts.flatten, ∀ b ∈ createdIds lib texts.flatten, a = b)
    (pieceIndex : Nat) :
    readStreamingChunkResponse lib sseBuffer pieceIndex (texts.map encodeUtf8) =
      some (createdIds lib texts.flatten).head? := by
  have hstart : Searched lib (encodeUtf8 texts.flatten).length [] (SplitReader.start sseBuffer) :=
    searched_start hroom
  have hsearched := hstart.texts hcap pieceIndex
  rw [List.nil_append] at hsearched
  unfold readStreamingChunkResponse
  exact (if_neg (by rw [hsearched.going]; simp)).trans (congrArg some (hsearched.same hsame))

/-- **Chunks do not matter** exactly for streams of single-byte characters that announce one id only
and fit the cap as a whole. -/
theorem chunking_irrelevant_iff {isDone : List (List Char) → Bool} {sseBuffer : MemSseBuffer}
    {pieceIndex : Nat} {text : List Char} (hlines : LinesBelowCap text)
    (hroom : sseBuffer.currentBytes + (encodeUtf8 text).length ≤ sseBuffer.limitBytes) :
    (∀ chunks chunks' : List (List UInt8), chunks.flatten = encodeUtf8 text →
        chunks'.flatten = encodeUtf8 text →
        ReadAlike lib isDone sseBuffer pieceIndex chunks chunks') ↔
      (∀ c ∈ text, c.utf8Size = 1) ∧
        (∀ a ∈ createdIds lib text, ∀ b ∈ createdIds lib text, a = b) ∧
        (encodeUtf8 text).length ≤ MAX_SSE_BUFFER_BYTES := by
  constructor
  · intro h
    have hnarrow := narrow_of_sent_alike lib "" fun chunks chunks' hc hc' =>
      (h chunks chunks' hc hc').1 .openAi ""
    have hcap := short_of_lines_alike hlines hnarrow fun chunks chunks' hc hc' =>
      (h chunks chunks' hc hc').2.2.1
    exact ⟨hnarrow, same_of_ids_alike hroom hcap fun chunks chunks' hc hc' =>
      (h chunks chunks' hc hc').2.1, hcap⟩
  · intro ⟨hnarrow, hsame, hcap⟩ chunks chunks' hchunks hchunks'
    obtain ⟨texts, htexts, rfl⟩ := exists_texts_of_flatten hnarrow hchunks
    obtain ⟨texts', htexts', rfl⟩ := exists_texts_of_flatten hnarrow hchunks'
    subst htexts
    have hcap' := hcap
    have hroom' := hroom
    have hsame' := hsame
    rw [← htexts'] at hcap' hroom' hsame'
    have hread : ∀ finishes, (readLines finishes (texts.map encodeUtf8)).fed =
          (readLines finishes (texts'.map encodeUtf8)).fed ∧
        (readLines finishes (texts.map encodeUtf8)).tooLong =
          (readLines finishes (texts'.map encodeUtf8)).tooLong := by
      intro finishes
      obtain ⟨hlong, hfed⟩ := readLines_texts finishes hcap
      obtain ⟨hlong', hfed'⟩ := readLines_texts finishes hcap'
      rw [hlong, hlong', hfed, hfed', htexts']
      exact ⟨rfl, rfl⟩
    refine ⟨?_, ?_, ?_, ?_⟩
    · intro ingress model
      unfold handleStreamResponse
      rw [readStream_texts hcap, readStream_texts hcap', htexts']
    · rw [readStreamingChunkResponse_texts hroom hcap hsame,
        readStreamingChunkResponse_texts hroom' hcap' hsame', htexts']
    · simp only [handleStreamManual, (hread _).1, (hread _).2]
    · simp only [handleFromOpenaiStream, (hread _).1, (hread _).2]

end

/-! ## Two streams -/

theorem linesBelowCap_of_short {text : List Char}
    (h : (encodeUtf8 text).length < MAX_SSE_LINE_LENGTH) : LinesBelowCap text := by
  intro before hprefix
  obtain ⟨after, rfl⟩ := hprefix
  have hle : (encodeUtf8 (frames ['\n'] before).2).length ≤ (encodeUtf8 before).length :=
    pending_length_le (List.cons_ne_nil _ _) before
  rw [encodeUtf8_append, List.length_append] at h
  omega

/-- Created, a step and completed: one id, in any chunks. -/
theorem chunking_irrelevant_iff_oneStep :
    createdIds (answering [0]) (streamText (oneStepTexts "int-2")) = ["int-2"] ∧
      ∀ chunks chunks' : List (List UInt8),
        chunks.flatten = encodeUtf8 (streamText (oneStepTexts "int-2")) →
          chunks'.flatten = encodeUtf8 (streamText (oneStepTexts "int-2")) →
            ReadAlike (answering [0]) (fun _ => false) MemSseBuffer.default 0 chunks chunks' := by
  have hids : createdIds (answering [0]) (streamText (oneStepTexts "int-2")) = ["int-2"] := by
    decide +kernel
  have hshort : (encodeUtf8 (streamText (oneStepTexts "int-2"))).length < 1000 := by
    decide +kernel
  have hnarrow : (streamText (oneStepTexts "int-2")).all fun c => c.utf8Size == 1 := by
    decide +kernel
  refine ⟨hids, (chunking_irrelevant_iff (linesBelowCap_of_short ?_) ?_).mpr
    ⟨fun c hc => beq_iff_eq.mp (List.all_eq_true.mp hnarrow c hc), ?_, ?_⟩⟩
  · unfold MAX_SSE_LINE_LENGTH
    omega
  · unfold MemSseBuffer.default MemSseBuffer.DEFAULT_SSE_BUFFER_LIMIT
    simp only
    omega
  · rw [hids]
    simp
  · unfold MAX_SSE_BUFFER_BYTES
    omega

/-- A text of two bytes, in an event that is sent in two chunks. -/
def accentText : List Char :=
  "data: \x7b\"event_type\":\"step.delta\",\"index\":0,".toList ++
    "\"delta\":\x7b\"type\":\"text\",\"text\":\"".toList ++ 'é' :: "\"\x7d\x7d\n\n".toList

theorem chunking_not_always_irrelevant :
    ¬ ∀ (lib : External Unit Nat) (isDone : List (List Char) → Bool) (sseBuffer : MemSseBuffer)
        (pieceIndex : Nat) (text : List Char), LinesBelowCap text →
      sseBuffer.currentBytes + (encodeUtf8 text).length ≤ sseBuffer.limitBytes →
      ∀ chunks chunks' : List (List UInt8), chunks.flatten = encodeUtf8 text →
        chunks'.flatten = encodeUtf8 text →
        ReadAlike lib isDone sseBuffer pieceIndex chunks chunks' := by
  intro hall
  have hshort : (encodeUtf8 accentText).length < 100 := by decide +kernel
  have hlines : LinesBelowCap accentText := linesBelowCap_of_short (by
    unfold MAX_SSE_LINE_LENGTH
    omega)
  have hnarrow := narrow_of_sent_alike (answering [0]) "model"
    fun chunks chunks' hc hc' =>
      (hall (answering [0]) (fun _ => false) MemSseBuffer.default 0 accentText hlines (by
        unfold MemSseBuffer.default MemSseBuffer.DEFAULT_SSE_BUFFER_LIMIT
        simp only
        omega) chunks chunks' hc hc').1 .openAi "model"
  have hmem : 'é' ∈ accentText := List.mem_append_right _ (List.mem_cons_self ..)
  exact absurd (hnarrow 'é' hmem) (by decide)

end InfSplitter.Streams
