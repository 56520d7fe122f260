import InfSplitter.Streams.Live

/-!
# The other readers of streams

Besides the live translation three more loops read upstream streams chunk by chunk: the two loops of
the split send, which keep the bytes and look for the id of the interaction, and the two stream
converters of the direct routes, which hand one line after another to a translator.

They treat a chunk that is not text of its own in three ways. The live translation gives up, the
split send passes over it, and the converters decode it lossily.
-/

set_option autoImplicit false

namespace InfSplitter.Streams

open Interactions Lib

section
variable {τ χ : Type} (lib : External τ χ)

/-! ## The split send -/

/-- The id of the first created interaction an event announces. -/
def createdIn (event : List Char) : Option String :=
  ((payloads event).filterMap lib.fromStr).findSome? InteractionSseEvent.createdId?

def parseSseFrom : Nat → List Char → Option String × List Char
  | 0, lineBuf => (none, lineBuf)
  | n + 1, lineBuf =>
    match cutAt eventEnd lineBuf with
    | none => (none, lineBuf)
    | some (event, rest) =>
      match createdIn lib event with
      | some id => (some id, rest)
      | none => parseSseFrom n rest

/-- The first id that is found, and what stays in the buffer: the search stops there. -/
def parseSseForInteractionId (lineBuf : List Char) : Option String × List Char :=
  parseSseFrom lib lineBuf.length lineBuf

/-- The loop of a split send over the stream of one piece. -/
structure SplitReader where
  sseBuffer : MemSseBuffer
  buffer : List Char
  chunkIntId : Option String
  failed : Bool

def SplitReader.start (sseBuffer : MemSseBuffer) : SplitReader :=
  { sseBuffer, buffer := [], chunkIntId := none, failed := false }

def SplitReader.onChunk (pieceIndex : Nat) (reader : SplitReader) (chunk : List UInt8) :
    SplitReader :=
  if reader.failed then reader
  else
    match reader.sseBuffer.push pieceIndex chunk with
    | none => { reader with failed := true }
    | some sseBuffer =>
      match fromUtf8 chunk with
      | none => { reader with sseBuffer }
      | some text =>
        let (found, rest) := parseSseForInteractionId lib (reader.buffer ++ text)
        { sseBuffer, buffer := rest, chunkIntId := found.or reader.chunkIntId
          failed := decide ((encodeUtf8 rest).length > MAX_SSE_BUFFER_BYTES) }

/-- `read_streaming_chunk_response`: the id, `none` if the loop returns an error. -/
def readStreamingChunkResponse (sseBuffer : MemSseBuffer) (pieceIndex : Nat)
    (chunks : List (List UInt8)) : Option (Option String) :=
  let reader := chunks.foldl (SplitReader.onChunk lib pieceIndex) (SplitReader.start sseBuffer)
  if reader.failed then none else some reader.chunkIntId

/-! ## The stream converters -/

end

def MAX_SSE_LINE_LENGTH : Nat := 1048576

/-- The lines the translator has been given, and whether the stream to the client is over. -/
structure Fed where
  lines : List (List Char)
  finished : Bool
deriving DecidableEq, Repr

structure LineReader where
  fed : Fed
  buffer : List Char
  tooLong : Bool

def trimReturns (line : List Char) : List Char :=
  (line.reverse.dropWhile (· = '\r')).reverse

/-- `finishes` says for the lines given so far whether the client's stream ends with them. -/
def Fed.feed (finishes : List (List Char) → Bool) (fed : Fed) (line : List Char) : Fed :=
  if fed.finished then fed
  else { lines := fed.lines ++ [trimReturns line]
         finished := finishes (fed.lines ++ [trimReturns line]) }

def decodeChunk (chunk : List UInt8) : List Char :=
  (fromUtf8 chunk).getD (fromUtf8Lossy chunk)

def LineReader.onChunk (finishes : List (List Char) → Bool) (reader : LineReader)
    (chunk : List UInt8) : LineReader :=
  if reader.fed.finished || reader.tooLong then reader
  else
    let buffer := reader.buffer ++ decodeChunk chunk
    if (encodeUtf8 buffer).length > MAX_SSE_LINE_LENGTH then { reader with buffer, tooLong := true }
    else
      let cut := frames ['\n'] buffer
      { fed := cut.1.foldl (Fed.feed finishes) reader.fed, buffer := cut.2, tooLong := false }

def readLines (finishes : List (List Char) → Bool) (chunks : List (List UInt8)) : LineReader :=
  chunks.foldl (LineReader.onChunk finishes)
    { fed := { lines := [], finished := false }, buffer := [], tooLong := false }

/-- The lines `handle_stream_manual` gives its translator, and whether a line was too long. The
stream is only over when the upstream's is. -/
def handleStreamManual (chunks : List (List UInt8)) : List (List Char) × Bool :=
  let reader := readLines (fun _ => false) chunks
  (reader.fed.lines, reader.tooLong)

/-- The lines `handle_from_openai_stream` gives its translator. It stops once the translator is
done, which is a matter of the lines it was given: `isDone`. -/
def handleFromOpenaiStream (isDone : List (List Char) → Bool) (chunks : List (List UInt8)) :
    List (List Char) × Bool :=
  let reader := readLines isDone chunks
  (reader.fed.lines, reader.tooLong)

/-! ## What a search leaves in the buffer -/

section
variable {τ χ : Type} {lib : External τ χ}

/-- The ids of the events in a text, one an event. -/
def createdIds (lib : External τ χ) (text : List Char) : List String :=
  (frames eventEnd text).1.filterMap (createdIn lib)

/-- **The search goes through the events of the buffer up to the first with an id.** -/
theorem parseSseForInteractionId_spec (lib : External τ χ) (lineBuf : List Char) :
    ∃ searched, (frames eventEnd lineBuf).1 =
        searched ++ (frames eventEnd (parseSseForInteractionId lib lineBuf).2).1 ∧
      (frames eventEnd (parseSseForInteractionId lib lineBuf).2).2 = (frames eventEnd lineBuf).2 ∧
      searched.filterMap (createdIn lib) = (parseSseForInteractionId lib lineBuf).1.toList ∧
      ((parseSseForInteractionId lib lineBuf).1 = none →
        (frames eventEnd (parseSseForInteractionId lib lineBuf).2).1 = []) := by
  unfold parseSseForInteractionId
  suffices hgen : ∀ n, lineBuf.length ≤ n → ∃ searched, (frames eventEnd lineBuf).1 =
        searched ++ (frames eventEnd (parseSseFrom lib n lineBuf).2).1 ∧
      (frames eventEnd (parseSseFrom lib n lineBuf).2).2 = (frames eventEnd lineBuf).2 ∧
      searched.filterMap (createdIn lib) = (parseSseFrom lib n lineBuf).1.toList ∧
      ((parseSseFrom lib n lineBuf).1 = none →
        (frames eventEnd (parseSseFrom lib n lineBuf).2).1 = []) by
    exact hgen _ (Nat.le_refl _)
  intro n hn
  induction n generalizing lineBuf with
  | zero =>
    rw [List.length_eq_zero_iff.mp (Nat.le_zero.mp hn)]
    exact ⟨[], rfl, rfl, rfl, fun _ => rfl⟩
  | succ n ih =>
    rw [parseSseFrom]
    cases hc : cutAt eventEnd lineBuf with
    | none =>
      refine ⟨[], rfl, rfl, rfl, fun _ => ?_⟩
      exact congrArg Prod.fst (frames_of_none hc)
    | some p =>
      obtain ⟨event, rest⟩ := p
      have hlt := length_lt_of_cutAt eventEnd_ne_nil hc
      rw [frames_of_some eventEnd_ne_nil hc]
      cases hid : createdIn lib event with
      | some id =>
        simp only [hid]
        exact ⟨[event], rfl, trivial, by simp [hid], fun h => absurd h (by simp)⟩
      | none =>
        obtain ⟨searched, hframes, hpending, hids, hnone⟩ := ih rest (by omega)
        simp only [hid]
        refine ⟨event :: searched, ?_, hpending, ?_, hnone⟩
        · rw [hframes, List.cons_append]
        · rw [List.filterMap_cons_none hid, hids]

end

end InfSplitter.Streams
