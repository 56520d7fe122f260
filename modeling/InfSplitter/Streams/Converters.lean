import InfSplitter.Diagnostics.StreamDump
import InfSplitter.Streams.Encodings

/-!
# The stream converters, poll by poll

A stream of the direct routes is converted as the client polls it. A poll goes through the lines
that are in the buffer, up to one that has an answer, and reads on when there is none; at the end it
finishes the guard of the request and sends what is left to send. Both converters are such a loop
(`Conversion.next`) and differ in what they do with a line (`Converter`).

What a client gets in this way is what the lines of the stream give, one after another, and one
ending (`received_eq`). The lines are those of the line reader, so neither the polls nor the chunks
show (`script_eq`), and the guard is finished once, by the poll with the ending (`received_guard`).
-/

set_option autoImplicit false

namespace InfSplitter.Streams

open Lib Diagnostics

/-! ## The code -/

/-- What a line is answered with. -/
inductive Answer
  | nothing
  | payload (text : String)
  | done

/-- What the two converters differ in. -/
structure Converter (τ : Type) where
  direction : String
  onLine : τ → List Char → τ × Answer
  /-- what is sent when the upstream's stream is over -/
  onEnd : τ → τ × Option String
  /-- It is marked that the end is sent and the guard finished. -/
  marks : Bool

/-- What the handler has when the stream begins. -/
structure StreamContext where
  upstreamHeaders : List (String × String)
  durationMs : UInt64
  requestSize : Nat
  upstreamUrl : String

/-- `byte_stream.next()`, before the end. -/
abbrev Item := Except String (List UInt8)

/-- What comes from the upstream: some chunks, and then the end or an error. -/
def upstreamItems (chunks : List (List UInt8)) (failure : Option String) : List Item :=
  chunks.map .ok ++ failure.toList.map .error

def doneEvent : String := "data: [DONE]\n\n"

def lineTooLong : String := "SSE line too long"

/-- When the response is put aside for the dump, and when the guard is finished. -/
structure Moment where
  dumped : String
  finished : String

structure Conversion (τ : Type) where
  translator : τ
  buffer : List Char
  sentDone : Bool
  rawCapture : List UInt8
  guard : RequestDiagnostics
  guardFinalized : Bool

section
variable {τ : Type} (c : Converter τ) (context : StreamContext) (now : Moment)

/-- `response_dump_streaming` and `finish` or `finish_with_error`. -/
def Conversion.finalize (s : Conversion τ) (error : Option String) : Conversion τ :=
  if s.guardFinalized then s
  else
    { s with
      guard :=
        (s.guard.responseDump now.dumped (dumpBodyFromBytes s.rawCapture) 200
          context.upstreamHeaders).finishAs 200
          { ts := now.finished, durationMs := context.durationMs, requestSize := context.requestSize,
            upstream := context.upstreamUrl, direction := c.direction, streaming := true }
          (some s.rawCapture.length) error }

/-- The end of the client's stream. -/
def Conversion.close (s : Conversion τ) : Conversion τ :=
  let s := s.finalize c context now none
  { s with sentDone := s.sentDone || c.marks, guardFinalized := s.guardFinalized || c.marks }

/-- The lines of the buffer, up to the first with an answer. -/
def Conversion.takeLines : Nat → Conversion τ → Option String × Conversion τ
  | 0, s => (none, s)
  | n + 1, s =>
    match cutAt ['\n'] s.buffer with
    | none => (none, s)
    | some (line, rest) =>
      match c.onLine s.translator (trimReturns line) with
      | (t, .nothing) => Conversion.takeLines n { s with buffer := rest, translator := t }
      | (t, .payload text) => (some text, { s with buffer := rest, translator := t })
      | (t, .done) =>
        (some doneEvent, { s with buffer := rest, translator := t }.close c context now)

def Conversion.onEnd (s : Conversion τ) : Option String × Conversion τ :=
  let s := s.close c context now
  ((c.onEnd s.translator).2, { s with translator := (c.onEnd s.translator).1 })

/-- The loop of a poll. -/
def Conversion.next : List Item → Conversion τ →
    Option (Except String String) × List Item × Conversion τ
  | [], s =>
    match s.takeLines c context now s.buffer.length with
    | (some text, s) => (some (.ok text), [], s)
    | (none, s) => ((s.onEnd c context now).1.map .ok, [], (s.onEnd c context now).2)
  | item :: items, s =>
    match s.takeLines c context now s.buffer.length with
    | (some text, s) => (some (.ok text), item :: items, s)
    | (none, s) =>
      match item with
      | .error e =>
        (some (.error e), items, s.finalize c context now (some ("stream error: " ++ e)))
      | .ok chunk =>
        let s := { s with
          rawCapture := capture s.rawCapture chunk
          buffer := s.buffer ++ decodeChunk chunk }
        if (encodeUtf8 s.buffer).length > MAX_SSE_LINE_LENGTH then
          (some (.error lineTooLong), items, s.finalize c context now none)
        else Conversion.next items s

def Conversion.poll (items : List Item) (s : Conversion τ) :
    Option (Except String String) × List Item × Conversion τ :=
  if s.sentDone then (none, items, s) else s.next c context now items

end

section
variable {τ : Type} (c : Converter τ) (context : StreamContext)

/-- What a client gets that polls at these times, up to the end of the stream or an error, and how
the conversion stands then. -/
def received : List Moment → List Item → Conversion τ →
    List (Except String String) × Conversion τ
  | [], _, s => ([], s)
  | now :: times, items, s =>
    match s.poll c context now items with
    | (none, _, s) => ([], s)
    | (some (.error e), _, s) => ([.error e], s)
    | (some (.ok text), items, s) =>
      (.ok text :: (received times items s).1, (received times items s).2)

/-- The conversion before the first poll. -/
def Conversion.start (translator : τ) (guard : RequestDiagnostics) : Conversion τ :=
  { translator, buffer := [], sentDone := false, rawCapture := [], guard, guardFinalized := false }

/-! ## What the lines say -/

/-- The converted to some lines, up to the first that is the last of the stream. -/
def converted : τ → List (List Char) → List String × τ × Bool
  | t, [] => ([], t, false)
  | t, line :: rest =>
    match c.onLine t line with
    | (t, .nothing) => converted t rest
    | (t, .payload text) => (text :: (converted t rest).1, (converted t rest).2)
    | (t, .done) => ([], t, true)

/-- What a client gets that polls to the end, and what is recorded about it. -/
structure Script where
  payloads : List String
  ending : Option (Except String String)
  /-- the bytes that are read -/
  bytes : List UInt8
  error : Option String

/-- Behind some payloads and bytes. -/
def Script.after (payloads : List String) (bytes : List UInt8) (rest : Script) : Script :=
  { rest with payloads := payloads ++ rest.payloads, bytes := bytes ++ rest.bytes }

def script : τ → List Char → List Item → Script
  | t, buffer, items =>
    let found := converted c t ((frames ['\n'] buffer).1.map trimReturns)
    if found.2.2 then ⟨found.1, some (.ok doneEvent), [], none⟩
    else
      match items with
      | [] => ⟨found.1, (c.onEnd found.2.1).2.map Except.ok, [], none⟩
      | .error e :: _ => ⟨found.1, some (.error e), [], some ("stream error: " ++ e)⟩
      | .ok chunk :: items =>
        let buffer := (frames ['\n'] buffer).2 ++ decodeChunk chunk
        if (encodeUtf8 buffer).length > MAX_SSE_LINE_LENGTH then
          ⟨found.1, some (.error lineTooLong), chunk, none⟩
        else (script found.2.1 buffer items).after found.1 chunk

/-- A converter whose streams end: it marks their end, or has no more to send at a second end and
does not end them before. -/
def Converter.EndsOnce : Prop :=
  c.marks = true ∨
    (∀ t line, (c.onLine t line).2 ≠ .done) ∧ ∀ t, (c.onEnd (c.onEnd t).1).2 = none

end

/-! ## One poll -/

section
variable {τ : Type} {c : Converter τ} {context : StreamContext} {now : Moment} {s : Conversion τ}

section
variable (error : Option String)

@[simp] theorem Conversion.finalize_translator :
    (s.finalize c context now error).translator = s.translator := by
  unfold finalize
  split <;> rfl

@[simp] theorem Conversion.finalize_buffer :
    (s.finalize c context now error).buffer = s.buffer := by
  unfold finalize
  split <;> rfl

@[simp] theorem Conversion.finalize_sentDone :
    (s.finalize c context now error).sentDone = s.sentDone := by
  unfold finalize
  split <;> rfl

@[simp] theorem Conversion.finalize_rawCapture :
    (s.finalize c context now error).rawCapture = s.rawCapture := by
  unfold finalize
  split <;> rfl

@[simp] theorem Conversion.finalize_guardFinalized :
    (s.finalize c context now error).guardFinalized = s.guardFinalized := by
  unfold finalize
  split <;> rfl

end

/-- The guard only depends on what is captured, the guard and the flag. -/
theorem Conversion.finalize_guard_congr {s' : Conversion τ} (hraw : s'.rawCapture = s.rawCapture)
    (hguard : s'.guard = s.guard) (hflag : s'.guardFinalized = s.guardFinalized)
    (error : Option String) :
    (s'.finalize c context now error).guard = (s.finalize c context now error).guard := by
  unfold finalize
  rw [hflag, hraw, hguard]
  split
  · exact hguard
  · rfl

theorem lineBreak_nonempty : ['\n'] ≠ [] := List.cons_ne_nil _ _

/-- **The lines of the buffer**: they have no answer, or the first answer is given, or the last. -/
theorem takeLines_spec {n : Nat} (hn : s.buffer.length ≤ n) :
    (∃ t, converted c s.translator ((frames ['\n'] s.buffer).1.map trimReturns) = ([], t, false) ∧
      s.takeLines c context now n =
        (none, { s with translator := t, buffer := (frames ['\n'] s.buffer).2 })) ∨
    (∃ text t rest,
      converted c s.translator ((frames ['\n'] s.buffer).1.map trimReturns) =
        (text :: (converted c t ((frames ['\n'] rest).1.map trimReturns)).1,
          (converted c t ((frames ['\n'] rest).1.map trimReturns)).2) ∧
      (frames ['\n'] rest).2 = (frames ['\n'] s.buffer).2 ∧
      s.takeLines c context now n = (some text, { s with translator := t, buffer := rest })) ∨
    (∃ t line rest, converted c s.translator ((frames ['\n'] s.buffer).1.map trimReturns) =
        ([], (c.onLine t line).1, true) ∧ (c.onLine t line).2 = .done ∧
      s.takeLines c context now n = (some doneEvent,
        Conversion.close c context now
          { s with translator := (c.onLine t line).1, buffer := rest })) := by
  induction n generalizing s with
  | zero =>
    obtain ⟨t, buffer, sentDone, raw, guard, finalized⟩ := s
    obtain rfl : buffer = [] := List.length_eq_zero_iff.mp (Nat.le_zero.mp hn)
    exact .inl ⟨t, rfl, rfl⟩
  | succ n ih =>
    rw [Conversion.takeLines]
    cases hcut : cutAt ['\n'] s.buffer with
    | none =>
      refine .inl ⟨s.translator, ?_, ?_⟩
      · rw [frames_of_none hcut]
        rfl
      · rw [frames_of_none hcut]
    | some found =>
      obtain ⟨line, rest⟩ := found
      have hlt := length_lt_of_cutAt lineBreak_nonempty hcut
      rw [frames_of_some lineBreak_nonempty hcut, List.map_cons]
      simp only [converted]
      cases hline : c.onLine s.translator (trimReturns line) with
      | mk t answer =>
        cases answer with
        | nothing => exact ih (s := { s with buffer := rest, translator := t }) (by simp; omega)
        | payload text => exact .inr (.inl ⟨text, t, rest, rfl, rfl, rfl⟩)
        | done =>
          refine .inr (.inr ⟨s.translator, trimReturns line, rest, ?_, ?_, ?_⟩)
          all_goals simp [hline]

/-- What is kept of the bytes for the dump. -/
def keep (rawCapture bytes : List UInt8) : List UInt8 :=
  (rawCapture ++ bytes).take MAX_STREAMING_DUMP_BYTES

theorem capture_keep {raw : List UInt8} (chunk : List UInt8)
    (h : raw.length ≤ MAX_STREAMING_DUMP_BYTES) : capture raw chunk = keep raw chunk :=
  Diagnostics.capture_eq raw chunk h

theorem length_keep_le (raw bytes : List UInt8) :
    (keep raw bytes).length ≤ MAX_STREAMING_DUMP_BYTES := by
  simp [keep]

theorem keep_nil {raw : List UInt8} (h : raw.length ≤ MAX_STREAMING_DUMP_BYTES) :
    keep raw [] = raw := by
  rw [keep, List.append_nil, List.take_of_length_le h]

theorem keep_keep (raw a b : List UInt8) : keep (keep raw a) b = keep raw (a ++ b) := by
  have h := (capture_keep b (length_keep_le raw a)).symm.trans (capture_take (raw ++ a) b)
  rw [h, keep, List.append_assoc]

/-- **What a poll does**: a payload is sent, or it is the poll with the ending. -/
inductive PollStep (c : Converter τ) (context : StreamContext) (now : Moment) (s : Conversion τ)
    (items : List Item) : Option (Except String String) × List Item × Conversion τ → Prop
  | payload {text : String} {t : τ} {buffer : List Char} {bytes : List UInt8} {rest : List Item}
      (hscript : script c s.translator s.buffer items =
        (script c t buffer rest).after [text] bytes) :
      PollStep c context now s items (some (.ok text), rest,
        { s with translator := t, buffer, rawCapture := keep s.rawCapture bytes })
  | ending {result : Option (Except String String)} {rest : List Item} {s' : Conversion τ}
      (hpayloads : (script c s.translator s.buffer items).payloads = [])
      (hending : (script c s.translator s.buffer items).ending = result)
      (hguard : s'.guard = (Conversion.finalize c context now
        { s with rawCapture := keep s.rawCapture (script c s.translator s.buffer items).bytes }
        (script c s.translator s.buffer items).error).guard)
      (hkept : s'.rawCapture.length ≤ MAX_STREAMING_DUMP_BYTES)
      (hover : ∀ text, result = some (.ok text) → s'.sentDone = true ∨
        (script c s'.translator s'.buffer rest).payloads = [] ∧
          (script c s'.translator s'.buffer rest).ending = none) :
      PollStep c context now s items (result, rest, s')

/-- There is no line in what is left of a buffer. -/
theorem frames_rest (buffer : List Char) :
    frames ['\n'] (frames ['\n'] buffer).2 = ([], (frames ['\n'] buffer).2) :=
  frames_of_none (cutAt_pending lineBreak_nonempty buffer)

/-- A line has a payload. -/
theorem PollStep.answered {text : String} {t : τ} {rest : List Char}
    (hanswers : converted c s.translator ((frames ['\n'] s.buffer).1.map trimReturns) =
      (text :: (converted c t ((frames ['\n'] rest).1.map trimReturns)).1,
        (converted c t ((frames ['\n'] rest).1.map trimReturns)).2))
    (hrest : (frames ['\n'] rest).2 = (frames ['\n'] s.buffer).2) (items : List Item)
    (hraw : s.rawCapture.length ≤ MAX_STREAMING_DUMP_BYTES) :
    PollStep c context now s items
      (some (.ok text), items, { s with translator := t, buffer := rest }) := by
  rw [← keep_nil hraw]
  refine .payload ?_
  rw [script.eq_def, script.eq_def c t]
  simp only [hanswers, hrest]
  split
  · rfl
  · cases items with
    | nil => rfl
    | cons item items =>
      cases item with
      | error e => rfl
      | ok chunk =>
        simp only
        split <;> rfl

/-- A line is the last of the stream. -/
theorem PollStep.done (hends : c.EndsOnce) {t : τ} {line rest : List Char}
    (hanswers : converted c s.translator ((frames ['\n'] s.buffer).1.map trimReturns) =
      ([], (c.onLine t line).1, true)) (hdone : (c.onLine t line).2 = .done) (items : List Item)
    (hraw : s.rawCapture.length ≤ MAX_STREAMING_DUMP_BYTES) :
    PollStep c context now s items (some (.ok doneEvent), items,
      Conversion.close c context now
        { s with translator := (c.onLine t line).1, buffer := rest }) := by
  have hmarks : c.marks = true := hends.resolve_right fun h => h.1 t line hdone
  have hscript : script c s.translator s.buffer items =
      ⟨[], some (.ok doneEvent), [], none⟩ := by
    rw [script.eq_def]
    simp [hanswers]
  apply PollStep.ending
  · rw [hscript]
  · rw [hscript]
  · rw [hscript, keep_nil hraw]
    apply Conversion.finalize_guard_congr <;> rfl
  · simpa [Conversion.close] using hraw
  · exact fun _ _ => .inl (by simp [Conversion.close, hmarks])

section
variable {t : τ} (hanswers : converted c s.translator ((frames ['\n'] s.buffer).1.map trimReturns) =
  ([], t, false))
include hanswers

/-- No line has an answer any more, and the stream is over. -/
theorem PollStep.ended (hends : c.EndsOnce)
    (hraw : s.rawCapture.length ≤ MAX_STREAMING_DUMP_BYTES) {s₁ : Conversion τ}
    (hs₁ : s₁ = { s with translator := t, buffer := (frames ['\n'] s.buffer).2 }) :
    PollStep c context now s []
      ((s₁.onEnd c context now).1.map .ok, [], (s₁.onEnd c context now).2) := by
  subst hs₁
  have hscript : script c s.translator s.buffer [] =
      ⟨[], (c.onEnd t).2.map Except.ok, [], none⟩ := by
    rw [script.eq_def]
    simp [hanswers]
  apply PollStep.ending
  · rw [hscript]
  · rw [hscript]
    simp [Conversion.onEnd, Conversion.close]
  · rw [hscript, keep_nil hraw]
    apply Conversion.finalize_guard_congr <;> rfl
  · simpa [Conversion.onEnd, Conversion.close] using hraw
  · intro text htext
    rcases hends with hmarks | ⟨-, hnone⟩
    · exact .inl (by simp [Conversion.onEnd, Conversion.close, hmarks])
    · right
      rw [script.eq_def]
      simp [Conversion.onEnd, Conversion.close, frames_rest, converted, hnone]

/-- There is an error instead of a chunk. -/
theorem PollStep.failed (hraw : s.rawCapture.length ≤ MAX_STREAMING_DUMP_BYTES) (e : String)
    (items : List Item) (rest : List Char) :
    PollStep c context now s (.error e :: items) (some (.error e), items,
      Conversion.finalize c context now { s with translator := t, buffer := rest }
        (some ("stream error: " ++ e))) := by
  have hscript : script c s.translator s.buffer (.error e :: items) =
      ⟨[], some (.error e), [], some ("stream error: " ++ e)⟩ := by
    rw [script.eq_def]
    simp [hanswers]
  apply PollStep.ending
  · rw [hscript]
  · rw [hscript]
  · rw [hscript, keep_nil hraw]
    apply Conversion.finalize_guard_congr <;> rfl
  · simpa using hraw
  · exact fun _ h => absurd h (by simp)

/-- A chunk is read, and with it the buffer is too long. -/
theorem PollStep.tooLong (hraw : s.rawCapture.length ≤ MAX_STREAMING_DUMP_BYTES)
    {chunk : List UInt8} (hlong : (encodeUtf8 ((frames ['\n'] s.buffer).2 ++
      decodeChunk chunk)).length > MAX_SSE_LINE_LENGTH) (items : List Item) (rest : List Char) :
    PollStep c context now s (.ok chunk :: items) (some (.error lineTooLong), items,
      Conversion.finalize c context now
        { s with
          translator := t, rawCapture := capture s.rawCapture chunk, buffer := rest } none) := by
  have hscript : script c s.translator s.buffer (.ok chunk :: items) =
      ⟨[], some (.error lineTooLong), chunk, none⟩ := by
    rw [script.eq_def]
    simp [hanswers, hlong]
  apply PollStep.ending
  · rw [hscript]
  · rw [hscript]
  · rw [hscript]
    apply Conversion.finalize_guard_congr
    · exact capture_keep _ hraw
    all_goals rfl
  · rw [capture_keep _ hraw, Conversion.finalize_rawCapture]
    exact length_keep_le _ _
  · exact fun _ h => absurd h (by simp)

/-- A chunk is read, and the loop goes on. -/
theorem PollStep.chunk (hraw : s.rawCapture.length ≤ MAX_STREAMING_DUMP_BYTES)
    {chunk : List UInt8} (hshort : ¬ (encodeUtf8 ((frames ['\n'] s.buffer).2 ++
      decodeChunk chunk)).length > MAX_SSE_LINE_LENGTH) {items : List Item}
    {result : Option (Except String String) × List Item × Conversion τ}
    (h : PollStep c context now
      { s with
        translator := t
        rawCapture := capture s.rawCapture chunk
        buffer := (frames ['\n'] s.buffer).2 ++ decodeChunk chunk } items result) :
    PollStep c context now s (.ok chunk :: items) result := by
  have hscript : script c s.translator s.buffer (.ok chunk :: items) =
      (script c t ((frames ['\n'] s.buffer).2 ++ decodeChunk chunk) items).after [] chunk := by
    rw [script.eq_def]
    simp [hanswers, hshort]
  have hkeep : ∀ bytes, keep (capture s.rawCapture chunk) bytes =
      keep s.rawCapture (chunk ++ bytes) := fun bytes => by
    rw [capture_keep _ hraw]
    exact keep_keep _ _ _
  cases h with
  | payload hscript' =>
    rw [hkeep]
    apply PollStep.payload
    rw [hscript, hscript']
    simp [Script.after]
  | ending hpayloads hending hguard hkept hover =>
    refine .ending ?_ ?_ ?_ hkept hover
    · rw [hscript]
      exact hpayloads
    · rw [hscript]
      exact hending
    · rw [hguard, hscript]
      apply Conversion.finalize_guard_congr
      · exact hkeep _
      all_goals rfl

end

/-- **The loop of a poll.** -/
theorem next_spec (hends : c.EndsOnce) (items : List Item)
    (hraw : s.rawCapture.length ≤ MAX_STREAMING_DUMP_BYTES) :
    PollStep c context now s items (s.next c context now items) := by
  induction items generalizing s with
  | nil =>
    rw [Conversion.next]
    rcases takeLines_spec (c := c) (Nat.le_refl s.buffer.length) with
      ⟨t, hanswers, htake⟩ | ⟨text, t, rest, hanswers, hrest, htake⟩ |
        ⟨t, line, rest, hanswers, hdone, htake⟩
    · rw [htake]
      exact .ended hanswers hends hraw rfl
    · rw [htake]
      exact .answered hanswers hrest [] hraw
    · rw [htake]
      exact .done hends hanswers hdone [] hraw
  | cons item items ih =>
    rw [Conversion.next]
    rcases takeLines_spec (c := c) (Nat.le_refl s.buffer.length) with
      ⟨t, hanswers, htake⟩ | ⟨text, t, rest, hanswers, hrest, htake⟩ |
        ⟨t, line, rest, hanswers, hdone, htake⟩
    · rw [htake]
      cases item with
      | error e => exact .failed hanswers hraw e items _
      | ok chunk =>
        simp only
        split
        · next hlong => exact .tooLong hanswers hraw hlong items _
        · next hshort =>
          refine .chunk hanswers hraw hshort (ih ?_)
          rw [capture_keep _ hraw]
          exact length_keep_le _ _
    · rw [htake]
      exact .answered hanswers hrest _ hraw
    · rw [htake]
      exact .done hends hanswers hdone _ hraw

/-! ## All polls -/

theorem received_of_sentDone (h : s.sentDone = true) (times : List Moment) (items : List Item) :
    received c context times items s = ([], s) := by
  cases times with
  | nil => rfl
  | cons now times => rw [received, Conversion.poll, if_pos h]

theorem received_cons (hgoes : s.sentDone = false) (times : List Moment) (items : List Item) :
    received c context (now :: times) items s =
      match s.next c context now items with
      | (none, _, s) => ([], s)
      | (some (.error e), _, s) => ([.error e], s)
      | (some (.ok text), items, s) =>
        (.ok text :: (received c context times items s).1,
          (received c context times items s).2) := by
  rw [received, Conversion.poll, if_neg (by simp [hgoes])]

/-- **What is received does not depend on the polls.** -/
theorem received_eq (hends : c.EndsOnce) (times : List Moment) (items : List Item)
    (hgoes : s.sentDone = false) (hraw : s.rawCapture.length ≤ MAX_STREAMING_DUMP_BYTES) :
    (received c context times items s).1 =
      ((script c s.translator s.buffer items).payloads.map Except.ok ++
        (script c s.translator s.buffer items).ending.toList).take times.length := by
  induction times generalizing s items with
  | nil => rfl
  | cons now times ih =>
    rw [received_cons hgoes]
    have hstep : PollStep c context now s items (s.next c context now items) :=
      next_spec hends items hraw
    generalize s.next c context now items = result at hstep
    cases hstep with
    | payload hscript =>
      rw [hscript]
      refine congrArg _ (ih _ ?_ ?_)
      · exact hgoes
      · exact length_keep_le _ _
    | @ending result rest s' hpayloads hending _ hkept hover =>
      rw [hpayloads, hending]
      match result with
      | none => rfl
      | some (.error e) => simp
      | some (.ok text) =>
        have hrest : (received c context times rest s').1 = [] := by
          cases hsent : s'.sentDone with
          | true => rw [received_of_sentDone hsent]
          | false =>
            obtain ⟨hnone, hend⟩ := (hover text rfl).resolve_left (by simp [hsent])
            rw [ih rest hsent hkept, hnone, hend]
            exact List.take_nil
        simp [hrest]

/-! ## The guard -/

theorem finalize_of_finished (h : s.guard.finished = true) (error : Option String) :
    (s.finalize c context now error).guard.finished = true ∧
      (s.finalize c context now error).guard.diagnostics = s.guard.diagnostics := by
  unfold Conversion.finalize
  split
  · exact ⟨h, rfl⟩
  · have hdumped : ∀ dump : RequestDiagnostics, dump.finished = true →
        dump.finishAs 200
          { ts := now.finished, durationMs := context.durationMs,
            requestSize := context.requestSize, upstream := context.upstreamUrl,
            direction := c.direction, streaming := true }
          (some s.rawCapture.length) error = dump := fun dump hfinished => if_pos hfinished
    simp only
    rw [hdumped]
    · exact ⟨h, rfl⟩
    · exact h

theorem finalize_finishes (h : s.guardFinalized = false) (error : Option String) :
    (s.finalize c context now error).guard.finished = true := by
  unfold Conversion.finalize
  rw [if_neg (by simp [h])]
  simp only [RequestDiagnostics.finishAs]
  split
  · assumption
  · rfl

/-- Nothing is recorded behind the end. -/
theorem received_over (hends : c.EndsOnce) (times : List Moment) (items : List Item)
    (hraw : s.rawCapture.length ≤ MAX_STREAMING_DUMP_BYTES) (hfinished : s.guard.finished = true)
    (hover : s.sentDone = true ∨ (script c s.translator s.buffer items).payloads = [] ∧
      (script c s.translator s.buffer items).ending = none) :
    (received c context times items s).2.guard.finished = true ∧
      (received c context times items s).2.guard.diagnostics = s.guard.diagnostics := by
  cases hgoes : s.sentDone with
  | true =>
    rw [received_of_sentDone hgoes]
    exact ⟨hfinished, rfl⟩
  | false =>
    obtain ⟨hnone, hend⟩ := hover.resolve_left (by simp [hgoes])
    cases times with
    | nil => exact ⟨hfinished, rfl⟩
    | cons now times =>
      rw [received_cons hgoes]
      have hstep : PollStep c context now s items (s.next c context now items) :=
        next_spec hends items hraw
      generalize s.next c context now items = result at hstep
      cases hstep with
      | payload hscript =>
        rw [hscript] at hnone
        cases hnone
      | @ending result rest s' _ hending hguard _ _ =>
        obtain rfl : result = none := hending.symm.trans hend
        simp only
        rw [hguard]
        apply finalize_of_finished
        exact hfinished

/-- **The guard is finished once**, by the poll with the ending. -/
theorem received_guard (hends : c.EndsOnce) (times : List Moment) (items : List Item)
    (hgoes : s.sentDone = false) (hraw : s.rawCapture.length ≤ MAX_STREAMING_DUMP_BYTES)
    (hflag : s.guardFinalized = false) :
    match times[(script c s.translator s.buffer items).payloads.length]? with
    | none => (received c context times items s).2.guard = s.guard
    | some now =>
      (received c context times items s).2.guard.finished = true ∧
        (received c context times items s).2.guard.diagnostics =
          (Conversion.finalize c context now
            { s with rawCapture := keep s.rawCapture (script c s.translator s.buffer items).bytes }
            (script c s.translator s.buffer items).error).guard.diagnostics := by
  induction times generalizing s items with
  | nil => rfl
  | cons now times ih =>
    rw [received_cons hgoes]
    have hstep : PollStep c context now s items (s.next c context now items) :=
      next_spec hends items hraw
    generalize s.next c context now items = result at hstep
    cases hstep with
    | @payload text t buffer bytes rest hscript =>
      have hrest := ih rest (s := { s with
        translator := t, buffer, rawCapture := keep s.rawCapture bytes }) hgoes
        (length_keep_le _ _) hflag
      have hlen : ((script c t buffer rest).after [text] bytes).payloads.length =
          (script c t buffer rest).payloads.length + 1 := by simp [Script.after]
      rw [hscript, hlen, List.getElem?_cons_succ]
      cases hnow : times[(script c t buffer rest).payloads.length]? with
      | none =>
        rw [hnow] at hrest
        exact hrest
      | some later =>
        rw [hnow] at hrest
        refine ⟨hrest.1, hrest.2.trans (congrArg _ (Conversion.finalize_guard_congr ?_ ?_ ?_ _))⟩
        · exact keep_keep _ _ _
        all_goals rfl
    | @ending result rest s' hpayloads hending hguard hkept hover =>
      have hfinished : s'.guard.finished = true := by
        rw [hguard]
        apply finalize_finishes
        exact hflag
      rw [hpayloads, List.length_nil, List.getElem?_cons_zero]
      simp only
      rw [← hguard]
      match result with
      | none => exact ⟨hfinished, rfl⟩
      | some (.error e) => exact ⟨hfinished, rfl⟩
      | some (.ok text) => exact received_over hends times rest hkept hfinished (hover text rfl)

/-! ## The lines of the reader -/

theorem converted_append (c : Converter τ) (t : τ) (a b : List (List Char)) :
    converted c t (a ++ b) =
      if (converted c t a).2.2 then converted c t a
      else
        ((converted c t a).1 ++ (converted c (converted c t a).2.1 b).1,
          (converted c (converted c t a).2.1 b).2) := by
  induction a generalizing t with
  | nil => rfl
  | cons line a ih =>
    rw [List.cons_append, converted, converted]
    cases c.onLine t line with
    | mk t' answer =>
      cases answer with
      | nothing => exact ih t'
      | payload text =>
        simp only [ih t']
        split <;> rfl
      | done => rfl

/-- The reader stops with the line that is answered last. -/
theorem converted_fed (c : Converter τ) (t₀ : τ) (found : List (List Char)) {fed : Fed}
    (hgoes : fed.finished = false) (hlines : (converted c t₀ fed.lines).2.2 = false) :
    converted c t₀ (found.foldl (Fed.feed fun lines => (converted c t₀ lines).2.2) fed).lines =
        converted c t₀ (fed.lines ++ found.map trimReturns) ∧
      (found.foldl (Fed.feed fun lines => (converted c t₀ lines).2.2) fed).finished =
        (converted c t₀ (fed.lines ++ found.map trimReturns)).2.2 := by
  induction found generalizing fed with
  | nil => simp [hgoes, hlines]
  | cons line found ih =>
    have hfeed : fed.feed (fun lines => (converted c t₀ lines).2.2) line =
        ⟨fed.lines ++ [trimReturns line],
          (converted c t₀ (fed.lines ++ [trimReturns line])).2.2⟩ := by
      rw [Fed.feed, if_neg (by simp [hgoes])]
    have hcons : fed.lines ++ (line :: found).map trimReturns =
        fed.lines ++ [trimReturns line] ++ found.map trimReturns := by simp
    rw [List.foldl_cons, hfeed, hcons]
    cases hdone : (converted c t₀ (fed.lines ++ [trimReturns line])).2.2 with
    | false => exact ih rfl hdone
    | true =>
      have hstays : ∀ rest : List (List Char), rest.foldl
          (Fed.feed fun lines => (converted c t₀ lines).2.2) ⟨fed.lines ++ [trimReturns line], true⟩ =
            ⟨fed.lines ++ [trimReturns line], true⟩ := by
        intro rest
        induction rest with
        | nil => rfl
        | cons next rest ihrest => rw [List.foldl_cons, Fed.feed, if_pos rfl, ihrest]
      rw [hstays, converted_append c t₀ (fed.lines ++ [trimReturns line]), if_pos hdone]
      exact ⟨rfl, hdone.symm⟩

/-- The lines in the buffer are answered, and the rest of the stream goes on behind them. -/
theorem script_lines (c : Converter τ) (t : τ) (buffer : List Char) (items : List Item)
    (h : (converted c t ((frames ['\n'] buffer).1.map trimReturns)).2.2 = false) :
    script c t buffer items =
      (script c (converted c t ((frames ['\n'] buffer).1.map trimReturns)).2.1
        (frames ['\n'] buffer).2 items).after
          (converted c t ((frames ['\n'] buffer).1.map trimReturns)).1 [] := by
  rw [script.eq_def, script.eq_def c _ (frames ['\n'] buffer).2]
  simp only [h, frames_rest, List.map_nil, converted, Bool.false_eq_true, if_false]
  match items with
  | [] => simp [Script.after]
  | .error e :: items => simp [Script.after]
  | .ok chunk :: items =>
    simp only
    split <;> simp [Script.after]

/-- The reader takes no more chunks. -/
def LineReader.over (reader : LineReader) : Bool := reader.fed.finished || reader.tooLong

/-- The chunks a reader takes. -/
def chunksRead (finishes : List (List Char) → Bool) :
    LineReader → List (List UInt8) → List (List UInt8)
  | _, [] => []
  | reader, chunk :: chunks =>
    if reader.over then []
    else chunk :: chunksRead finishes (reader.onChunk finishes chunk) chunks

/-- What a reader's stream ends with that has come so far. -/
def streamEnd (c : Converter τ) (t₀ : τ) (reader : LineReader) (failure : Option String) :
    Option (Except String String) :=
  if reader.fed.finished then some (.ok doneEvent)
  else if reader.tooLong then some (.error lineTooLong)
  else
    match failure with
    | none => (c.onEnd (converted c t₀ reader.fed.lines).2.1).2.map Except.ok
    | some e => some (.error e)

/-- What the guard is finished with. -/
def streamError (reader : LineReader) (failure : Option String) : Option String :=
  if reader.over then none else failure.map ("stream error: " ++ ·)

theorem onChunk_of_over (finishes : List (List Char) → Bool) {reader : LineReader}
    (h : reader.over = true) (chunks : List (List UInt8)) :
    chunks.foldl (LineReader.onChunk finishes) reader = reader ∧
      chunksRead finishes reader chunks = [] := by
  have hstays : ∀ chunk, reader.onChunk finishes chunk = reader := fun chunk => if_pos h
  induction chunks with
  | nil => exact ⟨rfl, rfl⟩
  | cons chunk chunks ih =>
    rw [List.foldl_cons, hstays, chunksRead, if_pos h]
    exact ⟨ih.1, rfl⟩

/-- **The script is what the reader's lines say**, from any point at which the reader goes on. -/
theorem script_chunks (c : Converter τ) (t₀ : τ) (chunks : List (List UInt8))
    (failure : Option String) {reader : LineReader} (hgoes : reader.fed.finished = false)
    (hshort : reader.tooLong = false) (hlines : (converted c t₀ reader.fed.lines).2.2 = false)
    (hpending : cutAt ['\n'] reader.buffer = none) {last : LineReader}
    (hlast : chunks.foldl (LineReader.onChunk fun lines => (converted c t₀ lines).2.2) reader =
      last) :
    (script c (converted c t₀ reader.fed.lines).2.1 reader.buffer
        (upstreamItems chunks failure)).after (converted c t₀ reader.fed.lines).1 [] =
      { payloads := (converted c t₀ last.fed.lines).1
        ending := streamEnd c t₀ last failure
        bytes := (chunksRead (fun lines => (converted c t₀ lines).2.2) reader chunks).flatten
        error := streamError last failure } := by
  have hover : reader.over = false := by rw [LineReader.over, hgoes, hshort, Bool.or_false]
  induction chunks generalizing reader with
  | nil =>
    subst hlast
    rw [upstreamItems, List.map_nil, List.nil_append, List.foldl_nil, script.eq_def,
      streamEnd.eq_def]
    cases failure <;>
      simp [frames_of_none hpending, hgoes, hshort, hover, converted, chunksRead, Script.after,
        streamError]
  | cons chunk chunks ih =>
    rw [List.foldl_cons] at hlast
    have hitems : upstreamItems (chunk :: chunks) failure =
        .ok chunk :: upstreamItems chunks failure := rfl
    rw [hitems, script.eq_def, chunksRead, if_neg (by simp [hover])]
    simp only [frames_of_none hpending, List.map_nil, converted, Bool.false_eq_true,
      if_false]
    have hstep : reader.onChunk (fun lines => (converted c t₀ lines).2.2) chunk =
        if (encodeUtf8 (reader.buffer ++ decodeChunk chunk)).length > MAX_SSE_LINE_LENGTH then
          { reader with buffer := reader.buffer ++ decodeChunk chunk, tooLong := true }
        else
          { fed := (frames ['\n'] (reader.buffer ++ decodeChunk chunk)).1.foldl
              (Fed.feed fun lines => (converted c t₀ lines).2.2) reader.fed
            buffer := (frames ['\n'] (reader.buffer ++ decodeChunk chunk)).2
            tooLong := false } := by
      rw [LineReader.onChunk, if_neg (by simp [hgoes, hshort])]
    rw [hstep] at hlast ⊢
    split
    · next hlong =>
      rw [if_pos hlong] at hlast
      obtain ⟨hstays, hread⟩ := @onChunk_of_over (fun lines => (converted c t₀ lines).2.2)
        { reader with buffer := reader.buffer ++ decodeChunk chunk, tooLong := true }
        (Bool.or_true _) chunks
      rw [hstays] at hlast
      subst hlast
      rw [hread, streamEnd.eq_def]
      simp [Script.after, hgoes, streamError, LineReader.over]
    · next hshort =>
      rw [if_neg hshort] at hlast
      obtain ⟨hfed, hfinished⟩ := converted_fed c t₀
        (frames ['\n'] (reader.buffer ++ decodeChunk chunk)).1 hgoes hlines
      rw [converted_append, if_neg (by simp [hlines])] at hfed hfinished
      -- the lines of this chunk, given on
      generalize (frames ['\n'] (reader.buffer ++ decodeChunk chunk)).1.foldl
        (Fed.feed fun lines => (converted c t₀ lines).2.2) reader.fed = fed at hfed hfinished hlast ⊢
      cases hdone : (converted c (converted c t₀ reader.fed.lines).2.1
          ((frames ['\n'] (reader.buffer ++ decodeChunk chunk)).1.map trimReturns)).2.2 with
      | false =>
        rw [hdone] at hfinished
        have hnext := ih hfinished rfl (by rw [hfed]; exact hdone)
          (cutAt_pending lineBreak_nonempty _) hlast (by rw [LineReader.over, hfinished]; rfl)
        rw [hfed] at hnext
        rw [script_lines c _ _ _ hdone]
        simpa [Script.after] using congrArg (Script.after [] chunk) hnext
      | true =>
        rw [hdone] at hfinished
        obtain ⟨hstays, hread⟩ := @onChunk_of_over (fun lines => (converted c t₀ lines).2.2)
          ⟨fed, (frames ['\n'] (reader.buffer ++ decodeChunk chunk)).2, false⟩
          (by rw [LineReader.over, hfinished]; rfl) chunks
        rw [hstays] at hlast
        subst hlast
        rw [hread, streamEnd.eq_def, script.eq_def]
        simp [hdone, hfinished, hfed, Script.after, streamError, LineReader.over]

/-- What the lines of the line reader say. -/
def scriptOf (c : Converter τ) (t₀ : τ) (chunks : List (List UInt8)) (failure : Option String) :
    Script :=
  let finishes := fun lines => (converted c t₀ lines).2.2
  let reader := readLines finishes chunks
  { payloads := (converted c t₀ reader.fed.lines).1
    ending := streamEnd c t₀ reader failure
    bytes := (chunksRead finishes ⟨⟨[], false⟩, [], false⟩ chunks).flatten
    error := streamError reader failure }

theorem script_eq (c : Converter τ) (t₀ : τ) (chunks : List (List UInt8))
    (failure : Option String) :
    script c t₀ [] (upstreamItems chunks failure) =
      scriptOf c t₀ chunks failure := by
  exact @script_chunks τ c t₀ chunks failure ⟨⟨[], false⟩, [], false⟩ rfl rfl rfl rfl _ rfl

end

/-! ## The whole of a stream -/

/-- What the guard is called with at the end of a stream. -/
def streamCalls {τ : Type} (c : Converter τ) (context : StreamContext) (now : Moment)
    (script : Script) : List GuardCall :=
  let rawCapture := script.bytes.take MAX_STREAMING_DUMP_BYTES
  let args :=
    { ts := now.finished, durationMs := context.durationMs, requestSize := context.requestSize,
      upstream := context.upstreamUrl, direction := c.direction, streaming := true }
  [.responseDump now.dumped (dumpBodyFromBytes rawCapture) 200 context.upstreamHeaders,
    match script.error with
    | none => .finish 200 args (some rawCapture.length)
    | some error => .finishWithError 200 args (some rawCapture.length) error]

/-- The calls of a client that polls so often. -/
def callsOf {τ : Type} (c : Converter τ) (context : StreamContext) (times : List Moment)
    (script : Script) : List GuardCall :=
  match times[script.payloads.length]? with
  | none => []
  | some now => streamCalls c context now script

section
variable {τ : Type} {c : Converter τ} (hends : c.EndsOnce) (context : StreamContext)
  (t₀ : τ) (request : GuardedRequest) (calls : List GuardCall) (chunks : List (List UInt8))
  (failure : Option String) (times : List Moment)
include hends

theorem received_start :
    (received c context times (upstreamItems chunks failure)
        (Conversion.start t₀ (runCalls (.new request) calls))).1 =
      ((scriptOf c t₀ chunks failure).payloads.map Except.ok ++
        (scriptOf c t₀ chunks failure).ending.toList).take times.length := by
  rw [← script_eq]
  exact received_eq hends times _ rfl (Nat.zero_le _)

/-- **What is recorded of a stream**, when the guard is dropped. -/
theorem recorded_start (ts : String) (durationMs : UInt64) :
    ((received c context times (upstreamItems chunks failure)
        (Conversion.start t₀ (runCalls (.new request) calls))).2.guard.drop
          ts durationMs).diagnostics =
      lifetime request (calls ++ callsOf c context times (scriptOf c t₀ chunks failure))
        ts durationMs := by
  have hguard := @received_guard τ c context (.start t₀ (runCalls (.new request) calls)) hends
    times (upstreamItems chunks failure) rfl (Nat.zero_le _) rfl
  have hscript : script c (Conversion.start t₀ (runCalls (.new request) calls)).translator
      (Conversion.start t₀ (runCalls (.new request) calls)).buffer
      (upstreamItems chunks failure) = scriptOf c t₀ chunks failure :=
    script_eq c t₀ chunks failure
  rw [hscript] at hguard
  rw [callsOf]
  cases hnow : times[(scriptOf c t₀ chunks failure).payloads.length]? with
  | none =>
    rw [hnow] at hguard
    simp only at hguard
    rw [hguard, List.append_nil]
    rfl
  | some now =>
    rw [hnow] at hguard
    obtain ⟨hfinished, hrecorded⟩ := hguard
    have hcalls : (Conversion.finalize c context now
        { Conversion.start t₀ (runCalls (.new request) calls) with
          rawCapture := keep [] (scriptOf c t₀ chunks failure).bytes }
        (scriptOf c t₀ chunks failure).error).guard =
          runCalls (.new request)
            (calls ++ streamCalls c context now (scriptOf c t₀ chunks failure)) := by
      have happend : ∀ later, runCalls (.new request) (calls ++ later) =
          runCalls (runCalls (.new request) calls) later := fun _ => List.foldl_append
      rw [happend, streamCalls]
      cases (scriptOf c t₀ chunks failure).error <;> rfl
    have hover : (runCalls (.new request)
        (calls ++ streamCalls c context now (scriptOf c t₀ chunks failure))).finished = true := by
      rw [← hcalls]
      apply finalize_finishes
      rfl
    rw [lifetime, RequestDiagnostics.drop, RequestDiagnostics.drop, if_pos hfinished,
      if_pos hover, ← hcalls]
    exact hrecorded

end

/-! ## The two converters -/

/-- The parts of third-party crates behind both converters; `ρ` is the state of a
`ReverseStreamingTranslator`. -/
structure ConverterExternal (τ ρ χ ε : Type) extends LineExternal τ χ ε where
  /-- the id of the message that a `MessageStart` is about -/
  messageStart : ε → Option String
  newReverseStreamTranslator : String → String → ρ
  processEvent : ρ → ε → ρ × List χ
  isDone : ρ → Bool
  /-- `serde_json::to_string` of a chunk and of an event -/
  chunkToString : χ → Option String
  eventToString : ε → Option String
  eventName : ε → String

namespace ConverterExternal

variable {τ ρ χ ε : Type} (ext : ConverterExternal τ ρ χ ε)

def formatOpenaiSseChunk (chunk : χ) : String :=
  "data: " ++ (ext.chunkToString chunk).getD "\x7b\x7d" ++ "\n\n"

def formatSseEventStr (event : ε) : String :=
  "event: " ++ ext.eventName event ++ "\ndata: " ++
    (ext.eventToString event).getD "\x7b\x7d" ++ "\n\n"

def formatSseEvents (events : List ε) : String := String.join (events.map ext.formatSseEventStr)

/-- `handle_from_openai_stream`. Of the chunks of an event the first is sent. -/
def fromOpenaiStream (model : String) : Converter (Option ρ) where
  direction := "openai->anthropic"
  onLine translator line :=
    match parseAnthropicSseEvent ext.toLineExternal line with
    | none => (translator, .nothing)
    | some event =>
      match ext.messageStart event with
      | some id => (some (ext.newReverseStreamTranslator id model), .nothing)
      | none =>
        match translator with
        | none => (none, .nothing)
        | some active =>
          match ext.processEvent active event with
          | (active, chunk :: _) => (some active, .payload (ext.formatOpenaiSseChunk chunk))
          | (active, []) => (some active, if ext.isDone active then .done else .nothing)
  onEnd translator := (translator, some doneEvent)
  marks := true

/-- `handle_stream_manual`. A line without events has a payload too, an empty one. -/
def streamManual : Converter τ where
  direction := "anthropic->openai"
  onLine translator line :=
    match parseSseLine ext.toLineExternal line translator with
    | (translator, none) => (translator, .nothing)
    | (translator, some events) => (translator, .payload (ext.formatSseEvents events))
  onEnd translator :=
    let payload := ext.formatSseEvents (ext.finish translator).2
    ((ext.finish translator).1, if payload = "" then none else some payload)
  marks := false

/-- The translator is done with these lines. -/
def endsStream (model : String) (lines : List (List Char)) : Bool :=
  (converted (ext.fromOpenaiStream model) none lines).2.2

/-- The one ending of a stream that is converted for an OpenAI client. -/
def openaiEnding (model : String) (chunks : List (List UInt8)) (failure : Option String) :
    Except String String :=
  if (readLines (ext.endsStream model) chunks).fed.finished then .ok doneEvent
  else if (handleFromOpenaiStream (ext.endsStream model) chunks).2 then .error lineTooLong
  else failure.elim (.ok doneEvent) .error

/-- The ending of a stream that is converted for an Anthropic client, unless there is nothing left
to send. -/
def manualEnding (model : String) (chunks : List (List UInt8)) (failure : Option String) :
    Option (Except String String) :=
  let left := ext.formatSseEvents (ext.finish (converted ext.streamManual
    (ext.newStreamingTranslator model) (handleStreamManual chunks).1).2.1).2
  if (handleStreamManual chunks).2 then some (.error lineTooLong)
  else failure.elim (if left = "" then none else some (.ok left)) (some ∘ .error)

end ConverterExternal

section
variable {τ ρ χ ε : Type} (ext : ConverterExternal τ ρ χ ε) (model : String)
  (context : StreamContext) (request : GuardedRequest) (calls : List GuardCall)
  (chunks : List (List UInt8)) (failure : Option String) (times : List Moment) (ts : String)
  (durationMs : UInt64)

theorem streamEnd_fromOpenaiStream (t₀ : Option ρ) (reader : LineReader) :
    streamEnd (ext.fromOpenaiStream model) t₀ reader failure =
      some (if reader.fed.finished then .ok doneEvent
        else if reader.tooLong then .error lineTooLong
        else failure.elim (.ok doneEvent) .error) := by
  rw [streamEnd.eq_def]
  split
  · rfl
  · split
    · rfl
    · cases failure <;> rfl

theorem streamEnd_streamManual (t₀ : τ) {reader : LineReader}
    (h : reader.fed.finished = false) :
    streamEnd ext.streamManual t₀ reader failure =
      let left := ext.formatSseEvents
        (ext.finish (converted ext.streamManual t₀ reader.fed.lines).2.1).2
      if reader.tooLong then some (.error lineTooLong)
      else failure.elim (if left = "" then none else some (.ok left)) (some ∘ .error) := by
  rw [streamEnd.eq_def, if_neg (by simp [h])]
  split
  · rfl
  · cases failure with
    | none => exact apply_ite (Option.map Except.ok) _ none _
    | some e => rfl

/-- **What an OpenAI client gets** whose stream is converted from Anthropic, and what is recorded,
however the stream is cut and however often the client polls: the first chunks of the events of the
lines and one ending, and with the ending the calls that finish the guard. -/
theorem handleFromOpenaiStream_delivers :
    (received (ext.fromOpenaiStream model) context times (upstreamItems chunks failure)
        (.start none (runCalls (.new request) calls))).1 =
      ((converted (ext.fromOpenaiStream model) none
          (handleFromOpenaiStream (ext.endsStream model) chunks).1).1.map Except.ok ++
        [ext.openaiEnding model chunks failure]).take times.length ∧
    ((received (ext.fromOpenaiStream model) context times (upstreamItems chunks failure)
        (.start none (runCalls (.new request) calls))).2.guard.drop ts durationMs).diagnostics =
      lifetime request
        (calls ++ callsOf (ext.fromOpenaiStream model) context times
          (scriptOf (ext.fromOpenaiStream model) none chunks failure)) ts durationMs := by
  have hends : (ext.fromOpenaiStream model).EndsOnce := .inl rfl
  refine ⟨?_, recorded_start hends context none request calls chunks failure times ts durationMs⟩
  rw [received_start hends]
  simp only [scriptOf, streamEnd_fromOpenaiStream]
  rfl

theorem streamManual_never_done (t : τ) (lines : List (List Char)) :
    (converted ext.streamManual t lines).2.2 = false := by
  induction lines generalizing t with
  | nil => rfl
  | cons line lines ih =>
    rw [converted]
    simp only [ConverterExternal.streamManual]
    cases parseSseLine ext.toLineExternal line t with
    | mk t events =>
      cases events with
      | none => exact ih t
      | some events => exact ih t

/-- A reader that no line finishes. -/
theorem readLines_unfinished (chunks : List (List UInt8)) :
    (readLines (fun _ => false) chunks).fed.finished = false := by
  have hfeed : ∀ (found : List (List Char)) (fed : Fed), fed.finished = false →
      (found.foldl (Fed.feed fun _ => false) fed).finished = false := by
    intro found
    induction found with
    | nil => exact fun _ h => h
    | cons line found ih => exact fun fed h => ih _ (by rw [Fed.feed, if_neg (by simp [h])])
  induction chunks using List.reverseRecOn with
  | nil => rfl
  | append_singleton chunks chunk ih =>
    rw [readLines, List.foldl_concat, LineReader.onChunk]
    split
    · exact ih
    · simp only
      split
      · exact ih
      · exact hfeed _ _ ih

/-- **What an Anthropic client gets** whose stream is converted from OpenAI, and what is recorded:
the events of the lines, and behind them what the translator still has, or the error. -/
theorem handleStreamManual_delivers (hfinish : ∀ t, (ext.finish (ext.finish t).1).2 = []) :
    (received ext.streamManual context times (upstreamItems chunks failure)
        (.start (ext.newStreamingTranslator model) (runCalls (.new request) calls))).1 =
      ((converted ext.streamManual (ext.newStreamingTranslator model)
          (handleStreamManual chunks).1).1.map Except.ok ++
        (ext.manualEnding model chunks failure).toList).take times.length ∧
    ((received ext.streamManual context times (upstreamItems chunks failure)
        (.start (ext.newStreamingTranslator model)
          (runCalls (.new request) calls))).2.guard.drop ts durationMs).diagnostics =
      lifetime request
        (calls ++ callsOf ext.streamManual context times
          (scriptOf ext.streamManual (ext.newStreamingTranslator model) chunks failure))
        ts durationMs := by
  have hends : ext.streamManual.EndsOnce := by
    refine .inr ⟨fun t line => ?_, fun t => ?_⟩
    · simp only [ConverterExternal.streamManual]
      split <;> simp
    · simp [ConverterExternal.streamManual, hfinish, ConverterExternal.formatSseEvents]
  have hlines : (fun lines => (converted ext.streamManual (ext.newStreamingTranslator model)
      lines).2.2) = fun _ => false := funext fun lines => streamManual_never_done ext _ lines
  refine ⟨?_, recorded_start hends context _ request calls chunks failure times ts durationMs⟩
  rw [received_start hends]
  simp only [scriptOf, ConverterExternal.manualEnding, handleStreamManual, hlines]
  rw [streamEnd_streamManual ext failure _ (readLines_unfinished chunks)]
  rfl

/-- A translator that has one event left when it finishes. -/
def keepsLast : ConverterExternal Bool Unit String String where
  chunkFromStr data := some (String.ofList data)
  newStreamingTranslator _ := false
  processChunk translator chunk := (translator, [chunk])
  finish translator := (true, if translator then [] else ["message_stop"])
  eventFromStr _ := none
  messageStart _ := none
  newReverseStreamTranslator _ _ := ()
  processEvent translator _ := (translator, [])
  isDone _ := false
  chunkToString := some
  eventToString := some
  eventName event := event

def oneEvent : List UInt8 := encodeUtf8 "data: hello\n\n".toList

theorem handleStreamManual_delivers_keepsLast :
    (received keepsLast.streamManual ⟨[], 7, 0, "upstream"⟩ (List.replicate 3 ⟨"t", "t"⟩)
        [.ok oneEvent] (.start false (.new ⟨"id", "section", "model"⟩))).1 =
      [.ok "event: hello\ndata: hello\n\n",
        .ok "event: message_stop\ndata: message_stop\n\n"] := by
  have hlines : handleStreamManual [oneEvent] = (["data: hello".toList, []], false) := by
    decide +kernel
  have h := (handleStreamManual_delivers keepsLast "model" ⟨[], 7, 0, "upstream"⟩
    ⟨"id", "section", "model"⟩ [] [oneEvent] none (List.replicate 3 ⟨"t", "t"⟩) "t" 7
    (fun t => by cases t <;> rfl)).1
  rw [hlines] at h
  refine h.trans ?_
  decide +kernel

end

end InfSplitter.Streams
