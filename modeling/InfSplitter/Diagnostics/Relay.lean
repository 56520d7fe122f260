import InfSplitter.Diagnostics.StreamDump

/-!
# The stream that is passed through

`DiagnosticStream` hands on what the stream inside it yields, and keeps the first bytes of it for a
dump. There are two places where the dump is recorded: the end of the inner stream, and the drop of
a stream that is given up before; a flag is set by the first of them. The inner stream is any state
with a function that polls it, and may yield more after an error or after its end.

The invariant is that the buffer has the chunks so far, cut at the limit, until the dump is recorded
(`Live`), and that nothing is recorded any more afterwards (`Dumped`).
-/

set_option autoImplicit false

namespace InfSplitter.Diagnostics

open Lib

/-! ## The handle -/

inductive DiagnosticMode
  | off
  | error
  | all
deriving DecidableEq, Repr

/-- `Diagnostics`, as far as dumps are concerned, with the events that it has sent to the writer. -/
structure DumpHandle where
  dumpMode : DiagnosticMode
  sent : List DumpEvent

namespace DumpHandle

def dumpEnabled (handle : DumpHandle) : Bool := handle.dumpMode ≠ .off

def recordDump (handle : DumpHandle) (event : DumpEvent) (isError : Bool) : DumpHandle :=
  match handle.dumpMode with
  | .off => handle
  | .error => if isError then { handle with sent := handle.sent ++ [event] } else handle
  | .all => { handle with sent := handle.sent ++ [event] }

/-- `ts` is what the clock says. -/
def recordResponseDump (handle : DumpHandle) (ts requestId sectionName model : String)
    (headers : List (String × String)) (body : DumpBody) (status : UInt16) (isError : Bool) :
    DumpHandle :=
  handle.recordDump
    { sectionName := sectionName, requestId := requestId, ts := ts, stage := "egress",
      direction := "response", model := model, headers := maskHeaderValues headers, body := body,
      status := some status }
    isError

end DumpHandle

/-! ## The stream -/

inductive Poll (α : Type)
  | ready (a : α)
  | pending
deriving DecidableEq

/-- What a poll of a stream of bytes gives. -/
abbrev Polled (ε : Type) := Poll (Option (Except ε (List UInt8)))

structure DiagnosticStream (σ : Type) where
  inner : σ
  buffer : List UInt8
  diagnostics : DumpHandle
  requestId : String
  sectionName : String
  model : String
  responseHeaders : List (String × String)
  status : UInt16
  dumped : Bool

namespace DiagnosticStream

variable {σ ε : Type}

/-- As the handlers make it. -/
def new (inner : σ) (diagnostics : DumpHandle) (requestId sectionName model : String)
    (responseHeaders : List (String × String)) (status : UInt16) : DiagnosticStream σ :=
  { inner := inner, buffer := [], diagnostics := diagnostics, requestId := requestId,
    sectionName := sectionName, model := model, responseHeaders := responseHeaders,
    status := status, dumped := false }

/-- What the end of the stream and its drop have in common. -/
def record (s : DiagnosticStream σ) (ts : String) : DiagnosticStream σ :=
  { s with
    responseHeaders := []
    diagnostics :=
      s.diagnostics.recordResponseDump ts s.requestId s.sectionName s.model s.responseHeaders
        (dumpBodyFromBytes s.buffer) s.status false }

def pollNext (poll : σ → Polled ε × σ) (s : DiagnosticStream σ) (ts : String) :
    Polled ε × DiagnosticStream σ :=
  let (result, inner) := poll s.inner
  let s := { s with inner := inner }
  match result with
  | .ready (some (.ok chunk)) =>
    (.ready (some (.ok chunk)),
      if s.diagnostics.dumpEnabled then { s with buffer := capture s.buffer chunk } else s)
  | .ready (some (.error e)) => (.ready (some (.error e)), s)
  | .ready none => (.ready none, if s.dumped then s else { s with dumped := true }.record ts)
  | .pending => (.pending, s)

def drop (s : DiagnosticStream σ) (ts : String) : DiagnosticStream σ :=
  if s.dumped || !s.diagnostics.dumpEnabled || s.buffer.isEmpty then s else s.record ts

/-- The stream is polled at these times. -/
def run (poll : σ → Polled ε × σ) (s : DiagnosticStream σ) :
    List String → List (Polled ε) × DiagnosticStream σ
  | [] => ([], s)
  | ts :: rest =>
    let (result, s') := s.pollNext poll ts
    let (results, s'') := s'.run poll rest
    (result :: results, s'')

end DiagnosticStream

/-! ## What the inner stream yields -/

section
variable {σ ε : Type}

/-- The results of polling the inner stream so many times. -/
def innerResults (poll : σ → Polled ε × σ) : Nat → σ → List (Polled ε)
  | 0, _ => []
  | n + 1, inner => (poll inner).1 :: innerResults poll n (poll inner).2

/-- The chunks that are yielded before the first end. -/
def chunksSeen : List (Polled ε) → List (List UInt8)
  | [] => []
  | .ready (some (.ok chunk)) :: rest => chunk :: chunksSeen rest
  | .ready (some (.error _)) :: rest => chunksSeen rest
  | .ready none :: _ => []
  | .pending :: rest => chunksSeen rest

def endReached : List (Polled ε) → Bool
  | [] => false
  | .ready none :: _ => true
  | _ :: rest => endReached rest

end

/-- The bytes that are dumped: those of the text, or those in base64. -/
def DumpBody.bytes : DumpBody → List UInt8
  | .utf8 text => encodeUtf8 text.toList
  | .base64 bytes => bytes

theorem bytes_dumpBodyFromBytes (body : List UInt8) : (dumpBodyFromBytes body).bytes =
    if (fromUtf8 body).isSome then body else body.take maxNonUtf8DumpLen := by
  unfold dumpBodyFromBytes
  cases h : fromUtf8 body with
  | none => rfl
  | some text => simpa [DumpBody.bytes] using (fromUtf8_eq_some_iff.mp h).symm

/-! ## One poll -/

namespace DiagnosticStream

variable {σ ε : Type} {poll : σ → Polled ε × σ} {s s₀ : DiagnosticStream σ} {ts : String}
  {chunks : List (List UInt8)}

/-- The event of a dump of these bytes. -/
def dumpEvent (s : DiagnosticStream σ) (bytes : List UInt8) (ts : String) : DumpEvent :=
  { sectionName := s.sectionName, requestId := s.requestId, ts := ts, stage := "egress",
    direction := "response", model := s.model, headers := maskHeaderValues s.responseHeaders,
    body := dumpBodyFromBytes bytes, status := some s.status }

/-- A dump that is recorded is no error, and is sent if everything is. -/
theorem sent_record (s : DiagnosticStream σ) (ts : String) : (s.record ts).diagnostics.sent =
    s.diagnostics.sent ++
      if s.diagnostics.dumpMode = .all then [s.dumpEvent s.buffer ts] else [] := by
  simp only [record, DumpHandle.recordResponseDump, DumpHandle.recordDump]
  cases hmode : s.diagnostics.dumpMode <;> simp [dumpEvent]

section
variable {inner : σ}

theorem pollNext_chunk {chunk : List UInt8}
    (h : poll s.inner = (.ready (some (.ok chunk)), inner)) :
    s.pollNext poll ts = (.ready (some (.ok chunk)),
      { s with
        inner := inner
        buffer := if s.diagnostics.dumpEnabled then capture s.buffer chunk else s.buffer }) := by
  simp only [pollNext, h]
  split <;> rfl

theorem pollNext_error {e : ε} (h : poll s.inner = (.ready (some (.error e)), inner)) :
    s.pollNext poll ts = (.ready (some (.error e)), { s with inner := inner }) := by
  simp only [pollNext, h]

theorem pollNext_pending (h : poll s.inner = (.pending, inner)) :
    s.pollNext poll ts = (.pending, { s with inner := inner }) := by
  simp only [pollNext, h]

theorem pollNext_end (h : poll s.inner = (.ready none, inner)) :
    s.pollNext poll ts = (.ready none,
      if s.dumped then { s with inner := inner }
      else { s with inner := inner, dumped := true }.record ts) := by
  simp only [pollNext, h]

end

/-- **What is yielded is what the inner stream yields**, and the inner stream goes on as it does. -/
theorem pollNext_inner (poll : σ → Polled ε × σ) (s : DiagnosticStream σ) (ts : String) :
    (s.pollNext poll ts).1 = (poll s.inner).1 ∧
    (s.pollNext poll ts).2.inner = (poll s.inner).2 := by
  rcases h : poll s.inner with ⟨(_ | e | chunk) | _, inner⟩
  · rw [pollNext_end h]
    split <;> simp [record]
  · simp [pollNext_error h]
  · simp [pollNext_chunk h]
  · simp [pollNext_pending h]

/-- A stream that has recorded its dump records nothing more. -/
theorem pollNext_dumped (poll : σ → Polled ε × σ) (ts : String) (hdumped : s.dumped = true) :
    (s.pollNext poll ts).2.dumped = true ∧
      (s.pollNext poll ts).2.diagnostics = s.diagnostics := by
  rcases h : poll s.inner with ⟨(_ | e | chunk) | _, inner⟩
  · simp [pollNext_end h, hdumped]
  · simp [pollNext_error h, hdumped]
  · simp [pollNext_chunk h, hdumped]
  · simp [pollNext_pending h, hdumped]

/-- All that a stream has sent is under its id. -/
def SendsOwn (s : DiagnosticStream σ) : Prop :=
  ∀ dump ∈ s.diagnostics.sent, dump.requestId = s.requestId

theorem SendsOwn.record (h : s.SendsOwn) (ts : String) : (s.record ts).SendsOwn := by
  intro dump hdump
  rw [sent_record] at hdump
  rcases List.mem_append.mp hdump with hold | hnew
  · exact h dump hold
  · split at hnew
    · rw [List.mem_singleton.mp hnew]
      rfl
    · cases hnew

theorem SendsOwn.pollNext (h : s.SendsOwn) (poll : σ → Polled ε × σ) (ts : String) :
    (s.pollNext poll ts).2.SendsOwn ∧ (s.pollNext poll ts).2.requestId = s.requestId := by
  rcases hpoll : poll s.inner with ⟨(_ | e | chunk) | _, inner⟩
  · rw [pollNext_end hpoll]
    split
    · exact ⟨h, rfl⟩
    · exact ⟨@SendsOwn.record σ { s with inner := inner, dumped := true } h ts, rfl⟩
  · rw [pollNext_error hpoll]
    exact ⟨h, rfl⟩
  · rw [pollNext_chunk hpoll]
    exact ⟨h, rfl⟩
  · rw [pollNext_pending hpoll]
    exact ⟨h, rfl⟩

theorem SendsOwn.drop (h : s.SendsOwn) (ts : String) :
    (s.drop ts).SendsOwn ∧ (s.drop ts).requestId = s.requestId := by
  unfold DiagnosticStream.drop
  split
  · exact ⟨h, rfl⟩
  · exact ⟨h.record ts, rfl⟩

/-! ## A run -/

/-- Until the dump is recorded the buffer has the chunks, and the rest is as it was. -/
structure Live (s₀ : DiagnosticStream σ) (chunks : List (List UInt8)) (s : DiagnosticStream σ) :
    Prop where
  buffer : s₀.diagnostics.dumpEnabled = true →
    s.buffer = chunks.flatten.take MAX_STREAMING_DUMP_BYTES
  diagnostics : s.diagnostics = s₀.diagnostics
  event : s.dumpEvent = s₀.dumpEvent
  dumped : s.dumped = false

/-- The dump is recorded: it is sent if everything is. -/
structure Dumped (s₀ : DiagnosticStream σ) (chunks : List (List UInt8)) (ts : String)
    (s : DiagnosticStream σ) : Prop where
  sent : s.diagnostics.sent = s₀.diagnostics.sent ++
    if s₀.diagnostics.dumpMode = .all then
      [s₀.dumpEvent (chunks.flatten.take MAX_STREAMING_DUMP_BYTES) ts]
    else []
  dumped : s.dumped = true

theorem Live.skip (h : Live s₀ chunks s) (inner : σ) : Live s₀ chunks { s with inner := inner } :=
  ⟨h.buffer, h.diagnostics, h.event, h.dumped⟩

theorem Live.chunk (h : Live s₀ chunks s) (chunk : List UInt8) (inner : σ) :
    Live s₀ (chunks ++ [chunk])
      { s with
        inner := inner
        buffer := if s.diagnostics.dumpEnabled then capture s.buffer chunk else s.buffer } := by
  refine ⟨fun henabled => ?_, h.diagnostics, h.event, h.dumped⟩
  rw [h.diagnostics, if_pos henabled, h.buffer henabled, capture_take, List.flatten_concat]

theorem Live.sent_record (h : Live s₀ chunks s) (ts : String) :
    (s.record ts).diagnostics.sent = s₀.diagnostics.sent ++
      if s₀.diagnostics.dumpMode = .all then
        [s₀.dumpEvent (chunks.flatten.take MAX_STREAMING_DUMP_BYTES) ts]
      else [] := by
  rw [DiagnosticStream.sent_record, h.event, h.diagnostics]
  by_cases hall : s₀.diagnostics.dumpMode = .all
  · rw [if_pos hall, if_pos hall, h.buffer (by simp [DumpHandle.dumpEnabled, hall])]
  · rw [if_neg hall, if_neg hall]

theorem Live.record (h : Live s₀ chunks s) (inner : σ) (ts : String) :
    Dumped s₀ chunks ts ({ s with inner := inner, dumped := true }.record ts) :=
  ⟨h.sent_record ts, rfl⟩

theorem Dumped.pollNext (h : Dumped s₀ chunks ts s) (ts' : String) :
    Dumped s₀ chunks ts (s.pollNext poll ts').2 := by
  obtain ⟨hdumped, hsame⟩ := pollNext_dumped poll ts' h.dumped
  exact ⟨by rw [hsame, h.sent], hdumped⟩

/-- What a stream is after the polls that gave these results. -/
def After (s₀ : DiagnosticStream σ) (chunks : List (List UInt8)) (tss : List String)
    (results : List (Polled ε)) (s : DiagnosticStream σ) : Prop :=
  if endReached results then ∃ ts ∈ tss, Dumped s₀ (chunks ++ chunksSeen results) ts s
  else Live s₀ (chunks ++ chunksSeen results) s

theorem After.cons {tss : List String} {results : List (Polled ε)} {result : Polled ε}
    {chunks' : List (List UInt8)} (h : After s₀ chunks' tss results s)
    (hend : endReached (result :: results) = endReached results)
    (hseen : chunks' ++ chunksSeen results = chunks ++ chunksSeen (result :: results)) :
    After s₀ chunks (ts :: tss) (result :: results) s := by
  unfold After at h ⊢
  rw [hend, ← hseen]
  split at h
  · obtain ⟨ts', hmem, hdumped⟩ := h
    rw [if_pos ‹_›]
    exact ⟨ts', List.mem_cons_of_mem ts hmem, hdumped⟩
  · rw [if_neg ‹_›]
    exact h

theorem run_results (tss : List String) :
    (s.run poll tss).1 = innerResults poll tss.length s.inner := by
  induction tss generalizing s with
  | nil => rfl
  | cons ts rest ih =>
    obtain ⟨hresult, hinner⟩ := pollNext_inner poll s ts
    simp only [run, List.length_cons, innerResults]
    rw [hresult, ih, hinner]

theorem run_dumped (poll : σ → Polled ε × σ) (tss : List String) (h : Dumped s₀ chunks ts s) :
    Dumped s₀ chunks ts (s.run poll tss).2 := by
  induction tss generalizing s with
  | nil => exact h
  | cons ts' rest ih => exact ih (h.pollNext ts')

/-- **A run keeps the buffer up to date**, until it records the dump at the first end. -/
theorem Live.run (h : Live s₀ chunks s) (poll : σ → Polled ε × σ) (tss : List String) :
    After s₀ chunks tss (s.run poll tss).1 (s.run poll tss).2 := by
  induction tss generalizing chunks s with
  | nil => simpa [DiagnosticStream.run, After, endReached, chunksSeen] using h
  | cons ts rest ih =>
    simp only [DiagnosticStream.run]
    rcases hpoll : poll s.inner with ⟨(_ | e | chunk) | _, inner⟩
    · have hdumped := run_dumped poll rest (h.record inner ts)
      rw [pollNext_end hpoll, h.dumped]
      exact ⟨ts, List.mem_cons_self, by simpa [chunksSeen] using hdumped⟩
    · rw [pollNext_error hpoll]
      exact (ih (h.skip inner)).cons rfl rfl
    · rw [pollNext_chunk hpoll]
      exact (ih (h.chunk chunk inner)).cons rfl (List.append_assoc _ _ _)
    · rw [pollNext_pending hpoll]
      exact (ih (h.skip inner)).cons rfl rfl

/-- **The drop records what is left to record.** -/
theorem Live.drop (h : Live s₀ chunks s) (ts : String) :
    (s.drop ts).diagnostics.sent = s₀.diagnostics.sent ++
      if s₀.diagnostics.dumpMode = .all ∧ chunks.flatten.take MAX_STREAMING_DUMP_BYTES ≠ [] then
        [s₀.dumpEvent (chunks.flatten.take MAX_STREAMING_DUMP_BYTES) ts]
      else [] := by
  unfold DiagnosticStream.drop
  rw [h.dumped, Bool.false_or, h.diagnostics]
  by_cases henabled : s₀.diagnostics.dumpEnabled = true
  · rw [h.buffer henabled, henabled, Bool.not_true, Bool.false_or]
    by_cases hempty : chunks.flatten.take MAX_STREAMING_DUMP_BYTES = []
    · simp [hempty, h.diagnostics]
    · rw [if_neg (by simpa using hempty), h.sent_record ts]
      simp [hempty]
  · have hall : s₀.diagnostics.dumpMode ≠ .all := by
      intro hall
      simp [DumpHandle.dumpEnabled, hall] at henabled
    simp [henabled, hall, h.diagnostics]

theorem Dumped.drop {ts' : String} (h : Dumped s₀ chunks ts s) : s.drop ts' = s := by
  simp [DiagnosticStream.drop, h.dumped]

/-- **What is sent for a stream that is polled and dropped.** -/
theorem Live.sent_drop_run (h : Live s₀ [] s) (poll : σ → Polled ε × σ) (tss : List String)
    (ts : String) :
    ∃ ts' ∈ ts :: tss, ((s.run poll tss).2.drop ts).diagnostics.sent = s₀.diagnostics.sent ++
      if s₀.diagnostics.dumpMode = .all ∧ (endReached (s.run poll tss).1 = true ∨
          (chunksSeen (s.run poll tss).1).flatten.take MAX_STREAMING_DUMP_BYTES ≠ []) then
        [s₀.dumpEvent ((chunksSeen (s.run poll tss).1).flatten.take MAX_STREAMING_DUMP_BYTES) ts']
      else [] := by
  have hafter := h.run poll tss
  unfold After at hafter
  rw [List.nil_append] at hafter
  split at hafter
  · obtain ⟨ts', hmem, hdumped⟩ := hafter
    refine ⟨ts', List.mem_cons_of_mem ts hmem, ?_⟩
    rw [hdumped.drop, hdumped.sent]
    simp [*]
  · refine ⟨ts, List.mem_cons_self, ?_⟩
    rw [hafter.drop]
    simp [*]

theorem live_new {inner : σ} {diagnostics : DumpHandle} {requestId sectionName model : String}
    {responseHeaders : List (String × String)} {status : UInt16} :
    Live (new inner diagnostics requestId sectionName model responseHeaders status) []
      (new inner diagnostics requestId sectionName model responseHeaders status) :=
  ⟨fun _ => by simp [new], rfl, rfl, rfl⟩

end DiagnosticStream

/-! ## The stream and its dump -/

/-- **A stream is passed through and dumped once.** The stream is polled any number of times, and
then dropped. What it yields is what the inner stream yields; and if everything is dumped, and the
end was reached or some bytes were kept, one event is sent, and otherwise none. Its bytes are the
chunks before the end, cut at the limit, and if they are no text at the limit for those. -/
theorem stream_dumped_once {σ ε : Type} (poll : σ → Polled ε × σ) (inner : σ)
    (diagnostics : DumpHandle) (requestId sectionName model : String)
    (responseHeaders : List (String × String)) (status : UInt16) (polledAt : List String)
    (droppedAt : String) :
    let s := DiagnosticStream.new inner diagnostics requestId sectionName model responseHeaders
      status
    let results := innerResults poll polledAt.length inner
    let bytes := (chunksSeen results).flatten.take MAX_STREAMING_DUMP_BYTES
    (s.run poll polledAt).1 = results ∧
    ∃ dumps, ((s.run poll polledAt).2.drop droppedAt).diagnostics.sent = diagnostics.sent ++ dumps ∧
      dumps.length ≤ 1 ∧
      (dumps ≠ [] ↔ diagnostics.dumpMode = .all ∧ (endReached results = true ∨ bytes ≠ [])) ∧
      ∀ event ∈ dumps, (∃ ts ∈ droppedAt :: polledAt, event = s.dumpEvent bytes ts) ∧
        event.body.bytes =
          if (fromUtf8 bytes).isSome then bytes else bytes.take maxNonUtf8DumpLen := by
  intro s results bytes
  have hresults : (s.run poll polledAt).1 = results := DiagnosticStream.run_results polledAt
  have hlive : DiagnosticStream.Live s [] s := DiagnosticStream.live_new
  obtain ⟨ts, hts, hsent⟩ := hlive.sent_drop_run poll polledAt droppedAt
  rw [hresults] at hsent
  refine ⟨hresults, ?_⟩
  by_cases hdump : diagnostics.dumpMode = .all ∧ (endReached results = true ∨ bytes ≠ [])
  · refine ⟨[s.dumpEvent bytes ts], hsent.trans (congrArg (diagnostics.sent ++ ·) (if_pos hdump)),
      by simp, by simp [hdump], fun event hevent => ?_⟩
    rw [List.mem_singleton.mp hevent]
    exact ⟨⟨ts, hts, rfl⟩, bytes_dumpBodyFromBytes bytes⟩
  · exact ⟨[], hsent.trans (congrArg (diagnostics.sent ++ ·) (if_neg hdump)), by simp,
      by simp [hdump], by simp⟩

/-- An inner stream that gives these results, and then its end. -/
def pollListed {ε : Type} : List (Polled ε) → Polled ε × List (Polled ε)
  | [] => (.ready none, [])
  | result :: rest => (result, rest)

def listedStream (mode : DiagnosticMode) (results : List (Polled String)) :
    DiagnosticStream (List (Polled String)) :=
  .new results { dumpMode := mode, sent := [] } "17-0" "local" "m" [] 200

/-- What is sent for a stream with these results, which is polled three times and dropped. -/
def sentFor (mode : DiagnosticMode) (results : List (Polled String)) : List DumpEvent :=
  (((listedStream mode results).run pollListed ["a", "b", "c"]).2.drop "d").diagnostics.sent

/-- A chunk of bytes that are in no text, longer than what is written of such bytes. -/
def binaryChunk : List UInt8 := 255 :: List.replicate 65536 255

theorem length_binaryChunk : binaryChunk.length = 65537 := by
  rw [binaryChunk, List.length_cons, List.length_replicate]

theorem take_binaryChunk : [binaryChunk].flatten.take MAX_STREAMING_DUMP_BYTES = binaryChunk := by
  rw [List.flatten_singleton]
  exact List.take_of_length_le (by rw [length_binaryChunk]; decide)

theorem sentFor_binaryChunk : ∃ event ∈ sentFor .all [.ready (some (.ok binaryChunk))],
    event.body.bytes = binaryChunk.take maxNonUtf8DumpLen := by
  have hlive : DiagnosticStream.Live (listedStream .all [.ready (some (.ok binaryChunk))]) []
      (listedStream .all [.ready (some (.ok binaryChunk))]) := DiagnosticStream.live_new
  obtain ⟨ts, -, hsent⟩ := hlive.sent_drop_run pollListed ["a", "b", "c"] "d"
  rw [DiagnosticStream.run_results] at hsent
  have hseen : chunksSeen (innerResults pollListed ["a", "b", "c"].length
      (listedStream .all [.ready (some (.ok binaryChunk))]).inner) = [binaryChunk] := rfl
  rw [hseen, take_binaryChunk, if_pos ⟨rfl, .inl rfl⟩] at hsent
  have hnone : fromUtf8 binaryChunk = none := fromUtf8_invalid (by decide) _
  refine ⟨(listedStream .all [.ready (some (.ok binaryChunk))]).dumpEvent binaryChunk ts, ?_, ?_⟩
  · rw [sentFor, hsent]
    exact List.mem_append_right _ List.mem_cons_self
  · rw [DiagnosticStream.dumpEvent, bytes_dumpBodyFromBytes, hnone, if_neg (by simp)]

/-- Where only errors are dumped nothing is sent, and of bytes that are no text not all are. -/
theorem stream_not_always_dumped :
    (¬ ∀ (mode : DiagnosticMode) (results : List (Polled String)), mode ≠ .off →
      endReached (innerResults pollListed 3 results) = true → sentFor mode results ≠ []) ∧
    ¬ ∀ (results : List (Polled String)), ∀ event ∈ sentFor .all results, event.body.bytes =
      (chunksSeen (innerResults pollListed 3 results)).flatten.take MAX_STREAMING_DUMP_BYTES := by
  constructor
  · intro hall
    exact hall .error [] (by decide) rfl rfl
  · intro hall
    obtain ⟨event, hmem, hbytes⟩ := sentFor_binaryChunk
    have hseen : chunksSeen (innerResults pollListed 3
        [.ready (some (.ok binaryChunk))] : List (Polled String)) = [binaryChunk] := rfl
    have hwhole := hall _ event hmem
    rw [hseen, take_binaryChunk, hbytes] at hwhole
    have hlength := congrArg List.length hwhole
    rw [List.length_take, length_binaryChunk] at hlength
    exact absurd hlength (by decide)

end InfSplitter.Diagnostics
