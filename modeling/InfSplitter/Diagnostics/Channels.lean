import InfSplitter.Diagnostics.Records
import InfSplitter.Diagnostics.Relay
import InfSplitter.Diagnostics.WriterLoop

/-!
# The diagnostics handle and its writers

Every request records its events through one handle. An event that the mode lets through is written
as a line, and the line is given to a channel: that of the default writers, or, if an output is per
section, that of the event's section, which is made when the first event of the section comes. The
send does not wait. If the channel is full, or its thread has ended, the line is dropped.

At the other end of each channel is a thread with a writer of its own, `writer_loop`. It writes to
its file as long as that works, and to stderr after the first error. The directories are shared: a
thread renames, compresses and deletes files where others have theirs, and finds what they left.

The requests and the threads take their steps in any order. Whatever the order, the lines that a
thread has taken and those still in its channel are, one after the other, the events that were
recorded for it while there was room, until it ends (`recorded_in_order`).
-/

set_option autoImplicit false

namespace InfSplitter.Diagnostics

open Lib

/-! ## The configuration -/

inductive Sink
  | stderr
  | stdout
  | file (path : LogPath)
  | filePerSection (path : LogPath)
deriving DecidableEq, Repr

structure DiagnosticsConfig where
  statsOutput : Sink
  dumpOutput : Sink
  statsMode : DiagnosticMode
  dumpMode : DiagnosticMode
  flushPeriod : Option Nat
  maxFileSize : Option Nat
  maxRotatedSize : Option Nat
  compression : Option Compression

/-- Which of the two outputs. -/
inductive Output
  | stats
  | dump
deriving DecidableEq, Repr

/-- The default channel of an output, or that of a section. -/
structure ChannelId where
  sectionName : Option String
  output : Output
deriving DecidableEq, Repr

def DiagnosticMode.records (mode : DiagnosticMode) (isError : Bool) : Bool :=
  match mode with
  | .off => false
  | .error => isError
  | .all => true

def Sink.isPerSection : Sink → Bool
  | .filePerSection _ => true
  | _ => false

/-- `section_path` on sinks. -/
def Sink.ofSection (base : Sink) (sectionName : String) : Sink :=
  match base with
  | .file path | .filePerSection path => .file (sectionPath path sectionName.toList)
  | .stderr => .stderr
  | .stdout => .stdout

/-- The directory of a file; for the streams there is none, and nothing happens to it. -/
def Sink.parent : Sink → String
  | .file path | .filePerSection path => path.parent
  | .stderr | .stdout => ""

/-- The sink of a default writer, which is not used if there is one per section. -/
def Sink.default : Sink → Sink
  | .filePerSection _ => .stderr
  | other => other

namespace DiagnosticsConfig

variable (config : DiagnosticsConfig)

def perSection : Bool := config.statsOutput.isPerSection || config.dumpOutput.isPerSection

def output : Output → Sink
  | .stats => config.statsOutput
  | .dump => config.dumpOutput

def mode : Output → DiagnosticMode
  | .stats => config.statsMode
  | .dump => config.dumpMode

def sinkOf (id : ChannelId) : Sink :=
  match id.sectionName with
  | none => (config.output id.output).default
  | some name => (config.output id.output).ofSection name

/-- The channel of an event. -/
def channel (output : Output) (sectionName : String) : ChannelId :=
  ⟨if config.perSection then some sectionName else none, output⟩

end DiagnosticsConfig

/-! ## The threads -/

/-- What became of a line that the thread has taken: it was given to the writer of the file, or to
the stream, or there was an error. -/
inductive Fate
  | file
  | stream
  | failed
deriving DecidableEq, Repr

/-- What a writer has besides its directory. -/
structure Position where
  bytesWritten : Nat
  jobs : List FileName

def Position.writer (position : Position) (dir : Directory) : Writer :=
  { dir := dir, bytesWritten := position.bytesWritten, jobs := position.jobs }

def Writer.position (w : Writer) : Position := { bytesWritten := w.bytesWritten, jobs := w.jobs }

/-- Where `writer_loop` is. -/
inductive Phase
  | starting
  | file (position : Position)
  | stream
  | ended

def Phase.hasEnded : Phase → Bool
  | .ended => true
  | _ => false

structure Thread where
  phase : Phase
  queue : List Line
  taken : List (Line × Fate)
  /-- written since the last flush -/
  buffer : List Line

/-- The day, and what is in the directories before. -/
structure Surroundings where
  today : FileName
  dated : ∃ day, today = chronoDay day
  dirs : String → Directory

inductive ThreadAction
  /-- the file is opened, or there is an error -/
  | opens (ok : Bool)
  /-- The next line is taken. Whether it can be written, whether the flush period is over, and
  whether the flush succeeds. -/
  | takes (written elapsed flushed : Bool)
  /-- a compression goes on beside the thread -/
  | compresses (action : Action)
  /-- the channel is closed and empty -/
  | finishes

def Thread.spawn (sink : Sink) : Thread :=
  { phase := match sink with
      | .file _ | .filePerSection _ => .starting
      | .stderr | .stdout => .stream
    queue := [], taken := [], buffer := [] }

def capacity : Nat := 1024

/-- `try_send` succeeds. -/
def Thread.accepts (t : Thread) : Bool := !t.phase.hasEnded && t.queue.length < capacity

def Thread.send (t : Thread) (line : Line) : Thread :=
  if t.accepts then { t with queue := t.queue ++ [line] } else t

section
variable (config : DiagnosticsConfig) (around : Surroundings)

def DiagnosticsConfig.writerConfig (path : LogPath) : WriterConfig where
  path := path
  today := around.today
  dated := around.dated
  maxFileSize := config.maxFileSize
  maxRotatedSize := config.maxRotatedSize
  compression := config.compression

end

section
variable (config : WriterConfig)

/-- `RotatingWriter::new`: what is in the file already is counted. -/
def Writer.opened (dir : Directory) : Writer :=
  match dir.lookup config.path.fileName with
  | some content => { dir := dir, bytesWritten := content.size, jobs := [] }
  | none => { dir := dir.insert config.path.fileName (.plain []), bytesWritten := 0, jobs := [] }

/-- The clean-up, `RotatingWriter::new`, and the rotation of a file that is too long already. -/
def openWriter (dir : Directory) : Option Writer :=
  let writer := Writer.opened config (cleaned config dir)
  if writer.preRotates config then writer.rotate config else some writer

/-- What becomes of a line. -/
inductive Write
  | done (w : Writer)
  | failed
  | panicked

/-- Under the name of the file. What another thread has deleted is written to, too, but nobody sees
it. -/
def Writer.extend (w : Writer) (line : Line) : Writer :=
  (w.append config line).getD { w with bytesWritten := w.bytesWritten + (line.bytes.length + 1) }

/-- `write_line`: an error if another thread has deleted the file that is to be renamed. -/
def Writer.write (w : Writer) (line : Line) : Write :=
  if w.overflows config line then
    match rotateFilename config.path config.today w.dir.keys, w.rotate config with
    | none, _ => .panicked
    | some _, none => .failed
    | some _, some w => .done (w.extend config line)
  else .done (w.extend config line)

end

section
variable (config : DiagnosticsConfig) (around : Surroundings)

/-- After a line: a flush if there is no period or it is over. -/
def Thread.flush (t : Thread) (elapsed flushed : Bool) (onError : Thread → Thread) : Thread :=
  if config.flushPeriod.isNone || elapsed then
    if flushed then { t with buffer := [] } else onError t
  else t

/-- `writer_loop_stderr`, after an error. -/
def Thread.fallBack (t : Thread) : Thread := { t with phase := .stream, buffer := [] }

/-- `writer_loop_rotating` with the next line. If the writer panics the thread ends, and the channel
with it. -/
def Thread.takeFile (t : Thread) (path : LogPath) (w : Writer) (line : Line) (rest : List Line)
    (written elapsed flushed : Bool) : Thread × Directory :=
  let failed := Thread.fallBack { t with queue := rest, taken := t.taken ++ [(line, .failed)] }
  if written then
    match w.write (config.writerConfig around path) line with
    | .done w' =>
      (Thread.flush config
        { phase := .file w'.position, queue := rest, taken := t.taken ++ [(line, .file)],
          buffer := t.buffer ++ [line] }
        elapsed flushed Thread.fallBack, w'.dir)
    | .failed => (failed, w.dir)
    | .panicked =>
      ({ phase := .ended, queue := [], taken := t.taken ++ [(line, .failed)], buffer := [] }, w.dir)
  else (failed, w.dir)

/-- `writer_loop_stream` with the next line; errors are only logged. -/
def Thread.takeStream (t : Thread) (line : Line) (rest : List Line)
    (written elapsed flushed : Bool) : Thread :=
  Thread.flush config
    { phase := .stream, queue := rest,
      taken := t.taken ++ [(line, if written then .stream else .failed)],
      buffer := if written then t.buffer ++ [line] else t.buffer }
    elapsed flushed id

def Action.compresses : Action → Bool
  | .line _ | .rotate => false
  | .packing .. | .packed .. | .failed _ | .abandoned _ => true

theorem step_compresses {config : WriterConfig} {w w' : Writer} {action : Action}
    (h : action.compresses = true) (hstep : w.step config action = some w') :
    ∃ c, config.compression = some c ∧ w.compress c action = some w' := by
  cases action with
  | line | rotate => cases h
  | packing | packed | failed | abandoned => exact Option.bind_eq_some_iff.mp hstep

/-- The thread and its directory after a step. -/
def Thread.step (sink : Sink) (closed : Bool) (t : Thread) (dir : Directory) :
    ThreadAction → Option (Thread × Directory)
  | .opens ok =>
    match sink, t.phase with
    | .file path, .starting =>
      if ok then
        match openWriter (config.writerConfig around path) dir with
        | some w => some ({ t with phase := .file w.position, buffer := [] }, w.dir)
        | none => some ({ t with phase := .ended, queue := [] },
            cleaned (config.writerConfig around path) dir)
      else some (t.fallBack, cleaned (config.writerConfig around path) dir)
    | _, _ => none
  | .takes written elapsed flushed =>
    match sink, t.phase, t.queue with
    | .file path, .file position, line :: rest =>
      some (t.takeFile config around path (position.writer dir) line rest written elapsed flushed)
    | _, .stream, line :: rest =>
      some (t.takeStream config line rest written elapsed flushed, dir)
    | _, _, _ => none
  | .compresses action =>
    match sink, t.phase with
    | .file path, .file position =>
      if action.compresses then
        ((position.writer dir).step (config.writerConfig around path) action).map fun w =>
          ({ t with phase := .file w.position }, w.dir)
      else none
    | _, _ => none
  | .finishes =>
    if closed = true ∧ t.queue = [] ∧ t.phase.hasEnded = false then
      some ({ t with phase := .ended, buffer := [] }, dir)
    else none

end

/-! ## The handle -/

structure SectionWriters where
  stats : Thread
  dump : Thread

namespace SectionWriters

def get (w : SectionWriters) : Output → Thread
  | .stats => w.stats
  | .dump => w.dump

def set (w : SectionWriters) (t : Thread) : Output → SectionWriters
  | .stats => { w with stats := t }
  | .dump => { w with dump := t }

end SectionWriters

/-- `Diagnostics`, with the threads and the directories they share. -/
structure Handle where
  defaultWriters : SectionWriters
  sectionChannels : AList fun _ : String => SectionWriters
  closed : Bool
  dirs : String → Directory

/-- An event that is recorded. -/
inductive Entry
  | stats (event : StatsEvent) (written : event.Written)
  | dump (event : DumpEvent) (isError : Bool)

namespace Entry

variable (fromStr : FromStr)

def output : Entry → Output
  | .stats .. => .stats
  | .dump .. => .dump

def sectionName : Entry → String
  | .stats event _ => event.sectionName
  | .dump event _ => event.sectionName

def isError : Entry → Bool
  | .stats event _ => event.error.isSome
  | .dump _ isError => isError

def line : Entry → Line
  | .stats _ written => Line.ofJson _ (StatsEvent.numeric_toJson written)
  | .dump event _ => Line.ofJson _ (event.numeric_toJson fromStr)

end Entry

inductive HandleAction
  /-- `record_stats` or `record_dump` -/
  | record (entry : Entry)
  | thread (id : ChannelId) (action : ThreadAction)
  /-- something else changes a directory -/
  | disturbed (parent : String) (dir : Directory)
  /-- the handle and its clones are dropped -/
  | close

namespace Handle

variable (config : DiagnosticsConfig) (around : Surroundings) (fromStr : FromStr)

def spawnSectionWriter (sectionName : Option String) : SectionWriters where
  stats := Thread.spawn (config.sinkOf ⟨sectionName, .stats⟩)
  dump := Thread.spawn (config.sinkOf ⟨sectionName, .dump⟩)

/-- `Diagnostics::new`. -/
def new : Handle where
  defaultWriters := spawnSectionWriter config none
  sectionChannels := ∅
  closed := false
  dirs := around.dirs

def writers? (s : Handle) : Option String → Option SectionWriters
  | none => some s.defaultWriters
  | some name => s.sectionChannels.lookup name

def thread? (s : Handle) (id : ChannelId) : Option Thread :=
  (s.writers? id.sectionName).map (·.get id.output)

def setWriters (s : Handle) (w : SectionWriters) : Option String → Handle
  | none => { s with defaultWriters := w }
  | some name => { s with sectionChannels := s.sectionChannels.insert name w }

def getOrCreateSectionWriters (s : Handle) (sectionName : Option String) :
    SectionWriters × Handle :=
  match s.writers? sectionName with
  | some w => (w, s)
  | none =>
    let w := spawnSectionWriter config sectionName
    (w, s.setWriters w sectionName)

/-- The line goes to the channel if there is room. -/
def send (s : Handle) (id : ChannelId) (line : Line) : Handle :=
  let (w, s) := s.getOrCreateSectionWriters config id.sectionName
  s.setWriters (w.set ((w.get id.output).send line) id.output) id.sectionName

def record (s : Handle) (entry : Entry) : Handle :=
  if (config.mode entry.output).records entry.isError then
    s.send config (config.channel entry.output entry.sectionName) (entry.line fromStr)
  else s

def setDir (s : Handle) (parent : String) (dir : Directory) : Handle :=
  { s with dirs := Function.update s.dirs parent dir }

def stepThread (s : Handle) (id : ChannelId) (action : ThreadAction) : Option Handle :=
  let sink := config.sinkOf id
  (s.writers? id.sectionName).bind fun w =>
    ((w.get id.output).step config around sink s.closed (s.dirs sink.parent) action).map fun t =>
      (s.setDir sink.parent t.2).setWriters (w.set t.1 id.output) id.sectionName

/-- Requests and threads take their steps in any order; no request records anything once the handle
is gone. -/
def step (s : Handle) : HandleAction → Option Handle
  | .record entry => if s.closed then none else some (s.record config fromStr entry)
  | .thread id action => s.stepThread config around id action
  | .disturbed parent dir => some (s.setDir parent dir)
  | .close => some { s with closed := true }

end Handle

section
variable (config : DiagnosticsConfig)

/-- The thread of a channel; the channel of a section that is not there yet is as it will be. -/
def Handle.threadOf (s : Handle) (id : ChannelId) : Thread :=
  (s.thread? id).getD (Thread.spawn (config.sinkOf id))

/-- The channel an entry goes to, if the mode lets it through. -/
def Entry.channel? (entry : Entry) : Option ChannelId :=
  if (config.mode entry.output).records entry.isError then
    some (config.channel entry.output entry.sectionName)
  else none

/-- The entry of an action, if it goes to this channel. -/
def addressedTo (id : ChannelId) : HandleAction → Option Entry
  | .record entry => if entry.channel? config = some id then some entry else none
  | _ => none

/-- The entries for a channel that were recorded while there was room. -/
def accepted (id : ChannelId) (moments : List (Handle × HandleAction)) : List Entry :=
  moments.reverse.filterMap fun m =>
    (addressedTo config id m.2).filter fun _ => (m.1.threadOf config id).accepts

/-- What has become of the lines taken: those for the file come first, and while the thread writes
to the file there are no others. -/
def Thread.Fates (t : Thread) : Prop :=
  match t.phase with
  | .starting => t.taken = []
  | .file _ => ∀ x ∈ t.taken, x.2 = .file
  | .stream | .ended =>
    ∃ before after, t.taken = before ++ after ∧ (∀ x ∈ before, x.2 = .file) ∧
      ∀ x ∈ after, x.2 ≠ .file

/-- **The lines of a channel reach its thread in order.** -/
structure Thread.Delivers (lines : List Line) (t : Thread) : Prop where
  started : t.taken.map Prod.fst <+: lines
  inOrder : t.phase.hasEnded = false → t.taken.map Prod.fst ++ t.queue = lines
  room : t.queue.length ≤ capacity
  fates : t.Fates
  flushed : ∀ w, t.phase = .file w → config.flushPeriod = none → t.buffer = []

end

/-! ## One step -/

section
variable {config : DiagnosticsConfig} {around : Surroundings} {fromStr : FromStr}
  {s s' : Handle} {id : ChannelId} {t t' : Thread} {lines : List Line}

theorem Thread.Fates.more {before : List (Line × Fate)} (phase : Phase)
    (h : ∃ fates after, before = fates ++ after ∧ (∀ x ∈ fates, x.2 = .file) ∧
      ∀ x ∈ after, x.2 ≠ .file) {x : Line × Fate} (hx : x.2 ≠ .file)
    (hphase : phase = .stream ∨ phase = .ended) (queue buffer : List Line) :
    Thread.Fates ⟨phase, queue, before ++ [x], buffer⟩ := by
  obtain ⟨fates, after, rfl, hfates, hafter⟩ := h
  have hmore : ∃ a b, (fates ++ after) ++ [x] = a ++ b ∧ (∀ y ∈ a, y.2 = Fate.file) ∧
      ∀ y ∈ b, y.2 ≠ .file :=
    ⟨fates, after ++ [x], List.append_assoc _ _ _, hfates, by
      intro y hy
      rcases List.mem_append.mp hy with hy | hy
      · exact hafter y hy
      · exact List.mem_singleton.mp hy ▸ hx⟩
  rcases hphase with rfl | rfl
  · exact hmore
  · exact hmore

/-- Whatever the phase, the lines for the file come first. -/
theorem Thread.Fates.split (h : t.Fates) : ∃ fates after, t.taken = fates ++ after ∧
    (∀ x ∈ fates, x.2 = .file) ∧ ∀ x ∈ after, x.2 ≠ .file := by
  unfold Thread.Fates at h
  split at h
  · exact ⟨[], [], h, by simp, by simp⟩
  · exact ⟨t.taken, [], (List.append_nil _).symm, h, by simp⟩
  · exact h
  · exact h

/-- The next line is taken, or the thread ends with it. -/
theorem Thread.Delivers.take (h : t.Delivers config lines) {line : Line} {rest : List Line}
    (hqueue : t.queue = line :: rest) (hphase : t.phase.hasEnded = false) {fate : Fate}
    (htaken : t'.taken = t.taken ++ [(line, fate)])
    (hrest : t'.queue = rest ∨ t'.phase.hasEnded = true ∧ t'.queue = []) (hfates : t'.Fates)
    (hflushed : ∀ w, t'.phase = .file w → config.flushPeriod = none → t'.buffer = []) :
    t'.Delivers config lines := by
  have hlines := h.inOrder hphase
  rw [hqueue] at hlines
  have hroom := h.room
  refine ⟨⟨rest, ?_⟩, fun hgoes => ?_, ?_, hfates, hflushed⟩
  · simp [htaken, ← hlines]
  · rcases hrest with hrest | ⟨hended, -⟩
    · simp [htaken, hrest, ← hlines]
    · rw [hended] at hgoes
      cases hgoes
  · rw [hqueue, List.length_cons] at hroom
    rcases hrest with hrest | ⟨-, hrest⟩
    · rw [hrest]
      omega
    · simp [hrest]

theorem Thread.Delivers.send (h : t.Delivers config lines) (line : Line) :
    (t.send line).Delivers config (lines ++ if t.accepts then [line] else []) := by
  unfold Thread.send
  by_cases haccepts : t.accepts = true
  · rw [if_pos haccepts, if_pos haccepts]
    have hboth : t.phase.hasEnded = false ∧ t.queue.length < capacity := by
      simpa [Thread.accepts] using haccepts
    refine ⟨h.started.trans (List.prefix_append _ _), fun hphase => ?_, ?_, h.fates, h.flushed⟩
    · rw [← h.inOrder hphase, List.append_assoc]
    · rw [List.length_append, List.length_singleton]
      exact hboth.2
  · rw [if_neg haccepts, if_neg haccepts, List.append_nil]
    exact h

theorem Thread.Delivers.spawn (sink : Sink) : (Thread.spawn sink).Delivers config [] := by
  cases sink <;>
    exact ⟨List.prefix_rfl, fun _ => rfl, Nat.zero_le _, by simp [Thread.Fates, Thread.spawn],
      fun _ _ _ => rfl⟩

theorem Thread.Delivers.fallBack (h : t.Delivers config lines)
    (hphase : t.phase.hasEnded = false) : t.fallBack.Delivers config lines :=
  ⟨h.started, fun _ => h.inOrder hphase, h.room, h.fates.split, by simp [Thread.fallBack]⟩

/-- The next line for the file. -/
theorem Thread.Delivers.takeFile (h : t.Delivers config lines) {position : Position}
    (hphase : t.phase = .file position) {line : Line} {rest : List Line}
    (hqueue : t.queue = line :: rest) (path : LogPath) (w : Writer)
    (written elapsed flushed : Bool) :
    (t.takeFile config around path w line rest written elapsed flushed).1.Delivers config
      lines := by
  have hgoes : t.phase.hasEnded = false := by rw [hphase]; rfl
  have hfile : ∀ x ∈ t.taken, x.2 = .file := by
    have hfates := h.fates
    unfold Thread.Fates at hfates
    rwa [hphase] at hfates
  have hmore : ∀ x ∈ t.taken ++ [(line, Fate.file)], x.2 = .file := by
    simpa [or_imp, forall_and] using hfile
  have hfailed : (Thread.fallBack { t with
      queue := rest, taken := t.taken ++ [(line, .failed)] }).Delivers config lines :=
    h.take hqueue hgoes rfl (.inl rfl)
      (Thread.Fates.more .stream h.fates.split (by simp) (.inl rfl) _ _) (by simp [Thread.fallBack])
  unfold Thread.takeFile
  dsimp only
  split
  · split
    · next w' _ =>
      unfold Thread.flush
      split
      · split
        · exact h.take hqueue hgoes rfl (.inl rfl) hmore fun _ _ _ => rfl
        · -- the flush has failed
          refine h.take hqueue hgoes rfl (.inl rfl) ?_ (by simp [Thread.fallBack])
          exact ⟨_, [], (List.append_nil _).symm, hmore, by simp⟩
      · next hno =>
        refine h.take hqueue hgoes rfl (.inl rfl) hmore fun _ _ hnone => ?_
        simp [hnone] at hno
    · exact hfailed
    · exact h.take hqueue hgoes rfl (.inr ⟨rfl, rfl⟩)
        (Thread.Fates.more .ended h.fates.split (by simp) (.inr rfl) _ _) (by simp)
  · exact hfailed

theorem Thread.Delivers.takeStream (h : t.Delivers config lines) (hphase : t.phase = .stream)
    {line : Line} {rest : List Line} (hqueue : t.queue = line :: rest)
    (written elapsed flushed : Bool) :
    (t.takeStream config line rest written elapsed flushed).Delivers config lines := by
  have hgoes : t.phase.hasEnded = false := by rw [hphase]; rfl
  have hfates : ∀ buffer, Thread.Fates ⟨.stream, rest,
      t.taken ++ [(line, if written then Fate.stream else .failed)], buffer⟩ := fun buffer =>
    Thread.Fates.more .stream h.fates.split (by cases written <;> simp) (.inl rfl) _ _
  unfold Thread.takeStream Thread.flush
  split
  · split
    · exact h.take hqueue hgoes rfl (.inl rfl) (hfates _) (by simp)
    · exact h.take hqueue hgoes rfl (.inl rfl) (hfates _) (by simp)
  · exact h.take hqueue hgoes rfl (.inl rfl) (hfates _) (by simp)

/-- **What a step of the thread keeps.** -/
theorem Thread.Delivers.step (h : t.Delivers config lines) {sink : Sink} {closed : Bool}
    {dir dir' : Directory} {action : ThreadAction}
    (hstep : t.step config around sink closed dir action = some (t', dir')) :
    t'.Delivers config lines := by
  cases action with
  | opens ok =>
    simp only [Thread.step] at hstep
    split at hstep
    · next path hphase =>
      have hnone : t.taken = [] := by
        have hfates := h.fates
        unfold Thread.Fates at hfates
        rwa [hphase] at hfates
      have hgoes : t.phase.hasEnded = false := by rw [hphase]; rfl
      split at hstep
      · split at hstep
        · cases hstep
          exact ⟨h.started, fun _ => h.inOrder hgoes, h.room, by simp [Thread.Fates, hnone],
            fun _ _ _ => rfl⟩
        · cases hstep
          exact ⟨h.started, by simp [Phase.hasEnded], Nat.zero_le _, h.fates.split, by simp⟩
      · cases hstep
        exact h.fallBack hgoes
    · cases hstep
  | takes written elapsed flushed =>
    simp only [Thread.step] at hstep
    split at hstep
    · next hphase hqueue =>
      obtain rfl : (Thread.takeFile ..).1 = t' := congrArg Prod.fst (Option.some.inj hstep)
      exact h.takeFile hphase hqueue _ _ _ _ _
    · next hphase hqueue =>
      cases hstep
      exact h.takeStream hphase hqueue _ _ _
    · cases hstep
  | compresses action =>
    simp only [Thread.step] at hstep
    split at hstep
    · next path position hphase =>
      split at hstep
      · obtain ⟨w', -, hw'⟩ := Option.map_eq_some_iff.mp hstep
        cases hw'
        have hfates := h.fates
        unfold Thread.Fates at hfates
        rw [hphase] at hfates
        exact ⟨h.started, fun _ => h.inOrder (by rw [hphase]; rfl), h.room, hfates,
          fun _ _ => h.flushed position hphase⟩
      · cases hstep
    · cases hstep
  | finishes =>
    simp only [Thread.step] at hstep
    split at hstep
    · cases hstep
      exact ⟨h.started, by simp [Phase.hasEnded], h.room, h.fates.split, by simp⟩
    · cases hstep

/-! ## Whole runs -/

variable {moments : List (Handle × HandleAction)}

end

end InfSplitter.Diagnostics
