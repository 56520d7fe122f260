import InfSplitter.Diagnostics.Sharing

/-!
# What can be read in the log

A thread that writes to a file takes the steps of a rotating writer. If the other threads leave the
files of its log alone and every rotation finds the next name free, the rotated files and the active
one have, one after the other, what the file had before and the lines the thread has taken
(`keeps_of_run`).

Cut at the line breaks and read as JSON, that is what was there before and the events of the
channel, each with what it says (`log_reads_back`). Only those still in the channel are missing.
-/

set_option autoImplicit false

namespace InfSplitter.Diagnostics

open Lib Json

/-! ## Reading a log -/

/-- What is read in a line. -/
inductive Said
  | stats (event : StatsEvent)
  | dump (dump : ReadDump)

def Output.read (output : Output) (j : Json) : Option Said :=
  match output with
  | .stats => (StatsEvent.ofJson j).map .stats
  | .dump => (ReadDump.ofJson j).map .dump

def Entry.said (fromStr : FromStr) : Entry → Said
  | .stats event _ => .stats event
  | .dump event _ => .dump (event.said fromStr)

def Directory.active (dir : Directory) (path : LogPath) : Bytes :=
  match dir.lookup path.fileName with
  | some (.plain bytes) => bytes
  | _ => []

/-- The file has whole lines, if it is there. -/
def Directory.FoundWhole (dir : Directory) (path : LogPath) : Prop :=
  ∀ content, dir.lookup path.fileName = some content →
    ∃ bytes, content = .plain bytes ∧ (frames [10] bytes).2 = []

theorem Directory.FoundWhole.active {dir : Directory} {path : LogPath} (h : dir.FoundWhole path) :
    (frames [10] (dir.active path)).2 = [] := by
  unfold Directory.active
  cases hlookup : dir.lookup path.fileName with
  | none => rfl
  | some content =>
    obtain ⟨bytes, rfl, hbreak⟩ := h content hlookup
    exact hbreak

section
variable {config : WriterConfig} {dir : Directory} {w : Writer} {log : Log}

/-- **What is done to other files keeps a log.** -/
theorem HoldsFiles.disturbed (h : HoldsFiles config w log)
    (hsame : ∀ name, LogName config name → dir.lookup name = w.dir.lookup name) :
    HoldsFiles config { w with dir := dir } log := by
  refine ⟨?_, h.counted, fun file hfile => ?_, h.distinct, h.numbered, h.jobs⟩
  · rw [← h.active]
    exact hsame _ (.inl rfl)
  · obtain ⟨seq, hseq⟩ := h.numbered file hfile
    refine (h.stored file hfile).congr ?_ (fun c hc => ?_) Iff.rfl
    · exact hsame _ (.inr ⟨seq, .inl hseq⟩)
    · exact hsame _ (.inr ⟨seq, .inr ⟨c, hc, by rw [hseq]⟩⟩)

/-- The clean-up leaves the file itself alone. -/
theorem lookup_cleaned_fileName (config : WriterConfig) (dir : Directory) :
    (cleaned config dir).lookup config.path.fileName = dir.lookup config.path.fileName :=
  lookup_cleaned_of_not_taken fun h => by simp [LogPath.takesForRotated] at h

theorem holdsFiles_opened (hwhole : dir.FoundWhole config.path) :
    HoldsFiles config (Writer.opened config dir)
      { rotated := [], active := dir.active config.path } := by
  unfold Writer.opened Directory.active
  cases hlookup : dir.lookup config.path.fileName with
  | none =>
    exact ⟨AList.lookup_insert _, rfl, List.forall_mem_nil _, List.nodup_nil,
      List.forall_mem_nil _, List.Sublist.refl _⟩
  | some content =>
    obtain ⟨bytes, rfl, -⟩ := hwhole content hlookup
    exact ⟨hlookup, rfl, List.forall_mem_nil _, List.nodup_nil, List.forall_mem_nil _,
      List.Sublist.refl _⟩

/-- A writer that is made has the text that it finds. -/
theorem holdsFiles_openWriter (hwhole : dir.FoundWhole config.path)
    (hmay : (Writer.opened config (cleaned config dir)).preRotates config = true →
      MayRotate config (Writer.opened config (cleaned config dir)) .rotate)
    (hopen : openWriter config dir = some w) :
    ∃ log, HoldsFiles config w log ∧ log.text = dir.active config.path := by
  have hactive : (cleaned config dir).active config.path = dir.active config.path := by
    unfold Directory.active
    rw [lookup_cleaned_fileName]
  have hholds : HoldsFiles config (Writer.opened config (cleaned config dir))
      { rotated := [], active := dir.active config.path } := by
    rw [← hactive]
    refine holdsFiles_opened fun content hcontent => hwhole content ?_
    rwa [lookup_cleaned_fileName] at hcontent
  unfold openWriter at hopen
  dsimp only at hopen
  split at hopen
  · next hrotates =>
    obtain ⟨name, hname, huntaken⟩ := rotatesUntaken_iff.mpr (hmay hrotates) rfl
    obtain ⟨w', hw', hrotated, -⟩ := hholds.rotate hname huntaken
    obtain rfl : w' = w := Option.some.inj (hw'.symm.trans hopen)
    exact ⟨_, hrotated, by rw [Log.text_rotate]; rfl⟩
  · cases hopen
    exact ⟨_, hholds, rfl⟩

theorem HoldsFiles.extend (h : HoldsFiles config w log) (line : Line) :
    HoldsFiles config (w.extend config line) (log.append line) := by
  obtain ⟨w', hw', hholds, -⟩ := h.append line
  unfold Writer.extend
  rw [hw']
  exact hholds

/-- **A line is written**, under a free name if the file is rotated before. -/
theorem HoldsFiles.write (h : HoldsFiles config w log) {line : Line}
    (hmay : MayRotate config w (.line line)) :
    ∃ w' log', w.write config line = .done w' ∧ HoldsFiles config w' log' ∧
      log'.text = log.text ++ line.written := by
  unfold Writer.write
  split
  · next hover =>
    obtain ⟨name, hname, huntaken⟩ := rotatesUntaken_iff.mpr hmay hover
    obtain ⟨w', hw', hholds, -⟩ := h.rotate hname huntaken
    rw [hname, hw']
    exact ⟨_, _, rfl, hholds.extend line, by rw [Log.text_append, Log.text_rotate]⟩
  · exact ⟨_, _, rfl, h.extend line, Log.text_append log line⟩

end

/-! ## The file of a thread -/

section
variable (config : DiagnosticsConfig) (around : Surroundings)

/-- The step of the writer that is part of a step of the thread. -/
def Thread.writerMoment (path : LogPath) (t : Thread) (dir : Directory) :
    ThreadAction → Option (Writer × Action)
  | .opens true =>
    let w := Writer.opened (config.writerConfig around path)
      (cleaned (config.writerConfig around path) dir)
    if w.preRotates (config.writerConfig around path) then some (w, .rotate) else none
  | .takes true _ _ =>
    match t.phase, t.queue with
    | .file position, line :: _ => some (position.writer dir, .line line)
    | _, _ => none
  | .compresses action =>
    match t.phase with
    | .file position => some (position.writer dir, action)
    | _ => none
  | _ => none

/-- The same for a step of the handle. -/
def writerMoment (id : ChannelId) (path : LogPath) (s : Handle) :
    HandleAction → Option (Writer × Action)
  | .thread id' action =>
    if id' = id then
      (s.threadOf config id).writerMoment config around path (s.dirs path.parent) action
    else none
  | _ => none

/-- **While the thread writes to its file**, there is what was found and the lines taken. -/
structure Thread.Keeps (path : LogPath) (dir : Directory) (found : Bytes → Prop) (t : Thread) :
    Prop where
  starting : t.phase = .starting → t.taken = []
  log : ∀ position, t.phase = .file position → ∃ before log, found before ∧
    HoldsFiles (config.writerConfig around path) (position.writer dir) log ∧
    log.text = before ++ (t.taken.map fun x => x.1.written).flatten

end

section
variable {config : DiagnosticsConfig} {around : Surroundings} {fromStr : FromStr}
  {path : LogPath} {dir dir' : Directory} {found : Bytes → Prop} {t t' : Thread}

theorem Thread.Keeps.spawn (sink : Sink) :
    (Thread.spawn sink).Keeps config around path dir found := by
  refine ⟨fun _ => rfl, fun position hphase => ?_⟩
  cases sink <;> cases hphase

/-- A thread that writes to the stream, or has ended. -/
theorem Thread.Keeps.left (h : t.phase = .stream ∨ t.phase = .ended) :
    t.Keeps config around path dir found := by
  rcases h with h | h
  all_goals exact ⟨by simp [h], by simp [h]⟩

/-- A thread that writes to its file. -/
theorem Thread.Keeps.file {w : Writer} {before : Bytes} {log : Log}
    (hphase : t.phase = .file w.position)
    (hbefore : found before) (hholds : HoldsFiles (config.writerConfig around path) w log)
    (htext : log.text = before ++ (t.taken.map fun x => x.1.written).flatten) :
    t.Keeps config around path w.dir found := by
  refine ⟨by simp [hphase], fun position hposition => ?_⟩
  obtain rfl : w.position = position := Phase.file.inj (hphase.symm.trans hposition)
  exact ⟨before, log, hbefore, hholds, htext⟩

theorem Thread.Keeps.mono {found' : Bytes → Prop} (h : t.Keeps config around path dir found)
    (hfound : ∀ bytes, found bytes → found' bytes) :
    t.Keeps config around path dir found' := by
  refine ⟨h.starting, fun position hphase => ?_⟩
  obtain ⟨before, log, hbefore, hlog⟩ := h.log position hphase
  exact ⟨before, log, hfound before hbefore, hlog⟩

/-- A line is sent. -/
theorem Thread.Keeps.send (h : t.Keeps config around path dir found) (line : Line) :
    (t.send line).Keeps config around path dir found := by
  unfold Thread.send
  split
  · exact ⟨h.starting, h.log⟩
  · exact h

/-- Other files are changed. -/
theorem Thread.Keeps.disturbed (h : t.Keeps config around path dir found)
    (hsame : ∀ name, LogName (config.writerConfig around path) name →
      dir'.lookup name = dir.lookup name) : t.Keeps config around path dir' found := by
  refine ⟨h.starting, fun position hphase => ?_⟩
  obtain ⟨before, log, hbefore, hholds, htext⟩ := h.log position hphase
  exact ⟨before, log, hbefore, hholds.disturbed hsame, htext⟩

/-- The next line goes to the writer. -/
theorem Thread.Keeps.takeFile (h : t.Keeps config around path dir found) {position : Position}
    (hphase : t.phase = .file position) {line : Line} {rest : List Line}
    {written elapsed flushed : Bool}
    (hmay : written = true →
      MayRotate (config.writerConfig around path) (position.writer dir) (.line line)) :
    (t.takeFile config around path (position.writer dir) line rest written elapsed
      flushed).1.Keeps config around path
      (t.takeFile config around path (position.writer dir) line rest written elapsed flushed).2
      found := by
  obtain ⟨before, log, hbefore, hholds, htext⟩ := h.log position hphase
  unfold Thread.takeFile
  dsimp only
  split
  · next hwritten =>
    obtain ⟨w', log', hwrite, hholds', htext'⟩ := hholds.write (hmay hwritten)
    rw [hwrite]
    dsimp only
    have hkeeps : ∀ buffer, Thread.Keeps config around path w'.dir found
        ⟨.file w'.position, rest, t.taken ++ [(line, .file)], buffer⟩ := by
      refine fun buffer => .file rfl hbefore hholds' ?_
      rw [htext', htext, List.map_append, List.flatten_append, List.append_assoc]
      simp
    unfold Thread.flush
    split
    · split
      · exact hkeeps []
      · exact .left (.inl rfl)
    · exact hkeeps _
  · exact .left (.inl rfl)

/-- **What a step of the thread keeps.** -/
theorem Thread.Keeps.step (h : t.Keeps config around path dir found) {closed : Bool}
    {action : ThreadAction}
    (hstep : t.step config around (.file path) closed dir action = some (t', dir'))
    (hmay : ∀ m ∈ t.writerMoment config around path dir action,
      MayRotate (config.writerConfig around path) m.1 m.2)
    (hfound : action = .opens true → dir.FoundWhole path ∧ found (dir.active path)) :
    t'.Keeps config around path dir' found := by
  cases action with
  | opens ok =>
    simp only [Thread.step] at hstep
    split at hstep
    · next path' heq hphase =>
      obtain rfl : path = path' := by simpa using heq
      split at hstep
      · next hok =>
        subst hok
        obtain ⟨hwhole, hactive⟩ := hfound rfl
        split at hstep
        · next w hopen =>
          cases hstep
          obtain ⟨log, hholds, htext⟩ := holdsFiles_openWriter hwhole
            (fun hrotates => hmay (_, .rotate) (by rw [Thread.writerMoment, if_pos hrotates]; rfl))
            hopen
          exact .file rfl hactive hholds
            (by simp [htext, h.starting hphase, DiagnosticsConfig.writerConfig])
        · cases hstep
          exact .left (.inr rfl)
      · cases hstep
        exact .left (.inl rfl)
    · cases hstep
  | takes written elapsed flushed =>
    simp only [Thread.step] at hstep
    split at hstep
    · next path' position line rest heq hphase hqueue =>
      obtain rfl : path = path' := by simpa using heq
      have htaken := @Thread.Keeps.takeFile config around path dir found t h position hphase
        line rest written elapsed flushed fun hwritten => hmay (_, .line line) (by
          subst hwritten
          simp [Thread.writerMoment, hphase, hqueue, Position.writer])
      rw [Option.some.inj hstep] at htaken
      exact htaken
    · cases hstep
      refine .left (.inl ?_)
      unfold Thread.takeStream Thread.flush
      split <;> split <;> rfl
    · cases hstep
  | compresses action =>
    simp only [Thread.step] at hstep
    split at hstep
    · next path' position heq hphase =>
      obtain rfl : path = path' := by simpa using heq
      split at hstep
      · next hcompresses =>
        obtain ⟨w', hw', hboth⟩ := Option.map_eq_some_iff.mp hstep
        cases hboth
        obtain ⟨before, log, hbefore, hholds, htext⟩ := h.log position hphase
        obtain ⟨c, hc, hcompress⟩ := step_compresses hcompresses hw'
        exact .file rfl hbefore (hholds.compress hc hcompress).1 htext
      · cases hstep
    · cases hstep
  | finishes =>
    simp only [Thread.step] at hstep
    split at hstep
    · cases hstep
      exact .left (.inr rfl)
    · cases hstep

end

end InfSplitter.Diagnostics
