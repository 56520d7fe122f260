import InfSplitter.Diagnostics.Retention
import InfSplitter.Lib.MultiMap

/-!
# How long rotated files are kept

The writer thread deletes rotated files once, before it opens its file. Afterwards each rotation
adds the file that was active to the rotated ones (`rotatedTotal_rotate`), and nothing is deleted.
So the bound on their size holds after a rotation if before it there was room for the active file
(`retention_bound`). How much there is follows from what was there after the clean-up and what has
been written since (`holding_of_run`).
-/

set_option autoImplicit false

namespace InfSplitter.Diagnostics

open Lib

def FileContent.size : FileContent → Nat
  | .plain bytes => bytes.length
  | .packing size => size
  | .packed _ size => size

/-- The directory as it is listed. -/
def listing (dir : Directory) : List Listed := dir.entries.map fun file => ⟨file.1, file.2.size⟩

/-! ## The loop -/

section
variable (config : WriterConfig)

/-- The clean-up before the file is opened. -/
def cleaned (dir : Directory) : Directory :=
  match config.maxRotatedSize with
  | some maxRotated =>
    ((cleanupRotatedFiles config.path maxRotated (listing dir)).map Listed.name).foldl
      (fun dir name => dir.erase name) dir
  | none => dir

theorem lookup_cleaned {dir : Directory} {name : FileName} {content : FileContent}
    (h : (cleaned config dir).lookup name = some content) : dir.lookup name = some content := by
  unfold cleaned at h
  split at h
  · rw [lookup_foldl_erase] at h
    split at h
    · cases h
    · exact h
  · exact h

def startUp (files : Files) : Files where
  dir := cleaned config files.dir
  plain name content h := files.plain name content (lookup_cleaned config h)

/-- The file is too long already, by the limit that is configured. -/
def Writer.preRotates (w : Writer) : Bool :=
  config.maxFileSize.any fun limit => limit ≤ w.bytesWritten

/-- The writer thread: whether it has begun, and its writer. Its first step is a rotation if the
file is too long, and no other step rotates without a line. -/
def writerLoop (files : Files) : System (Bool × Writer) Action where
  init := (false, Writer.new config (startUp config files))
  step s a s' := s'.1 = true ∧ s.2.step config a = some s'.2 ∧
    (a = .rotate ↔ s.1 = false ∧ s.2.preRotates config = true)

noncomputable def rotatedTotal (w : Writer) : Nat :=
  totalSize (ownFiles config.path (listing w.dir))

def Writer.activeSize (w : Writer) : Nat :=
  ((w.dir.lookup config.path.fileName).map FileContent.size).getD 0

/-- The rotated files and the active one. -/
noncomputable def holding (w : Writer) : Nat := rotatedTotal config w + w.activeSize config

/-- What a step adds at most: its line, or what a compression writes. -/
def Action.added : Action → Nat
  | .line text => text.bytes.length + 1
  | .packing _ size | .packed _ size => size
  | .rotate | .failed _ | .abandoned _ => 0

def addedBy (moments : List ((Bool × Writer) × Action)) : Nat :=
  (moments.map fun m => m.2.added).sum

/-- What was there after the clean-up and what has been added before a rotation is within the
bound. -/
def RoomForAll (files : Files) (moments : List ((Bool × Writer) × Action)) : Prop :=
  ∀ m before, m :: before <:+ moments → m.1.2.rotates config m.2 = true →
    ∀ maxRotated ∈ config.maxRotatedSize,
      holding config (Writer.new config (startUp config files)) + addedBy before ≤ maxRotated

/-- After a rotation the rotated files are within the bound. -/
def BoundedAfter (w : Writer) (a : Action) : Prop :=
  w.rotates config a = true → ∀ w', w.step config a = some w' →
    ∀ maxRotated ∈ config.maxRotatedSize, rotatedTotal config w' ≤ maxRotated

/-- Before a rotation there is room for the file that is rotated. -/
def RoomBefore (w : Writer) (a : Action) : Prop :=
  w.rotates config a = true → ∀ maxRotated ∈ config.maxRotatedSize,
    rotatedTotal config w + w.activeSize config ≤ maxRotated

end

/-! ## Sums over a directory -/

/-- The size of the rotated files among some entries. -/
noncomputable def ownTotal (path : LogPath)
    (entries : List (Sigma fun _ : FileName => FileContent)) : Nat :=
  totalSize (ownFiles path (entries.map fun file => ⟨file.1, file.2.size⟩))

section
variable {path : LogPath} {dir : Directory} {name : FileName} {content : FileContent}

theorem ownTotal_cons (file : Sigma fun _ : FileName => FileContent)
    (entries : List (Sigma fun _ : FileName => FileContent)) :
    ownTotal path (file :: entries) = ownTotal path [file] + ownTotal path entries := by
  rw [ownTotal, ownTotal, ownTotal, ← totalSize_append]
  simp [ownFiles, ← List.filter_append]

theorem ownTotal_own (h : OwnRotated path name) :
    ownTotal path [⟨name, content⟩] = content.size := by
  simp [ownTotal, ownFiles, totalSize, h]

theorem ownTotal_other (h : ¬ OwnRotated path name) : ownTotal path [⟨name, content⟩] = 0 := by
  simp [ownTotal, ownFiles, totalSize, h]

theorem ownTotal_kerase_le (path : LogPath) (name : FileName)
    (entries : List (Sigma fun _ : FileName => FileContent)) :
    ownTotal path (entries.kerase name) ≤ ownTotal path entries := by
  induction entries with
  | nil => simp
  | cons file rest ih =>
    by_cases h : name = file.1
    · rw [List.kerase_cons_eq h, ownTotal_cons]
      omega
    · rw [List.kerase_cons_ne h, ownTotal_cons, ownTotal_cons file rest]
      omega

theorem ownTotal_kerase_other (h : ¬ OwnRotated path name)
    (entries : List (Sigma fun _ : FileName => FileContent)) :
    ownTotal path (entries.kerase name) = ownTotal path entries := by
  induction entries with
  | nil => simp
  | cons file rest ih =>
    by_cases heq : name = file.1
    · have hnone : ownTotal path [file] = 0 := by
        obtain ⟨fileName, content⟩ := file
        obtain rfl : name = fileName := heq
        exact ownTotal_other h
      rw [List.kerase_cons_eq heq, ownTotal_cons, hnone, Nat.zero_add]
    · rw [List.kerase_cons_ne heq, ownTotal_cons, ownTotal_cons file rest, ih]

theorem ownTotal_insert_other (h : ¬ OwnRotated path name) :
    ownTotal path (dir.insert name content).entries = ownTotal path dir.entries := by
  rw [AList.entries_insert, ownTotal_cons, ownTotal_other h, Nat.zero_add, ownTotal_kerase_other h]

theorem ownTotal_insert_own (h : OwnRotated path name) :
    ownTotal path (dir.insert name content).entries =
      content.size + ownTotal path (dir.entries.kerase name) := by
  rw [AList.entries_insert, ownTotal_cons, ownTotal_own h]

end

/-! ## What a rotation adds -/

section
variable {config : WriterConfig} {w w' : Writer} {a : Action}

theorem rotatedTotal_eq : rotatedTotal config w = ownTotal config.path w.dir.entries := rfl

theorem not_ownRotated_active (path : LogPath) : ¬ OwnRotated path path.fileName := fun h => by
  simpa [LogPath.takesForRotated] using h.taken

theorem ownRotated_next {name : FileName}
    (h : rotateFilename config.path config.today w.dir.keys = some name) :
    OwnRotated config.path name := by
  obtain ⟨seq, rfl⟩ := rotateFilename_numbered h
  obtain ⟨day, hday⟩ := config.dated
  have hname : numberedName config.path config.today seq =
      Stamp.name ⟨civilFromDays (day + 719468), seq⟩ config.path := by rw [hday]; rfl
  refine ⟨⟨civilFromDays (day + 719468), seq⟩, ⟨day, rfl⟩, ⟨w.dir.keys, ?_⟩, .inl hname⟩
  rw [← hname, ← h, hday]
  rfl

theorem rotatedTotal_append {line : Line} (h : w.append config line = some w') :
    rotatedTotal config w' = rotatedTotal config w := by
  unfold Writer.append at h
  split at h
  · cases h
    exact ownTotal_insert_other (not_ownRotated_active config.path)
  · cases h

/-- **A rotation adds the active file**, in the place of what has its name. -/
theorem rotatedTotal_rotate (h : w.rotate config = some w') :
    ∃ name, rotateFilename config.path config.today w.dir.keys = some name ∧
      rotatedTotal config w' =
        ownTotal config.path (w.dir.entries.kerase name) + w.activeSize config := by
  unfold Writer.rotate at h
  split at h
  · next name content hname hactive =>
    cases h
    refine ⟨name, hname, ?_⟩
    have hnot := not_ownRotated_active config.path
    have hsize : w.activeSize config = content.size := by simp [Writer.activeSize, hactive]
    have herase : (w.dir.erase config.path.fileName).entries.kerase name =
        (w.dir.entries.kerase name).kerase config.path.fileName := List.kerase_kerase
    rw [rotatedTotal_eq, ownTotal_insert_other hnot, ownTotal_insert_own (ownRotated_next hname),
      herase, ownTotal_kerase_other hnot, hsize, Nat.add_comm]
  · cases h

/-- What a step that rotates adds. -/
theorem rotatedTotal_step (hrotates : w.rotates config a = true) (h : w.step config a = some w') :
    ∃ name, rotateFilename config.path config.today w.dir.keys = some name ∧
      rotatedTotal config w' =
        ownTotal config.path (w.dir.entries.kerase name) + w.activeSize config := by
  cases a with
  | line line =>
    have hover : w.overflows config line = true := hrotates
    have hwrite : w.writeLine config line = some w' := h
    rw [Writer.writeLine, if_pos hover] at hwrite
    obtain ⟨w₁, hrotate, happend⟩ := Option.bind_eq_some_iff.mp hwrite
    rw [rotatedTotal_append happend]
    exact rotatedTotal_rotate hrotate
  | rotate => exact rotatedTotal_rotate h
  | packing | packed | failed | abandoned => cases hrotates

/-- **Room before a rotation is enough.** -/
theorem RoomBefore.bounded (h : RoomBefore config w a) : BoundedAfter config w a := by
  intro hrotates w' hstep maxRotated hmax
  obtain ⟨name, -, htotal⟩ := rotatedTotal_step hrotates hstep
  have hle := ownTotal_kerase_le config.path name w.dir.entries
  have hroom := h hrotates maxRotated hmax
  rw [rotatedTotal_eq] at hroom
  omega

/-- **It is needed, too**, if the rotation does not write over a file. -/
theorem BoundedAfter.room (huntaken : RotatesUntaken config w a)
    (hstep : w.step config a = some w') (h : BoundedAfter config w a) : RoomBefore config w a := by
  intro hrotates maxRotated hmax
  obtain ⟨name, hname, htotal⟩ := rotatedTotal_step hrotates hstep
  obtain ⟨name', hname', hfree, -⟩ := huntaken hrotates
  obtain rfl := Option.some.inj (hname.symm.trans hname')
  rw [List.kerase_of_notMem_keys hfree] at htotal
  have hafter := h hrotates w' hstep maxRotated hmax
  rw [rotatedTotal_eq]
  omega

end

/-! ## What has been written -/

section
variable {config : WriterConfig} {w w' : Writer} {a : Action}

theorem activeSize_insert_of_ne {jobs : List FileName} {name : FileName} {content : FileContent}
    (h : name ≠ config.path.fileName) :
    ({ w with dir := w.dir.insert name content, jobs := jobs } : Writer).activeSize config =
      w.activeSize config := by
  simp [Writer.activeSize, AList.lookup_insert_ne (Ne.symm h)]

/-- A file that is written adds what is in it, at most. -/
theorem holding_insert_le (jobs : List FileName) (name : FileName) (content : FileContent) :
    holding config { w with dir := w.dir.insert name content, jobs := jobs } ≤
      holding config w + content.size := by
  have hkerase := ownTotal_kerase_le config.path name w.dir.entries
  unfold holding
  rw [rotatedTotal_eq, rotatedTotal_eq]
  by_cases hname : name = config.path.fileName
  · subst hname
    rw [ownTotal_insert_other (not_ownRotated_active config.path)]
    have hactive : ({ w with dir := w.dir.insert config.path.fileName content, jobs := jobs } :
        Writer).activeSize config = content.size := by simp [Writer.activeSize]
    omega
  · rw [activeSize_insert_of_ne hname]
    by_cases hown : OwnRotated config.path name
    · rw [ownTotal_insert_own hown]
      omega
    · rw [ownTotal_insert_other hown]
      omega

/-- A file that is deleted adds nothing. -/
theorem holding_erase_le (jobs : List FileName) (name : FileName) :
    holding config { w with dir := w.dir.erase name, jobs := jobs } ≤ holding config w := by
  have hkerase := ownTotal_kerase_le config.path name w.dir.entries
  have hactive : ({ w with dir := w.dir.erase name, jobs := jobs } : Writer).activeSize config ≤
      w.activeSize config := by
    unfold Writer.activeSize
    by_cases hname : config.path.fileName = name
    · subst hname
      simp
    · simp [AList.lookup_erase_ne hname]
  exact Nat.add_le_add hkerase hactive

theorem holding_append {line : Line} (h : w.append config line = some w') :
    holding config w' = holding config w + (line.bytes.length + 1) := by
  have htotal := rotatedTotal_append h
  unfold holding
  rw [htotal]
  unfold Writer.append at h
  split at h
  · next bytes hactive =>
    cases h
    simp [Writer.activeSize, hactive, FileContent.size, Line.written, Nat.add_assoc]
  · cases h

/-- A rotation adds nothing, and takes away what it writes over. -/
theorem holding_rotate (h : w.rotate config = some w') :
    holding config w' ≤ holding config w ∧
      ((∃ name, rotateFilename config.path config.today w.dir.keys = some name ∧
          Untaken w.dir.keys name) → holding config w' = holding config w) := by
  obtain ⟨name, hname, htotal⟩ := rotatedTotal_rotate h
  have hempty : w'.activeSize config = 0 := by
    unfold Writer.rotate at h
    split at h
    · cases h
      simp [Writer.activeSize, FileContent.size]
    · cases h
  have hkerase := ownTotal_kerase_le config.path name w.dir.entries
  unfold holding
  rw [htotal, hempty, rotatedTotal_eq]
  refine ⟨by omega, fun ⟨name', hname', hfree⟩ => ?_⟩
  obtain rfl := Option.some.inj (hname.symm.trans hname')
  rw [List.kerase_of_notMem_keys hfree.1, Nat.add_zero]

theorem holding_compress {c : Compression} (h : w.compress c a = some w') :
    holding config w' ≤ holding config w + a.added := by
  unfold Writer.compress at h
  cases a with
  | line | rotate => cases h
  | packing src size =>
    dsimp only at h
    split at h
    · cases h
      exact holding_insert_le ..
    · cases h
  | packed src size =>
    dsimp only at h
    split at h
    · unfold Writer.pack at h
      split at h
      · cases h
        exact (holding_erase_le _ _).trans (holding_insert_le w.jobs _ _)
      · cases h
    · cases h
  | failed src =>
    dsimp only at h
    split at h
    · cases h
      exact holding_erase_le ..
    · cases h
  | abandoned src =>
    dsimp only at h
    split at h
    · cases h
    · split at h
      · cases h
        exact Nat.le_refl _
      · cases h

/-- **What a step adds.** -/
theorem holding_step (h : w.step config a = some w') :
    holding config w' ≤ holding config w + a.added ∧
      (config.compression = none → RotatesUntaken config w a →
        holding config w' = holding config w + a.added) := by
  cases a with
  | line line =>
    have hwrite : w.writeLine config line = some w' := h
    unfold Writer.writeLine at hwrite
    split at hwrite
    · next hover =>
      obtain ⟨w₁, hrotate, happend⟩ := Option.bind_eq_some_iff.mp hwrite
      obtain ⟨hle, heq⟩ := holding_rotate hrotate
      rw [holding_append happend]
      refine ⟨Nat.add_le_add_right hle _, fun _ hfree => ?_⟩
      rw [heq (hfree hover)]
      rfl
    · rw [holding_append hwrite]
      exact ⟨Nat.le_refl _, fun _ _ => rfl⟩
  | rotate =>
    obtain ⟨hle, heq⟩ := holding_rotate h
    exact ⟨hle, fun _ hfree => heq (hfree rfl)⟩
  | packing | packed | failed | abandoned =>
    obtain ⟨c, hc, hcompress⟩ := Option.bind_eq_some_iff.mp h
    exact ⟨holding_compress hcompress, fun hnone => by rw [hnone] at hc; cases hc⟩

/-- **Over a whole run.** -/
theorem holding_of_run {files : Files} {moments : List ((Bool × Writer) × Action)}
    {s : Bool × Writer} (run : (writerLoop config files).Run moments s) :
    holding config s.2 ≤
        holding config (Writer.new config (startUp config files)) + addedBy moments ∧
      (config.compression = none → (∀ m ∈ moments, RotatesUntaken config m.1.2 m.2) →
        holding config s.2 =
          holding config (Writer.new config (startUp config files)) + addedBy moments) := by
  induction run with
  | init => exact ⟨Nat.le_refl _, fun _ _ => rfl⟩
  | @step moments s s' a run hstep ih =>
    obtain ⟨hle, heq⟩ := holding_step hstep.2.1
    have hadded : addedBy ((s, a) :: moments) = a.added + addedBy moments := by
      simp [addedBy]
    refine ⟨by omega, fun hnone hfree => ?_⟩
    obtain ⟨hnow, hbefore⟩ := List.forall_mem_cons.mp hfree
    rw [heq hnone hnow, ih.2 hnone hbefore, hadded]
    omega

/-- **The condition on the run, from what is written in it.** -/
theorem RoomForAll.before {files : Files} {moments : List ((Bool × Writer) × Action)}
    {s : Bool × Writer} (run : (writerLoop config files).Run moments s)
    (h : RoomForAll config files moments) : ∀ m ∈ moments, RoomBefore config m.1.2 m.2 := by
  induction run with
  | init => exact List.forall_mem_nil _
  | @step moments s s' a run hstep ih =>
    refine List.forall_mem_cons.mpr ⟨fun hrotates maxRotated hmax => ?_,
      ih fun m before hsuffix => h m before (hsuffix.trans (List.suffix_cons _ _))⟩
    exact (holding_of_run run).1.trans (h (s, a) moments List.suffix_rfl hrotates maxRotated hmax)

theorem roomForAll_of_before {files : Files} {moments : List ((Bool × Writer) × Action)}
    {s : Bool × Writer} (run : (writerLoop config files).Run moments s)
    (hnone : config.compression = none)
    (hfree : ∀ m ∈ moments, RotatesUntaken config m.1.2 m.2)
    (h : ∀ m ∈ moments, RoomBefore config m.1.2 m.2) : RoomForAll config files moments := by
  induction run with
  | init => exact fun m before hsuffix => absurd hsuffix (by simp)
  | @step moments s s' a run hstep ih =>
    obtain ⟨hnow, hbefore⟩ := List.forall_mem_cons.mp hfree
    obtain ⟨hroom, hrooms⟩ := List.forall_mem_cons.mp h
    intro m before hsuffix hrotates maxRotated hmax
    rcases List.suffix_cons_iff.mp hsuffix with heq | hsuffix
    · obtain ⟨rfl, rfl⟩ := List.cons.inj heq
      rw [← (holding_of_run run).2 hnone hbefore]
      exact hroom hrotates maxRotated hmax
    · exact ih hbefore hrooms m before hsuffix hrotates maxRotated hmax

end

/-- **When the rotated files stay within their bound**: if before each rotation there is room for
the active file. There is if what was there after the clean-up and everything that has been written
are within the bound, and without compressions this is needed, too. -/
theorem retention_bound (config : WriterConfig) (files : Files)
    {moments : List ((Bool × Writer) × Action)} {s : Bool × Writer}
    (run : (writerLoop config files).Run moments s) :
    ((∀ m ∈ moments, RoomBefore config m.1.2 m.2) →
      ∀ m ∈ moments, BoundedAfter config m.1.2 m.2) ∧
    ((∀ m ∈ moments, RotatesUntaken config m.1.2 m.2) →
      (∀ m ∈ moments, BoundedAfter config m.1.2 m.2) →
      ∀ m ∈ moments, RoomBefore config m.1.2 m.2) ∧
    (RoomForAll config files moments → ∀ m ∈ moments, BoundedAfter config m.1.2 m.2) ∧
    (config.compression = none → (∀ m ∈ moments, RotatesUntaken config m.1.2 m.2) →
      ((∀ m ∈ moments, BoundedAfter config m.1.2 m.2) ↔ RoomForAll config files moments)) := by
  have hbefore : (∀ m ∈ moments, RotatesUntaken config m.1.2 m.2) →
      (∀ m ∈ moments, BoundedAfter config m.1.2 m.2) →
      ∀ m ∈ moments, RoomBefore config m.1.2 m.2 := by
    induction run with
    | init => simp
    | step run hstep ih =>
      simp only [List.forall_mem_cons]
      rintro ⟨hfree, hfrees⟩ ⟨hbound, hbounds⟩
      exact ⟨hbound.room hfree hstep.2.1, ih hfrees hbounds⟩
  have hroom : RoomForAll config files moments → ∀ m ∈ moments, BoundedAfter config m.1.2 m.2 :=
    fun h m hm => (h.before run m hm).bounded
  exact ⟨fun h m hm => (h m hm).bounded, hbefore, hroom, fun hnone hfree =>
    ⟨fun h => roomForAll_of_before run hnone hfree (hbefore hfree h), hroom⟩⟩

/-! ## A file that is larger than the bound -/

def boundedLog (maxRotated : Nat) : WriterConfig :=
  { smallLog "log.nd".toList none with maxRotatedSize := some maxRotated }

theorem startUp_noFiles (config : WriterConfig) : startUp config noFiles = noFiles := by
  have hnone : ∀ maxRotated, cleanupRotatedFiles config.path maxRotated [] = [] := by
    intro maxRotated
    simp [cleanupRotatedFiles, LogPath.rotatedFiles, LogPath.readDir, removeOldest]
  have hdir : cleaned config noFiles.dir = noFiles.dir := by
    unfold cleaned
    split
    · rw [show listing noFiles.dir = [] from rfl, hnone]
      rfl
    · rfl
  unfold startUp
  simp only [hdir]

/-- The bound is not looked at. -/
theorem step_boundedLog (maxRotated : Nat) (w : Writer) (a : Action) :
    w.step (boundedLog maxRotated) a = w.step (smallLog "log.nd".toList none) a := by
  cases a <;> rfl

theorem run_boundedLog (maxRotated : Nat) : (writerLoop (boundedLog maxRotated) noFiles).Run
    [((true, oneWritten "log.nd".toList), .line (letterLine 98 (by decide))),
      ((false, Writer.new (boundedLog maxRotated) (startUp (boundedLog maxRotated) noFiles)),
        .line (letterLine 97 (by decide)))]
    (true, twoWritten "log.nd".toList "log-2026-01-01-001.nd".toList []) := by
  have hempty : (Writer.new (boundedLog maxRotated) noFiles).preRotates (boundedLog maxRotated) =
      false := by simp [Writer.preRotates, boundedLog, smallLog, Writer.new, Files.active, noFiles]
  refine .step (.step .init ⟨rfl, ?_, ?_⟩) ⟨rfl, ?_, by simp⟩
  · rw [step_boundedLog, startUp_noFiles]
    rfl
  · rw [startUp_noFiles]
    simp [hempty]
  · rw [step_boundedLog]
    rfl

theorem rotatedTotal_oneWritten (maxRotated : Nat) :
    rotatedTotal (boundedLog maxRotated) (oneWritten "log.nd".toList) = 0 := by
  have hnot : ¬ OwnRotated (boundedLog maxRotated).path "log.nd".toList :=
    not_ownRotated_active (boundedLog maxRotated).path
  have hnew : (Writer.new (smallLog "log.nd".toList none) noFiles).dir =
      noFiles.dir.insert "log.nd".toList (.plain []) := rfl
  rw [rotatedTotal_eq, oneWritten, ownTotal_insert_other hnot, hnew, ownTotal_insert_other hnot]
  rfl

theorem retention_bound_five : BoundedAfter (boundedLog 5) (oneWritten "log.nd".toList)
    (.line (letterLine 98 (by decide))) := by
  refine (retention_bound _ _ (run_boundedLog 5)).1 ?_ _ List.mem_cons_self
  simp only [List.forall_mem_cons]
  refine ⟨fun _ maxRotated hmax => ?_, fun hrotates => ?_, by simp⟩
  · obtain rfl : 5 = maxRotated := Option.some.inj hmax
    have hsize : (oneWritten "log.nd".toList).activeSize (boundedLog 5) = 2 := by rfl
    rw [rotatedTotal_oneWritten, hsize]
    decide
  · rw [startUp_noFiles] at hrotates
    cases hrotates

/-- **A rotation adds two bytes where one is allowed.** -/
theorem retention_exceeded : ¬ ∀ (config : WriterConfig) (files : Files)
    (moments : List ((Bool × Writer) × Action)) (s : Bool × Writer),
    (writerLoop config files).Run moments s → ∀ m ∈ moments, BoundedAfter config m.1.2 m.2 := by
  intro hall
  have hbounded := hall (boundedLog 1) noFiles _ _ (run_boundedLog 1) _ List.mem_cons_self
  have hrotates : (oneWritten "log.nd".toList).rotates (boundedLog 1)
      (.line (letterLine 98 (by decide))) = true := by rfl
  have hstep : (oneWritten "log.nd".toList).step (boundedLog 1)
      (.line (letterLine 98 (by decide))) =
        some (twoWritten "log.nd".toList "log-2026-01-01-001.nd".toList []) := by
    rw [step_boundedLog]
    rfl
  have htotal := hbounded hrotates _ hstep 1 rfl
  obtain ⟨name, -, hadded⟩ := rotatedTotal_step hrotates hstep
  have hsize : (oneWritten "log.nd".toList).activeSize (boundedLog 1) = 2 := by rfl
  omega

end InfSplitter.Diagnostics
