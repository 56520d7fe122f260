import InfSplitter.Diagnostics.FileNames
import InfSplitter.Lib.Run
import Mathlib.Data.List.AList

/-!
# Log rotation

A `RotatingWriter` appends lines to a file, and renames it when the next line would take it over the
limit. The renamed file may be compressed, which goes on beside the writer: the destination is
created, grows, and replaces the source at the end, or is removed if there was an error.

`Log` is what the files are for, the texts of the rotated files in their order and that of the
active one. A directory holds a log (`HoldsLog`) if each rotated file is there as it was, or
compressed; a compression keeps that (`HoldsLog.compress`), and a rotation keeps it if its name is
not taken (`HoldsLog.rotate`). A whole run then keeps every line (`Kept.step`), exactly if every
rotation finds the next name free.
-/

set_option autoImplicit false

namespace InfSplitter.Diagnostics

open Lib

abbrev Bytes := List UInt8

/-- A line, without its end. -/
structure Line where
  bytes : Bytes
  oneLine : 10 ∉ bytes

def Line.written (line : Line) : Bytes := line.bytes ++ [10]

/-- What is in a file: some bytes, the part of a compression that is written so far, or the
compressed form of some bytes. -/
inductive FileContent
  | plain (bytes : Bytes)
  | packing (size : Nat)
  | packed (bytes : Bytes) (size : Nat)
deriving DecidableEq, Repr

abbrev Directory := AList fun _ : FileName => FileContent

/-- The files that are there when the writer is made. -/
structure Files where
  dir : Directory
  plain : ∀ name content, dir.lookup name = some content → ∃ bytes, content = .plain bytes

/-- `RotatingWriterConfig`, and the day on which all this happens. -/
structure WriterConfig where
  path : LogPath
  today : FileName
  dated : ∃ day, today = chronoDay day
  maxFileSize : Option Nat
  maxRotatedSize : Option Nat
  compression : Option Compression

/-- The limit of the writer: zero is none. -/
def WriterConfig.limit (config : WriterConfig) : Option Nat := config.maxFileSize.filter (0 < ·)

structure Writer where
  dir : Directory
  bytesWritten : Nat
  /-- the rotated files whose compression has not ended -/
  jobs : List FileName

section
variable (config : WriterConfig)

def Files.active (files : Files) : Bytes :=
  match files.dir.lookup config.path.fileName with
  | some (.plain bytes) => bytes
  | _ => []

def Writer.new (files : Files) : Writer where
  dir := files.dir.insert config.path.fileName (.plain (files.active config))
  bytesWritten := (files.active config).length
  jobs := []

/-- `none` ends the writer: a slice panics, or there is no file to rename. -/
def Writer.rotate (w : Writer) : Option Writer :=
  match rotateFilename config.path config.today w.dir.keys,
      w.dir.lookup config.path.fileName with
  | some name, some content => some
    { dir := ((w.dir.erase config.path.fileName).insert name content).insert
        config.path.fileName (.plain [])
      bytesWritten := 0
      jobs := if config.compression.isSome then w.jobs ++ [name] else w.jobs }
  | _, _ => none

def Writer.append (w : Writer) (line : Line) : Option Writer :=
  match w.dir.lookup config.path.fileName with
  | some (.plain bytes) => some
    { w with
      dir := w.dir.insert config.path.fileName (.plain (bytes ++ line.written))
      bytesWritten := w.bytesWritten + (line.bytes.length + 1) }
  | _ => none

/-- The line does not fit. -/
def Writer.overflows (w : Writer) (line : Line) : Bool :=
  config.limit.any fun limit => limit < w.bytesWritten + (line.bytes.length + 1)

def Writer.writeLine (w : Writer) (line : Line) : Option Writer :=
  if w.overflows config line then (w.rotate config).bind fun w => w.append config line
  else w.append config line

/-- What happens to the directory. -/
inductive Action
  | line (line : Line)
  /-- what `writer_loop` does before the first line, if the file is too long already -/
  | rotate
  /-- the destination of a compression is created, or grows -/
  | packing (src : FileName) (size : Nat)
  | packed (src : FileName) (size : Nat)
  /-- the compression has failed and its destination is removed -/
  | failed (src : FileName)
  /-- the destination could not be created -/
  | abandoned (src : FileName)

def Writer.pack (w : Writer) (c : Compression) (src : FileName) (size : Nat) : Option Writer :=
  match w.dir.lookup src, w.dir.lookup (compressedName c src) with
  | some (.plain bytes), some (.packing _) => some
    { w with
      dir := (w.dir.insert (compressedName c src) (.packed bytes size)).erase src
      jobs := w.jobs.erase src }
  | _, _ => none

/-- A step of the compression of `src`. -/
def Writer.compress (w : Writer) (c : Compression) : Action → Option Writer
  | .packing src size =>
    if src ∈ w.jobs ∧ src ∈ w.dir then some
      { w with dir := w.dir.insert (compressedName c src) (.packing size) }
    else none
  | .packed src size => if src ∈ w.jobs then w.pack c src size else none
  | .failed src =>
    if src ∈ w.jobs then some
      { w with dir := w.dir.erase (compressedName c src), jobs := w.jobs.erase src }
    else none
  | .abandoned src =>
    match w.dir.lookup (compressedName c src) with
    | some (.packing _) => none
    | _ => if src ∈ w.jobs then some { w with jobs := w.jobs.erase src } else none
  | .line _ | .rotate => none

def Writer.step (w : Writer) : Action → Option Writer
  | .line line => w.writeLine config line
  | .rotate => w.rotate config
  | action => config.compression.bind fun c => w.compress c action

/-- The action renames the file. -/
def Writer.rotates (w : Writer) : Action → Bool
  | .line line => w.overflows config line
  | .rotate => true
  | _ => false

def writerSystem (files : Files) : System Writer Action where
  init := Writer.new config files
  step w a w' := w.step config a = some w'

end

/-! ## What the files are for -/

/-- The rotated files by their names, in the order of the rotations, and the active one. -/
structure Log where
  rotated : List (FileName × Bytes)
  active : Bytes

def Log.text (log : Log) : Bytes := (log.rotated.map Prod.snd).flatten ++ log.active

def Log.append (log : Log) (line : Line) : Log :=
  { log with active := log.active ++ line.written }

def Log.rotate (log : Log) (name : FileName) : Log :=
  { rotated := log.rotated ++ [(name, log.active)], active := [] }

theorem Log.text_append (log : Log) (line : Line) :
    (log.append line).text = log.text ++ line.written := by
  simp [text, append]

theorem Log.text_rotate (log : Log) (name : FileName) : (log.rotate name).text = log.text := by
  simp [text, rotate]

section
variable (config : WriterConfig)

/-- A rotated file is there with its text, or compressed. -/
inductive Stored (w : Writer) (name : FileName) (bytes : Bytes) : Prop
  | plain (there : w.dir.lookup name = some (.plain bytes))
      (destination : ∀ c ∈ config.compression, w.dir.lookup (compressedName c name) = none ∨
        name ∈ w.jobs ∧ ∃ size, w.dir.lookup (compressedName c name) = some (.packing size))
  | packed (c : Compression) (size : Nat) (configured : config.compression = some c)
      (gone : w.dir.lookup name = none) (ended : name ∉ w.jobs)
      (there : w.dir.lookup (compressedName c name) = some (.packed bytes size))

/-- The name is that of a rotated file or of what it is compressed to. -/
def Log.Takes (log : Log) (name : FileName) : Prop :=
  ∃ file ∈ log.rotated, name = file.1 ∨ ∃ c ∈ config.compression, name = compressedName c file.1

/-- **The directory has the files of a log.** -/
structure HoldsFiles (w : Writer) (log : Log) : Prop where
  active : w.dir.lookup config.path.fileName = some (.plain log.active)
  counted : w.bytesWritten = log.active.length
  stored : ∀ file ∈ log.rotated, Stored config w file.1 file.2
  distinct : (log.rotated.map Prod.fst).Nodup
  numbered : ∀ file ∈ log.rotated, ∃ seq, file.1 = numberedName config.path config.today seq
  jobs : w.jobs.Sublist (log.rotated.map Prod.fst)

/-- **It holds a log**, and what was there before besides. -/
structure HoldsLog (files : Files) (w : Writer) (log : Log) : Prop extends
    HoldsFiles config w log where
  others : ∀ name, name ≠ config.path.fileName → ¬ log.Takes config name →
    w.dir.lookup name = files.dir.lookup name
  untaken : ∀ name, log.Takes config name → files.dir.lookup name = none

end

section
variable {config : WriterConfig} {files : Files} {w w' : Writer} {log : Log}

theorem HoldsLog.new : HoldsLog config files (Writer.new config files)
    { rotated := [], active := files.active config } where
  active := AList.lookup_insert _
  counted := rfl
  stored := by simp
  distinct := by simp
  numbered := by simp
  jobs := by simp [Writer.new]
  others name hname _ := AList.lookup_insert_ne hname
  untaken := by simp [Log.Takes]

theorem HoldsFiles.numbered_of_takes (h : HoldsFiles config w log) {name : FileName}
    (htakes : log.Takes config name) : ∃ seq,
      name = numberedName config.path config.today seq ∨
        ∃ c ∈ config.compression,
          name = compressedName c (numberedName config.path config.today seq) := by
  obtain ⟨file, hfile, hname⟩ := htakes
  obtain ⟨seq, hseq⟩ := h.numbered file hfile
  rcases hname with hname | ⟨c, hc, hname⟩
  · exact ⟨seq, .inl (hname.trans hseq)⟩
  · exact ⟨seq, .inr ⟨c, hc, by rw [hname, hseq]⟩⟩

theorem HoldsFiles.takes_ne_fileName (h : HoldsFiles config w log) {name : FileName}
    (htakes : log.Takes config name) : name ≠ config.path.fileName := by
  obtain ⟨seq, hname | ⟨c, -, hname⟩⟩ := h.numbered_of_takes htakes
  · rw [hname]
    exact numberedName_ne_fileName
  · rw [hname]
    exact compressedName_ne_fileName

/-- What a file is stored by does not change. -/
theorem Stored.congr {name : FileName} {bytes : Bytes} (h : Stored config w name bytes)
    (hname : w'.dir.lookup name = w.dir.lookup name)
    (hcompressed : ∀ c ∈ config.compression,
      w'.dir.lookup (compressedName c name) = w.dir.lookup (compressedName c name))
    (hjobs : name ∈ w'.jobs ↔ name ∈ w.jobs) : Stored config w' name bytes := by
  cases h with
  | plain there destination =>
    refine .plain (by rw [hname, there]) fun c hc => ?_
    rw [hcompressed c hc, hjobs]
    exact destination c hc
  | packed c size configured gone ended there =>
    refine .packed c size configured (by rw [hname, gone]) (by rwa [hjobs]) ?_
    rw [hcompressed c configured, there]

/-- **A line goes to the active file**, and nothing else changes. -/
theorem HoldsFiles.append (h : HoldsFiles config w log) (line : Line) :
    ∃ w', w.append config line = some w' ∧ HoldsFiles config w' (log.append line) ∧
      ∀ name, name ≠ config.path.fileName → w'.dir.lookup name = w.dir.lookup name := by
  refine ⟨_, by simp only [Writer.append, h.active]; rfl, ?_, fun name => AList.lookup_insert_ne⟩
  refine ⟨AList.lookup_insert _, ?_, fun file hfile => ?_, h.distinct, h.numbered, h.jobs⟩
  · simp [Log.append, Line.written, h.counted]
  · refine (h.stored file hfile).congr ?_ (fun c hc => ?_) Iff.rfl
    · exact AList.lookup_insert_ne (h.takes_ne_fileName ⟨file, hfile, .inl rfl⟩)
    · exact AList.lookup_insert_ne (h.takes_ne_fileName ⟨file, hfile, .inr ⟨c, hc, rfl⟩⟩)

theorem HoldsLog.append (h : HoldsLog config files w log) (line : Line) :
    ∃ w', w.append config line = some w' ∧ HoldsLog config files w' (log.append line) := by
  obtain ⟨w', hw', hholds, hframe⟩ := h.toHoldsFiles.append line
  refine ⟨w', hw', hholds, fun name hname htakes => ?_, h.untaken⟩
  rw [hframe name hname]
  exact h.others name hname htakes

theorem Log.takes_rotate {name x : FileName} : (log.rotate name).Takes config x ↔
    log.Takes config x ∨ x = name ∨ ∃ c ∈ config.compression, x = compressedName c name := by
  simp [Takes, rotate, or_and_right, exists_or]

theorem lookup_moved {dir : Directory} {active name x : FileName} {content : FileContent}
    (hactive : x ≠ active) (hname : x ≠ name) :
    (((dir.erase active).insert name content).insert active (.plain [])).lookup x =
      dir.lookup x := by
  rw [AList.lookup_insert_ne hactive, AList.lookup_insert_ne hname, AList.lookup_erase_ne hactive]

theorem Stored.ne_of_untaken {name name' : FileName} {bytes : Bytes}
    (h : Stored config w name bytes) (huntaken : Untaken w.dir.keys name') :
    name ≠ name' := by
  rintro rfl
  cases h with
  | plain there _ =>
    exact huntaken.1 (AList.lookup_isSome.mp (by simp [there]))
  | packed c size configured _ _ there =>
    exact huntaken.2 c (AList.lookup_isSome.mp (by simp [there]))

/-- **A rotation under a name that is not taken**, and nothing else changes. -/
theorem HoldsFiles.rotate (h : HoldsFiles config w log) {name : FileName}
    (hname : rotateFilename config.path config.today w.dir.keys = some name)
    (huntaken : Untaken w.dir.keys name) :
    ∃ w', w.rotate config = some w' ∧ HoldsFiles config w' (log.rotate name) ∧
      ∀ x, x ≠ config.path.fileName → x ≠ name → w'.dir.lookup x = w.dir.lookup x := by
  obtain ⟨seq, hseq⟩ := rotateFilename_numbered hname
  have hactive : name ≠ config.path.fileName := hseq ▸ numberedName_ne_fileName
  have hdestination : ∀ c, compressedName c name ≠ config.path.fileName := fun c =>
    hseq ▸ compressedName_ne_fileName
  have hdistinct : ∀ c, compressedName c name ≠ name := fun c =>
    hseq ▸ numberedName_ne_compressedName.symm
  have hmap : (log.rotate name).rotated.map Prod.fst = log.rotated.map Prod.fst ++ [name] := by
    simp [Log.rotate]
  refine ⟨_, by simp only [Writer.rotate, hname, h.active]; rfl, ?_, fun x => lookup_moved⟩
  refine ⟨AList.lookup_insert _, rfl, fun file hfile => ?_, ?_, fun file hfile => ?_, ?_⟩
  · rcases List.mem_append.mp hfile with hfile | hfile
    · obtain ⟨seq', hseq'⟩ := h.numbered file hfile
      have hne : file.1 ≠ name := (h.stored file hfile).ne_of_untaken huntaken
      have hne' : ∀ c, compressedName c file.1 ≠ name := fun c =>
        hseq' ▸ hseq ▸ numberedName_ne_compressedName.symm
      refine (h.stored file hfile).congr ?_ (fun c hc => ?_) ?_
      · exact lookup_moved (h.takes_ne_fileName ⟨file, hfile, .inl rfl⟩) hne
      · exact lookup_moved (h.takes_ne_fileName ⟨file, hfile, .inr ⟨c, hc, rfl⟩⟩) (hne' c)
      · dsimp only
        split
        · simp [hne]
        · rfl
    · rw [List.mem_singleton.mp hfile]
      refine .plain ?_ fun c _ => .inl ?_
      · rw [AList.lookup_insert_ne hactive, AList.lookup_insert]
      · rw [lookup_moved (hdestination c) (hdistinct c)]
        exact AList.lookup_eq_none.mpr (huntaken.2 c)
  · have hnew : name ∉ log.rotated.map Prod.fst := by
      intro hmem
      obtain ⟨file, hfile, hfst⟩ := List.mem_map.mp hmem
      exact (h.stored file hfile).ne_of_untaken huntaken hfst
    rw [hmap]
    exact List.nodup_append.mpr ⟨h.distinct, by simp, fun other hother last hlast =>
      List.mem_singleton.mp hlast ▸ ne_of_mem_of_not_mem hother hnew⟩
  · rcases List.mem_append.mp hfile with hfile | hfile
    · exact h.numbered file hfile
    · rw [List.mem_singleton.mp hfile]
      exact ⟨seq, hseq⟩
  · rw [hmap]
    dsimp only
    split
    · exact h.jobs.append (List.Sublist.refl _)
    · exact h.jobs.trans (List.sublist_append_left _ _)

theorem HoldsLog.rotate (h : HoldsLog config files w log) {name : FileName}
    (hname : rotateFilename config.path config.today w.dir.keys = some name)
    (huntaken : Untaken w.dir.keys name) :
    ∃ w', w.rotate config = some w' ∧ HoldsLog config files w' (log.rotate name) := by
  obtain ⟨seq, hseq⟩ := rotateFilename_numbered hname
  have hactive : name ≠ config.path.fileName := hseq ▸ numberedName_ne_fileName
  have hdestination : ∀ c, compressedName c name ≠ config.path.fileName := fun c =>
    hseq ▸ compressedName_ne_fileName
  obtain ⟨w', hw', hholds, hframe⟩ := h.toHoldsFiles.rotate hname huntaken
  refine ⟨w', hw', hholds, fun x hx htakes => ?_, fun x htakes => ?_⟩
  · rw [Log.takes_rotate, not_or, not_or] at htakes
    rw [hframe x hx htakes.2.1]
    exact h.others x hx htakes.1
  · by_cases hold : log.Takes config x
    · exact h.untaken x hold
    · rcases Log.takes_rotate.mp htakes with hlog | rfl | ⟨c, -, rfl⟩
      · exact absurd hlog hold
      · rw [← h.others x hactive hold]
        exact AList.lookup_eq_none.mpr huntaken.1
      · rw [← h.others _ (hdestination c) hold]
        exact AList.lookup_eq_none.mpr (huntaken.2 c)

theorem HoldsFiles.source_mem (h : HoldsFiles config w log) {src : FileName}
    (hsrc : src ∈ w.jobs) : ∃ bytes, (src, bytes) ∈ log.rotated := by
  obtain ⟨⟨name, bytes⟩, hfile, rfl⟩ := List.mem_map.mp (h.jobs.subset hsrc)
  exact ⟨bytes, hfile⟩

/-- The source of a compression that has not ended is there. -/
theorem Stored.of_job {src : FileName} {bytes : Bytes} (h : Stored config w src bytes)
    (hsrc : src ∈ w.jobs) : w.dir.lookup src = some (.plain bytes) := by
  cases h with
  | plain there _ => exact there
  | packed _ _ _ _ ended _ => exact absurd hsrc ended

/-- **What happens at the source and the destination of a compression only.** -/
theorem HoldsFiles.at_source (h : HoldsFiles config w log) {c : Compression}
    (hc : config.compression = some c) {src : FileName} (hsrc : src ∈ w.jobs)
    (hcounted : w'.bytesWritten = w.bytesWritten)
    (hframe : ∀ x, x ≠ src → x ≠ compressedName c src → w'.dir.lookup x = w.dir.lookup x)
    (hjobs : w'.jobs.Sublist w.jobs) (hothers : ∀ x, x ≠ src → (x ∈ w'.jobs ↔ x ∈ w.jobs))
    (hstored : ∀ bytes, Stored config w src bytes → Stored config w' src bytes) :
    HoldsFiles config w' log ∧ ∀ x, ¬ log.Takes config x → w'.dir.lookup x = w.dir.lookup x := by
  obtain ⟨bytes, hmem⟩ := h.source_mem hsrc
  obtain ⟨seq, hseq⟩ := h.numbered _ hmem
  dsimp only at hseq
  have htakes : log.Takes config src := ⟨_, hmem, .inl rfl⟩
  have htakes' : log.Takes config (compressedName c src) := ⟨_, hmem, .inr ⟨c, hc, rfl⟩⟩
  refine ⟨⟨?_, hcounted.trans h.counted, fun file hfile => ?_, h.distinct, h.numbered,
    hjobs.trans h.jobs⟩, fun x hnot => ?_⟩
  · rw [hframe _ (h.takes_ne_fileName htakes).symm (h.takes_ne_fileName htakes').symm]
    exact h.active
  · by_cases hfst : file.1 = src
    · rw [hfst]
      exact hstored _ (hfst ▸ h.stored file hfile)
    · obtain ⟨seq', hseq'⟩ := h.numbered file hfile
      refine (h.stored file hfile).congr (hframe _ hfst ?_) (fun c' hc' => ?_) (hothers _ hfst)
      · rw [hseq', hseq]
        exact numberedName_ne_compressedName
      · obtain rfl : c = c' := Option.some.inj (hc.symm.trans hc')
        refine hframe _ ?_ fun heq => hfst ?_
        · rw [hseq', hseq]
          exact numberedName_ne_compressedName.symm
        · rw [hseq', hseq] at heq ⊢
          rw [compressedName_injective heq]
  · exact hframe x (fun heq => hnot (heq ▸ htakes)) fun heq => hnot (heq ▸ htakes')

theorem mem_erase_other {jobs : List FileName} {src x : FileName} (hx : x ≠ src) :
    x ∈ jobs.erase src ↔ x ∈ jobs := List.mem_erase_of_ne hx

/-- **A compression keeps what is held**, and nothing else changes. -/
theorem HoldsFiles.compress (h : HoldsFiles config w log) {c : Compression}
    (hc : config.compression = some c) {a : Action} (hstep : w.compress c a = some w') :
    HoldsFiles config w' log ∧ ∀ x, ¬ log.Takes config x → w'.dir.lookup x = w.dir.lookup x := by
  have hnodup : w.jobs.Nodup := h.distinct.sublist h.jobs
  have hkinds : ∀ src ∈ w.jobs, compressedName c src ≠ src := by
    intro src hsrc
    obtain ⟨bytes, hmem⟩ := h.source_mem hsrc
    obtain ⟨seq, hseq⟩ := h.numbered _ hmem
    dsimp only at hseq
    rw [hseq]
    exact numberedName_ne_compressedName.symm
  cases a with
  | line line => simp [Writer.compress] at hstep
  | rotate => simp [Writer.compress] at hstep
  | packing src size =>
    simp only [Writer.compress] at hstep
    split at hstep
    · next hsrc =>
      cases hstep
      refine h.at_source hc hsrc.1 rfl (fun x _ hx => AList.lookup_insert_ne hx)
        (List.Sublist.refl _) (fun _ _ => Iff.rfl) fun bytes hstored => ?_
      refine .plain ?_ fun c' hc' => .inr ⟨hsrc.1, size, ?_⟩
      · rw [AList.lookup_insert_ne (hkinds src hsrc.1).symm]
        exact hstored.of_job hsrc.1
      · obtain rfl : c = c' := Option.some.inj (hc.symm.trans hc')
        exact AList.lookup_insert _
    · cases hstep
  | packed src size =>
    simp only [Writer.compress] at hstep
    split at hstep
    · next hsrc =>
      unfold Writer.pack at hstep
      split at hstep
      · next bytes _ hthere hpacking =>
        cases hstep
        refine h.at_source hc hsrc rfl (fun x hx hx' => ?_) List.erase_sublist
          (fun _ => mem_erase_other) fun bytes' hstored => ?_
        · rw [AList.lookup_erase_ne hx, AList.lookup_insert_ne hx']
        · obtain rfl : bytes = bytes' := by
            simpa using hthere.symm.trans (hstored.of_job hsrc)
          refine .packed c size hc (AList.lookup_erase _ _) hnodup.not_mem_erase ?_
          dsimp only
          rw [AList.lookup_erase_ne (hkinds src hsrc), AList.lookup_insert]
      · cases hstep
    · cases hstep
  | failed src =>
    simp only [Writer.compress] at hstep
    split at hstep
    · next hsrc =>
      cases hstep
      refine h.at_source hc hsrc rfl (fun x _ hx => AList.lookup_erase_ne hx) List.erase_sublist
        (fun _ => mem_erase_other) fun bytes hstored => ?_
      refine .plain ?_ fun c' hc' => .inl ?_
      · rw [AList.lookup_erase_ne (hkinds src hsrc).symm]
        exact hstored.of_job hsrc
      · obtain rfl : c = c' := Option.some.inj (hc.symm.trans hc')
        exact AList.lookup_erase _ _
    · cases hstep
  | abandoned src =>
    simp only [Writer.compress] at hstep
    split at hstep
    · cases hstep
    · next hnot =>
      split at hstep
      · next hsrc =>
        cases hstep
        refine h.at_source hc hsrc rfl (fun _ _ _ => rfl) List.erase_sublist
          (fun _ => mem_erase_other) fun bytes hstored => ?_
        cases hstored with
        | plain there destination =>
          refine .plain there fun c' hc' => .inl ?_
          obtain rfl : c = c' := Option.some.inj (hc.symm.trans hc')
          rcases destination c hc with hnone | ⟨_, size, hpacking⟩
          · exact hnone
          · exact absurd hpacking (hnot size)
        | packed _ _ _ _ ended _ => exact absurd hsrc ended
      · cases hstep

theorem HoldsLog.compress (h : HoldsLog config files w log) {c : Compression}
    (hc : config.compression = some c) {a : Action} (hstep : w.compress c a = some w') :
    HoldsLog config files w' log := by
  obtain ⟨hholds, hframe⟩ := h.toHoldsFiles.compress hc hstep
  refine ⟨hholds, fun x hx hnot => ?_, h.untaken⟩
  rw [hframe x hnot]
  exact h.others x hx hnot

end

/-! ## Whole runs -/

/-- The lines that were written. -/
def linesOf (moments : List (Writer × Action)) : List Line :=
  moments.reverse.filterMap fun m =>
    match m.2 with
    | .line line => some line
    | _ => none

/-- One line, with or without its end. -/
def OneLine (bytes : Bytes) : Prop := ∃ line : Line, bytes = line.bytes ∨ bytes = line.written

/-- Within the limit, or a single line. -/
def Fits (limit : Option Nat) (bytes : Bytes) : Prop :=
  ∀ max ∈ limit, bytes.length ≤ max ∨ OneLine bytes

def Log.files (log : Log) : List Bytes := log.active :: log.rotated.map Prod.snd

section
variable (config : WriterConfig)

/-- The names of the rotated files. -/
def rotatedTo (moments : List (Writer × Action)) : List FileName :=
  moments.reverse.filterMap fun m =>
    if m.1.rotates config m.2 then rotateFilename config.path config.today m.1.dir.keys else none

/-- If the action rotates, it does so under a name that is not taken. -/
def RotatesUntaken (w : Writer) (a : Action) : Prop :=
  w.rotates config a = true →
    ∃ name, rotateFilename config.path config.today w.dir.keys = some name ∧
      Untaken w.dir.keys name

/-- If the action rotates, the next name is not taken. -/
def MayRotate (w : Writer) (a : Action) : Prop :=
  w.rotates config a = true →
    NextUntaken config.path config.today w.dir.keys

/-- **Log rotation loses nothing.** -/
structure LosesNothing (files : Files) (moments : List (Writer × Action)) (w : Writer) :
    Prop where
  untaken : ∀ m ∈ moments, RotatesUntaken config m.1 m.2
  kept : ∃ log : Log, log.rotated.map Prod.fst = rotatedTo config moments ∧
    (∀ file ∈ log.rotated, Stored config w file.1 file.2) ∧
    w.dir.lookup config.path.fileName = some (.plain log.active) ∧
    log.text = files.active config ++ ((linesOf moments).map Line.written).flatten ∧
    ∀ bytes ∈ log.files, Fits config.limit bytes
  earlier : ∀ name content, name ≠ config.path.fileName →
    files.dir.lookup name = some content → w.dir.lookup name = some content

/-- The log that the directory holds after some moments. -/
structure Kept (files : Files) (moments : List (Writer × Action)) (w : Writer) (log : Log) :
    Prop where
  holds : HoldsLog config files w log
  names : log.rotated.map Prod.fst = rotatedTo config moments
  text : log.text = files.active config ++ ((linesOf moments).map Line.written).flatten
  fits : ∀ bytes ∈ log.files, Fits config.limit bytes

end

section
variable {config : WriterConfig} {files : Files} {w w' : Writer} {log : Log} {a : Action}
  {moments : List (Writer × Action)}

theorem rotatesUntaken_iff : RotatesUntaken config w a ↔ MayRotate config w a :=
  imp_congr_right fun _ => rotateFilename_untaken_iff

theorem rotatedTo_cons : rotatedTo config ((w, a) :: moments) = rotatedTo config moments ++
    (if w.rotates config a then rotateFilename config.path config.today w.dir.keys
      else none).toList := by
  simp only [rotatedTo, List.reverse_cons, List.filterMap_append, List.filterMap_cons,
    List.filterMap_nil]
  split <;> simp_all

theorem linesOf_line {line : Line} :
    linesOf ((w, .line line) :: moments) = linesOf moments ++ [line] := by
  simp [linesOf]

theorem linesOf_other (ha : ∀ line, a ≠ .line line) :
    linesOf ((w, a) :: moments) = linesOf moments := by
  cases a with
  | line line => exact absurd rfl (ha line)
  | rotate | packing | packed | failed | abandoned => simp [linesOf]

theorem fits_append (hfits : ∀ bytes ∈ log.files, Fits config.limit bytes) {line : Line}
    (hline : Fits config.limit (log.active ++ line.written)) :
    ∀ bytes ∈ (log.append line).files, Fits config.limit bytes := by
  simpa [Log.files, Log.append, hline] using fun bytes name hmem =>
    hfits bytes (by simp [Log.files]; exact .inr ⟨name, hmem⟩)

theorem fits_rotate (hfits : ∀ bytes ∈ log.files, Fits config.limit bytes) (name : FileName) :
    ∀ bytes ∈ (log.rotate name).files, Fits config.limit bytes := by
  intro bytes hbytes
  simp only [Log.files, Log.rotate, List.map_append, List.map_cons, List.map_nil, List.mem_cons,
    List.mem_append, List.not_mem_nil, or_false] at hbytes
  rcases hbytes with rfl | hbytes | rfl
  · exact fun max _ => .inl (by simp)
  · exact hfits bytes (by simp only [Log.files, List.mem_cons, hbytes, or_true])
  · exact hfits log.active (by simp [Log.files])

theorem oneLine_fits (line : Line) : Fits config.limit line.written :=
  fun _ _ => .inr ⟨line, .inr rfl⟩

theorem not_overflows_fits {line : Line} (hcounted : w.bytesWritten = log.active.length)
    (hover : w.overflows config line = false) :
    Fits config.limit (log.active ++ line.written) := by
  intro max hmax
  rw [Option.mem_def] at hmax
  simp only [Writer.overflows, hmax, Option.any_some, decide_eq_false_iff_not, hcounted] at hover
  refine .inl ?_
  simpa [Line.written] using Nat.not_lt.mp hover

theorem Kept.rotated (h : Kept config files moments w log) (hrotates : w.rotates config a = true)
    (hmay : MayRotate config w a) :
    ∃ name w₁, rotateFilename config.path config.today w.dir.keys = some name ∧
      w.rotate config = some w₁ ∧ HoldsLog config files w₁ (log.rotate name) ∧
      (log.rotate name).rotated.map Prod.fst = rotatedTo config ((w, a) :: moments) := by
  obtain ⟨name, hname, huntaken⟩ := rotatesUntaken_iff.mpr hmay hrotates
  obtain ⟨w₁, hw₁, hholds⟩ := h.holds.rotate hname huntaken
  refine ⟨name, w₁, hname, hw₁, hholds, ?_⟩
  simp [rotatedTo_cons, hrotates, hname, ← h.names, Log.rotate]

/-- **What a line keeps.** -/
theorem Kept.line (h : Kept config files moments w log) (line : Line)
    (hmay : MayRotate config w (.line line)) :
    ∃ w' log', w.step config (.line line) = some w' ∧
      Kept config files ((w, .line line) :: moments) w' log' := by
  cases hover : w.overflows config line with
  | true =>
    have hrotates : w.rotates config (.line line) = true := hover
    obtain ⟨name, w₁, -, hw₁, hholds, hnames⟩ := h.rotated hrotates hmay
    obtain ⟨w', hw', hholds'⟩ := hholds.append line
    refine ⟨w', _, ?_, hholds', hnames, ?_, fits_append (fits_rotate h.fits name) ?_⟩
    · simp [Writer.step, Writer.writeLine, hover, hw₁, hw']
    · simp [Log.text_append, Log.text_rotate, h.text, linesOf_line]
    · exact oneLine_fits line
  | false =>
    obtain ⟨w', hw', hholds'⟩ := h.holds.append line
    refine ⟨w', _, ?_, hholds', ?_, ?_, fits_append h.fits ?_⟩
    · simp [Writer.step, Writer.writeLine, hover, hw']
    · simpa [rotatedTo_cons, Writer.rotates, hover, Log.append] using h.names
    · simp [Log.text_append, h.text, linesOf_line]
    · exact not_overflows_fits h.holds.counted hover

/-- **What one step keeps.** -/
theorem Kept.step (h : Kept config files moments w log) (hmay : MayRotate config w a)
    (hstep : w.step config a = some w') :
    ∃ log', Kept config files ((w, a) :: moments) w' log' := by
  cases a with
  | line line =>
    obtain ⟨w₁, log', hw₁, hkept⟩ := h.line line hmay
    obtain rfl : w₁ = w' := Option.some.inj (hw₁.symm.trans hstep)
    exact ⟨log', hkept⟩
  | rotate =>
    obtain ⟨name, w₁, -, hw₁, hholds, hnames⟩ := h.rotated rfl hmay
    obtain rfl : w₁ = w' := Option.some.inj (hw₁.symm.trans hstep)
    refine ⟨log.rotate name, hholds, hnames, ?_, fits_rotate h.fits name⟩
    rw [Log.text_rotate, h.text, linesOf_other (by simp)]
  | packing | packed | failed | abandoned =>
    obtain ⟨c, hc, hcompress⟩ := Option.bind_eq_some_iff.mp hstep
    refine ⟨log, h.holds.compress hc hcompress, ?_, ?_, h.fits⟩
    · simpa [rotatedTo_cons, Writer.rotates] using h.names
    · rw [linesOf_other (by simp), h.text]

theorem Kept.losesNothing (h : Kept config files moments w log)
    (huntaken : ∀ m ∈ moments, RotatesUntaken config m.1 m.2) :
    LosesNothing config files moments w := by
  refine ⟨huntaken, ⟨log, h.names, h.holds.stored, h.holds.active, h.text, h.fits⟩,
    fun name content hname hthere => ?_⟩
  have hnot : ¬ log.Takes config name := fun htakes => by
    simp [h.holds.untaken name htakes] at hthere
  rw [h.holds.others name hname hnot, hthere]

/-- **What a whole run keeps.** -/
theorem kept_of_run (hfirst : Fits config.limit (files.active config))
    (run : (writerSystem config files).Run moments w)
    (hmay : ∀ m ∈ moments, MayRotate config m.1 m.2) : ∃ log, Kept config files moments w log := by
  induction run with
  | init =>
    exact ⟨_, HoldsLog.new, rfl, by simp [Log.text, linesOf], by simpa [Log.files] using hfirst⟩
  | step run hstep ih =>
    obtain ⟨hnow, hbefore⟩ := List.forall_mem_cons.mp hmay
    obtain ⟨log, hkept⟩ := ih hbefore
    exact hkept.step hnow hstep

end

theorem LosesNothing.fits_active {config : WriterConfig} {files : Files}
    (h : LosesNothing config files [] (Writer.new config files)) :
    Fits config.limit (files.active config) := by
  obtain ⟨log, -, -, hactive, -, hfits⟩ := h.kept
  have heq : files.active config = log.active := by simpa [Writer.new] using hactive
  rw [heq]
  exact hfits log.active (by simp [Log.files])

/-- **When rotation loses nothing**: the file that is there at the start fits, and every rotation
finds the next name free. Then the writer can go on, too. -/
theorem rotation_loses_nothing (config : WriterConfig) (files : Files)
    {moments : List (Writer × Action)} {w : Writer}
    (run : (writerSystem config files).Run moments w) :
    (LosesNothing config files [] (Writer.new config files) ∧ LosesNothing config files moments w ↔
      Fits config.limit (files.active config) ∧ ∀ m ∈ moments, MayRotate config m.1 m.2) ∧
    (Fits config.limit (files.active config) → (∀ m ∈ moments, MayRotate config m.1 m.2) →
      ∀ line, MayRotate config w (.line line) → (w.step config (.line line)).isSome = true) := by
  refine ⟨⟨fun ⟨hstart, hend⟩ => ⟨hstart.fits_active, fun m hm =>
    rotatesUntaken_iff.mp (hend.untaken m hm)⟩, fun ⟨hfirst, hmay⟩ => ⟨?_, ?_⟩⟩,
    fun hfirst hmay line hline => ?_⟩
  · obtain ⟨log, hkept⟩ := kept_of_run hfirst .init (by simp)
    exact hkept.losesNothing (by simp)
  · obtain ⟨log, hkept⟩ := kept_of_run hfirst run hmay
    exact hkept.losesNothing fun m hm => rotatesUntaken_iff.mpr (hmay m hm)
  · obtain ⟨log, hkept⟩ := kept_of_run hfirst run hmay
    obtain ⟨w', log', hw', -⟩ := hkept.line line hline
    rw [hw', Option.isSome_some]

/-! ## With and without an extension -/

def smallLog (fileName : FileName) (compression : Option Compression) : WriterConfig where
  path := { parent := "logs", fileName }
  today := "2026-01-01".toList
  dated := ⟨20454, by decide⟩
  maxFileSize := some 2
  maxRotatedSize := none
  compression

def noFiles : Files where
  dir := ∅
  plain := by simp

def letterLine (c : UInt8) (h : 10 ≠ c) : Line where
  bytes := [c]
  oneLine := by simpa using h

/-- A line has been written, and nothing rotated. -/
def oneWritten (fileName : FileName) : Writer where
  dir := (Writer.new (smallLog fileName none) noFiles).dir.insert fileName (.plain [97, 10])
  bytesWritten := 2
  jobs := []

/-- Another one has been written after a rotation. -/
def twoWritten (fileName name : FileName) (jobs : List FileName) : Writer where
  dir := ((((oneWritten fileName).dir.erase fileName).insert name (.plain [97, 10])).insert
    fileName (.plain [])).insert fileName (.plain [98, 10])
  bytesWritten := 2
  jobs

theorem run_zipped : (writerSystem (smallLog "log.nd".toList (some .zip)) noFiles).Run
    [(oneWritten "log.nd".toList, .line (letterLine 98 (by decide))),
      (Writer.new (smallLog "log.nd".toList (some .zip)) noFiles,
        .line (letterLine 97 (by decide)))]
    (twoWritten "log.nd".toList "log-2026-01-01-001.nd".toList
      ["log-2026-01-01-001.nd".toList]) :=
  .step (.step .init (by rfl)) (by rfl)

theorem run_extensionless : (writerSystem (smallLog "log".toList none) noFiles).Run
    [(oneWritten "log".toList, .line (letterLine 98 (by decide))),
      (Writer.new (smallLog "log".toList none) noFiles, .line (letterLine 97 (by decide)))]
    (twoWritten "log".toList "log-2026-01-01-001.".toList []) :=
  .step (.step .init (by rfl)) (by rfl)

theorem rotation_loses_nothing_zipped :
    LosesNothing (smallLog "log.nd".toList (some .zip)) noFiles
      [(oneWritten "log.nd".toList, .line (letterLine 98 (by decide))),
        (Writer.new (smallLog "log.nd".toList (some .zip)) noFiles,
          .line (letterLine 97 (by decide)))]
      (twoWritten "log.nd".toList "log-2026-01-01-001.nd".toList
        ["log-2026-01-01-001.nd".toList]) := by
  have hfirst : Fits (smallLog "log.nd".toList (some .zip)).limit
      (noFiles.active (smallLog "log.nd".toList (some .zip))) :=
    fun _ _ => .inl (by simp [Files.active, noFiles])
  refine ((rotation_loses_nothing _ _ run_zipped).1.mpr ⟨hfirst, ?_⟩).2
  simp only [List.forall_mem_cons]
  refine ⟨fun _ => rotateFilename_untaken_iff.mp
    ⟨"log-2026-01-01-001.nd".toList, by rfl, by decide, fun c => ?_⟩,
    fun h => absurd h (by decide), by simp⟩
  cases c <;> decide

/-- **The second rotation renames over the file of the first.** -/
theorem rotation_overwrites : ¬ ∀ (config : WriterConfig) (files : Files)
    (moments : List (Writer × Action)) (w : Writer),
    (writerSystem config files).Run moments w → LosesNothing config files moments w := by
  intro hall
  obtain ⟨w, hw⟩ : ∃ w, (twoWritten "log".toList "log-2026-01-01-001.".toList []).step
      (smallLog "log".toList none) (.line (letterLine 99 (by decide))) = some w := ⟨_, rfl⟩
  have hkept := hall _ noFiles _ w (.step run_extensionless hw)
  obtain ⟨name, hname, huntaken⟩ := hkept.untaken _ List.mem_cons_self rfl
  have hfirst : rotateFilename (smallLog "log".toList none).path (smallLog "log".toList none).today
      (twoWritten "log".toList "log-2026-01-01-001.".toList []).dir.keys =
        some "log-2026-01-01-001.".toList := by rfl
  obtain rfl := Option.some.inj (hfirst.symm.trans hname)
  exact huntaken.1 (by decide)

end InfSplitter.Diagnostics
