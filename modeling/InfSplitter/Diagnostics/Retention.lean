import InfSplitter.Diagnostics.Rotation
import Mathlib.Data.List.Sort

/-!
# Which rotated files are deleted

`cleanup_rotated_files` deletes the first files, by their names, of those it takes for rotated files
of a sink, until the others are not more than a given size. What it takes for them is decided by the
start and the end of the name. The rotated files of the sink are those that `rotate_filename` or
`compress_file` can have named, and their age is what is in the name.

The files that go are those from which on the files taken are more than the given size
(`mem_cleanup_iff`). So a clean-up is right if no file of another sink is among them, if they go
even without what is wrongly taken, and if with a file all older ones go
(`cleanup_touches_own_iff`).
-/

set_option autoImplicit false

namespace InfSplitter.Diagnostics

open Lib

/-- An entry of a directory with its length. -/
structure Listed where
  name : FileName
  size : Nat
deriving DecidableEq, Repr

def totalSize (files : List Listed) : Nat := (files.map Listed.size).sum

/-! ## The clean-up -/

/-- The name is taken for that of a rotated file. -/
def LogPath.takesForRotated (path : LogPath) (name : FileName) : Bool :=
  name ≠ path.fileName && path.stem ++ ['-'] <+: name &&
    (path.extension <:+ name || '.' :: path.extension ++ ['.'] <:+: name)

def LogPath.rotatedFiles (path : LogPath) (entries : List Listed) : List Listed :=
  ((path.readDir entries).filter fun file => path.takesForRotated file.name).mergeSort
    fun a b => ¬ b.name < a.name

/-- The files that are removed, as long as there is an excess. -/
def removeOldest : List Listed → Nat → List Listed
  | [], _ => []
  | file :: rest, excess =>
    if excess = 0 then [] else file :: removeOldest rest (excess - file.size)

/-- The files that `cleanup_rotated_files` removes. -/
def cleanupRotatedFiles (path : LogPath) (maxSize : Nat) (entries : List Listed) : List Listed :=
  removeOldest (path.rotatedFiles entries) (totalSize (path.rotatedFiles entries) - maxSize)

/-! ## The rotated files of a sink -/

/-- What is in the name of a rotated file besides the path. -/
structure Stamp where
  date : Nat × Nat × Nat
  seq : Nat
deriving DecidableEq

def Stamp.key (stamp : Stamp) : List Nat :=
  [stamp.date.1, stamp.date.2.1, stamp.date.2.2, stamp.seq]

def Stamp.name (stamp : Stamp) (path : LogPath) : FileName :=
  numberedName path (dateText stamp.date) stamp.seq

/-- `rotate_filename` can have given the name, or `compress_file` have made it of such a name. -/
structure Stamps (path : LogPath) (stamp : Stamp) (name : FileName) : Prop where
  day : ∃ day, stamp.date = civilFromDays (day + 719468)
  given : ∃ names, rotateFilename path (dateText stamp.date) names = some (stamp.name path)
  name : name = stamp.name path ∨ ∃ c, name = compressedName c (stamp.name path)

def OwnRotated (path : LogPath) (name : FileName) : Prop := ∃ stamp, Stamps path stamp name

def Older (path : LogPath) (a b : FileName) : Prop :=
  ∃ stamp stamp', Stamps path stamp a ∧ Stamps path stamp' b ∧ stamp.key < stamp'.key

open Classical in
/-- The rotated files of a sink. -/
noncomputable def ownFiles (path : LogPath) (entries : List Listed) : List Listed :=
  entries.filter fun file => OwnRotated path file.name

/-- **A clean-up touches only its own sink**, and of it the oldest files, as far as is needed. -/
structure TouchesOwn (path other : LogPath) (maxSize : Nat) (entries deleted : List Listed) :
    Prop where
  own : ∀ file ∈ deleted, OwnRotated path file.name
  notOther : ∀ file ∈ deleted, file.name ≠ other.fileName ∧ ¬ OwnRotated other file.name
  oldestFirst : ∀ file ∈ deleted, ∀ older ∈ entries, Older path older.name file.name →
    older ∈ deleted
  needed : ∀ before file, before ++ [file] <+: deleted →
    maxSize + totalSize before < totalSize (ownFiles path entries)

/-- A file that a clean-up of `path` has to leave alone. -/
def Foreign (path other : LogPath) (name : FileName) : Prop :=
  ¬ OwnRotated path name ∨ name = other.fileName ∨ OwnRotated other name

open Classical in
/-- The files that are taken for rotated files of the sink but are none. -/
noncomputable def strays (path : LogPath) (entries : List Listed) : List Listed :=
  (path.rotatedFiles entries).filter fun file => ¬ OwnRotated path file.name

/-- **When a clean-up is right.** The files are those that are taken for rotated files, in the order
of their names. From a foreign file on they are not more than is allowed; where they are more, they
are more even without the strays; and then they are more from any older file on, too. -/
structure Orderly (path other : LogPath) (maxSize : Nat) (entries : List Listed) : Prop where
  foreign : ∀ before file after, path.rotatedFiles entries = before ++ file :: after →
    Foreign path other file.name → totalSize (file :: after) ≤ maxSize
  weight : ∀ before file after, path.rotatedFiles entries = before ++ file :: after →
    maxSize < totalSize (file :: after) →
    maxSize + totalSize (strays path entries) < totalSize (file :: after)
  order : ∀ before file after, path.rotatedFiles entries = before ++ file :: after →
    maxSize < totalSize (file :: after) →
    ∀ older ∈ path.rotatedFiles entries, Older path older.name file.name →
    ∃ before' after', path.rotatedFiles entries = before' ++ older :: after' ∧
      maxSize < totalSize (older :: after')

/-! ## The age in a name -/

theorem dateText_injective {date date' : Nat × Nat × Nat} (h : dateText date = dateText date') :
    date = date' := by
  obtain ⟨y, m, d⟩ := date
  obtain ⟨y', m', d'⟩ := date'
  have hdash : ∀ width n, '-' ∉ padded width n := not_mem_padded (by decide)
  have hdays : (padded 4 y ++ '-' :: padded 2 m) ++ '-' :: padded 2 d =
      (padded 4 y' ++ '-' :: padded 2 m') ++ '-' :: padded 2 d' := by simpa [dateText] using h
  obtain ⟨hmonths, hd⟩ := append_sep_inj (hdash 2 d) (hdash 2 d') hdays
  obtain ⟨hy, hm⟩ := append_sep_inj (hdash 2 m) (hdash 2 m') hmonths
  rw [padded_injective hy, padded_injective hm, padded_injective hd]

theorem dot_not_mem_dateText (date : Nat × Nat × Nat) : '.' ∉ dateText date := by
  have hdot : ∀ width n, '.' ∉ padded width n := not_mem_padded (by decide)
  simp [dateText, hdot]

theorem Stamps.behind_stem {path : LogPath} {stamp : Stamp} {name : FileName}
    (h : Stamps path stamp name) : ∃ tail, name = path.stem ++ '-' ::
      ((dateText stamp.date ++ '-' :: padded 3 stamp.seq) ++ '.' :: tail) := by
  rcases h.name with hname | ⟨c, hname⟩
  · exact ⟨path.extension, by simp [hname, Stamp.name, numberedName, LogPath.dayPrefix]⟩
  · refine ⟨path.extension ++ '.' :: c.extension, ?_⟩
    rw [hname, Stamp.name, compressedName_numberedName]
    simp [numberedName, LogPath.dayPrefix]

/-- **A name has one age.** -/
theorem Stamps.unique {path : LogPath} {stamp stamp' : Stamp} {name : FileName}
    (h : Stamps path stamp name) (h' : Stamps path stamp' name) : stamp = stamp' := by
  obtain ⟨tail, hname⟩ := h.behind_stem
  obtain ⟨tail', hname'⟩ := h'.behind_stem
  have hplain : ∀ s : Stamp, ∀ c ∈ dateText s.date ++ '-' :: padded 3 s.seq,
      decide (c ≠ '.') = true := by
    intro s c hc
    have hdot : '.' ∉ dateText s.date ++ '-' :: padded 3 s.seq := by
      simp [dot_not_mem_dateText, not_mem_padded (by decide : ('.' : Char).isDigit = false)]
    simpa using ne_of_mem_of_not_mem hc hdot
  rw [hname, List.append_cancel_left_eq, List.cons.injEq] at hname'
  have hfront := congrArg (List.takeWhile fun c => decide (c ≠ '.')) hname'.2
  rw [takeWhile_append_of_all (hplain stamp) (by simp),
    takeWhile_append_of_all (hplain stamp') (by simp)] at hfront
  have hdash : ∀ n, '-' ∉ padded 3 n := not_mem_padded (by decide) 3
  obtain ⟨hdate, hseq⟩ := append_sep_inj (hdash stamp.seq) (hdash stamp'.seq) hfront
  cases stamp
  cases stamp'
  rw [Stamp.mk.injEq]
  exact ⟨dateText_injective hdate, padded_injective hseq⟩

theorem Older.irrefl {path : LogPath} {name : FileName} : ¬ Older path name name := by
  rintro ⟨stamp, stamp', h, h', hlt⟩
  rw [h.unique h'] at hlt
  exact List.lt_irrefl _ hlt

/-! ## What is deleted -/

section
variable {path other : LogPath} {maxSize : Nat} {entries before : List Listed} {file : Listed}

theorem prefix_removeOldest_iff {files : List Listed} {excess : Nat} :
    before ++ [file] <+: removeOldest files excess ↔
      before ++ [file] <+: files ∧ totalSize before < excess := by
  induction files generalizing before excess with
  | nil => simp [removeOldest]
  | cons first rest ih =>
    unfold removeOldest
    split
    · next hzero => simp [hzero]
    · next hpos =>
      cases before with
      | nil => simp [totalSize, List.cons_prefix_cons, Nat.pos_of_ne_zero hpos]
      | cons head tail =>
        rw [List.cons_append, List.cons_prefix_cons, List.cons_prefix_cons, ih, and_assoc]
        refine and_congr_right fun heq => and_congr_right fun _ => ?_
        simp only [totalSize, List.map_cons, List.sum_cons, heq]
        omega

theorem totalSize_append (files files' : List Listed) :
    totalSize (files ++ files') = totalSize files + totalSize files' := by
  simp [totalSize]

/-- **What is removed, in order.** -/
theorem prefix_cleanup_iff : before ++ [file] <+: cleanupRotatedFiles path maxSize entries ↔
    ∃ after, path.rotatedFiles entries = before ++ file :: after ∧
      maxSize < totalSize (file :: after) := by
  unfold cleanupRotatedFiles
  rw [prefix_removeOldest_iff, Nat.lt_sub_iff_add_lt']
  constructor
  · rintro ⟨⟨after, hcut⟩, hover⟩
    rw [List.append_assoc, List.singleton_append] at hcut
    rw [← hcut, totalSize_append] at hover
    exact ⟨after, hcut.symm, by omega⟩
  · rintro ⟨after, hcut, hover⟩
    rw [hcut, totalSize_append]
    exact ⟨⟨after, by simp⟩, by omega⟩

theorem mem_iff_ends {files : List Listed} :
    file ∈ files ↔ ∃ before, before ++ [file] <+: files := by
  rw [List.mem_iff_append]
  simp only [List.IsPrefix, List.append_assoc, List.singleton_append, eq_comm]

/-- **A file goes if the files from it on are too much.** -/
theorem mem_cleanup_iff : file ∈ cleanupRotatedFiles path maxSize entries ↔
    ∃ before after, path.rotatedFiles entries = before ++ file :: after ∧
      maxSize < totalSize (file :: after) := by
  simp only [mem_iff_ends, prefix_cleanup_iff]

theorem takesForRotated_numberedName (path : LogPath) (today : FileName) (seq : Nat) :
    path.takesForRotated (numberedName path today seq) = true := by
  have hstart : path.stem ++ ['-'] <+: numberedName path today seq := by
    simp [numberedName, LogPath.dayPrefix]
  have hend : path.extension <:+ numberedName path today seq :=
    ⟨path.dayPrefix today ++ padded 3 seq ++ ['.'], by simp [numberedName]⟩
  have hne : numberedName path today seq ≠ path.fileName := numberedName_ne_fileName
  simp [LogPath.takesForRotated, hne, hstart, hend]

theorem takesForRotated_compressedName (path : LogPath) (today : FileName) (seq : Nat)
    (c : Compression) :
    path.takesForRotated (compressedName c (numberedName path today seq)) = true := by
  have hne : compressedName c (numberedName path today seq) ≠ path.fileName :=
    compressedName_ne_fileName
  have hlonger : compressedName c (numberedName path today seq) =
      numberedName path today seq ++ '.' :: c.extension := compressedName_numberedName
  have hstart : path.stem ++ ['-'] <+: numberedName path today seq ++ '.' :: c.extension := by
    simp [numberedName, LogPath.dayPrefix]
  have hinside : '.' :: (path.extension ++ ['.']) <:+:
      numberedName path today seq ++ '.' :: c.extension :=
    ⟨path.dayPrefix today ++ padded 3 seq, c.extension, by simp [numberedName]⟩
  rw [hlonger] at hne ⊢
  simp [LogPath.takesForRotated, hne, hstart, hinside]

/-- **The rotated files of the sink are taken for that.** -/
theorem OwnRotated.taken {name : FileName} (h : OwnRotated path name) :
    path.takesForRotated name = true := by
  obtain ⟨stamp, -, -, rfl | ⟨c, rfl⟩⟩ := h
  · exact takesForRotated_numberedName ..
  · exact takesForRotated_compressedName ..

theorem totalSize_perm {files files' : List Listed} (h : files.Perm files') :
    totalSize files = totalSize files' := (h.map _).sum_eq

theorem rotatedFiles_perm (hparent : path.parent ≠ "") : (path.rotatedFiles entries).Perm
    (entries.filter fun file => path.takesForRotated file.name) := by
  unfold LogPath.rotatedFiles
  rw [LogPath.readDir, if_neg hparent]
  exact List.mergeSort_perm _ _

theorem parent_ne_of_cut {after : List Listed}
    (h : path.rotatedFiles entries = before ++ file :: after) : path.parent ≠ "" := by
  intro hparent
  simp [LogPath.rotatedFiles, LogPath.readDir, hparent] at h

theorem mem_rotatedFiles_of_own (hparent : path.parent ≠ "") (hfile : file ∈ entries)
    (hown : OwnRotated path file.name) : file ∈ path.rotatedFiles entries :=
  (rotatedFiles_perm hparent).mem_iff.mpr (List.mem_filter.mpr ⟨hfile, hown.taken⟩)

theorem mem_of_taken (h : file ∈ path.rotatedFiles entries) : file ∈ entries := by
  unfold LogPath.rotatedFiles LogPath.readDir at h
  rw [List.mem_mergeSort] at h
  split at h
  · simp at h
  · exact (List.mem_filter.mp h).1

open Classical in
/-- **The files that are taken are those of the sink and the strays.** -/
theorem totalSize_rotatedFiles (entries : List Listed) (hparent : path.parent ≠ "") :
    totalSize (path.rotatedFiles entries) =
      totalSize (ownFiles path entries) + totalSize (strays path entries) := by
  have hown : ((path.rotatedFiles entries).filter fun file => OwnRotated path file.name).Perm
      (ownFiles path entries) := by
    refine ((rotatedFiles_perm hparent).filter _).trans (.of_eq ?_)
    rw [List.filter_filter, ownFiles]
    refine List.filter_congr fun file _ => ?_
    by_cases h : OwnRotated path file.name
    · simp [h, h.taken]
    · simp [h]
  have hsplit := List.filter_append_perm (fun file => decide (OwnRotated path file.name))
    (path.rotatedFiles entries)
  rw [← totalSize_perm hsplit, totalSize_append, totalSize_perm hown]
  simp [strays]

/-- **When a clean-up touches only its own sink.** -/
theorem cleanup_touches_own_iff (path other : LogPath) (maxSize : Nat) (entries : List Listed) :
    TouchesOwn path other maxSize entries (cleanupRotatedFiles path maxSize entries) ↔
      Orderly path other maxSize entries := by
  constructor
  · intro h
    refine ⟨fun before file after hcut hforeign => ?_, fun before file after hcut hover => ?_,
      fun before file after hcut hover older holder hage => ?_⟩
    · by_contra hover
      have hfile : file ∈ cleanupRotatedFiles path maxSize entries :=
        mem_cleanup_iff.mpr ⟨before, after, hcut, Nat.not_le.mp hover⟩
      obtain ⟨hactive, hrotated⟩ := h.notOther file hfile
      rcases hforeign with hown | hother | hother
      · exact hown (h.own file hfile)
      · exact hactive hother
      · exact hrotated hother
    · have hneeded := h.needed before file (prefix_cleanup_iff.mpr ⟨after, hcut, hover⟩)
      have htotal := totalSize_rotatedFiles entries (parent_ne_of_cut hcut)
      rw [hcut, totalSize_append] at htotal
      omega
    · have hfile : file ∈ cleanupRotatedFiles path maxSize entries :=
        mem_cleanup_iff.mpr ⟨before, after, hcut, hover⟩
      exact mem_cleanup_iff.mp (h.oldestFirst file hfile older (mem_of_taken holder) hage)
  · intro h
    have hnot : ∀ file ∈ cleanupRotatedFiles path maxSize entries,
        ¬ Foreign path other file.name := by
      intro file hfile hforeign
      obtain ⟨before, after, hcut, hover⟩ := mem_cleanup_iff.mp hfile
      exact absurd (h.foreign before file after hcut hforeign) (Nat.not_le.mpr hover)
    refine ⟨fun file hfile => ?_, fun file hfile => ?_, fun file hfile older holder hage => ?_,
      fun before file hprefix => ?_⟩
    · exact not_not.mp (not_or.mp (hnot file hfile)).1
    · exact not_or.mp (not_or.mp (hnot file hfile)).2
    · obtain ⟨before, after, hcut, hover⟩ := mem_cleanup_iff.mp hfile
      obtain ⟨stamp, -, hstamp, -, -⟩ := id hage
      have holder' : older ∈ path.rotatedFiles entries :=
        mem_rotatedFiles_of_own (parent_ne_of_cut hcut) holder ⟨stamp, hstamp⟩
      exact mem_cleanup_iff.mpr (h.order before file after hcut hover older holder' hage)
    · obtain ⟨after, hcut, hover⟩ := prefix_cleanup_iff.mp hprefix
      have hweight := h.weight before file after hcut hover
      have htotal := totalSize_rotatedFiles entries (parent_ne_of_cut hcut)
      rw [hcut, totalSize_append] at htotal
      omega

/-- Where all files that are taken are the sink's, ordered by their age, a clean-up is right. -/
theorem Orderly.of_own (hown : ∀ file ∈ path.rotatedFiles entries, ¬ Foreign path other file.name)
    (hage : (path.rotatedFiles entries).Pairwise fun a b => ¬ Older path b.name a.name) :
    Orderly path other maxSize entries := by
  refine ⟨fun before file after hcut hforeign => ?_, fun before file after hcut hover => ?_,
    fun before file after hcut hover older holder holderAge => ?_⟩
  · exact absurd hforeign (hown file (by simp [hcut]))
  · have hnone : strays path entries = [] := by
      refine List.filter_eq_nil_iff.mpr fun stray hstray => ?_
      have hstray' : OwnRotated path stray.name := not_not.mp (not_or.mp (hown stray hstray)).1
      simp [hstray']
    simpa [hnone, totalSize] using hover
  · rw [hcut] at hage holder
    rcases List.mem_append.mp holder with hbefore | hafter
    · obtain ⟨before', between, rfl⟩ := List.append_of_mem hbefore
      refine ⟨before', between ++ file :: after, by simp [hcut], ?_⟩
      simp only [totalSize, List.map_cons, List.map_append, List.sum_cons, List.sum_append]
        at hover ⊢
      omega
    · rcases List.mem_cons.mp hafter with rfl | hafter
      · exact absurd holderAge Older.irrefl
      · have hlater := List.rel_of_pairwise_cons (List.pairwise_append.mp hage).2.1 hafter
        exact absurd holderAge hlater

end

def sectionLog (sectionName : String) : LogPath :=
  sectionPath { parent := "logs", fileName := "diag.ndjson".toList } sectionName.toList

/-- **The clean-up for one section deletes the file of another.** -/
theorem cleanup_touches_other : ¬ ∀ (path other : LogPath) (maxSize : Nat) (entries : List Listed),
    other ≠ path → other.parent = path.parent → (entries.map Listed.name).Nodup →
    TouchesOwn path other maxSize entries (cleanupRotatedFiles path maxSize entries) := by
  intro hall
  have h := hall (sectionLog "a") (sectionLog "a-b") 5 [⟨"diag-a-b.ndjson".toList, 10⟩]
    (by decide) rfl (by simp)
  have hfile : (⟨"diag-a-b.ndjson".toList, 10⟩ : Listed) ∈ cleanupRotatedFiles (sectionLog "a") 5
      [⟨"diag-a-b.ndjson".toList, 10⟩] := by decide +kernel
  exact (h.notOther _ hfile).1 (by decide)

end InfSplitter.Diagnostics
