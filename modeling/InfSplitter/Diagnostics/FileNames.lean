import InfSplitter.Lib.FileNames
import Mathlib.Data.List.Infix

/-!
# The names of rotated files

When a file is rotated it is named after itself, the day and a number one above the highest number
of the day that is in the directory (`rotateFilename`), and it may be compressed to a file with one
more extension (`compressedName`). The number is read back from the names in the directory by
cutting off a prefix and a suffix (`numberOf`); these lemmas say for which names that gives the
number the name was made from, and `NextUntaken` says when the next name is not taken.

A directory is read by its path. The path of a file that was given without a directory has the empty
text as its parent, and reading that fails (`LogPath.readDir`).
-/

set_option autoImplicit false

namespace InfSplitter.Diagnostics

open Lib

inductive Compression
  | zip
  | bz2
  | sevenZ
deriving DecidableEq, Repr

def Compression.extension : Compression → FileName
  | .zip => "zip".toList
  | .bz2 => "bz2".toList
  | .sevenZ => "7z".toList

/-- A path by its `parent()` and its `file_name()`. -/
structure LogPath where
  parent : String
  fileName : FileName
deriving DecidableEq, Repr

def LogPath.stem (path : LogPath) : FileName := fileStem path.fileName

def LogPath.extension (path : LogPath) : FileName := Lib.extension path.fileName

/-- What `read_dir` gives of the entries of the directory; nothing is done with its error. -/
def LogPath.readDir {α : Type} (path : LogPath) (entries : List α) : List α :=
  if path.parent = "" then [] else entries

/-- `diag.ndjson` and `ollama` give `diag-ollama.ndjson`. -/
def sectionPath (base : LogPath) (sectionName : FileName) : LogPath :=
  { base with
    fileName :=
      if base.extension = [] then base.stem ++ '-' :: sectionName
      else base.stem ++ '-' :: sectionName ++ '.' :: base.extension }

/-! ## The day -/

/-- Year, month and day, from the days since 0000-03-01. -/
def civilFromDays (days : Nat) : Nat × Nat × Nat :=
  let era := days / 146097
  let doe := days - era * 146097
  let yoe := (doe - doe / 1460 + doe / 36524 - doe / 146096) / 365
  let y := yoe + era * 400
  let doy := doe - (365 * yoe + yoe / 4 - yoe / 100)
  let mp := (5 * doy + 2) / 153
  let d := doy - (153 * mp + 2) / 5 + 1
  let m := if mp < 10 then mp + 3 else mp - 9
  (if m ≤ 2 then y + 1 else y, m, d)

def dateText : Nat × Nat × Nat → FileName
  | (y, m, d) => padded 4 y ++ '-' :: padded 2 m ++ '-' :: padded 2 d

/-- The date of a day, counted from 1970-01-01. -/
def chronoDay (day : Nat) : FileName := dateText (civilFromDays (day + 719468))

/-! ## The next name -/

def LogPath.dayPrefix (path : LogPath) (today : FileName) : FileName :=
  path.stem ++ '-' :: today ++ ['-']

def numberedName (path : LogPath) (today : FileName) (seq : Nat) : FileName :=
  path.dayPrefix today ++ padded 3 seq ++ '.' :: path.extension

/-- The destination of `compress_file`. -/
def compressedName (compression : Compression) (src : FileName) : FileName :=
  withExtension src (extension src ++ '.' :: compression.extension)

/-- The file itself, and what it may have been compressed to. -/
def suffixes (ext : FileName) : List FileName :=
  if ext = [] then [] else [ext, "gz".toList, "zip".toList, "bz2".toList, "7z".toList]

def fullSuffix (ext suffix : FileName) : FileName :=
  if suffix = ext then '.' :: suffix else '.' :: ext ++ '.' :: suffix

/-- The first of the suffixes the name ends with. -/
def matchedSuffix (ext name : FileName) : Option FileName :=
  ((suffixes ext).map (fullSuffix ext)).find? fun full => full <:+ name

/-- The prefix and the suffix share characters of the name, and there is no slice between them. -/
def overlaps (path : LogPath) (today name : FileName) : Bool :=
  path.dayPrefix today <+: name &&
    ((matchedSuffix path.extension name).any fun full =>
      name.length < (path.dayPrefix today).length + full.length)

def numberOf (path : LogPath) (today name : FileName) : Option Nat :=
  if path.dayPrefix today <+: name then
    (matchedSuffix path.extension name).bind fun full =>
      parseUnsigned 32
        ((name.take (name.length - full.length)).drop (path.dayPrefix today).length)
  else none

def maxSeq (path : LogPath) (today : FileName) (names : List FileName) : Nat :=
  names.foldl (fun n name => max n ((numberOf path today name).getD 0)) 0

/-- `none` is the panic of a slice. The `u32` wraps. -/
def rotateFilename (path : LogPath) (today : FileName) (names : List FileName) :
    Option FileName :=
  if (path.readDir names).any (overlaps path today) then none
  else some (numberedName path today ((maxSeq path today (path.readDir names) + 1) % 2 ^ 32))

/-! ## Names made from a number -/

theorem Compression.dot_not_mem_ext (c : Compression) : '.' ∉ c.extension := by
  cases c <;> simp [Compression.extension]

section
variable {path : LogPath} {today : FileName} {seq : Nat} {c : Compression}

theorem LogPath.dot_not_mem_ext : '.' ∉ path.extension := dot_not_mem_extension _

theorem dayPrefix_padded_ne_nil : path.dayPrefix today ++ padded 3 seq ≠ [] := by
  simp [padded_ne_nil]

@[simp] theorem extension_numberedName : extension (numberedName path today seq) = path.extension :=
  extension_append dayPrefix_padded_ne_nil LogPath.dot_not_mem_ext

@[simp] theorem fileStem_numberedName :
    fileStem (numberedName path today seq) = path.dayPrefix today ++ padded 3 seq :=
  fileStem_append dayPrefix_padded_ne_nil LogPath.dot_not_mem_ext

/-- **The compressed file has one more extension.** -/
theorem compressedName_numberedName :
    compressedName c (numberedName path today seq) =
      numberedName path today seq ++ '.' :: c.extension := by
  rw [compressedName, extension_numberedName, withExtension, fileStem_numberedName]
  simp [numberedName]

theorem numberedName_injective {seq' : Nat}
    (h : numberedName path today seq = numberedName path today seq') : seq = seq' := by
  have hstem := congrArg fileStem h
  simp only [fileStem_numberedName, List.append_cancel_left_eq] at hstem
  exact padded_injective hstem

theorem compressedName_injective {seq' : Nat}
    (h : compressedName c (numberedName path today seq) =
      compressedName c (numberedName path today seq')) : seq = seq' := by
  rw [compressedName_numberedName, compressedName_numberedName, List.append_cancel_right_eq] at h
  exact numberedName_injective h

/-- The two kinds of names differ in the number of their dots. -/
theorem numberedName_ne_compressedName {seq' : Nat} :
    numberedName path today seq ≠ compressedName c (numberedName path today seq') := by
  intro h
  rw [compressedName_numberedName] at h
  have hdots : ∀ n, (padded 3 n).count '.' = 0 := fun n =>
    List.count_eq_zero.mpr (not_mem_padded (by decide) 3 n)
  have hext : path.extension.count '.' = 0 := List.count_eq_zero.mpr LogPath.dot_not_mem_ext
  have hc : c.extension.count '.' = 0 := List.count_eq_zero.mpr c.dot_not_mem_ext
  have hcount := congrArg (List.count '.') h
  simp [numberedName, hdots, hext, hc] at hcount

theorem fileName_length_lt (path : LogPath) (today : FileName) (seq : Nat) :
    path.fileName.length < (numberedName path today seq).length := by
  have hle := length_le_stem_extension path.fileName
  simp only [numberedName, LogPath.dayPrefix, LogPath.stem, LogPath.extension, List.length_append,
    List.length_cons]
  omega

theorem numberedName_ne_fileName : numberedName path today seq ≠ path.fileName := fun h =>
  absurd (fileName_length_lt path today seq) (by simp [h])

theorem compressedName_ne_fileName :
    compressedName c (numberedName path today seq) ≠ path.fileName := fun h => by
  have hlt := fileName_length_lt path today seq
  have hlength := congrArg List.length h
  rw [compressedName_numberedName, List.length_append] at hlength
  omega

/-- A name ends in one extension only. -/
theorem eq_of_fullSuffix_suffix {ext suffix tail l : FileName} (hsuffix : '.' ∉ suffix)
    (htail : '.' ∉ tail) (h : fullSuffix ext suffix <:+ l ++ '.' :: tail) : suffix = tail := by
  obtain ⟨front, hfront⟩ := h
  unfold fullSuffix at hfront
  split at hfront
  · exact (append_sep_inj hsuffix htail hfront).2
  · have hsplit : (front ++ '.' :: ext) ++ '.' :: suffix = l ++ '.' :: tail := by
      simpa using hfront
    exact (append_sep_inj hsuffix htail hsplit).2

theorem dot_not_mem_suffix {suffix : FileName} (h : suffix ∈ suffixes path.extension) :
    '.' ∉ suffix := by
  unfold suffixes at h
  split at h
  · simp at h
  · simp only [List.mem_cons, List.not_mem_nil, or_false] at h
    rcases h with rfl | rfl | rfl | rfl | rfl
    · exact LogPath.dot_not_mem_ext
    all_goals decide

/-- **A suffix that the name ends with is found.** -/
theorem matchedSuffix_append {tail l : FileName} (htail : tail ∈ suffixes path.extension)
    (h : fullSuffix path.extension tail <:+ l ++ '.' :: tail) :
    matchedSuffix path.extension (l ++ '.' :: tail) = some (fullSuffix path.extension tail) := by
  cases hfind : matchedSuffix path.extension (l ++ '.' :: tail) with
  | none =>
    have hnone := List.find?_eq_none.mp hfind _ (List.mem_map_of_mem htail)
    simp [h] at hnone
  | some full =>
    obtain ⟨suffix, hmem, rfl⟩ := List.mem_map.mp (List.mem_of_find?_eq_some hfind)
    have hends : fullSuffix path.extension suffix <:+ l ++ '.' :: tail := by
      simpa using List.find?_some hfind
    rw [eq_of_fullSuffix_suffix (dot_not_mem_suffix hmem) (dot_not_mem_suffix htail) hends]

theorem numberOf_append {full name : FileName} (hseq : seq < 2 ^ 32)
    (hname : name = path.dayPrefix today ++ padded 3 seq ++ full)
    (hmatched : matchedSuffix path.extension name = some full) :
    numberOf path today name = some seq := by
  have hprefix : path.dayPrefix today <+: name := ⟨padded 3 seq ++ full, by simp [hname]⟩
  have hlength : name.length - full.length = (path.dayPrefix today ++ padded 3 seq).length := by
    rw [hname, List.length_append, Nat.add_sub_cancel]
  have hcut : (name.take (name.length - full.length)).drop (path.dayPrefix today).length =
      padded 3 seq := by
    rw [hlength, hname, List.take_left, List.drop_left]
  simp [numberOf, hprefix, hmatched, hcut, parseUnsigned_padded hseq]

/-- **A rotated file is counted**, if the path has an extension. -/
theorem numberOf_numberedName (hext : path.extension ≠ []) (hseq : seq < 2 ^ 32) :
    numberOf path today (numberedName path today seq) = some seq := by
  have hmem : path.extension ∈ suffixes path.extension := by simp [suffixes, hext]
  have hfull : fullSuffix path.extension path.extension = '.' :: path.extension := by
    simp [fullSuffix]
  refine numberOf_append hseq rfl ?_
  rw [← hfull]
  exact matchedSuffix_append hmem (hfull ▸ List.suffix_append _ _)

/-- **A compressed file is counted**, if its extension is not that of the path. -/
theorem numberOf_compressedName (hext : path.extension ≠ []) (hc : c.extension ≠ path.extension)
    (hseq : seq < 2 ^ 32) :
    numberOf path today (compressedName c (numberedName path today seq)) = some seq := by
  have hmem : c.extension ∈ suffixes path.extension := by
    cases c <;> simp [suffixes, hext, Compression.extension]
  have hfull : fullSuffix path.extension c.extension =
      '.' :: path.extension ++ '.' :: c.extension := by simp [fullSuffix, hc]
  have hends : fullSuffix path.extension c.extension <:+
      numberedName path today seq ++ '.' :: c.extension := by
    rw [hfull]
    exact ⟨path.dayPrefix today ++ padded 3 seq, by simp [numberedName]⟩
  rw [compressedName_numberedName]
  refine numberOf_append hseq ?_ (matchedSuffix_append hmem hends)
  rw [hfull]
  simp [numberedName]

end

/-! ## Whether the next name is taken -/

/-- Neither the file nor a compressed form of it is there. -/
def Untaken (names : List FileName) (name : FileName) : Prop :=
  name ∉ names ∧ ∀ c, compressedName c name ∉ names

section
variable (path : LogPath) (today : FileName) (names : List FileName)

/-- A file of the day with this number is found. -/
def Numbered (n : Nat) : Prop := ∃ name ∈ path.readDir names, numberOf path today name = some n

/-- The number after all numbers that are found. -/
structure Follows (n : Nat) : Prop where
  next : n = 1 ∨ Numbered path today names (n - 1)
  above : ∀ m, Numbered path today names m → m < n

/-- **When the next name is not taken.** Without an extension or a directory nothing is found, and
the name is always the first one; a compressed file is not found under an extension that is itself
that of a compression; and the numbers end. -/
structure NextUntaken : Prop where
  apart : ∀ name ∈ path.readDir names, overlaps path today name = false
  unread : path.parent = "" ∨ path.extension = [] →
    Untaken names (numberedName path today 1)
  wrapped : path.parent ≠ "" → path.extension ≠ [] → Numbered path today names (2 ^ 32 - 1) →
    Untaken names (numberedName path today 0)
  compressed : path.parent ≠ "" → path.extension ≠ [] → ∀ c : Compression,
    c.extension = path.extension → ∀ n < 2 ^ 32, Follows path today names n →
      compressedName c (numberedName path today n) ∉ names

end

section
variable {path : LogPath} {today : FileName} {names : List FileName}

theorem numberOf_lt {name : FileName} {n : Nat} (h : numberOf path today name = some n) :
    n < 2 ^ 32 := by
  unfold numberOf at h
  split at h
  · obtain ⟨full, -, hparse⟩ := Option.bind_eq_some_iff.mp h
    exact parseUnsigned_lt hparse
  · cases h

theorem foldl_max_le_iff {f : FileName → Nat} {a b : Nat} :
    names.foldl (fun n name => max n (f name)) a ≤ b ↔ a ≤ b ∧ ∀ name ∈ names, f name ≤ b := by
  induction names generalizing a with
  | nil => simp
  | cons name rest ih => simp [ih, and_assoc]

theorem foldl_max_attained (f : FileName → Nat) (names : List FileName) (a : Nat) :
    names.foldl (fun n name => max n (f name)) a = a ∨
      ∃ name ∈ names, names.foldl (fun n name => max n (f name)) a = f name := by
  induction names generalizing a with
  | nil => simp
  | cons first rest ih =>
    rw [List.foldl_cons]
    rcases ih (max a (f first)) with h | ⟨name, hname, h⟩
    · rcases max_choice a (f first) with hmax | hmax
      · exact .inl (h.trans hmax)
      · exact .inr ⟨first, by simp, h.trans hmax⟩
    · exact .inr ⟨name, by simp [hname], h⟩

theorem Numbered.le_maxSeq {n : Nat} (h : Numbered path today names n) :
    n ≤ maxSeq path today (path.readDir names) := by
  obtain ⟨name, hname, hnumber⟩ := h
  have hle := (foldl_max_le_iff.mp (le_refl (maxSeq path today (path.readDir names)))).2 name hname
  simpa [hnumber] using hle

theorem maxSeq_found (path : LogPath) (today : FileName) (names : List FileName) :
    maxSeq path today (path.readDir names) = 0 ∨
      Numbered path today names (maxSeq path today (path.readDir names)) := by
  unfold maxSeq
  rcases foldl_max_attained (fun name => (numberOf path today name).getD 0) (path.readDir names) 0
    with h | ⟨name, hname, h⟩
  · exact .inl h
  · cases hnumber : numberOf path today name with
    | none => exact .inl (by simpa [hnumber] using h)
    | some n =>
      rw [h, hnumber]
      exact .inr ⟨name, hname, hnumber⟩

theorem follows_iff {n : Nat} :
    Follows path today names n ↔ n = maxSeq path today (path.readDir names) + 1 := by
  constructor
  · rintro ⟨hnext, habove⟩
    have hle : n ≤ maxSeq path today (path.readDir names) + 1 := by
      rcases hnext with rfl | hnext
      · simp
      · exact Nat.sub_le_iff_le_add.mp hnext.le_maxSeq
    have hlt : maxSeq path today (path.readDir names) < n := by
      rcases maxSeq_found path today names with h | h
      · rcases hnext with rfl | hnext
        · simp [h]
        · have := habove _ hnext
          omega
      · exact habove _ h
    omega
  · rintro rfl
    refine ⟨?_, fun m hm => Nat.lt_succ_of_le hm.le_maxSeq⟩
    rcases maxSeq_found path today names with h | h
    · exact .inl (by rw [h])
    · exact .inr h

theorem maxSeq_unread (h : path.parent = "" ∨ path.extension = []) :
    maxSeq path today (path.readDir names) = 0 := by
  rcases maxSeq_found path today names with hzero | ⟨name, hname, hn⟩
  · exact hzero
  · rcases h with h | h
    · simp [LogPath.readDir, h] at hname
    · simp [numberOf, matchedSuffix, suffixes, h] at hn

/-- The files that are found are not in the way of the number after them. -/
theorem untaken_follows_iff (hparent : path.parent ≠ "") (hext : path.extension ≠ [])
    (hlast : maxSeq path today (path.readDir names) + 1 < 2 ^ 32) :
    Untaken names
        (numberedName path today (maxSeq path today (path.readDir names) + 1)) ↔
      ∀ c : Compression, c.extension = path.extension →
        compressedName c
          (numberedName path today (maxSeq path today (path.readDir names) + 1)) ∉ names := by
  have hread : path.readDir names = names := by simp [LogPath.readDir, hparent]
  have hnot : ∀ name, numberOf path today name =
      some (maxSeq path today (path.readDir names) + 1) → name ∉ names := by
    intro name hnumber hname
    have hfound : Numbered path today names (maxSeq path today (path.readDir names) + 1) :=
      ⟨name, by rwa [hread], hnumber⟩
    exact absurd hfound.le_maxSeq (by simp)
  constructor
  · exact fun h c _ => h.2 c
  · refine fun h => ⟨hnot _ (numberOf_numberedName hext hlast), fun c => ?_⟩
    by_cases hsame : c.extension = path.extension
    · exact h c hsame
    · exact hnot _ (numberOf_compressedName hext hsame hlast)

theorem rotateFilename_numbered {name : FileName}
    (h : rotateFilename path today names = some name) :
    ∃ seq, name = numberedName path today seq := by
  unfold rotateFilename at h
  split at h
  · cases h
  · exact ⟨_, (Option.some.inj h).symm⟩

/-- **When `rotate_filename` gives a name that is not taken.** -/
theorem rotateFilename_untaken_iff :
    (∃ name, rotateFilename path today names = some name ∧ Untaken names name) ↔
      NextUntaken path today names := by
  unfold rotateFilename
  split
  · next hoverlap =>
    obtain ⟨name, hname, hoverlaps⟩ := List.any_eq_true.mp hoverlap
    refine ⟨fun ⟨_, h, _⟩ => absurd h (by simp), fun h => ?_⟩
    rw [h.apart name hname] at hoverlaps
    cases hoverlaps
  · next hapart =>
    have hapart' : ∀ name ∈ path.readDir names, overlaps path today name = false := by
      simpa using hapart
    simp only [Option.some.injEq, exists_eq_left']
    by_cases hunread : path.parent = "" ∨ path.extension = []
    · rw [maxSeq_unread hunread]
      constructor
      · intro h
        exact ⟨hapart', fun _ => h, fun hparent hext => absurd hunread (by simp [hparent, hext]),
          fun hparent hext => absurd hunread (by simp [hparent, hext])⟩
      · exact fun h => h.unread hunread
    · obtain ⟨hparent, hext⟩ := not_or.mp hunread
      have hlt : maxSeq path today (path.readDir names) < 2 ^ 32 := by
        rcases maxSeq_found path today names with h | ⟨name, _, hnumber⟩
        · simp [h]
        · exact numberOf_lt hnumber
      rcases Nat.lt_or_ge (maxSeq path today (path.readDir names) + 1) (2 ^ 32) with hlast | hlast
      · rw [Nat.mod_eq_of_lt hlast, untaken_follows_iff hparent hext hlast]
        constructor
        · refine fun h => ⟨hapart', fun h => absurd h hunread, fun _ _ hfound => ?_,
            fun _ _ c hsame n _ hfollows => ?_⟩
          · exact absurd hfound.le_maxSeq (by omega)
          · rw [follows_iff.mp hfollows]
            exact h c hsame
        · exact fun h c hsame =>
            h.compressed hparent hext c hsame _ hlast (follows_iff.mpr rfl)
      · have hmax : maxSeq path today (path.readDir names) = 2 ^ 32 - 1 := by omega
        have hfound : Numbered path today names (2 ^ 32 - 1) := by
          rcases maxSeq_found path today names with h | h
          · rw [hmax] at h
            cases h
          · rwa [hmax] at h
        rw [hmax]
        constructor
        · refine fun h => ⟨hapart', fun h => absurd h hunread, fun _ _ _ => h,
            fun _ _ c hsame n hn hfollows => ?_⟩
          exact absurd (hfollows.above _ hfound) (by omega)
        · exact fun h => h.wrapped hparent hext hfound

end

end InfSplitter.Diagnostics
