import InfSplitter.Lib.Deletion
import InfSplitter.SplitSend.Fragments

/-!
# A cut text is kept

Cutting a text at delimiters loses delimiters: the one between two pieces, and those around parts
that are empty or come to nothing. It loses nothing else, and no delimiter twice, although the last
piece of a part is joined with what follows and may be cut again.

The reason is that only a piece that is too long is cut again, and such a piece is a stretch of the
text, so a delimiter found in it stands there in the text too. `Lib.Pieces` is this invariant;
`joinParts_turn` is what one part does to it.
-/

set_option autoImplicit false

namespace InfSplitter.SplitSend

open Lib

/-- The pieces a text has been cut into, up to deleted delimiters. -/
def PiecesOf (ds : List String) (room : Nat) (text : List Char) (pieces : List String) : Prop :=
  Pieces (ds.map String.toList) (fun cs => (String.ofList cs).utf8ByteSize ≤ room) text
    (pieces.map String.toList)

/-- The pieces so far, the current one included. -/
def withCurrent (result : List String) (current : String) : List String :=
  if current.isEmpty then result else result ++ [current]

section
variable {ds : List String} {room : Nat} {text : List Char} {result : List String}
  {current delim : String} {finer : String → List String}

theorem withCurrent_empty (result : List String) : withCurrent result "" = result := if_pos rfl

theorem withCurrent_of_ne (hne : current ≠ "") :
    withCurrent result current = result ++ [current] := if_neg (by simpa using hne)

theorem PiecesOf.gap (h : PiecesOf ds room text result) (hdelim : delim ∈ ds) :
    PiecesOf ds room (text ++ delim.toList) result :=
  Pieces.gap h (Deletes.word (List.mem_map_of_mem hdelim))

theorem PiecesOf.append {text' : List Char} {result' : List String}
    (h : PiecesOf ds room text result) (h' : PiecesOf ds room text' result') :
    PiecesOf ds room (text ++ text') (result ++ result') := by
  unfold PiecesOf at h h' ⊢
  rw [List.map_append]
  exact Pieces.append h h'

theorem PiecesOf.singleton (hne : current ≠ "") :
    PiecesOf ds room current.toList [current] :=
  Pieces.singleton (by simpa using hne)

theorem PiecesOf.last_ne (h : PiecesOf ds room text (result ++ [current])) : current ≠ "" := by
  unfold PiecesOf at h
  rw [List.map_append, List.map_singleton] at h
  simpa using h.last_cases.1

theorem PiecesOf.extend {more : String} (h : PiecesOf ds room text (result ++ [current]))
    (hfits : (current ++ more).utf8ByteSize ≤ room) :
    PiecesOf ds room (text ++ more.toList) (result ++ [current ++ more]) := by
  unfold PiecesOf at h ⊢
  rw [List.map_append, List.map_singleton] at h ⊢
  rw [String.toList_append]
  apply Pieces.extend_last h
  rwa [← String.toList_append, String.ofList_toList]

/-- A part begins a new piece. -/
theorem PiecesOf.part (h : PiecesOf ds room text result) (part : String) :
    PiecesOf ds room (text ++ part.toList) (withCurrent result part) := by
  by_cases hne : part = ""
  · subst hne
    rw [withCurrent_empty]
    simpa using h
  · rw [withCurrent_of_ne hne]
    exact h.append (.singleton hne)

theorem PiecesOf.flush (hfiner : ∀ part : String, room < part.utf8ByteSize →
      PiecesOf ds room part.toList (finer part))
    (h : PiecesOf ds room text (withCurrent result current)) :
    PiecesOf ds room text (flush finer room result current) := by
  by_cases hne : current = ""
  · subst hne
    exact h
  rw [withCurrent_of_ne hne] at h
  unfold SplitSend.flush
  rw [if_neg (by simpa using hne)]
  by_cases hlong : room < current.utf8ByteSize
  · rw [if_pos hlong]
    unfold PiecesOf at h ⊢
    rw [List.map_append] at h ⊢
    refine Pieces.refine_last h ?_ (hfiner current hlong)
    simpa using hlong
  · rw [if_neg hlong]
    exact h

/-- The state of the loop before a part, when `text` has been read; behind a piece there is the
delimiter last. -/
structure Joining (ds : List String) (room : Nat) (delim : String) (text : List Char)
    (result : List String) (current : String) : Prop where
  pieces : PiecesOf ds room text (withCurrent result current)
  behind : current ≠ "" → ∃ before, text = before ++ delim.toList ∧
    PiecesOf ds room before (withCurrent result current)

theorem Joining.start : Joining ds room delim [] [] "" where
  pieces := Pieces.none Deletes.nil
  behind h := absurd rfl h

theorem Joining.next (hdelim : delim ∈ ds)
    (h : PiecesOf ds room text (withCurrent result current)) :
    Joining ds room delim (text ++ delim.toList) result current where
  pieces := h.gap hdelim
  behind _ := ⟨text, rfl, h⟩

/-- **What one part does to the pieces.** -/
theorem joinParts_turn (hfiner : ∀ part : String, room < part.utf8ByteSize →
      PiecesOf ds room part.toList (finer part))
    (joining : Joining ds room delim text result current) (part : String) (rest : List String) :
    ∃ result' current', joinParts finer room delim (part :: rest) result current =
        joinParts finer room delim rest result' current' ∧
      PiecesOf ds room (text ++ part.toList) (withCurrent result' current') := by
  have hflush := PiecesOf.flush hfiner joining.pieces
  by_cases hp : part.utf8ByteSize ≤ room
  · by_cases hc : (candidate delim current part).utf8ByteSize ≤ room
    · refine ⟨_, _, joinParts_fit hc, ?_⟩
      by_cases hne : current = ""
      · subst hne
        exact PiecesOf.part joining.pieces part
      · -- the delimiter stays where the part is joined
        obtain ⟨before, rfl, hbefore⟩ := joining.behind hne
        have hcand : candidate delim current part = current ++ (delim ++ part) := by
          unfold candidate
          rw [if_neg (by simpa using hne), String.append_assoc]
        rw [withCurrent_of_ne hne] at hbefore
        rw [hcand] at hc ⊢
        rw [withCurrent_of_ne (by simp [hne]), List.append_assoc, ← String.toList_append]
        exact hbefore.extend hc
    · exact ⟨_, _, joinParts_next hc hp, hflush.part part⟩
  · have hlong := Nat.lt_of_not_le hp
    have hne : part ≠ "" := by
      rintro rfl
      exact hp (Nat.zero_le _)
    rw [joinParts_long hlong]
    cases hlast : (finer part).getLast? with
    | none =>
      refine ⟨_, _, rfl, ?_⟩
      rw [withCurrent_empty]
      exact hflush.append (.singleton hne)
    | some last =>
      refine ⟨_, _, rfl, ?_⟩
      have hpieces := hfiner part hlong
      rw [← List.dropLast_append_getLast? last hlast] at hpieces
      rw [withCurrent_of_ne hpieces.last_ne, List.append_assoc]
      exact hflush.append hpieces

/-- **The loop over the parts cuts the parts put together.** -/
theorem joinParts_pieces (hfiner : ∀ part : String, room < part.utf8ByteSize →
      PiecesOf ds room part.toList (finer part)) (hdelim : delim ∈ ds) {parts : List String}
    (hne : parts ≠ []) (joining : Joining ds room delim text result current) :
    PiecesOf ds room (text ++ delim.toList.intercalate (parts.map String.toList))
      (joinParts finer room delim parts result current) := by
  induction parts generalizing text result current with
  | nil => exact absurd rfl hne
  | cons part rest ih =>
    obtain ⟨result', current', hturn, hpieces⟩ := joinParts_turn hfiner joining part rest
    rw [hturn]
    cases rest with
    | nil =>
      rw [joinParts_nil, List.map_singleton, List.intercalate_singleton]
      exact hpieces.flush hfiner
    | cons part' rest =>
      rw [List.map_cons, List.map_cons, List.intercalate_cons_cons, ← List.map_cons,
        ← List.append_assoc, ← List.append_assoc]
      exact ih (List.cons_ne_nil part' rest) (.next hdelim hpieces)

/-- **What is cut at delimiters comes to pieces of the text.** -/
theorem splitByBestDelimiter_pieces {delims : List String} (hds : ∀ delim ∈ ds, delim ≠ "")
    (hsub : ∀ delim ∈ delims, delim ∈ ds) {text : String} (hne : text ≠ "") :
    PiecesOf ds room text.toList (splitByBestDelimiter room delims text) := by
  induction delims generalizing text with
  | nil => exact .singleton hne
  | cons delim rest ih =>
    obtain ⟨hdelim, hrest⟩ := List.forall_mem_cons.mp hsub
    rw [splitByBestDelimiter]
    by_cases hone : (splitStr text delim).length = 1
    · rw [if_pos hone]
      exact ih hrest hne
    · rw [if_neg hone]
      have hlong : ∀ part : String, room < part.utf8ByteSize →
          PiecesOf ds room part.toList (splitByBestDelimiter room rest part) := by
        intro part hlong
        apply ih hrest
        rintro rfl
        exact absurd hlong (Nat.not_lt_zero room)
      have hpieces := joinParts_pieces hlong hdelim (splitStr_ne_nil (hds delim hdelim) text) .start
      rwa [List.nil_append, intercalate_splitStr (hds delim hdelim)] at hpieces

end

/-- A text that fits is one piece, where there is room at all. -/
theorem splitTextForLimit_fits {text : String} {limit overhead : Nat}
    (room : 0 < limit - overhead) (fits : text.utf8ByteSize ≤ limit - overhead) :
    splitTextForLimit text limit overhead = .ok [text] := by
  unfold splitTextForLimit
  simp only
  rw [if_neg (Nat.pos_iff_ne_zero.mp room), if_pos fits]

/-- A text that does not fit is cut into pieces of it. -/
theorem splitTextForLimit_cut {text : String} {limit overhead : Nat} {chunks : List String}
    (h : splitTextForLimit text limit overhead = .ok chunks)
    (long : ¬ text.utf8ByteSize ≤ limit - overhead) :
    chunks ≠ [] ∧ PiecesOf delimiters (limit - overhead) text.toList chunks := by
  have hds : ∀ delim ∈ delimiters, delim ≠ "" := by decide
  unfold splitTextForLimit at h
  simp only at h
  by_cases hroom : limit - overhead = 0
  · rw [if_pos hroom] at h
    cases h
  rw [if_neg hroom, if_neg long] at h
  by_cases hbad : (splitByBestDelimiter (limit - overhead) delimiters text).isEmpty ∨
      (splitByBestDelimiter (limit - overhead) delimiters text).any
        fun c => limit - overhead < c.utf8ByteSize
  · rw [if_pos hbad] at h
    cases h
  rw [if_neg hbad] at h
  cases h
  have hne : text ≠ "" := by
    rintro rfl
    exact long (Nat.zero_le _)
  exact ⟨fun hnil => hbad (Or.inl (by simp [hnil])),
    splitByBestDelimiter_pieces hds (fun _ hdelim => hdelim) hne⟩

/-- **A cut text is kept**: the pieces are there, none is too long, and together they are the text
without some of its delimiters. A text that fits is one piece, and where there is room it is not
refused. -/
theorem splitTextForLimit_kept (text : String) (limit overhead : Nat) :
    (∀ chunks, splitTextForLimit text limit overhead = .ok chunks →
      chunks ≠ [] ∧ (∀ chunk ∈ chunks, chunk.utf8ByteSize ≤ limit - overhead) ∧
        Deletes (delimiters.map String.toList) text.toList (chunks.flatMap String.toList) ∧
        (text.utf8ByteSize ≤ limit - overhead → chunks = [text])) ∧
      (0 < limit - overhead → text.utf8ByteSize ≤ limit - overhead →
        splitTextForLimit text limit overhead = .ok [text]) := by
  refine ⟨?_, splitTextForLimit_fits⟩
  intro chunks h
  have hlength := splitTextForLimit_length h
  by_cases hfit : text.utf8ByteSize ≤ limit - overhead
  · have hroom : 0 < limit - overhead := by
      by_contra hno
      unfold splitTextForLimit at h
      simp only at h
      rw [if_pos (Nat.eq_zero_of_not_pos hno)] at h
      cases h
    rw [splitTextForLimit_fits hroom hfit] at h
    cases h
    refine ⟨List.cons_ne_nil text [], hlength, ?_, fun _ => rfl⟩
    simpa using Deletes.refl text.toList
  · obtain ⟨hne, hpieces⟩ := splitTextForLimit_cut h hfit
    refine ⟨hne, hlength, ?_, fun hfits => absurd hfits hfit⟩
    rw [List.flatMap_def]
    exact hpieces.deletes

theorem splitTextForLimit_kept_twoWords :
    splitTextForLimit "ab cd" 4 1 = .ok ["ab", "cd"] ∧
      Deletes (delimiters.map String.toList) "ab cd".toList (["ab", "cd"].flatMap String.toList) ∧
      splitTextForLimit "abc" 4 1 = .ok ["abc"] :=
  ⟨rfl, ((splitTextForLimit_kept "ab cd" 4 1).1 _ rfl).2.2.1,
    (splitTextForLimit_kept "abc" 4 1).2 (by decide) (by decide)⟩

end InfSplitter.SplitSend
