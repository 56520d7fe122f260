import Mathlib.Data.List.Basic

/-!
# Deleting words from a text

`Deletes words text rest`: deleting occurrences of the words from `text`, none of which overlap,
leaves `rest`. Deleting twice is more than that, since an occurrence can come about where the first
deletion closed a gap.

A text that is cut into pieces, with words lost between the pieces, may still be cut on. Where it
can is what `Pieces` says: a piece that fits is never cut again, and of it only what it adds to the
deletion matters; a piece that does not fit stands as a whole in the text. So the last piece may be
replaced by pieces of its own if it does not fit (`Pieces.refine_last`), and may go on growing as
long as it fits (`Pieces.extend_last`).
-/

set_option autoImplicit false

namespace InfSplitter.Lib

variable {α : Type}

inductive Deletes (words : List (List α)) : List α → List α → Prop
  | nil : Deletes words [] []
  | keep (a : α) {text rest : List α} (h : Deletes words text rest) :
      Deletes words (a :: text) (a :: rest)
  | drop {word : List α} (hword : word ∈ words) {text rest : List α}
      (h : Deletes words text rest) : Deletes words (word ++ text) rest

namespace Deletes

variable {words : List (List α)} {text text' rest rest' : List α}

theorem refl (text : List α) : Deletes words text text := by
  induction text with
  | nil => exact nil
  | cons a text ih => exact keep a ih

theorem append (h : Deletes words text rest) (h' : Deletes words text' rest') :
    Deletes words (text ++ text') (rest ++ rest') := by
  induction h with
  | nil => exact h'
  | keep a _ ih => exact keep a ih
  | drop hword _ ih =>
    rw [List.append_assoc]
    exact drop hword ih

theorem word {word : List α} (hword : word ∈ words) : Deletes words word [] := by
  have := drop hword nil
  rwa [List.append_nil] at this

/-- What is left is there in the same order. -/
theorem sublist (h : Deletes words text rest) : rest.Sublist text := by
  induction h with
  | nil => exact List.Sublist.slnil
  | keep a _ ih => exact ih.cons_cons a
  | @drop word hword text rest _ ih => exact ih.trans (List.sublist_append_right word text)

end Deletes

/-- The pieces a text has been cut into, up to deleted words. -/
inductive Pieces (words : List (List α)) (fits : List α → Prop) :
    List α → List (List α) → Prop
  | none {text : List α} (h : Deletes words text []) : Pieces words fits text []
  -- the last piece stands in the text
  | whole {text piece gap : List α} {pieces : List (List α)} (h : Pieces words fits text pieces)
      (hne : piece ≠ []) (hgap : Deletes words gap []) :
      Pieces words fits (text ++ piece ++ gap) (pieces ++ [piece])
  -- the last piece is what is left of something
  | fitting {text piece : List α} {pieces : List (List α)}
      (h : Deletes words text (pieces.flatten ++ piece)) (hne : piece ≠ []) (hfits : fits piece) :
      Pieces words fits text (pieces ++ [piece])

namespace Pieces

variable {words : List (List α)} {fits : List α → Prop} {text text' piece : List α}
  {pieces pieces' : List (List α)}

/-- **Together, the pieces are what a deletion leaves.** -/
theorem deletes (h : Pieces words fits text pieces) : Deletes words text pieces.flatten := by
  induction h with
  | none h => exact h
  | @whole _ piece _ _ _ _ hgap ih =>
    have hkept := (ih.append (Deletes.refl piece)).append hgap
    simpa using hkept
  | fitting h _ _ => simpa using h

/-- Words may be lost at the end. -/
theorem gap {lost : List α} (h : Pieces words fits text pieces) (hlost : Deletes words lost []) :
    Pieces words fits (text ++ lost) pieces := by
  cases h with
  | none h => exact none (h.append hlost)
  | whole h hne hgap =>
    rw [List.append_assoc]
    exact whole h hne (hgap.append hlost)
  | fitting h hne hfits =>
    refine fitting ?_ hne hfits
    have hkept := h.append hlost
    rwa [List.append_nil] at hkept

theorem append (h : Pieces words fits text pieces) (h' : Pieces words fits text' pieces') :
    Pieces words fits (text ++ text') (pieces ++ pieces') := by
  induction h' with
  | none h' =>
    rw [List.append_nil]
    exact h.gap h'
  | whole _ hne hgap ih =>
    rw [← List.append_assoc, ← List.append_assoc, ← List.append_assoc]
    exact whole ih hne hgap
  | fitting h' hne hfits =>
    rw [← List.append_assoc]
    refine fitting ?_ hne hfits
    have hkept := h.deletes.append h'
    simpa using hkept

theorem singleton (hne : piece ≠ []) : Pieces words fits piece [piece] := by
  have h : Pieces words fits ([] ++ piece ++ []) ([] ++ [piece]) :=
    whole (none Deletes.nil) hne Deletes.nil
  simpa using h

/-- The two ways a last piece can have come about. -/
theorem last_cases (h : Pieces words fits text (pieces ++ [piece])) :
    piece ≠ [] ∧
      ((∃ before gap, text = before ++ piece ++ gap ∧ Pieces words fits before pieces ∧
          Deletes words gap []) ∨
        fits piece) := by
  generalize hall : pieces ++ [piece] = all at h
  cases h with
  | none _ => simp at hall
  | whole h hne hgap =>
    obtain ⟨rfl, hpiece⟩ := List.append_inj' hall rfl
    cases hpiece
    exact ⟨hne, Or.inl ⟨_, _, rfl, h, hgap⟩⟩
  | fitting h hne hfits =>
    obtain ⟨rfl, hpiece⟩ := List.append_inj' hall rfl
    cases hpiece
    exact ⟨hne, Or.inr hfits⟩

/-- **A last piece that does not fit may be cut on.** -/
theorem refine_last (h : Pieces words fits text (pieces ++ [piece])) (hlong : ¬ fits piece)
    (h' : Pieces words fits piece pieces') : Pieces words fits text (pieces ++ pieces') := by
  obtain ⟨_, ⟨before, lost, rfl, hbefore, hlost⟩ | hfits⟩ := h.last_cases
  · exact (hbefore.append h').gap hlost
  · exact absurd hfits hlong

/-- **A last piece may go on growing as long as it fits.** -/
theorem extend_last {more : List α} (h : Pieces words fits text (pieces ++ [piece]))
    (hfits : fits (piece ++ more)) :
    Pieces words fits (text ++ more) (pieces ++ [piece ++ more]) := by
  refine fitting ?_ (by simp [h.last_cases.1]) hfits
  have hkept := h.deletes.append (Deletes.refl more)
  simpa using hkept

end Pieces

end InfSplitter.Lib
