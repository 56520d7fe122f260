import InfSplitter.Lib.Frames

/-!
# Replacing a word in a list of letters

All occurrences of a word are replaced from the left, and what was put in is not searched again. A
list stays as it is exactly if the word does not occur in it (`replaceAll_eq_self_iff`), unless the
word is replaced by itself.

A letter that is not in the word cuts the list into parts that are replaced on their own
(`replaceAll_intercalate`), so what a replacement does to a list of fields between separators is
what it does to the fields.
-/

set_option autoImplicit false

namespace InfSplitter.Lib

variable {α : Type} [DecidableEq α]

/-- All occurrences of `word` replaced, from the left. -/
def replaceAll (word fill : List α) (s : List α) : List α :=
  (frames word s).1.flatMap (· ++ fill) ++ (frames word s).2

section
variable {word fill s t before rest : List α}

/-! ## One list -/

theorem replaceAll_of_absent (hw : word ≠ []) (h : ¬ word <:+: s) :
    replaceAll word fill s = s := by
  unfold replaceAll
  rw [frames_of_none ((cutAt_eq_none_iff hw).mpr h)]
  rfl

theorem replaceAll_of_cut (hw : word ≠ []) (h : cutAt word s = some (before, rest)) :
    replaceAll word fill s = before ++ fill ++ replaceAll word fill rest := by
  unfold replaceAll
  rw [frames_of_some hw h, List.flatMap_cons, List.append_assoc]

theorem replaceAll_word (hw : word ≠ []) : replaceAll word fill word = fill := by
  have hcut : cutAt word word = some ([], []) := by
    cases word with
    | nil => exact absurd rfl hw
    | cons x xs =>
      rw [cutAt, if_pos (List.prefix_refl _), List.drop_length]
  rw [replaceAll_of_cut hw hcut, replaceAll_of_absent hw (by simpa using hw)]
  simp

theorem mem_replaceAll {a : α} (hw : word ≠ []) (h : a ∈ replaceAll word fill s) :
    a ∈ fill ∨ a ∈ s := by
  rw [← frames_flatten hw s]
  simp only [replaceAll, List.mem_append, List.mem_flatMap] at h ⊢
  rcases h with ⟨frame, hframe, h | h⟩ | h
  · exact Or.inr (Or.inl ⟨frame, hframe, Or.inl h⟩)
  · exact Or.inl h
  · exact Or.inr (Or.inr h)

/-- Every replacement changes the length by as much. -/
theorem length_replaceAll (hw : word ≠ []) (fill s : List α) :
    (replaceAll word fill s).length + (frames word s).1.length * word.length =
      s.length + (frames word s).1.length * fill.length := by
  have hsum : ∀ (found : List (List α)) (fill : List α),
      (found.flatMap (· ++ fill)).length = found.flatten.length + found.length * fill.length := by
    intro found fill
    induction found with
    | nil => simp
    | cons frame found ih =>
      simp only [List.flatMap_cons, List.length_append, ih, List.flatten_cons, List.length_cons,
        Nat.add_mul]
      omega
  have hs := congrArg List.length (frames_flatten hw s)
  rw [List.length_append, hsum] at hs
  unfold replaceAll
  rw [List.length_append, hsum]
  omega

/-- **A list without the word is what replacing leaves as it is.** -/
theorem replaceAll_eq_self_iff (hw : word ≠ []) (hne : word ≠ fill) :
    replaceAll word fill s = s ↔ ¬ word <:+: s := by
  refine ⟨fun heq hin => ?_, replaceAll_of_absent hw⟩
  have hcut : cutAt word s ≠ none := fun h => (cutAt_eq_none_iff hw).mp h hin
  obtain ⟨⟨before, rest⟩, hcut⟩ := Option.ne_none_iff_exists'.mp hcut
  -- at least one word went, so the replacement is as long as the word
  have hlength : word.length = fill.length := by
    have hlen := length_replaceAll hw fill s
    rw [heq, frames_of_some hw hcut] at hlen
    have hmul : ((frames word rest).1.length + 1) * word.length =
        ((frames word rest).1.length + 1) * fill.length := by
      rw [List.length_cons] at hlen
      omega
    exact Nat.eq_of_mul_eq_mul_left (by omega) hmul
  have hsame : before ++ fill ++ replaceAll word fill rest = before ++ word ++ rest := by
    rw [← replaceAll_of_cut hw hcut, heq]
    exact eq_of_cutAt hcut
  rw [List.append_assoc, List.append_assoc] at hsame
  exact hne (List.append_inj (List.append_cancel_left hsame) hlength.symm).1.symm

/-! ## Fields between separators -/

/-- A letter that is not in the word is not inside any of its occurrences. -/
theorem cutAt_separator {sep : α} (hsep : sep ∉ word) (hw : word ≠ [])
    (h : cutAt word s = none) (t : List α) :
    cutAt word (s ++ sep :: t) = (cutAt word t).map fun p => (s ++ sep :: p.1, p.2) := by
  induction s with
  | nil =>
    have hp : ¬ word <+: sep :: t := by
      intro ⟨tail, htail⟩
      cases word with
      | nil => exact hw rfl
      | cons x xs =>
        rw [List.cons_append, List.cons.injEq] at htail
        exact hsep (htail.1 ▸ List.mem_cons_self)
    rw [List.nil_append, cutAt, if_neg hp]
    rfl
  | cons x xs ih =>
    have hin := (cutAt_eq_none_iff hw).mp h
    have hp : ¬ word <+: x :: xs ++ sep :: t := by
      intro hp
      by_cases hlen : word.length ≤ (x :: xs).length
      · exact hin (List.prefix_of_prefix_length_le hp (List.prefix_append _ _) hlen).isInfix
      · obtain ⟨tail, rfl⟩ :=
          List.prefix_of_prefix_length_le (List.prefix_append _ _) hp (by omega)
        rw [List.prefix_append_right_inj] at hp
        cases tail with
        | nil => simp at hlen
        | cons y tail =>
          rw [List.cons_prefix_cons] at hp
          exact hsep (by simp [hp.1])
    have hxs : cutAt word xs = none :=
      (cutAt_eq_none_iff hw).mpr fun hxs => hin (List.infix_cons_iff.mpr (Or.inr hxs))
    rw [List.cons_append] at hp ⊢
    rw [cutAt, if_neg hp, ih hxs, Option.map_map]
    rfl

theorem replaceAll_separator {sep : α} (hsep : sep ∉ word) (hw : word ≠ []) (s t : List α) :
    replaceAll word fill (s ++ sep :: t) =
      replaceAll word fill s ++ sep :: replaceAll word fill t := by
  induction hn : s.length using Nat.strongRecOn generalizing s with
  | _ n ih =>
    cases hs : cutAt word s with
    | some p =>
      rw [replaceAll_of_cut hw hs, replaceAll_of_cut hw (cutAt_append hs _),
        ih p.2.length (hn ▸ length_lt_of_cutAt hw hs) p.2 rfl]
      simp
    | none =>
      have hcut := cutAt_separator hsep hw hs t
      rw [replaceAll_of_absent hw ((cutAt_eq_none_iff hw).mp hs)]
      cases ht : cutAt word t with
      | none =>
        rw [ht, Option.map_none] at hcut
        rw [replaceAll_of_absent hw ((cutAt_eq_none_iff hw).mp hcut),
          replaceAll_of_absent hw ((cutAt_eq_none_iff hw).mp ht)]
      | some p =>
        rw [ht, Option.map_some] at hcut
        rw [replaceAll_of_cut hw hcut, replaceAll_of_cut hw ht]
        simp

/-- **Fields are replaced one by one** if the separator is not in the word. -/
theorem replaceAll_intercalate {sep : α} (hsep : sep ∉ word) (hw : word ≠ [])
    (fields : List (List α)) :
    replaceAll word fill ([sep].intercalate fields) =
      [sep].intercalate (fields.map (replaceAll word fill)) := by
  induction fields with
  | nil => exact replaceAll_of_absent hw (by simpa using hw)
  | cons field fields ih =>
    cases fields with
    | nil => simp only [List.intercalate_singleton, List.map_cons, List.map_nil]
    | cons next fields =>
      rw [List.map_cons, List.map_cons, List.intercalate_cons_cons, List.intercalate_cons_cons,
        List.append_assoc, List.append_assoc, List.singleton_append, List.singleton_append,
        replaceAll_separator hsep hw, ih, List.map_cons]

/-- Fields without separators are found again. -/
theorem intercalate_inj {sep : α} {fields fields' : List (List α)}
    (h : ∀ field ∈ fields, sep ∉ field) (h' : ∀ field ∈ fields', sep ∉ field)
    (hlength : fields.length = fields'.length)
    (heq : [sep].intercalate fields = [sep].intercalate fields') : fields = fields' := by
  cases fields with
  | nil => exact (List.length_eq_zero_iff.mp hlength.symm).symm
  | cons field rest =>
    have hne : fields' ≠ [] := by
      rintro rfl
      exact absurd hlength (by simp)
    rw [← List.splitOn_intercalate sep h (by simp), heq, List.splitOn_intercalate sep h' hne]

end

end InfSplitter.Lib
