import Mathlib.Data.List.Infix

/-!
# Cutting a list greedily

A list is cut into consecutive nonempty parts. The first part has to pass one test and every other
part another one (`Cuts`). `fill` is the greedy loop: it goes on filling a part as long as the part
passes its test, and starts the next part with the element that was too much.

If a test that a list passes is passed by every piece of it (`Closed`), no cut is better. A greedy
part ends no earlier than the part of any other cut that starts with it; what the other cut has on
top of that is trimmed off its front (`Cuts.trim`) and costs no parts. So the loop finds a cut
whenever there is one, and one with the fewest parts (`fill_best`). Whether it finds one can be read
off the elements without running it (`fill_isSome_iff`).
-/

set_option autoImplicit false

namespace InfSplitter.Lib

variable {α : Type}

theorem forall_getElem?_cons {a : α} {l : List α} {Q : Nat → α → Prop} :
    (∀ i b, (a :: l)[i]? = some b → Q i b) ↔ Q 0 a ∧ ∀ i b, l[i]? = some b → Q (i + 1) b := by
  constructor
  · intro h
    exact ⟨h 0 a rfl, fun i b hi => h (i + 1) b hi⟩
  · intro ⟨hfirst, hrest⟩ i b hi
    cases i with
    | zero =>
      cases hi
      exact hfirst
    | succ i => exact hrest i b hi

/-- A test that is passed by the pieces of what passes it. -/
def Closed (test : List α → Bool) : Prop :=
  ∀ {l l' : List α}, l <:+: l' → test l' = true → test l = true

/-- The parts of a cut: none is empty, the first one passes `fits` and the others `later`. -/
def Cuts (later : List α → Bool) : (List α → Bool) → List (List α) → Prop
  | _, [] => True
  | fits, part :: rest => part ≠ [] ∧ fits part = true ∧ Cuts later later rest

/-- No part can take the first element of the next one. -/
def Full (later : List α → Bool) : (List α → Bool) → List (List α) → Prop
  | fits, part :: next :: rest =>
    (∀ a, next.head? = some a → fits (part ++ [a]) = false) ∧ Full later later (next :: rest)
  | _, _ => True

/-- The greedy loop; `part` is being filled, `fits` is its test. -/
def fill (later : List α → Bool) : (List α → Bool) → List α → List α → Option (List (List α))
  | _, part, [] => some (if part.isEmpty then [] else [part])
  | fits, part, a :: rest =>
    if fits (part ++ [a]) then fill later fits (part ++ [a]) rest
    else if part.isEmpty then none
    else if later [a] then (fill later later [a] rest).map (part :: ·)
    else none

section
variable {later fits : List α → Bool} {part : List α} {a : α} {rest : List α}

theorem fill_fits (h : fits (part ++ [a]) = true) :
    fill later fits part (a :: rest) = fill later fits (part ++ [a]) rest := by
  rw [fill, if_pos h]

theorem fill_alone (h : fits [a] = false) : fill later fits [] (a :: rest) = none := by
  simp [fill, h]

theorem fill_next (hne : part ≠ []) (h : fits (part ++ [a]) = false) (hnext : later [a] = true) :
    fill later fits part (a :: rest) = (fill later later [a] rest).map (part :: ·) := by
  simp [fill, h, hne, hnext]

theorem fill_stuck (h : fits (part ++ [a]) = false) (hnext : later [a] = false) :
    fill later fits part (a :: rest) = none := by
  simp [fill, h, hnext]

end

section
variable {later fits : List α → Bool}

/-- What one element of a loop that succeeds can do. -/
theorem fill_cons_cases {part : List α} {a : α} {rest : List α} {out : List (List α)}
    (h : fill later fits part (a :: rest) = some out) :
    (fits (part ++ [a]) = true ∧ fill later fits (part ++ [a]) rest = some out) ∨
      ∃ out', fits (part ++ [a]) = false ∧ part ≠ [] ∧ later [a] = true ∧
        fill later later [a] rest = some out' ∧ out = part :: out' := by
  cases hfits : fits (part ++ [a]) with
  | true =>
    rw [fill_fits hfits] at h
    exact Or.inl ⟨rfl, h⟩
  | false =>
    by_cases hne : part = []
    · subst hne
      rw [fill_alone hfits] at h
      cases h
    cases hnext : later [a] with
    | false =>
      rw [fill_stuck hfits hnext] at h
      cases h
    | true =>
      rw [fill_next hne hfits hnext] at h
      obtain ⟨out', hout', rfl⟩ := Option.map_eq_some_iff.mp h
      exact Or.inr ⟨out', rfl, hne, rfl, hout', rfl⟩

/-- Where no two elements go together, every element gets a part of its own. -/
theorem fill_each {l : List α} {a : α} (full : ∀ b ∈ l, fits [a, b] = false)
    (alone : ∀ b ∈ l, later [b] = true) (apart : ∀ b ∈ l, ∀ c ∈ l, later [b, c] = false) :
    fill later fits [a] l = some ([a] :: l.map ([·])) := by
  induction l generalizing fits a with
  | nil => rfl
  | cons b rest ih =>
    obtain ⟨hb, hrest⟩ := List.forall_mem_cons.mp alone
    rw [fill_next (List.cons_ne_nil a []) (full b List.mem_cons_self) hb]
    have hfull : ∀ c ∈ rest, later [b, c] = false := fun c hc =>
      apart b List.mem_cons_self c (List.mem_cons_of_mem b hc)
    rw [ih hfull hrest fun c hc c' hc' =>
      apart c (List.mem_cons_of_mem b hc) c' (List.mem_cons_of_mem b hc')]
    rfl

/-- **The loop cuts the list.** -/
theorem fill_cuts {part l : List α} {out : List (List α)} (hpart : part ≠ [] → fits part = true)
    (h : fill later fits part l = some out) : Cuts later fits out ∧ out.flatten = part ++ l := by
  induction l generalizing fits part out with
  | nil =>
    cases part with
    | nil =>
      cases h
      exact ⟨trivial, rfl⟩
    | cons b part =>
      cases h
      exact ⟨⟨List.cons_ne_nil _ _, hpart (List.cons_ne_nil _ _), trivial⟩, by simp⟩
  | cons a rest ih =>
    rcases fill_cons_cases h with ⟨hfits, h⟩ | ⟨out', _, hne, hnext, hrec, rfl⟩
    · obtain ⟨hcuts, hflat⟩ := ih (fun _ => hfits) h
      exact ⟨hcuts, by rw [hflat, List.append_assoc, List.singleton_append]⟩
    · obtain ⟨hcuts, hflat⟩ := ih (fun _ => hnext) hrec
      exact ⟨⟨hne, hpart hne, hcuts⟩, by rw [List.flatten_cons, hflat, List.singleton_append]⟩

/-- The part that is being filled is the beginning of the first part that comes out. -/
theorem fill_head {part l : List α} {out : List (List α)} (hne : part ≠ [])
    (h : fill later fits part l = some out) : ∃ more out', out = (part ++ more) :: out' := by
  induction l generalizing part with
  | nil =>
    cases part with
    | nil => exact absurd rfl hne
    | cons b part =>
      cases h
      exact ⟨[], [], by simp⟩
  | cons a rest ih =>
    rcases fill_cons_cases h with ⟨_, h⟩ | ⟨out', _, _, _, _, rfl⟩
    · obtain ⟨more, out', rfl⟩ := ih (by simp) h
      exact ⟨a :: more, out', by simp⟩
    · exact ⟨[], out', by simp⟩

/-- **No part it cuts could have been longer.** -/
theorem fill_full {part l : List α} {out : List (List α)}
    (h : fill later fits part l = some out) : Full later fits out := by
  induction l generalizing fits part out with
  | nil =>
    cases part with
    | nil =>
      cases h
      exact trivial
    | cons b part =>
      cases h
      exact trivial
  | cons a rest ih =>
    rcases fill_cons_cases h with ⟨_, h⟩ | ⟨out', hfits, _, _, hrec, rfl⟩
    · exact ih h
    · obtain ⟨more, out'', rfl⟩ := fill_head (List.cons_ne_nil a []) hrec
      refine ⟨?_, ih hrec⟩
      intro b hb
      cases hb
      exact hfits

/-- Once the first part is full, every element has to pass on its own. -/
theorem fill_later_isSome_iff (closed : Closed later) {part l : List α} (hne : part ≠ []) :
    (fill later later part l).isSome = true ↔ ∀ a ∈ l, later [a] = true := by
  induction l generalizing part with
  | nil => exact iff_of_true rfl (List.forall_mem_nil _)
  | cons a rest ih =>
    rw [List.forall_mem_cons]
    cases hfits : later (part ++ [a]) with
    | true =>
      have halone : later [a] = true := closed ⟨part, [], by simp⟩ hfits
      rw [fill_fits hfits, ih (by simp), and_iff_right halone]
    | false =>
      cases hnext : later [a] with
      | true =>
        rw [fill_next hne hfits hnext, Option.isSome_map, ih (by simp), and_iff_right rfl]
      | false =>
        rw [fill_stuck hfits hnext]
        exact iff_of_false Bool.false_ne_true fun h => Bool.false_ne_true h.1

/-- The loop comes to an end if every element either passes in the first part with all before it or
on its own; the first element of all has only the one way. -/
theorem fill_isSome_iff (closed : Closed fits) (closedLater : Closed later) {part l : List α} :
    (fill later fits part l).isSome = true ↔
      ∀ i a, l[i]? = some a → fits (part ++ l.take (i + 1)) = true ∨
        ((part ≠ [] ∨ 0 < i) ∧ later [a] = true) := by
  induction l generalizing part with
  | nil => exact iff_of_true rfl fun i a h => by simp at h
  | cons a rest ih =>
    have hgrow : ∀ i, part ++ (a :: rest).take (i + 1) = part ++ [a] ++ rest.take i := by
      intro i
      simp
    rw [forall_getElem?_cons, hgrow 0, List.take_zero, List.append_nil]
    simp only [hgrow, Nat.succ_pos, or_true, true_and, Nat.lt_irrefl, or_false]
    cases hfits : fits (part ++ [a]) with
    | true =>
      rw [fill_fits hfits, ih, and_iff_right (Or.inl rfl)]
      simp
    | false =>
      -- the first part stays too long with what comes after
      have hfull : ∀ i, fits (part ++ [a] ++ rest.take i) = false := by
        intro i
        rw [← Bool.not_eq_true]
        intro h
        rw [closed (List.prefix_append _ _).isInfix h] at hfits
        cases hfits
      by_cases hne : part = []
      · subst hne
        rw [fill_alone hfits]
        refine iff_of_false Bool.false_ne_true fun h => ?_
        exact h.1.elim Bool.false_ne_true fun hlater => hlater.1 rfl
      · cases hnext : later [a] with
        | true =>
          rw [fill_next hne hfits hnext, Option.isSome_map,
            fill_later_isSome_iff closedLater (by simp), and_iff_right (Or.inr ⟨hne, rfl⟩)]
          simp only [hfull, Bool.false_eq_true, false_or, List.mem_iff_getElem?]
          exact ⟨fun h i b hi => h b ⟨i, hi⟩, fun h b ⟨i, hi⟩ => h i b hi⟩
        | false =>
          rw [fill_stuck hfits hnext]
          refine iff_of_false Bool.false_ne_true fun h => ?_
          exact h.1.elim Bool.false_ne_true fun hlater => Bool.false_ne_true hlater.2

/-- If everything passes in the first part, there is no other. -/
theorem fill_of_fits (closed : Closed fits) {part l : List α} (h : fits (part ++ l) = true) :
    fill later fits part l = some (if (part ++ l).isEmpty then [] else [part ++ l]) := by
  induction l generalizing part with
  | nil =>
    rw [List.append_nil]
    rfl
  | cons a rest ih =>
    rw [← List.singleton_append, ← List.append_assoc] at h ⊢
    have hfits := closed (List.prefix_append (part ++ [a]) rest).isInfix h
    rw [List.singleton_append, fill_fits hfits]
    exact ih h

namespace Cuts

/-- Taking an element off the front of a cut costs no part. -/
theorem trim_cons (closed : Closed later) {parts : List (List α)} {a : α} {l : List α}
    (h : Cuts later later parts) (hflat : parts.flatten = a :: l) :
    ∃ parts', Cuts later later parts' ∧ parts'.flatten = l ∧ parts'.length ≤ parts.length := by
  cases parts with
  | nil => cases hflat
  | cons part rest =>
    obtain ⟨hne, hpart, hrest⟩ := h
    obtain ⟨b, part, rfl⟩ := List.exists_cons_of_ne_nil hne
    obtain ⟨rfl, htail⟩ := List.cons.inj hflat
    by_cases hnil : part = []
    · subst hnil
      exact ⟨rest, hrest, htail, Nat.le_succ _⟩
    · refine ⟨part :: rest, ⟨hnil, ?_, hrest⟩, htail, Nat.le_refl _⟩
      exact closed (List.infix_cons List.infix_rfl) hpart

theorem trim (closed : Closed later) {parts : List (List α)} {front l : List α}
    (h : Cuts later later parts) (hflat : parts.flatten = front ++ l) :
    ∃ parts', Cuts later later parts' ∧ parts'.flatten = l ∧ parts'.length ≤ parts.length := by
  induction front generalizing parts with
  | nil => exact ⟨parts, h, hflat, Nat.le_refl _⟩
  | cons a front ih =>
    obtain ⟨parts', h', hflat', hle⟩ := h.trim_cons closed hflat
    obtain ⟨parts'', h'', hflat'', hle'⟩ := ih h' hflat'
    exact ⟨parts'', h'', hflat'', Nat.le_trans hle' hle⟩

end Cuts

/-- **The loop finds a cut if there is one, and with no more parts.** -/
theorem fill_best (closed : Closed fits) (closedLater : Closed later) {part l : List α}
    {parts : List (List α)} (h : Cuts later fits parts) (hflat : parts.flatten = part ++ l) :
    ∃ out, fill later fits part l = some out ∧ out.length ≤ parts.length := by
  induction l generalizing fits part parts with
  | nil =>
    refine ⟨_, rfl, ?_⟩
    by_cases hnil : part = []
    · simp [hnil]
    · cases parts with
      | nil => exact absurd (by simpa using hflat.symm) hnil
      | cons first rest => simp [hnil]
  | cons a rest ih =>
    cases hfits : fits (part ++ [a]) with
    | true =>
      rw [fill_fits hfits]
      exact ih closed h (by rw [hflat, List.append_assoc, List.singleton_append])
    | false =>
      -- so the first part of the other cut is no longer than the part that is full
      cases parts with
      | nil => simp at hflat
      | cons first others =>
        obtain ⟨hne, hfirst, hothers⟩ := h
        rw [List.flatten_cons] at hflat
        have hshort : ∃ front, part = first ++ front := by
          rcases List.append_eq_append_iff.mp hflat with ⟨front, hfront, _⟩ | ⟨more, hmore, hrest⟩
          · exact ⟨front, hfront⟩
          · cases more with
            | nil => exact ⟨[], by simp [hmore]⟩
            | cons b more =>
              obtain ⟨rfl, _⟩ := List.cons.inj hrest
              have hprefix : part ++ [a] <:+: first := by
                rw [hmore]
                exact ⟨[], more, by simp⟩
              rw [closed hprefix hfirst] at hfits
              cases hfits
        obtain ⟨front, rfl⟩ := hshort
        have hothersFlat : others.flatten = front ++ a :: rest := by
          rw [List.append_assoc] at hflat
          exact List.append_cancel_left hflat
        obtain ⟨trimmed, htrimmed, htrimmedFlat, hle⟩ := hothers.trim closedLater hothersFlat
        have hnext : later [a] = true := by
          cases trimmed with
          | nil => cases htrimmedFlat
          | cons part' trimmed =>
            obtain ⟨hne', hpart', _⟩ := htrimmed
            obtain ⟨b, part', rfl⟩ := List.exists_cons_of_ne_nil hne'
            obtain ⟨rfl, _⟩ := List.cons.inj htrimmedFlat
            exact closedLater ⟨[], part', rfl⟩ hpart'
        have hremaining : trimmed.flatten = [a] ++ rest := htrimmedFlat
        obtain ⟨out, hout, hlength⟩ := ih closedLater htrimmed hremaining
        refine ⟨(first ++ front) :: out, ?_, ?_⟩
        · rw [fill_next (by simp [hne]) hfits hnext, hout]
          rfl
        · exact Nat.succ_le_succ (Nat.le_trans hlength hle)

end

end InfSplitter.Lib
