import Mathlib.Data.List.Basic

/-!
# Cutting a stream at a delimiter

A stream is a list of letters that arrives in chunks, and its frames end at a delimiter: the first
occurrence of the delimiter ends the first frame, the search goes on behind it, and what has no
delimiter behind it yet stays pending.

Cutting is stable: a frame found in a stream is found in every longer one (`cutAt_append`). So the
frames of two streams one after the other are those of the first and those of what it left pending
with the second (`frames_append`), and a reader that handles the frames of every chunk handles those
of the stream, however it is cut into chunks (`feedInto_chunks`).
-/

set_option autoImplicit false

namespace InfSplitter.Lib

variable {α : Type} [DecidableEq α]

/-- What stands before and behind the first occurrence of the delimiter. -/
def cutAt (delim : List α) : List α → Option (List α × List α)
  | [] => if delim = [] then some ([], []) else none
  | x :: xs =>
    if delim <+: x :: xs then some ([], (x :: xs).drop delim.length)
    else (cutAt delim xs).map fun p => (x :: p.1, p.2)

def framesFrom (delim : List α) : Nat → List α → List (List α) × List α
  | 0, s => ([], s)
  | n + 1, s =>
    match cutAt delim s with
    | none => ([], s)
    | some (frame, rest) =>
      (frame :: (framesFrom delim n rest).1, (framesFrom delim n rest).2)

/-- The frames of a stream, and what is pending behind the last. -/
def frames (delim s : List α) : List (List α) × List α := framesFrom delim s.length s

/-- All parts between delimiters, the one behind the last delimiter included. -/
def splitAll (delim s : List α) : List (List α) := (frames delim s).1 ++ [(frames delim s).2]

/-- The state and the pending letters after one more chunk, with every frame handled. -/
def feedInto {σ : Type} (delim : List α) (handle : σ → List α → σ) (state : σ × List α)
    (chunk : List α) : σ × List α :=
  ((frames delim (state.2 ++ chunk)).1.foldl handle state.1,
    (frames delim (state.2 ++ chunk)).2)

/-- The same for a reader that reads no more chunks once it is done. -/
def feedUntil {σ : Type} (delim : List α) (handle : σ → List α → σ) (done : σ → Bool)
    (state : σ × List α) (chunk : List α) : σ × List α :=
  if done state.1 then state else feedInto delim handle state chunk

section
variable {delim s t frame rest : List α}

/-! ## One cut -/

theorem cutAt_nil (hd : delim ≠ []) : cutAt delim [] = none := if_neg hd

theorem eq_of_cutAt (h : cutAt delim s = some (frame, rest)) : s = frame ++ delim ++ rest := by
  induction s generalizing frame with
  | nil =>
    rw [cutAt] at h
    split at h
    · next hd =>
      cases h
      simp [hd]
    · exact absurd h (by simp)
  | cons x xs ih =>
    rw [cutAt] at h
    split at h
    · next hp =>
      cases h
      obtain ⟨rest, hrest⟩ := hp
      rw [List.nil_append, ← hrest, List.drop_left]
    · obtain ⟨⟨frame', rest'⟩, hcut, heq⟩ := Option.map_eq_some_iff.mp h
      cases heq
      rw [ih hcut, List.cons_append, List.cons_append]

theorem length_lt_of_cutAt (hd : delim ≠ []) (h : cutAt delim s = some (frame, rest)) :
    rest.length < s.length := by
  have hpos := List.length_pos_of_ne_nil hd
  rw [eq_of_cutAt h, List.length_append, List.length_append]
  omega

theorem cutAt_eq_none_iff (hd : delim ≠ []) : cutAt delim s = none ↔ ¬ delim <:+: s := by
  induction s with
  | nil => simp [cutAt_nil hd, hd]
  | cons x xs ih =>
    rw [cutAt, List.infix_cons_iff]
    by_cases hp : delim <+: x :: xs
    · simp [hp]
    · simp [hp, ih]

/-- The cut is made at the earliest occurrence. -/
theorem cutAt_eq_some_iff : cutAt delim s = some (frame, rest) ↔
    s = frame ++ delim ++ rest ∧
      ∀ earlier, earlier ++ delim <+: s → frame.length ≤ earlier.length := by
  induction s generalizing frame with
  | nil =>
    rw [cutAt]
    split
    · next hd =>
      subst hd
      constructor
      · intro h
        cases h
        exact ⟨rfl, fun earlier _ => Nat.zero_le _⟩
      · intro ⟨h, _⟩
        rw [eq_comm, List.append_nil, List.append_eq_nil_iff] at h
        rw [h.1, h.2]
    · next hd => simp [hd]
  | cons x xs ih =>
    rw [cutAt]
    split
    · next hp =>
      constructor
      · intro h
        cases h
        refine ⟨?_, fun earlier _ => Nat.zero_le _⟩
        rw [List.nil_append]
        exact (List.prefix_iff_eq_append.mp hp).symm
      · intro ⟨h, hfirst⟩
        obtain rfl := List.length_eq_zero_iff.mp (Nat.le_zero.mp (hfirst [] hp))
        rw [h, List.nil_append, List.drop_left]
    · next hp =>
      constructor
      · intro h
        obtain ⟨⟨frame', rest'⟩, hcut, heq⟩ := Option.map_eq_some_iff.mp h
        cases heq
        obtain ⟨hxs, hfirst⟩ := ih.mp hcut
        refine ⟨by rw [hxs, List.cons_append, List.cons_append], fun earlier hearlier => ?_⟩
        cases earlier with
        | nil => exact absurd hearlier hp
        | cons y earlier =>
          rw [List.cons_append, List.cons_prefix_cons] at hearlier
          exact Nat.succ_le_succ (hfirst earlier hearlier.2)
      · intro ⟨h, hfirst⟩
        cases frame with
        | nil =>
          rw [List.nil_append] at h
          exact absurd ⟨rest, h.symm⟩ hp
        | cons y frame =>
          rw [List.cons_append, List.cons_append, List.cons.injEq] at h
          obtain ⟨rfl, hxs⟩ := h
          rw [ih.mpr ⟨hxs, fun earlier hearlier => ?_⟩, Option.map_some]
          refine Nat.le_of_succ_le_succ (hfirst (x :: earlier) ?_)
          rw [List.cons_append, List.cons_prefix_cons]
          exact ⟨rfl, hearlier⟩

/-- **A frame found in a stream is found in every longer one.** -/
theorem cutAt_append (h : cutAt delim s = some (frame, rest)) (t : List α) :
    cutAt delim (s ++ t) = some (frame, rest ++ t) := by
  induction s generalizing frame with
  | nil =>
    rw [cutAt] at h
    split at h
    · next hd =>
      cases h
      cases t <;> simp [cutAt, hd]
    · exact absurd h (by simp)
  | cons x xs ih =>
    rw [cutAt] at h
    rw [List.cons_append, cutAt]
    split at h
    · next hp =>
      cases h
      have hlong : delim <+: x :: (xs ++ t) := hp.trans (List.prefix_append (x :: xs) t)
      rw [if_pos hlong, ← List.cons_append, List.drop_append_of_le_length hp.length_le]
    · next hp =>
      obtain ⟨⟨frame', rest'⟩, hcut, heq⟩ := Option.map_eq_some_iff.mp h
      cases heq
      have hlen : delim.length ≤ (x :: xs).length := by
        rw [eq_of_cutAt hcut]
        simp only [List.length_cons, List.length_append]
        omega
      have hlong : ¬ delim <+: x :: (xs ++ t) := fun hp' =>
        hp (List.prefix_of_prefix_length_le hp' (List.prefix_append (x :: xs) t) hlen)
      rw [if_neg hlong, ih hcut, Option.map_some]

/-! ## All frames -/

theorem framesFrom_nil (hd : delim ≠ []) (n : Nat) : framesFrom delim n [] = ([], []) := by
  cases n with
  | zero => rfl
  | succ n => rw [framesFrom, cutAt_nil hd]

/-- As much fuel as there are letters is enough, since every cut takes the delimiter away. -/
theorem framesFrom_fuel (hd : delim ≠ []) {n m : Nat} (hn : s.length ≤ n) (hm : s.length ≤ m) :
    framesFrom delim n s = framesFrom delim m s := by
  induction n generalizing m s with
  | zero =>
    rw [List.length_eq_zero_iff.mp (Nat.le_zero.mp hn), framesFrom_nil hd, framesFrom_nil hd]
  | succ n ih =>
    cases m with
    | zero =>
      rw [List.length_eq_zero_iff.mp (Nat.le_zero.mp hm), framesFrom_nil hd, framesFrom_nil hd]
    | succ m =>
      rw [framesFrom, framesFrom]
      cases hc : cutAt delim s with
      | none => rfl
      | some p =>
        have hlt := length_lt_of_cutAt hd hc
        have hrest := ih (by omega : p.2.length ≤ n) (by omega : p.2.length ≤ m)
        simp only [hrest]

theorem frames_of_none (h : cutAt delim s = none) : frames delim s = ([], s) := by
  unfold frames
  cases s with
  | nil => rfl
  | cons x xs => rw [List.length_cons, framesFrom, h]

theorem frames_of_some (hd : delim ≠ []) (h : cutAt delim s = some (frame, rest)) :
    frames delim s = (frame :: (frames delim rest).1, (frames delim rest).2) := by
  have hlt := length_lt_of_cutAt hd h
  obtain ⟨n, hn⟩ := Nat.exists_eq_succ_of_ne_zero (by omega : s.length ≠ 0)
  have hrest := framesFrom_fuel hd (by omega : rest.length ≤ n) (Nat.le_refl _)
  unfold frames
  rw [hn, framesFrom, h]
  simp only [hrest]

/-- Nothing more can be cut off what is pending. -/
theorem cutAt_pending (hd : delim ≠ []) (s : List α) : cutAt delim (frames delim s).2 = none := by
  induction hn : s.length using Nat.strongRecOn generalizing s with
  | _ n ih =>
    cases hc : cutAt delim s with
    | none =>
      rw [frames_of_none hc]
      exact hc
    | some p =>
      rw [frames_of_some hd hc]
      exact ih p.2.length (hn ▸ length_lt_of_cutAt hd hc) p.2 rfl

/-- **The frames of a stream that goes on** are its frames, and then those of what was pending with
the new letters. -/
theorem frames_append (hd : delim ≠ []) (s t : List α) :
    frames delim (s ++ t) =
      ((frames delim s).1 ++ (frames delim ((frames delim s).2 ++ t)).1,
        (frames delim ((frames delim s).2 ++ t)).2) := by
  induction hn : s.length using Nat.strongRecOn generalizing s with
  | _ n ih =>
    cases hc : cutAt delim s with
    | none => rw [frames_of_none hc, List.nil_append]
    | some p =>
      rw [frames_of_some hd hc, frames_of_some hd (cutAt_append hc t),
        ih p.2.length (hn ▸ length_lt_of_cutAt hd hc) p.2 rfl, List.cons_append]

/-- A stream with nothing pending is cut apart from what follows it. -/
theorem frames_append_of_whole (hd : delim ≠ []) (h : (frames delim s).2 = []) (t : List α) :
    frames delim (s ++ t) = ((frames delim s).1 ++ (frames delim t).1, (frames delim t).2) := by
  rw [frames_append hd, h, List.nil_append]

/-- Frames and pending letters put together again. -/
theorem frames_flatten (hd : delim ≠ []) (s : List α) :
    (frames delim s).1.flatMap (· ++ delim) ++ (frames delim s).2 = s := by
  induction hn : s.length using Nat.strongRecOn generalizing s with
  | _ n ih =>
    cases hc : cutAt delim s with
    | none =>
      rw [frames_of_none hc]
      rfl
    | some p =>
      rw [frames_of_some hd hc, List.flatMap_cons, List.append_assoc,
        ih p.2.length (hn ▸ length_lt_of_cutAt hd hc) p.2 rfl]
      exact (eq_of_cutAt hc).symm

/-! ## All parts -/

theorem not_infix_of_cutAt (hd : delim ≠ []) (h : cutAt delim s = some (frame, rest)) :
    ¬ delim <:+: frame := by
  intro hin
  cases hc : cutAt delim frame with
  | none => exact (cutAt_eq_none_iff hd).mp hc hin
  | some p =>
    -- the first occurrence would be inside the frame
    have hlong := cutAt_append hc (delim ++ rest)
    rw [← List.append_assoc, ← eq_of_cutAt h, h, Option.some.injEq, Prod.mk.injEq] at hlong
    have hlen := congrArg List.length (eq_of_cutAt hc)
    rw [← hlong.1, List.length_append, List.length_append] at hlen
    exact hd (List.length_eq_zero_iff.mp (by omega))

theorem splitAll_of_none (h : cutAt delim s = none) : splitAll delim s = [s] := by
  unfold splitAll
  rw [frames_of_none h]
  rfl

theorem splitAll_of_some (hd : delim ≠ []) (h : cutAt delim s = some (frame, rest)) :
    splitAll delim s = frame :: splitAll delim rest := by
  unfold splitAll
  rw [frames_of_some hd h]
  rfl

/-- The parts with the delimiter between them are the stream. -/
theorem intercalate_splitAll (hd : delim ≠ []) (s : List α) :
    delim.intercalate (splitAll delim s) = s := by
  have hlast : ∀ (l : List (List α)) (x : List α),
      delim.intercalate (l ++ [x]) = l.flatMap (· ++ delim) ++ x := by
    intro l x
    induction l with
    | nil => simp
    | cons y l ih =>
      rw [List.cons_append, List.intercalate_cons_of_ne_nil (by simp), ih, List.flatMap_cons,
        List.append_assoc (y ++ delim)]
  unfold splitAll
  rw [hlast]
  exact frames_flatten hd s

/-- A part has no delimiter in it and is a piece of the stream. -/
theorem of_mem_splitAll (hd : delim ≠ []) {part : List α} (h : part ∈ splitAll delim s) :
    ¬ delim <:+: part ∧ part <:+: s := by
  induction hn : s.length using Nat.strongRecOn generalizing s with
  | _ n ih =>
    cases hc : cutAt delim s with
    | none =>
      rw [splitAll_of_none hc, List.mem_singleton] at h
      rw [h]
      exact ⟨(cutAt_eq_none_iff hd).mp hc, List.infix_refl s⟩
    | some p =>
      have heq := eq_of_cutAt hc
      rw [splitAll_of_some hd hc, List.mem_cons] at h
      rcases h with h | h
      · rw [h]
        refine ⟨not_infix_of_cutAt hd hc, [], delim ++ p.2, ?_⟩
        rw [heq, List.nil_append, List.append_assoc]
      · obtain ⟨hfree, hin⟩ := ih p.2.length (hn ▸ length_lt_of_cutAt hd hc) h rfl
        refine ⟨hfree, hin.trans ⟨p.1 ++ delim, [], ?_⟩⟩
        rw [heq, List.append_nil]

/-- There is one part exactly if there is no delimiter. -/
theorem length_splitAll_eq_one_iff (hd : delim ≠ []) :
    (splitAll delim s).length = 1 ↔ ¬ delim <:+: s := by
  rw [← cutAt_eq_none_iff hd]
  cases hc : cutAt delim s with
  | none => simp [splitAll_of_none hc]
  | some p =>
    have hpos : splitAll delim p.2 ≠ [] := by
      unfold splitAll
      simp
    simp [splitAll_of_some hd hc, hpos]

/-! ## Chunks -/

section
variable {σ : Type} {handle : σ → List α → σ}

/-- **However a stream is cut into chunks, its frames are handled in order.** -/
theorem feedInto_chunks (hd : delim ≠ []) (state : σ) (chunks : List (List α)) :
    chunks.foldl (feedInto delim handle) (state, []) =
      ((frames delim chunks.flatten).1.foldl handle state, (frames delim chunks.flatten).2) := by
  suffices hgen : ∀ (state : σ) (pending : List α), cutAt delim pending = none →
      chunks.foldl (feedInto delim handle) (state, pending) =
        ((frames delim (pending ++ chunks.flatten)).1.foldl handle state,
          (frames delim (pending ++ chunks.flatten)).2) by
    exact hgen state [] (cutAt_nil hd)
  induction chunks with
  | nil =>
    intro state pending hpending
    rw [List.flatten_nil, List.append_nil, frames_of_none hpending]
    rfl
  | cons chunk chunks ih =>
    intro state pending _
    rw [List.foldl_cons, feedInto, ih _ _ (cutAt_pending hd _), List.flatten_cons,
      ← List.append_assoc pending, frames_append hd (pending ++ chunk), List.foldl_append]

/-- A reader may as well stop if a done state handles nothing any more. -/
theorem feedUntil_chunks {done : σ → Bool}
    (hdone : ∀ state frame, done state → handle state frame = state) (state : σ × List α)
    (chunks : List (List α)) :
    (chunks.foldl (feedUntil delim handle done) state).1 =
      (chunks.foldl (feedInto delim handle) state).1 := by
  have hfold : ∀ (found : List (List α)) (s : σ), done s → found.foldl handle s = s := by
    intro found s hs
    induction found with
    | nil => rfl
    | cons frame rest ih => rw [List.foldl_cons, hdone s frame hs, ih]
  have hstop : ∀ (chunks : List (List α)) (state : σ × List α), done state.1 →
      (chunks.foldl (feedUntil delim handle done) state).1 = state.1 ∧
        (chunks.foldl (feedInto delim handle) state).1 = state.1 := by
    intro chunks
    induction chunks with
    | nil => exact fun state _ => ⟨rfl, rfl⟩
    | cons chunk chunks ih =>
      intro state hs
      have hinto : (feedInto delim handle state chunk).1 = state.1 := hfold _ _ hs
      rw [List.foldl_cons, List.foldl_cons, feedUntil, if_pos hs]
      exact ⟨(ih state hs).1, (ih _ (hinto ▸ hs)).2.trans hinto⟩
  induction chunks generalizing state with
  | nil => rfl
  | cons chunk chunks ih =>
    by_cases hs : done state.1
    · exact (hstop _ _ hs).1.trans (hstop _ _ hs).2.symm
    · rw [List.foldl_cons, List.foldl_cons, feedUntil, if_neg hs, ih]

end

end

end InfSplitter.Lib
