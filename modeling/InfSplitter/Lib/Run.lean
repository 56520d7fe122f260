import Mathlib.Data.List.Basic

/-!
# Runs of a labelled transition system

A `System` has one initial state and steps that carry a label. A `Run` is a finite sequence of
steps from the initial state, remembered as the list of *moments* it went through: the state before
each step together with the step's label, newest first.

Two induction principles cover what is proved about runs here. `Run.preserves` is the usual one,
relative to a side condition `ok` on the moments: what holds at the start and is kept by every step
that meets `ok` holds after every run that met it throughout; `Run.at_moments` reads a fact about
the steps themselves off it. `Run.always_iff` is for a property
that steps may also break: if at every state that has the property the step keeps it *exactly when*
the moment is `ok`, then a run keeps it throughout exactly when all its moments are.
-/

set_option autoImplicit false

namespace InfSplitter.Lib

structure System (σ α : Type) where
  init : σ
  step : σ → α → σ → Prop

namespace System

variable {σ α : Type}

/-- `S.Run moments s`: the system can go through `moments`, newest first, and stand in `s`. -/
inductive Run (S : System σ α) : List (σ × α) → σ → Prop
  | init : Run S [] S.init
  | step {moments : List (σ × α)} {s s' : σ} {a : α} (run : Run S moments s)
      (h : S.step s a s') : Run S ((s, a) :: moments) s'

variable {S : System σ α}

theorem Run.preserves {P : σ → Prop} (ok : σ → α → Prop) (hinit : P S.init)
    (hstep : ∀ s a s', P s → ok s a → S.step s a s' → P s') {moments : List (σ × α)} {s : σ}
    (run : S.Run moments s) (hok : ∀ m ∈ moments, ok m.1 m.2) : P s := by
  induction run with
  | init => exact hinit
  | step run h ih =>
    obtain ⟨h1, h2⟩ := List.forall_mem_cons.mp hok
    exact hstep _ _ _ (ih h2) h1 h

/-- The case without a side condition. -/
theorem Run.invariant {P : σ → Prop} (hinit : P S.init)
    (hstep : ∀ s a s', P s → S.step s a s' → P s') {moments : List (σ × α)} {s : σ}
    (run : S.Run moments s) : P s :=
  run.preserves (fun _ _ => True) hinit (fun s a s' hP _ h => hstep s a s' hP h)
    (fun _ _ => trivial)

/-- What follows at one step from an invariant holds at every step of a run. -/
theorem Run.at_moments {P : σ → Prop} (ok Q : σ → α → Prop) (hinit : P S.init)
    (hstep : ∀ s a s', P s → ok s a → S.step s a s' → P s')
    (hQ : ∀ s a s', P s → ok s a → S.step s a s' → Q s a) {moments : List (σ × α)} {s : σ}
    (run : S.Run moments s) (hok : ∀ m ∈ moments, ok m.1 m.2) : ∀ m ∈ moments, Q m.1 m.2 := by
  induction run with
  | init => exact fun _ hm => absurd hm List.not_mem_nil
  | step run h ih =>
    obtain ⟨h1, h2⟩ := List.forall_mem_cons.mp hok
    have hP := run.preserves ok hinit hstep h2
    exact List.forall_mem_cons.mpr ⟨hQ _ _ _ hP h1 h, ih h2⟩

/-- **A property that steps can break, over a whole run.** -/
theorem Run.always_iff (P : σ → Prop) (ok : σ → α → Prop) (hinit : P S.init)
    (hstep : ∀ s a s', P s → S.step s a s' → (P s' ↔ ok s a)) {moments : List (σ × α)} {s : σ}
    (run : S.Run moments s) :
    (P s ∧ ∀ m ∈ moments, P m.1) ↔ ∀ m ∈ moments, ok m.1 m.2 := by
  induction run with
  | init => simp [hinit]
  | step run h ih =>
    rw [List.forall_mem_cons, List.forall_mem_cons, ← ih]
    constructor
    · intro ⟨hs', hs, hall⟩
      exact ⟨(hstep _ _ _ hs h).mp hs', hs, hall⟩
    · intro ⟨hok, hs, hall⟩
      exact ⟨(hstep _ _ _ hs h).mpr hok, hs, hall⟩

/-- What holds at every moment held at the start. -/
theorem Run.init_of_always {P : σ → Prop} {moments : List (σ × α)} {s : σ}
    (run : S.Run moments s) (hs : P s) (h : ∀ m ∈ moments, P m.1) : P S.init := by
  induction run with
  | init => exact hs
  | step run _ ih =>
    obtain ⟨h1, h2⟩ := List.forall_mem_cons.mp h
    exact ih h1 h2

/-- **A run is followed by another system**, if every step is followed by some steps. What is seen
of the labels is kept. -/
theorem Run.follow {τ β γ : Type} {T : System τ β} (seen : α → Option γ) (seen' : β → Option γ)
    {R : σ → τ → Prop} (ok : σ → α → Prop) (hinit : R S.init T.init)
    (hstep : ∀ s a s' t moments', R s t → ok s a → S.step s a s' → T.Run moments' t →
      ∃ moments'' t', T.Run moments'' t' ∧ R s' t' ∧
        moments''.filterMap (fun m => seen' m.2) =
          (seen a).toList ++ moments'.filterMap fun m => seen' m.2)
    {moments : List (σ × α)} {s : σ} (run : S.Run moments s) (hok : ∀ m ∈ moments, ok m.1 m.2) :
    ∃ moments' t, T.Run moments' t ∧ R s t ∧
      moments'.filterMap (fun m => seen' m.2) = moments.filterMap fun m => seen m.2 := by
  induction run with
  | init => exact ⟨[], T.init, Run.init, hinit, rfl⟩
  | @step moments s s' a run h ih =>
    obtain ⟨h1, h2⟩ := List.forall_mem_cons.mp hok
    obtain ⟨moments', t, run', hR, hseen⟩ := ih h2
    obtain ⟨moments'', t', run'', hR', hseen'⟩ := hstep s a s' t moments' hR h1 h run'
    refine ⟨moments'', t', run'', hR', ?_⟩
    rw [hseen', hseen]
    cases ha : seen a with
    | none => simp [ha]
    | some c => simp [ha]

end System

end InfSplitter.Lib
