import Mathlib.Data.List.Basic
import Mathlib.Logic.Relation

/-!
# Following links

A loop of the form

```
while !stop(a) { match next(a) { Some(b) => a = b, None => break } }
```

over a partial successor `next`. Nothing bounds it in general, so `chase` takes fuel and answers
`none` when the fuel runs out. `chase_isSome` is what makes the fuel harmless: when the successor
stays inside a finite list of elements and some rank goes down along it, one unit of fuel more than
that list is long is enough. `chase_succ` says more fuel never changes an answer, so an answer is
*the* answer of the loop.
-/

set_option autoImplicit false

namespace InfSplitter.Lib

variable {α : Type}

/-- Follow `next` from an element until `stop` holds or there is no successor; the element the loop
ends on, or `none` when the fuel runs out first. -/
def chase (next : α → Option α) (stop : α → Bool) : Nat → α → Option α
  | 0, _ => none
  | fuel + 1, a =>
    if stop a then some a
    else match next a with
      | none => some a
      | some b => chase next stop fuel b

section
variable {next : α → Option α} {stop : α → Bool}

theorem chase_stop {fuel : Nat} {a : α} (h : stop a = true) :
    chase next stop (fuel + 1) a = some a := by
  simp [chase, h]

theorem chase_end {fuel : Nat} {a : α} (h : next a = none) :
    chase next stop (fuel + 1) a = some a := by
  simp [chase, h]

theorem chase_next {fuel : Nat} {a b : α} (hs : stop a = false) (h : next a = some b) :
    chase next stop (fuel + 1) a = chase next stop fuel b := by
  simp [chase, hs, h]

/-- One more unit of fuel never changes an answer. -/
theorem chase_succ {fuel : Nat} {a r : α} (h : chase next stop fuel a = some r) :
    chase next stop (fuel + 1) a = some r := by
  induction fuel generalizing a with
  | zero => simp [chase] at h
  | succ fuel ih =>
    cases hs : stop a with
    | true =>
      rw [chase_stop hs] at h ⊢
      exact h
    | false =>
      cases hn : next a with
      | none =>
        rw [chase_end hn] at h ⊢
        exact h
      | some b =>
        rw [chase_next hs hn] at h ⊢
        exact ih h

theorem chase_mono {fuel fuel' : Nat} (hle : fuel ≤ fuel') {a r : α}
    (h : chase next stop fuel a = some r) : chase next stop fuel' a = some r := by
  induction hle with
  | refl => exact h
  | step _ ih => exact chase_succ ih

/-- Two answers of the loop are the same, whatever fuel they took. -/
theorem chase_unique {fuel fuel' : Nat} {a r r' : α} (h : chase next stop fuel a = some r)
    (h' : chase next stop fuel' a = some r') : r = r' := by
  have hr := chase_mono (Nat.le_max_left fuel fuel') h
  rw [chase_mono (Nat.le_max_right fuel fuel') h'] at hr
  exact (Option.some.inj hr).symm

/-- The loop sees its successor only on what it passes. -/
theorem chase_congr {next' : α → Option α} {P : α → Prop} (hnext : ∀ a, P a → next' a = next a)
    (hstep : ∀ a b, P a → next a = some b → P b) (fuel : Nat) {a : α} (ha : P a) :
    chase next' stop fuel a = chase next stop fuel a := by
  induction fuel generalizing a with
  | zero => rfl
  | succ fuel ih =>
    cases hs : stop a with
    | true => rw [chase_stop hs, chase_stop hs]
    | false =>
      cases hn : next a with
      | none => rw [chase_end hn, chase_end ((hnext a ha).trans hn)]
      | some b =>
        rw [chase_next hs hn, chase_next hs ((hnext a ha).trans hn)]
        exact ih (hstep a b ha hn)

/-- How many of the listed elements rank strictly below `a`. -/
private def below (rank : α → Nat) (nodes : List α) (a : α) : Nat :=
  nodes.countP fun b => rank b < rank a

private theorem below_lt {rank : α → Nat} {nodes : List α} {a b : α} (hb : b ∈ nodes)
    (h : rank b < rank a) : below rank nodes b < below rank nodes a := by
  have key : ∀ l : List α, below rank l b ≤ below rank l a := fun l =>
    List.countP_mono_left fun x _ hx => by
      simp only [decide_eq_true_eq] at hx ⊢
      omega
  obtain ⟨pre, post, rfl⟩ := List.append_of_mem hb
  have h1 := key pre
  have h2 := key post
  unfold below at h1 h2 ⊢
  rw [List.countP_append, List.countP_append, List.countP_cons_of_neg (by simp),
    List.countP_cons_of_pos (by simpa using h)]
  omega

/-- **Enough fuel.** If every link followed from a `P` element leads to a listed `P` element of
smaller rank, one unit of fuel more than there are listed elements suffices. -/
theorem chase_isSome (next : α → Option α) (stop : α → Bool) {P : α → Prop} (rank : α → Nat)
    (nodes : List α)
    (hstep : ∀ a b, P a → next a = some b → P b ∧ b ∈ nodes ∧ rank b < rank a)
    {a : α} (ha : P a) : ∃ r, chase next stop (nodes.length + 1) a = some r := by
  have key : ∀ (fuel : Nat) (a : α), P a → below rank nodes a < fuel →
      ∃ r, chase next stop fuel a = some r := by
    intro fuel
    induction fuel with
    | zero => intro a _ h; exact absurd h (Nat.not_lt_zero _)
    | succ fuel ih =>
      intro a ha hlt
      cases hs : stop a with
      | true => exact ⟨a, chase_stop hs⟩
      | false =>
        cases hn : next a with
        | none => exact ⟨a, chase_end hn⟩
        | some b =>
          rw [chase_next hs hn]
          obtain ⟨hb, hmem, hrank⟩ := hstep a b ha hn
          have := below_lt hmem hrank
          exact ih b hb (by omega)
  refine key _ a ha (Nat.lt_succ_of_le ?_)
  exact List.countP_le_length

end

end InfSplitter.Lib
