import InfSplitter.Lib.Chase
import Mathlib.Data.Finset.Card
import Mathlib.Logic.Function.Basic

/-!
# Elements linked to the one before

`link a` is `none` where `a` is not there, `some none` where it is a root, and `some (some p)` where
it comes after `p`. A `Forest` is a link without a way back: every predecessor is there, and a rank
goes down along the links. It grows at fresh elements only (`Forest.insert`, and `Forest.grow` for
several in a row), which is all an append-only store does.

`Walks` is what following the links from an element passes, root last. A chain of elements that is
linked in order (`InChain`) is walked in reverse (`InChain.walks`): this is how a walk over several
such chains comes to the concatenation of them.

`trail` is the loop that collects what it passes, with fuel like `chase`.
-/

set_option autoImplicit false

namespace InfSplitter.Lib

variable {α β : Type}

/-- **Links without a way back go down a rank**, if they lead to finitely many elements: what can be
reached gets less along every link. -/
theorem exists_rank {R : α → α → Prop} (acyclic : ∀ a, ¬ Relation.TransGen R a a)
    (targets : Finset α) (hR : ∀ {a b}, R a b → b ∈ targets) :
    ∃ rank : α → Nat, ∀ {a b : α}, R a b → rank b < rank a := by
  classical
  refine ⟨fun a => (targets.filter (Relation.TransGen R a)).card, ?_⟩
  intro a b hab
  apply Finset.card_lt_card
  refine Finset.ssubset_iff_of_subset ?_ |>.mpr ⟨b, ?_, ?_⟩
  · intro c hc
    obtain ⟨hin, hbc⟩ := Finset.mem_filter.mp hc
    exact Finset.mem_filter.mpr ⟨hin, .head hab hbc⟩
  · exact Finset.mem_filter.mpr ⟨hR hab, .single hab⟩
  · intro hb
    exact acyclic b (Finset.mem_filter.mp hb).2

/-! ## Forests -/

structure Forest (link : α → Option (Option α)) : Prop where
  closed : ∀ {a p : α}, link a = some (some p) → (link p).isSome = true
  ranked : ∃ rank : α → Nat, ∀ {a p : α}, link a = some (some p) → rank p < rank a

namespace Forest

variable {link : α → Option (Option α)}

theorem empty : Forest (fun _ : α => none) where
  closed h := by cases h
  ranked := ⟨fun _ => 0, fun h => by cases h⟩

/-- No element comes after itself. -/
theorem acyclic (h : Forest link) (a : α) :
    ¬ Relation.TransGen (fun a p => link a = some (some p)) a a := by
  obtain ⟨rank, hrank⟩ := h.ranked
  have down : ∀ b, Relation.TransGen (fun a p => link a = some (some p)) a b → rank b < rank a := by
    intro b hb
    induction hb with
    | single hab => exact hrank hab
    | tail _ hbc ih => exact Nat.lt_trans (hrank hbc) ih
  intro hcycle
  exact absurd (down a hcycle) (Nat.lt_irrefl _)

variable [DecidableEq α]

/-- **A forest grows at a fresh element**, as long as what it comes after is there. -/
theorem insert (h : Forest link) {a : α} {prev : Option α} (fresh : link a = none)
    (hprev : ∀ p, prev = some p → (link p).isSome = true) :
    Forest (Function.update link a (some prev)) := by
  have ne_of_isSome {p : α} (hp : (link p).isSome = true) : p ≠ a := by
    rintro rfl
    rw [fresh] at hp
    cases hp
  have kept {p : α} (hp : (link p).isSome = true) :
      (Function.update link a (some prev) p).isSome = true := by
    rwa [Function.update_of_ne (ne_of_isSome hp)]
  obtain ⟨rank, hrank⟩ := h.ranked
  constructor
  · intro b p hb
    by_cases hba : b = a
    · subst hba
      rw [Function.update_self, Option.some.injEq] at hb
      exact kept (hprev p hb)
    · rw [Function.update_of_ne hba] at hb
      exact kept (h.closed hb)
  · -- nothing comes after the new element, so its rank is free
    refine ⟨Function.update rank a ((prev.map rank).getD 0 + 1), ?_⟩
    intro b p hb
    by_cases hba : b = a
    · subst hba
      rw [Function.update_self, Option.some.injEq] at hb
      rw [Function.update_self, Function.update_of_ne (ne_of_isSome (hprev p hb)), hb]
      exact Nat.lt_succ_self _
    · rw [Function.update_of_ne hba] at hb
      rw [Function.update_of_ne hba, Function.update_of_ne (ne_of_isSome (h.closed hb))]
      exact hrank hb

end Forest

/-! ## Chains -/

/-- The elements are linked in order, the first of them to `prev`. -/
def InChain (link : α → Option (Option α)) : Option α → List α → Prop
  | _, [] => True
  | prev, a :: rest => link a = some prev ∧ InChain link (some a) rest

namespace InChain

variable {link link' : α → Option (Option α)} {prev : Option α} {as : List α}

theorem isSome (h : InChain link prev as) {a : α} (ha : a ∈ as) : (link a).isSome = true := by
  induction as generalizing prev with
  | nil => cases ha
  | cons b rest ih =>
    obtain ⟨hb, hrest⟩ := h
    rcases List.mem_cons.mp ha with rfl | ha
    · rw [hb]
      rfl
    · exact ih hrest ha

/-- A chain depends on its own links only. -/
theorem congr (h : InChain link prev as) (same : ∀ a ∈ as, link' a = link a) :
    InChain link' prev as := by
  induction as generalizing prev with
  | nil => trivial
  | cons b rest ih =>
    obtain ⟨hb, hrest⟩ := h
    obtain ⟨hsame, hsames⟩ := List.forall_mem_cons.mp same
    exact ⟨hsame.trans hb, ih hrest hsames⟩

end InChain

/-- Insert elements in a row, the first of them after `prev`. -/
def grow [DecidableEq α] (link : α → Option (Option α)) :
    Option α → List α → α → Option (Option α)
  | _, [] => link
  | prev, a :: rest => grow (Function.update link a (some prev)) (some a) rest

section
variable [DecidableEq α] {link : α → Option (Option α)} {prev : Option α} {as : List α}

theorem grow_of_notMem {a : α} (ha : a ∉ as) : grow link prev as a = link a := by
  induction as generalizing link prev with
  | nil => rfl
  | cons b rest ih =>
    obtain ⟨hne, hrest⟩ := not_or.mp (mt List.mem_cons.mpr ha)
    unfold grow
    rw [ih hrest, Function.update_of_ne hne]

/-- Growing loses no link. -/
theorem isSome_grow {a : α} (h : (link a).isSome = true ∨ a ∈ as) :
    (grow link prev as a).isSome = true := by
  induction as generalizing link prev with
  | nil => exact h.resolve_right List.not_mem_nil
  | cons b rest ih =>
    refine ih ?_
    by_cases hab : a = b
    · subst hab
      rw [Function.update_self]
      exact Or.inl rfl
    · rw [Function.update_of_ne hab]
      exact h.imp_right fun hmem => (List.mem_cons.mp hmem).resolve_left hab

theorem inChain_grow (nodup : as.Nodup) : InChain (grow link prev as) prev as := by
  induction as generalizing link prev with
  | nil => trivial
  | cons a rest ih =>
    obtain ⟨ha, hrest⟩ := List.nodup_cons.mp nodup
    refine ⟨?_, ih hrest⟩
    unfold grow
    rw [grow_of_notMem ha, Function.update_self]

theorem Forest.grow (h : Forest link) (nodup : as.Nodup) (fresh : ∀ a ∈ as, link a = none)
    (hprev : ∀ p, prev = some p → (link p).isSome = true) :
    Forest (Lib.grow link prev as) := by
  induction as generalizing link prev with
  | nil => exact h
  | cons a rest ih =>
    obtain ⟨ha, hrest⟩ := List.nodup_cons.mp nodup
    obtain ⟨hfresh, hfreshes⟩ := List.forall_mem_cons.mp fresh
    unfold Lib.grow
    refine ih (h.insert hfresh hprev) hrest ?_ ?_
    · intro b hb
      have hne : b ≠ a := by
        rintro rfl
        exact ha hb
      rw [Function.update_of_ne hne]
      exact hfreshes b hb
    · intro p hp
      rw [← Option.some.inj hp, Function.update_self]
      rfl

end

/-! ## Walks -/

/-- What following the links passes. -/
inductive Walks (link : α → Option (Option α)) : Option α → List α → Prop
  | stop : Walks link none []
  | missing {a : α} (h : link a = none) : Walks link (some a) []
  | step {a : α} {prev : Option α} {l : List α} (h : link a = some prev)
      (rest : Walks link prev l) : Walks link (some a) (a :: l)

section
variable {link : α → Option (Option α)}

theorem Walks.unique {start : Option α} {l l' : List α} (h : Walks link start l)
    (h' : Walks link start l') : l = l' := by
  induction h generalizing l' with
  | stop =>
    cases h'
    rfl
  | missing hmissing =>
    cases h' with
    | missing => rfl
    | step hthere =>
      rw [hmissing] at hthere
      cases hthere
  | step hthere _ ih =>
    cases h' with
    | missing hmissing =>
      rw [hmissing] at hthere
      cases hthere
    | step hthere' rest' =>
      rw [hthere, Option.some.injEq] at hthere'
      subst hthere'
      rw [ih rest']

/-- **A chain is walked in reverse, and then what it starts after.** -/
theorem InChain.walks {prev : Option α} {as l : List α} (h : InChain link prev as)
    (rest : Walks link prev l) : Walks link (as.getLast?.or prev) (as.reverse ++ l) := by
  induction as generalizing prev l with
  | nil => exact rest
  | cons a as ih =>
    obtain ⟨ha, has⟩ := h
    have walked := ih has (.step ha rest)
    have hlast : (a :: as).getLast?.or prev = as.getLast?.or (some a) := by
      rw [List.getLast?_cons]
      cases as.getLast? <;> rfl
    rw [hlast, List.reverse_cons, List.append_assoc]
    exact walked

end

/-! ## The loop that walks -/

/-- Follow `next` from an element to the end; what is passed, or `none` when the fuel runs out. -/
def trail (next : β → Option β) : Nat → β → Option (List β)
  | 0, _ => none
  | fuel + 1, b =>
    match next b with
    | none => some [b]
    | some b' => (trail next fuel b').map (b :: ·)

/-- What the first turn of the loop does. -/
theorem trail_cases {next : β → Option β} {fuel : Nat} {b : β} {l : List β}
    (h : trail next fuel b = some l) :
    (next b = none ∧ l = [b]) ∨
      ∃ b' l' fuel', next b = some b' ∧ trail next fuel' b' = some l' ∧ l = b :: l' := by
  cases fuel with
  | zero => cases h
  | succ fuel =>
    unfold trail at h
    cases hn : next b with
    | none =>
      rw [hn] at h
      cases h
      exact Or.inl ⟨rfl, rfl⟩
    | some b' =>
      rw [hn] at h
      obtain ⟨l', hl', rfl⟩ := Option.map_eq_some_iff.mp h
      exact Or.inr ⟨b', l', fuel, rfl, hl', rfl⟩

theorem trail_head {next : β → Option β} {fuel : Nat} {b : β} {l : List β}
    (h : trail next fuel b = some l) : ∃ rest, l = b :: rest := by
  rcases trail_cases h with ⟨_, rfl⟩ | ⟨_, l', _, _, _, rfl⟩
  · exact ⟨[], rfl⟩
  · exact ⟨l', rfl⟩

theorem trail_last {next : β → Option β} {fuel : Nat} {b : β} {l : List β}
    (h : trail next fuel b = some l) (hlast : next b = none) : l = [b] := by
  rcases trail_cases h with ⟨_, hl⟩ | ⟨_, _, _, hn, _, _⟩
  · exact hl
  · rw [hlast] at hn
    cases hn

theorem trail_next {next : β → Option β} {fuel : Nat} {b b' : β} {l : List β}
    (h : trail next fuel b = some l) (hnext : next b = some b') :
    ∃ l' fuel', trail next fuel' b' = some l' ∧ l = b :: l' := by
  rcases trail_cases h with ⟨hnone, _⟩ | ⟨_, l', fuel', hn, hl', hl⟩
  · rw [hnone] at hnext
    cases hnext
  · rw [hnext, Option.some.injEq] at hn
    subst hn
    exact ⟨l', fuel', hl', hl⟩

/-- What it passes has whatever the first element has and links keep. -/
theorem trail_inv {next : β → Option β} {P : β → Prop}
    (hstep : ∀ b b', P b → next b = some b' → P b') {fuel : Nat} {b : β} {l : List β}
    (h : trail next fuel b = some l) (hb : P b) : ∀ x ∈ l, P x := by
  induction l generalizing fuel b with
  | nil => exact fun x hx => absurd hx List.not_mem_nil
  | cons c l ih =>
    rcases trail_cases h with ⟨_, hl⟩ | ⟨b', l', fuel', hn, hl', hl⟩
    · cases hl
      exact List.forall_mem_cons.mpr ⟨hb, fun x hx => absurd hx List.not_mem_nil⟩
    · have hb' := hstep b b' hb hn
      cases hl
      exact List.forall_mem_cons.mpr ⟨hb, ih hl' hb'⟩

/-- What it passes does not depend on the fuel. -/
theorem trail_unique {next : β → Option β} {fuel fuel' : Nat} {b : β} {l l' : List β}
    (h : trail next fuel b = some l) (h' : trail next fuel' b = some l') : l = l' := by
  induction l generalizing fuel fuel' b l' with
  | nil =>
    obtain ⟨_, hl⟩ := trail_head h
    cases hl
  | cons c l ih =>
    rcases trail_cases h with ⟨hnone, hl⟩ | ⟨b1, l1, f1, hn1, h1, hl⟩
    · rw [hl, trail_last h' hnone]
    · obtain ⟨l2, f2, h2, rfl⟩ := trail_next h' hn1
      cases hl
      rw [ih h1 h2]

/-- It ends where `chase` does. -/
theorem trail_isSome {next : β → Option β} {fuel : Nat} {b r : β}
    (h : chase next (fun _ => false) fuel b = some r) : ∃ l, trail next fuel b = some l := by
  induction fuel generalizing b with
  | zero => cases h
  | succ fuel ih =>
    unfold trail
    cases hn : next b with
    | none => exact ⟨[b], rfl⟩
    | some b' =>
      rw [chase_next rfl hn] at h
      obtain ⟨l, hl⟩ := ih h
      exact ⟨b :: l, congrArg (Option.map (b :: ·)) hl⟩

/-- Over values that are stored under keys, the loop walks the links between the keys. -/
theorem walks_of_trail {get : α → Option β} {key : β → α} {prev : β → Option α}
    (keyed : ∀ {k b}, get k = some b → key b = k) {fuel : Nat} {b : β} {l : List β}
    (hb : get (key b) = some b) (h : trail (fun b => (prev b).bind get) fuel b = some l) :
    Walks (fun k => (get k).map prev) (some (key b)) (l.map key) := by
  induction fuel generalizing b l with
  | zero => cases h
  | succ fuel ih =>
    have hlink : (get (key b)).map prev = some (prev b) := by rw [hb, Option.map_some]
    unfold trail at h
    cases hp : prev b with
    | none =>
      simp only [hp, Option.bind_none] at h
      cases h
      exact .step (hlink.trans (congrArg some hp)) .stop
    | some p =>
      cases hg : get p with
      | none =>
        simp only [hp, Option.bind_some, hg] at h
        cases h
        exact .step (hlink.trans (congrArg some hp)) (.missing (by simp only [hg, Option.map_none]))
      | some b' =>
        simp only [hp, Option.bind_some, hg] at h
        obtain ⟨l', hl', rfl⟩ := Option.map_eq_some_iff.mp h
        have hkey : key b' = p := keyed hg
        have walked := ih (hkey.symm ▸ hg) hl'
        rw [hkey] at walked
        exact .step (hlink.trans (congrArg some hp)) walked

end InfSplitter.Lib
