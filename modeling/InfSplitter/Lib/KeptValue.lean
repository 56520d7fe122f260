import InfSplitter.Lib.Run

/-!
# A value that is kept for a while

Whoever asks gets the value that is kept, if it is younger than `ttl`. If it is not, a new value is
computed, which takes its time, and kept when it is there. Nothing keeps two that ask from computing
at the same time; what is kept is the value that was there last.

So every answer is a value that was computed less than `ttl` ago, the latest there was, and a
computation does not start within `ttl` of the end of another (`Timely.of_run`).
-/

set_option autoImplicit false

namespace InfSplitter.Lib

/-- A computation that has ended. -/
structure Round (ρ : Type) where
  started : Nat
  finished : Nat
  value : ρ

structure Answer (ρ : Type) where
  time : Nat
  value : ρ

structure KeptValue (ρ : Type) where
  now : Nat
  kept : Option (Nat × ρ)
  -- when the computations under way have started
  computing : List Nat
  -- the latest first
  rounds : List (Round ρ)
  answers : List (Answer ρ)

inductive KeptEvent (ρ : Type)
  | passes (time : Nat)
  | hit (value : ρ)
  | begins
  | finishes (started : Nat) (value : ρ)
  -- whoever asked has gone
  | abandons (started : Nat)

namespace KeptValue

variable {ρ : Type}

def start : KeptValue ρ := { now := 0, kept := none, computing := [], rounds := [], answers := [] }

/-- A value that may be answered with. -/
def Young (ttl : Nat) (s : KeptValue ρ) (value : ρ) : Prop :=
  ∃ time, s.kept = some (time, value) ∧ s.now - time < ttl

inductive Step (ttl : Nat) (Computes : ρ → Prop) : KeptValue ρ → KeptEvent ρ → KeptValue ρ → Prop
  | passes {s : KeptValue ρ} (time : Nat) :
      Step ttl Computes s (.passes time) { s with now := s.now + time }
  | hit {s : KeptValue ρ} {value : ρ} (young : Young ttl s value) :
      Step ttl Computes s (.hit value) { s with answers := ⟨s.now, value⟩ :: s.answers }
  | begins {s : KeptValue ρ} (old : ∀ value, ¬ Young ttl s value) :
      Step ttl Computes s .begins { s with computing := s.now :: s.computing }
  | finishes {s : KeptValue ρ} {started : Nat} {value : ρ} (mem : started ∈ s.computing)
      (computes : Computes value) :
      Step ttl Computes s (.finishes started value)
        { s with
          kept := some (s.now, value)
          computing := s.computing.erase started
          rounds := ⟨started, s.now, value⟩ :: s.rounds
          answers := ⟨s.now, value⟩ :: s.answers }
  | abandons {s : KeptValue ρ} (started : Nat) :
      Step ttl Computes s (.abandons started)
        { s with computing := s.computing.erase started }

def system (ttl : Nat) (Computes : ρ → Prop) : System (KeptValue ρ) (KeptEvent ρ) :=
  { init := start, step := Step ttl Computes }

/-- The round that an answer is from: it is not too old, and the latest before the answer. -/
def From (ttl : Nat) (rounds : List (Round ρ)) (answer : Answer ρ) (round : Round ρ) : Prop :=
  round.value = answer.value ∧ round.finished ≤ answer.time ∧
    answer.time < round.finished + ttl ∧
    ∀ other ∈ rounds, other.finished < answer.time → other.finished ≤ round.finished

structure Timely (ttl : Nat) (Computes : ρ → Prop) (s : KeptValue ρ) : Prop where
  kept : s.kept = s.rounds.head?.map fun round => (round.finished, round.value)
  latestFirst : s.rounds.Pairwise fun a b => b.finished ≤ a.finished
  rounds : ∀ round ∈ s.rounds, round.started ≤ round.finished ∧ round.finished ≤ s.now ∧
    Computes round.value
  computing : ∀ started ∈ s.computing, started ≤ s.now
  -- nothing is computed while there is a young value
  apart : ∀ started, (started ∈ s.computing ∨ ∃ round ∈ s.rounds, round.started = started) →
    ∀ other ∈ s.rounds, other.finished < started → other.finished + ttl ≤ started
  answers : ∀ answer ∈ s.answers, answer.time ≤ s.now ∧
    ∃ round ∈ s.rounds, From ttl s.rounds answer round

namespace Timely

variable {ttl : Nat} {Computes : ρ → Prop} {s s' : KeptValue ρ} {e : KeptEvent ρ}

theorem start : Timely ttl Computes (start : KeptValue ρ) where
  kept := rfl
  latestFirst := .nil
  rounds := List.forall_mem_nil _
  computing := List.forall_mem_nil _
  apart _ _ := List.forall_mem_nil _
  answers := List.forall_mem_nil _

/-- The first round is the latest. -/
theorem le_head (h : Timely ttl Computes s) {round other : Round ρ}
    (hround : s.rounds.head? = some round) (hother : other ∈ s.rounds) :
    other.finished ≤ round.finished := by
  obtain ⟨rest, hrest⟩ := List.head?_eq_some_iff.mp hround
  have latest := h.latestFirst
  rw [hrest] at hother latest
  rcases List.mem_cons.mp hother with rfl | hother
  · exact Nat.le_refl _
  · exact (List.pairwise_cons.mp latest).1 other hother

/-- The kept value is that of the latest round. -/
theorem kept_some (h : Timely ttl Computes s) {time : Nat} {value : ρ}
    (hkept : s.kept = some (time, value)) :
    ∃ round, s.rounds.head? = some round ∧ round ∈ s.rounds ∧ round.finished = time ∧
      round.value = value := by
  obtain ⟨round, hround, heq⟩ := Option.map_eq_some_iff.mp (h.kept.symm.trans hkept)
  cases heq
  exact ⟨round, hround, List.mem_of_head? hround, rfl, rfl⟩

/-- What is answered by the kept value. -/
theorem hit (h : Timely ttl Computes s) {value : ρ} (young : Young ttl s value) :
    ∃ round ∈ s.rounds, From ttl s.rounds ⟨s.now, value⟩ round := by
  obtain ⟨time, hkept, hage⟩ := young
  obtain ⟨round, hhead, hmem, rfl, rfl⟩ := h.kept_some hkept
  have hle := (h.rounds round hmem).2.1
  refine ⟨round, hmem, rfl, hle, ?_, fun other hother _ => h.le_head hhead hother⟩
  show s.now < round.finished + ttl
  omega

/-- A computation that begins is apart from those that have ended. -/
theorem begins (h : Timely ttl Computes s) (old : ∀ value, ¬ Young ttl s value)
    {other : Round ρ} (hother : other ∈ s.rounds) : other.finished + ttl ≤ s.now := by
  cases hhead : s.rounds.head? with
  | none =>
    rw [List.head?_eq_none_iff.mp hhead] at hother
    cases hother
  | some round =>
    have hkept : s.kept = some (round.finished, round.value) := by
      rw [h.kept, hhead]
      rfl
    have hage : ¬ s.now - round.finished < ttl := fun hage =>
      old round.value ⟨round.finished, hkept, hage⟩
    have hle := h.le_head hhead hother
    have hnow := (h.rounds round (List.mem_of_head? hhead)).2.1
    omega

theorem step (h : Timely ttl Computes s) (pos : 0 < ttl) (hstep : Step ttl Computes s e s') :
    Timely ttl Computes s' := by
  cases hstep with
  | passes time =>
    have later {n : Nat} (hn : n ≤ s.now) : n ≤ s.now + time := Nat.le_add_right_of_le hn
    exact
      { kept := h.kept
        latestFirst := h.latestFirst
        rounds := fun round hround =>
          (h.rounds round hround).imp_right fun hrest => hrest.imp_left later
        computing := fun started hstarted => later (h.computing started hstarted)
        apart := h.apart
        answers := fun answer hanswer => (h.answers answer hanswer).imp_left later }
  | hit young =>
    refine { h with answers := List.forall_mem_cons.mpr ⟨⟨Nat.le_refl _, h.hit young⟩, h.answers⟩ }
  | begins old =>
    refine
      { h with
        computing := List.forall_mem_cons.mpr ⟨Nat.le_refl _, h.computing⟩
        apart := ?_ }
    intro started hstarted other hother hlt
    rcases hstarted with hcomputing | hround
    · rcases List.mem_cons.mp hcomputing with rfl | hcomputing
      · exact h.begins old hother
      · exact h.apart started (Or.inl hcomputing) other hother hlt
    · exact h.apart started (Or.inr hround) other hother hlt
  | @finishes started value mem computes =>
    have hstarted := h.computing started mem
    refine
      { kept := rfl
        latestFirst := List.pairwise_cons.mpr
          ⟨fun other hother => (h.rounds other hother).2.1, h.latestFirst⟩
        rounds := List.forall_mem_cons.mpr ⟨⟨hstarted, Nat.le_refl _, computes⟩, h.rounds⟩
        computing := fun t ht => h.computing t (List.mem_of_mem_erase ht)
        apart := ?_
        answers := ?_ }
    · -- no start is later than the round that ends now
      intro t ht other hother hlt
      have hold : t ∈ s.computing ∨ ∃ round ∈ s.rounds, round.started = t := by
        rcases ht with hcomputing | ⟨round, hround, rfl⟩
        · exact Or.inl (List.mem_of_mem_erase hcomputing)
        · rcases List.mem_cons.mp hround with rfl | hround
          · exact Or.inl mem
          · exact Or.inr ⟨round, hround, rfl⟩
      rcases List.mem_cons.mp hother with rfl | hother
      · have hle : t ≤ s.now := by
          rcases hold with hcomputing | ⟨round, hround, rfl⟩
          · exact h.computing t hcomputing
          · exact Nat.le_trans (h.rounds round hround).1 (h.rounds round hround).2.1
        exact absurd hle (Nat.not_le.mpr hlt)
      · exact h.apart t hold other hother hlt
    · refine List.forall_mem_cons.mpr ⟨⟨Nat.le_refl _, _, List.mem_cons_self, rfl, Nat.le_refl _,
        Nat.lt_add_of_pos_right pos, fun other _ hlt => Nat.le_of_lt hlt⟩, ?_⟩
      intro answer hanswer
      obtain ⟨htime, round, hround, hvalue, hle, hlt, hlatest⟩ := h.answers answer hanswer
      refine ⟨htime, round, List.mem_cons_of_mem _ hround, hvalue, hle, hlt, ?_⟩
      refine List.forall_mem_cons.mpr ⟨fun hbefore => ?_, hlatest⟩
      exact absurd htime (Nat.not_le.mpr hbefore)
  | abandons started =>
    refine
      { h with
        computing := fun t ht => h.computing t (List.mem_of_mem_erase ht)
        apart := fun t ht => h.apart t (ht.imp_left List.mem_of_mem_erase) }

/-- **In every run**, whoever asks and whenever. -/
theorem of_run (pos : 0 < ttl) {moments : List (KeptValue ρ × KeptEvent ρ)}
    (run : (system ttl Computes).Run moments s) : Timely ttl Computes s :=
  run.invariant Timely.start fun _ _ _ h hstep => h.step pos hstep

end Timely

end KeptValue

end InfSplitter.Lib
