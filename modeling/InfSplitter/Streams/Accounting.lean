import InfSplitter.Streams.Buffered
import Mathlib.Data.List.Induction

/-!
# What the buffer counts

`len_bytes` is a counter. A push adds to it what it adds to the pieces; a substitution rewrites the
pieces and leaves it alone. So the counter is the length of what would be drained as long as every
substitution finds nothing or puts in as many bytes as it takes out (`accounted_substituteId_iff`),
and a run of pushes and substitutions keeps it so exactly if each of its substitutions does
(`accounted_run_iff`).
-/

set_option autoImplicit false

namespace InfSplitter.Streams

open Lib

inductive BufferOp
  | push (pieceIndex : Nat) (bytes : List UInt8)
  | substituteId (id final : String)
deriving DecidableEq, Repr

namespace MemSseBuffer

def withLimit (limitBytes : Nat) : MemSseBuffer := { default with limitBytes }

def lenBytes (buffer : MemSseBuffer) : Nat := buffer.currentBytes

/-- A push that overflows leaves the buffer as it is; `none` is a panic. -/
def apply (buffer : MemSseBuffer) : BufferOp → Option MemSseBuffer
  | .push pieceIndex bytes => some ((buffer.push pieceIndex bytes).getD buffer)
  | .substituteId id final => buffer.substituteId id final

def run (buffer : MemSseBuffer) (ops : List BufferOp) : Option MemSseBuffer :=
  ops.foldlM apply buffer

/-- The counter is what would be drained, and decides about the next push. -/
structure Accounted (buffer : MemSseBuffer) : Prop where
  lenBytes : buffer.lenBytes = buffer.drain.length
  accepts : ∀ pieceIndex bytes, (buffer.push pieceIndex bytes).isSome ↔
    buffer.drain.length + bytes.length ≤ buffer.limitBytes

/-- There is nothing to search in, or the id can be searched and is nowhere found, or what is put in
is as long as what is taken out. -/
def KeepsLength (buffer : MemSseBuffer) (id final : String) : Prop :=
  buffer.pieces = [] ∨ id ≠ "" ∧ ((bytesOf id).length = (bytesOf final).length ∨
    ∀ piece ∈ buffer.pieces, ¬ bytesOf id <:+: piece.2)

end MemSseBuffer

open MemSseBuffer

section
variable {buffer : MemSseBuffer} {pieceIndex : Nat} {bytes : List UInt8} {id final : String}

theorem accounted_iff : buffer.Accounted ↔ buffer.currentBytes = buffer.drain.length := by
  constructor
  · exact fun h => h.lenBytes
  · intro h
    refine ⟨h, fun pieceIndex bytes => ?_⟩
    unfold MemSseBuffer.push
    rw [h]
    split <;> simp <;> omega

/-! ## One operation -/

theorem accounted_push (h : buffer.Accounted) :
    ((buffer.push pieceIndex bytes).getD buffer).Accounted := by
  unfold MemSseBuffer.push
  split
  · exact h
  · rw [accounted_iff] at h ⊢
    simp only [Option.getD_some, drain, length_pushPiece]
    rw [h]
    rfl

/-- How much longer the pieces get for every id that is found. -/
theorem length_drain_replaceAll (hid : id ≠ "") (final : String)
    (pieces : List (Nat × List UInt8)) :
    ((pieces.map fun p => (p.1, replaceAll (bytesOf id) (bytesOf final) p.2)).flatMap
        Prod.snd).length +
        (pieces.map fun p => (frames (bytesOf id) p.2).1.length).sum * (bytesOf id).length =
      (pieces.flatMap Prod.snd).length +
        (pieces.map fun p => (frames (bytesOf id) p.2).1.length).sum * (bytesOf final).length := by
  induction pieces with
  | nil => simp
  | cons piece rest ih =>
    have hword : bytesOf id ≠ [] := fun h => hid ((bytesOf_eq_nil_iff id).mp h)
    have hpiece := length_replaceAll hword (bytesOf final) piece.2
    simp only [List.map_cons, List.flatMap_cons, List.length_append, List.sum_cons, Nat.add_mul]
    omega

/-- An id is in no piece exactly if none is found. -/
theorem sum_frames_eq_zero_iff (hid : id ≠ "") (pieces : List (Nat × List UInt8)) :
    (pieces.map fun p => (frames (bytesOf id) p.2).1.length).sum = 0 ↔
      ∀ piece ∈ pieces, ¬ bytesOf id <:+: piece.2 := by
  have hword : bytesOf id ≠ [] := fun h => hid ((bytesOf_eq_nil_iff id).mp h)
  rw [List.sum_eq_zero_iff_forall_eq_nat, List.forall_mem_map]
  refine forall₂_congr fun piece _ => ?_
  rw [← length_splitAll_eq_one_iff hword, splitAll, List.length_append, List.length_singleton]
  omega

/-- **A substitution keeps the counter right** exactly if it does not change the length. -/
theorem accounted_substituteId_iff (h : buffer.Accounted) :
    (∃ next, buffer.substituteId id final = some next ∧ next.Accounted) ↔
      buffer.KeepsLength id final := by
  unfold MemSseBuffer.substituteId KeepsLength
  simp only [bytesOf_eq_nil_iff]
  by_cases hnil : buffer.pieces = []
  · -- nothing is searched, so even an empty id does no harm
    have hlen : buffer.currentBytes = 0 := by
      rw [accounted_iff.mp h, drain, hnil]
      rfl
    simp [hnil, accounted_iff, drain, hlen]
  · by_cases hid : id = ""
    · simp [hnil, hid]
    · have hdrain := length_drain_replaceAll hid final buffer.pieces
      have hfound := sum_frames_eq_zero_iff hid buffer.pieces
      rw [accounted_iff] at h
      simp only [hid, hnil, false_and, if_false, Option.some.injEq, exists_eq_left', false_or,
        not_false_eq_true, true_and, ne_eq, accounted_iff]
      rw [← hfound, h, drain, drain]
      constructor
      · intro hsame
        rw [← hsame, Nat.add_left_cancel_iff] at hdrain
        rcases Nat.eq_zero_or_pos
          (buffer.pieces.map fun p => (frames (bytesOf id) p.2).1.length).sum with hzero | hpos
        · exact Or.inr hzero
        · exact Or.inl (Nat.eq_of_mul_eq_mul_left hpos hdrain)
      · intro hkeeps
        have hmul : (buffer.pieces.map fun p => (frames (bytesOf id) p.2).1.length).sum *
            (bytesOf id).length =
            (buffer.pieces.map fun p => (frames (bytesOf id) p.2).1.length).sum *
              (bytesOf final).length := by
          rcases hkeeps with hlen | hzero
          · rw [hlen]
          · rw [hzero, Nat.zero_mul, Nat.zero_mul]
        rw [hmul] at hdrain
        exact (Nat.add_right_cancel hdrain).symm

end

/-! ## Runs -/

theorem run_concat (buffer : MemSseBuffer) (ops : List BufferOp) (op : BufferOp) :
    buffer.run (ops ++ [op]) = (buffer.run ops).bind (MemSseBuffer.apply · op) := by
  unfold MemSseBuffer.run
  rw [List.foldlM_append]
  cases ops.foldlM MemSseBuffer.apply buffer with
  | none => rfl
  | some next => simp

theorem accounted_withLimit (limitBytes : Nat) : (withLimit limitBytes).Accounted :=
  accounted_iff.mpr rfl

/-- The run reaches a buffer, and its counter is right. -/
def RunsAccounted (limitBytes : Nat) (ops : List BufferOp) : Prop :=
  ∃ buffer, (withLimit limitBytes).run ops = some buffer ∧ buffer.Accounted

/-- Every substitution of a run keeps the length. -/
def SubstitutionsKeepLength (limitBytes : Nat) (ops : List BufferOp) : Prop :=
  ∀ before id final, before ++ [.substituteId id final] <+: ops →
    ∀ buffer, (withLimit limitBytes).run before = some buffer → buffer.KeepsLength id final

/-- One more operation. -/
theorem runsAccounted_concat_iff {limitBytes : Nat} {ops : List BufferOp} {op : BufferOp}
    (h : RunsAccounted limitBytes ops) :
    RunsAccounted limitBytes (ops ++ [op]) ↔
      ∀ id final, op = .substituteId id final →
        ∀ buffer, (withLimit limitBytes).run ops = some buffer → buffer.KeepsLength id final := by
  obtain ⟨buffer, hrun, hbuffer⟩ := h
  unfold RunsAccounted
  rw [run_concat, hrun]
  cases op with
  | push pieceIndex bytes =>
    simp only [Option.bind_some, MemSseBuffer.apply, Option.some.injEq, exists_eq_left',
      reduceCtorEq, false_implies, implies_true, iff_true]
    exact accounted_push hbuffer
  | substituteId id final =>
    simp only [Option.bind_some, MemSseBuffer.apply, BufferOp.substituteId.injEq,
      Option.some.injEq, forall_eq']
    refine (accounted_substituteId_iff hbuffer).trans ⟨?_, fun h => h id final ⟨rfl, rfl⟩⟩
    rintro h _ _ ⟨rfl, rfl⟩
    exact h

/-- **The counter is right all through a run** exactly if every substitution of it keeps the
length. -/
theorem accounted_run_iff (limitBytes : Nat) (ops : List BufferOp) :
    (∀ before, before <+: ops → RunsAccounted limitBytes before) ↔
      SubstitutionsKeepLength limitBytes ops := by
  constructor
  · intro h before id final hin
    have hbefore := h before ((List.prefix_append _ _).trans hin)
    exact (runsAccounted_concat_iff hbefore).mp (h _ hin) id final rfl
  · intro h before hin
    induction before using List.reverseRecOn with
    | nil => exact ⟨_, rfl, accounted_withLimit limitBytes⟩
    | append_singleton before op ih =>
      have hbefore := ih ((List.prefix_append _ _).trans hin)
      refine (runsAccounted_concat_iff hbefore).mpr ?_
      rintro id final rfl
      exact h before id final hin

/-- An id that is replaced by a longer one: the counter stays at seven bytes, eight are drained. -/
theorem accounted_run_fails : ¬ ∀ limitBytes ops, RunsAccounted limitBytes ops := by
  intro h
  obtain ⟨buffer, hrun, hbuffer⟩ :=
    h 100 [.push 0 (bytesOf "id int1"), .substituteId "int1" "int10"]
  have hlen : (withLimit 100).run [.push 0 (bytesOf "id int1"), .substituteId "int1" "int10"] =
      some buffer → buffer.currentBytes = 7 ∧ buffer.drain.length = 8 := by
    intro hrun
    cases hrun
    decide
  have hcounts := hlen hrun
  rw [accounted_iff, hcounts.1, hcounts.2] at hbuffer
  exact absurd hbuffer (by decide)

end InfSplitter.Streams
