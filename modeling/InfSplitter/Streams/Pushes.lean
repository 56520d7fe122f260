import InfSplitter.Lib.BinarySearch
import InfSplitter.Streams.Buffered
import Mathlib.Data.Finset.Sort

/-!
# What the buffer makes of the pushes

`MemSseBuffer` carries its order as a field. The code has a plain vector, finds the place of a piece
by binary search and adds up the bytes as they come; `SseVec` is that buffer, with nothing promised.
`pushPiece` is what its search and insertion come to as long as the vector goes up
(`place_eq_pushPiece`), and the vector of an empty buffer stays so.

A push is answered by the buffer after it and the result, so that a push that is refused is seen to
change nothing.
-/

set_option autoImplicit false

namespace InfSplitter.Streams

open Lib MemSseBuffer

/-! ## The vector -/

inductive SseBufferError
  | overflow (limit current : Nat)
deriving DecidableEq, Repr

/-- The buffer as the code has it. The sum of two lengths in memory never overflows. -/
structure SseVec where
  pieces : List (Nat × List UInt8)
  limitBytes : Nat
  currentBytes : Nat
deriving DecidableEq, Repr

namespace SseVec

def withLimit (limitBytes : Nat) : SseVec :=
  { pieces := [], limitBytes := limitBytes, currentBytes := 0 }

/-- Find or create the piece entry. -/
def place (pieceIndex : Nat) (bytes : List UInt8) (pieces : List (Nat × List UInt8)) :
    List (Nat × List UInt8) :=
  match binarySearch (pieces.map Prod.fst) pieceIndex with
  | .ok pos => pieces.modify pos fun piece => (piece.1, piece.2 ++ bytes)
  | .error pos => pieces.insertIdx pos (pieceIndex, bytes)

def push (buffer : SseVec) (pieceIndex : Nat) (bytes : List UInt8) :
    SseVec × Except SseBufferError Unit :=
  let newTotal := buffer.currentBytes + bytes.length
  if newTotal > buffer.limitBytes then
    (buffer, .error (.overflow buffer.limitBytes buffer.currentBytes))
  else
    ({ buffer with currentBytes := newTotal, pieces := place pieceIndex bytes buffer.pieces },
      .ok ())

def drain (buffer : SseVec) : List UInt8 := buffer.pieces.flatMap Prod.snd

def lenBytes (buffer : SseVec) : Nat := buffer.currentBytes

/-- Push after push; the pushes that are accepted. -/
def pushAll (buffer : SseVec) : List (Nat × List UInt8) → SseVec × List (Nat × List UInt8)
  | [] => (buffer, [])
  | (pieceIndex, bytes) :: rest =>
    match buffer.push pieceIndex bytes with
    | (buffer', .ok ()) =>
      ((buffer'.pushAll rest).1, (pieceIndex, bytes) :: (buffer'.pushAll rest).2)
    | (buffer', .error _) => buffer'.pushAll rest

end SseVec

/-! ## The place of a piece -/

section
variable {pieceIndex : Nat} {bytes : List UInt8} {pieces : List (Nat × List UInt8)}

theorem modify_eq_pushPiece {pos : Nat} (sorted : (pieces.map Prod.fst).Pairwise (· < ·))
    (h : (pieces.map Prod.fst)[pos]? = some pieceIndex) :
    (pieces.modify pos fun piece => (piece.1, piece.2 ++ bytes)) =
      pushPiece pieceIndex bytes pieces := by
  induction pieces generalizing pos with
  | nil => cases h
  | cons piece rest ih =>
    obtain ⟨index, data⟩ := piece
    obtain ⟨hfirst, hrest⟩ := List.pairwise_cons.mp sorted
    cases pos with
    | zero =>
      cases h
      rw [pushPiece, if_pos rfl]
      rfl
    | succ pos =>
      have hlt : index < pieceIndex := hfirst _ (List.mem_of_getElem? h)
      rw [pushPiece, if_neg (Nat.ne_of_gt hlt), if_neg (Nat.not_lt.mpr (Nat.le_of_lt hlt)),
        ← ih hrest h]
      rfl

theorem insertIdx_eq_pushPiece {pos : Nat} (hin : pos ≤ (pieces.map Prod.fst).length)
    (hbefore : ∀ i index, i < pos → (pieces.map Prod.fst)[i]? = some index → index < pieceIndex)
    (hafter : ∀ i index, pos ≤ i → (pieces.map Prod.fst)[i]? = some index → pieceIndex < index) :
    pieces.insertIdx pos (pieceIndex, bytes) = pushPiece pieceIndex bytes pieces := by
  induction pieces generalizing pos with
  | nil =>
    obtain rfl := Nat.le_zero.mp hin
    rfl
  | cons piece rest ih =>
    obtain ⟨index, data⟩ := piece
    cases pos with
    | zero =>
      have hlt : pieceIndex < index := hafter 0 index (Nat.le_refl 0) rfl
      rw [pushPiece, if_neg (Nat.ne_of_lt hlt), if_pos hlt]
      rfl
    | succ pos =>
      have hlt : index < pieceIndex := hbefore 0 index (Nat.succ_pos pos) rfl
      rw [pushPiece, if_neg (Nat.ne_of_gt hlt), if_neg (Nat.not_lt.mpr (Nat.le_of_lt hlt)),
        ← ih (Nat.le_of_succ_le_succ hin)
          (fun i k hi => hbefore (i + 1) k (Nat.succ_lt_succ hi))
          (fun i k hi => hafter (i + 1) k (Nat.succ_le_succ hi))]
      rfl

/-- **On a vector that goes up, the search finds the one place.** -/
theorem place_eq_pushPiece (sorted : (pieces.map Prod.fst).Pairwise (· < ·)) :
    SseVec.place pieceIndex bytes pieces = pushPiece pieceIndex bytes pieces := by
  unfold SseVec.place
  cases h : binarySearch (pieces.map Prod.fst) pieceIndex with
  | ok pos => exact modify_eq_pushPiece sorted (binarySearch_ok h)
  | error pos =>
    obtain ⟨hbefore, hafter, hin⟩ := binarySearch_error sorted h
    exact insertIdx_eq_pushPiece hin hbefore hafter

/-- The vector of a buffer that carries its order. -/
def toVec (buffer : MemSseBuffer) : SseVec :=
  { pieces := buffer.pieces, limitBytes := buffer.limitBytes, currentBytes := buffer.currentBytes }

/-- A push into a buffer that carries its order is the push into its vector. -/
theorem push_toVec (buffer : MemSseBuffer) (pieceIndex : Nat) (bytes : List UInt8) :
    (toVec buffer).push pieceIndex bytes =
      match buffer.push pieceIndex bytes with
      | some pushed => (toVec pushed, .ok ())
      | none =>
        (toVec buffer, .error (.overflow buffer.limitBytes buffer.currentBytes)) := by
  unfold SseVec.push MemSseBuffer.push toVec
  simp only [place_eq_pushPiece buffer.sorted]
  by_cases hover : buffer.currentBytes + bytes.length > buffer.limitBytes
  · rw [if_pos hover, if_pos hover]
  · rw [if_neg hover, if_neg hover]

/-! ## The bytes of a piece -/

/-- What is kept, or has been pushed, for one piece. -/
def bytesAt (pieces : List (Nat × List UInt8)) (index : Nat) : List UInt8 :=
  (pieces.filter fun piece => piece.1 == index).flatMap Prod.snd

theorem bytesAt_append (pieces pieces' : List (Nat × List UInt8)) (index : Nat) :
    bytesAt (pieces ++ pieces') index = bytesAt pieces index ++ bytesAt pieces' index := by
  unfold bytesAt
  rw [List.filter_append, List.flatMap_append]

theorem bytesAt_cons (piece : Nat × List UInt8) (rest : List (Nat × List UInt8)) (index : Nat) :
    bytesAt (piece :: rest) index =
      (if piece.1 = index then piece.2 else []) ++ bytesAt rest index := by
  unfold bytesAt
  by_cases h : piece.1 = index
  · simp [h]
  · simp [h]

theorem bytesAt_of_notMem {index : Nat} (h : index ∉ pieces.map Prod.fst) :
    bytesAt pieces index = [] := by
  induction pieces with
  | nil => rfl
  | cons piece rest ih =>
    obtain ⟨hne, hrest⟩ := not_or.mp (mt List.mem_cons.mpr h)
    rw [bytesAt_cons, if_neg (Ne.symm hne), ih hrest, List.append_nil]

theorem mem_pushPiece_iff {index : Nat} :
    index ∈ (pushPiece pieceIndex bytes pieces).map Prod.fst ↔
      index = pieceIndex ∨ index ∈ pieces.map Prod.fst := by
  refine ⟨mem_pushPiece, ?_⟩
  induction pieces with
  | nil => simp [pushPiece]
  | cons piece rest ih =>
    unfold pushPiece
    split
    · next heq =>
      rintro (rfl | h)
      · simp [heq]
      · exact h
    · split
      · rintro (rfl | h)
        · simp
        · exact List.mem_cons_of_mem _ h
      · rintro (rfl | h)
        · exact List.mem_cons_of_mem _ (ih (Or.inl rfl))
        · rcases List.mem_cons.mp h with rfl | h
          · simp
          · exact List.mem_cons_of_mem _ (ih (Or.inr h))

/-- A push adds to the bytes of its piece only, and at their end. -/
theorem bytesAt_pushPiece (sorted : (pieces.map Prod.fst).Pairwise (· < ·)) (index : Nat) :
    bytesAt (pushPiece pieceIndex bytes pieces) index =
      bytesAt pieces index ++ if pieceIndex = index then bytes else [] := by
  induction pieces with
  | nil =>
    rw [pushPiece, bytesAt_cons]
    simp [bytesAt]
  | cons piece rest ih =>
    obtain ⟨hfirst, hrest⟩ := List.pairwise_cons.mp sorted
    have hnone : bytesAt rest piece.1 = [] :=
      bytesAt_of_notMem fun h => absurd (hfirst _ h) (Nat.lt_irrefl _)
    unfold pushPiece
    split
    · next heq =>
      subst heq
      rw [bytesAt_cons, bytesAt_cons]
      by_cases hindex : piece.1 = index
      · subst hindex
        simp [hnone]
      · simp [hindex]
    · split
      · next hlt =>
        rw [bytesAt_cons]
        by_cases hindex : pieceIndex = index
        · subst hindex
          have hnew : bytesAt (piece :: rest) pieceIndex = [] := by
            apply bytesAt_of_notMem
            intro h
            rcases List.mem_cons.mp h with heq | h
            · exact absurd hlt (heq ▸ Nat.lt_irrefl _)
            · exact absurd (Nat.lt_trans hlt (hfirst _ h)) (Nat.lt_irrefl _)
          simp [hnew]
        · simp [hindex]
      · rw [bytesAt_cons, bytesAt_cons, ih hrest, List.append_assoc]

/-- A vector that goes up is drained piece by piece. -/
theorem flatMap_snd_eq (sorted : (pieces.map Prod.fst).Pairwise (· < ·)) :
    pieces.flatMap Prod.snd = (pieces.map Prod.fst).flatMap (bytesAt pieces) := by
  induction pieces with
  | nil => rfl
  | cons piece rest ih =>
    obtain ⟨hfirst, hrest⟩ := List.pairwise_cons.mp sorted
    have hnone : bytesAt rest piece.1 = [] :=
      bytesAt_of_notMem fun h => absurd (hfirst _ h) (Nat.lt_irrefl _)
    rw [List.flatMap_cons, List.map_cons, List.flatMap_cons, bytesAt_cons, if_pos rfl, hnone,
      List.append_nil, ih hrest]
    congr 1
    apply List.flatMap_congr
    intro index hindex
    rw [bytesAt_cons, if_neg (Nat.ne_of_lt (hfirst index hindex)), List.nil_append]

end

/-! ## Any sequence of pushes -/

/-- What a buffer holds after these pushes were accepted. -/
structure Accepted (limit : Nat) (accepted : List (Nat × List UInt8)) (buffer : SseVec) :
    Prop where
  sorted : (buffer.pieces.map Prod.fst).Pairwise (· < ·)
  indices : ∀ index, index ∈ buffer.pieces.map Prod.fst ↔ index ∈ accepted.map Prod.fst
  bytes : ∀ index, bytesAt buffer.pieces index = bytesAt accepted index
  counted : buffer.currentBytes = buffer.drain.length
  limited : buffer.limitBytes = limit ∧ buffer.currentBytes ≤ limit

namespace Accepted

variable {limit : Nat} {accepted : List (Nat × List UInt8)} {buffer : SseVec}

theorem start (limit : Nat) : Accepted limit [] (SseVec.withLimit limit) where
  sorted := List.Pairwise.nil
  indices _ := Iff.rfl
  bytes _ := rfl
  counted := rfl
  limited := ⟨rfl, Nat.zero_le limit⟩

/-- **What one push does**: it is refused and changes nothing, or it is one more accepted push. -/
theorem push (h : Accepted limit accepted buffer) (pieceIndex : Nat) (bytes : List UInt8) :
    (limit < buffer.drain.length + bytes.length ∧ buffer.push pieceIndex bytes =
        (buffer, .error (.overflow limit buffer.lenBytes))) ∨
      (buffer.drain.length + bytes.length ≤ limit ∧ (buffer.push pieceIndex bytes).2 = .ok () ∧
        Accepted limit (accepted ++ [(pieceIndex, bytes)]) (buffer.push pieceIndex bytes).1) := by
  have hcounted := h.counted
  obtain ⟨rfl, hle⟩ := h.limited
  unfold SseVec.push
  simp only
  by_cases hover : buffer.currentBytes + bytes.length > buffer.limitBytes
  · rw [if_pos hover]
    exact Or.inl ⟨hcounted ▸ hover, rfl⟩
  · rw [if_neg hover, place_eq_pushPiece h.sorted]
    refine Or.inr ⟨hcounted ▸ Nat.le_of_not_lt hover, rfl, ?_⟩
    exact
      { sorted := pushPiece_sorted pieceIndex bytes h.sorted
        indices := fun index => by
          rw [mem_pushPiece_iff, h.indices, List.map_append, List.mem_append, or_comm]
          simp
        bytes := fun index => by
          rw [bytesAt_pushPiece h.sorted, h.bytes, bytesAt_append, bytesAt_cons]
          simp [bytesAt]
        counted := by
          show buffer.currentBytes + bytes.length =
            ((pushPiece pieceIndex bytes buffer.pieces).flatMap Prod.snd).length
          rw [length_pushPiece, hcounted]
          rfl
        limited := ⟨rfl, Nat.le_of_not_lt hover⟩ }

theorem pushAll (h : Accepted limit accepted buffer) (pushes : List (Nat × List UInt8)) :
    Accepted limit (accepted ++ (buffer.pushAll pushes).2) (buffer.pushAll pushes).1 := by
  induction pushes generalizing accepted buffer with
  | nil =>
    rw [SseVec.pushAll, List.append_nil]
    exact h
  | cons next rest ih =>
    obtain ⟨pieceIndex, bytes⟩ := next
    unfold SseVec.pushAll
    rcases h.push pieceIndex bytes with ⟨_, hrefused⟩ | ⟨_, hok, haccepted⟩
    · rw [hrefused]
      exact ih h
    · cases hpush : buffer.push pieceIndex bytes with
      | mk buffer' result =>
        rw [hpush] at hok haccepted
        cases hok
        have hall := ih haccepted
        rwa [List.append_assoc] at hall

/-- Drained, it yields the accepted bytes by increasing index. -/
theorem drain_eq (h : Accepted limit accepted buffer) :
    buffer.drain = (accepted.map Prod.fst).toFinset.sort.flatMap (bytesAt accepted) := by
  have hindices : buffer.pieces.map Prod.fst = (accepted.map Prod.fst).toFinset.sort := by
    apply h.sorted.eq_of_mem_iff (Finset.sortedLT_sort _).pairwise
    intro index
    rw [h.indices, Finset.mem_sort, List.mem_toFinset]
  have hbytes : bytesAt buffer.pieces = bytesAt accepted := funext h.bytes
  unfold SseVec.drain
  rw [flatMap_snd_eq h.sorted, hindices, hbytes]

end Accepted

/-- **Whatever is pushed in whatever order**, the buffer yields the accepted bytes by increasing
index and for each index in the order they came; it never holds more than the limit; and it refuses
exactly what would exceed the limit, and is then unchanged. -/
theorem pushAll_ordered (limit : Nat) (pushes : List (Nat × List UInt8)) :
    let run := (SseVec.withLimit limit).pushAll pushes
    run.1.drain = (run.2.map Prod.fst).toFinset.sort.flatMap (bytesAt run.2) ∧
      run.1.lenBytes = run.1.drain.length ∧ run.1.lenBytes ≤ limit ∧
      ∀ pieceIndex bytes,
        (run.1.push pieceIndex bytes = (run.1, .error (.overflow limit run.1.lenBytes)) ↔
          limit < run.1.drain.length + bytes.length) ∧
        ((run.1.push pieceIndex bytes).2 = .ok () ↔
          run.1.drain.length + bytes.length ≤ limit) := by
  intro run
  have h : Accepted limit run.2 run.1 := (Accepted.start limit).pushAll pushes
  refine ⟨h.drain_eq, h.counted, h.limited.2, ?_⟩
  intro pieceIndex bytes
  rcases h.push pieceIndex bytes with ⟨hover, hrefused⟩ | ⟨hfits, hok, _⟩
  · rw [hrefused]
    exact ⟨iff_of_true rfl hover, iff_of_false (fun h => by cases h) (Nat.not_le.mpr hover)⟩
  · refine ⟨iff_of_false ?_ (Nat.not_lt.mpr hfits), iff_of_true hok hfits⟩
    intro hrefused
    rw [hrefused] at hok
    cases hok

end InfSplitter.Streams
