import InfSplitter.Lib.Run
import InfSplitter.Session.Completion

/-!
# The batches of concurrent split sends

The `in_flight` map as all requests together change it: one step for every operation, in any order
and with any arguments. There is no bookkeeping of who does what here. An operation that fails is a
step too, since it may have changed the store before it failed.

The two ways a batch comes into being differ. `handle_split_send` looks for a batch with the same
key and creates its own under the same lock (`matchOrCreate`);
`send_split_system_instruction` creates without looking (`create`).

Each operation changes at most one entry of the map. `step_origin` says where an entry after a step
comes from, in one list for all operations, and the invariants of the map are read off it.
-/

set_option autoImplicit false

namespace InfSplitter.SplitSend

open Lib Session

/-- The pieces of a new batch. -/
def pendingPieces (count : Nat) : List InFlightPiece :=
  (List.range count).map fun i =>
    { index := i, contentHash := 0, requestBody := [], status := .pending }

def createKeyed (store : StoreV2) (now : UInt64) (id : String) (key : BatchKey) (count : Nat) :
    StoreV2 :=
  store.createBatch now id key.sessionId key.prevInteractionId key.messageHashes
    key.systemInstructionHash (pendingPieces count)

def findKeyed (values : List InFlightBatch) (key : BatchKey) : Option InFlightBatch :=
  StoreV2.findMatchingBatch values key.sessionId key.prevInteractionId key.messageHashes
    key.systemInstructionHash

inductive BatchAction
  | matchOrCreate (id : String) (key : BatchKey) (count : Nat)
  | create (id : String) (key : BatchKey) (count : Nat)
  | setPieceBody (id : String) (pieceIndex : Nat) (body : List UInt8)
  | markResponseStarted (id : String) (pieceIndex : Nat)
  | markSent (id : String) (pieceIndex : Nat) (interactionId : String)
  | ackPiece (id : String) (pieceIndex : Nat) (interactionId : String)
  | failBatch (id error : String)
  | completeBatch (id : String)
  | cleanAll
  | discardAllInflight

inductive BatchStep : StoreV2 → BatchAction → StoreV2 → Prop
  -- the iterator of the map may yield its values in any order
  | matched {s : StoreV2} {id : String} {key : BatchKey} {count : Nat} {found : InFlightBatch}
      (values : List InFlightBatch) (order : values.Perm s.inFlight.values)
      (hit : findKeyed values key = some found) :
      BatchStep s (.matchOrCreate id key count) s
  | unmatched {s : StoreV2} {id : String} {key : BatchKey} {count : Nat} (now : UInt64)
      (values : List InFlightBatch) (order : values.Perm s.inFlight.values)
      (miss : findKeyed values key = none) :
      BatchStep s (.matchOrCreate id key count) (createKeyed s now id key count)
  | create {s : StoreV2} {id : String} {key : BatchKey} {count : Nat} (now : UInt64) :
      BatchStep s (.create id key count) (createKeyed s now id key count)
  | setPieceBody {s : StoreV2} {id : String} {i : Nat} {body : List UInt8} (now : UInt64) :
      BatchStep s (.setPieceBody id i body) (s.setPieceBody now id i body).1
  | markResponseStarted {s : StoreV2} {id : String} {i : Nat} (now : UInt64) :
      BatchStep s (.markResponseStarted id i) (s.markResponseStarted now id i).1
  | markSent {s : StoreV2} {id : String} {i : Nat} {interactionId : String} (now : UInt64) :
      BatchStep s (.markSent id i interactionId) (s.markSent now id i interactionId).1
  | ackPiece {s : StoreV2} {id : String} {i : Nat} {interactionId : String} (now : UInt64) :
      BatchStep s (.ackPiece id i interactionId) (s.ackPiece now id i interactionId).1
  | failBatch {s : StoreV2} {id error : String} (now : UInt64) :
      BatchStep s (.failBatch id error) (s.failBatch now id error).1
  | completeBatch {s : StoreV2} {id : String} (now : UInt64) :
      BatchStep s (.completeBatch id) (s.completeBatch now id).1
  | cleanAll {s : StoreV2} : BatchStep s .cleanAll s.cleanAll
  | discardAllInflight {s : StoreV2} : BatchStep s .discardAllInflight s.discardAllInflight.1

/-- The batches of all requests, over all interleavings. -/
def batches : System StoreV2 BatchAction :=
  { init := StoreV2.new, step := BatchStep }

/-! ## What the operations do to the map -/

/-- An operation on one piece either changes nothing or replaces that piece. -/
theorem updatePiece_cases (s : StoreV2) (now : UInt64) (id : String) (i : Nat)
    (change : InFlightPiece → Except BatchError InFlightPiece) :
    (s.updatePiece now id i change).1 = s ∨
      ∃ batch piece piece', s.inFlight.lookup id = some batch ∧ batch.pieces[i]? = some piece ∧
        change piece = .ok piece' ∧
        s.updatePiece now id i change =
          ({ s with
             inFlight := s.inFlight.insert id
               { batch with pieces := batch.pieces.set i piece', updatedUtc := now } },
           .ok ()) := by
  unfold StoreV2.updatePiece
  cases hb : s.inFlight.lookup id with
  | none => exact Or.inl rfl
  | some batch =>
    cases hp : batch.pieces[i]? with
    | none => exact Or.inl (by simp [hp])
    | some piece =>
      cases hc : change piece with
      | error e => exact Or.inl (by simp [hp, hc])
      | ok piece' => exact Or.inr ⟨batch, piece, piece', rfl, hp, hc, by simp [hp, hc]⟩

/-- Completing takes the batch out of the map, whether it succeeds or not. -/
theorem completeBatch_inFlight (s : StoreV2) (now : UInt64) (id : String) :
    (s.completeBatch now id).1.inFlight = s.inFlight.erase id := by
  cases completing s now id with
  | missing own result =>
    rw [result]
    apply AList.ext
    show s.inFlight.entries = s.inFlight.entries.kerase id
    exact (List.kerase_of_notMem_keys (AList.lookup_eq_none.mp own)).symm
  | partly _ _ result => rw [result]; rfl
  | whole _ _ result => rw [result]; rfl

/-- The batch that `fail_batch` leaves. -/
def failed (batch : InFlightBatch) (now : UInt64) (error : String) : InFlightBatch :=
  { batch with
    pieces := batch.pieces.map fun piece =>
      if piece.status.isAcked then piece else { piece with status := .failed error }
    updatedUtc := now }

theorem failBatch_inFlight (s : StoreV2) (now : UInt64) (id error : String) :
    (s.failBatch now id error).1.inFlight =
      match s.inFlight.lookup id with
      | some batch => s.inFlight.insert id (failed batch now error)
      | none => s.inFlight := by
  unfold StoreV2.failBatch failed
  cases s.inFlight.lookup id with
  | none => rfl
  | some batch => rfl

/-- A batch that is in flight after `fail_batch` has failed, or it was there before. -/
theorem failBatch_lookup_cases {s : StoreV2} {now : UInt64} {id error k : String}
    {b' : InFlightBatch} (h : (s.failBatch now id error).1.inFlight.lookup k = some b') :
    (∃ batch, k = id ∧ s.inFlight.lookup id = some batch ∧ b' = failed batch now error) ∨
      s.inFlight.lookup k = some b' := by
  rw [failBatch_inFlight] at h
  cases hb : s.inFlight.lookup id with
  | none =>
    rw [hb] at h
    exact .inr h
  | some batch =>
    rw [hb] at h
    rcases lookup_insert_cases h with ⟨hk, hb'⟩ | ⟨_, hold⟩
    · exact .inl ⟨batch, hk, rfl, hb'⟩
    · exact .inr hold

/-- Where a batch that is in flight after a step comes from. -/
inductive Origin (s : StoreV2) (k : String) (b' : InFlightBatch) : BatchAction → Prop
  | kept {a : BatchAction} (h : s.inFlight.lookup k = some b') : Origin s k b' a
  | created {key : BatchKey} {count : Nat} {a : BatchAction}
      (ha : a = .matchOrCreate k key count ∨ a = .create k key count) (hkey : b'.key = key)
      (hpieces : b'.pieces = pendingPieces count) : Origin s k b' a
  | moved {b : InFlightBatch} {i : Nat} {piece piece' : InFlightPiece} {a : BatchAction}
      (h : s.inFlight.lookup k = some b) (hkey : b'.key = b.key)
      (hpiece : b.pieces[i]? = some piece) (hpieces : b'.pieces = b.pieces.set i piece')
      (hstatus : piece'.status = piece.status ∨ ∀ e, piece'.status ≠ .failed e) :
      Origin s k b' a
  | failed {b : InFlightBatch} {now : UInt64} {error : String}
      (h : s.inFlight.lookup k = some b) (hb : b' = failed b now error) :
      Origin s k b' (.failBatch k error)

theorem updatePiece_origin {s : StoreV2} {now : UInt64} {id k : String} {i : Nat}
    {change : InFlightPiece → Except BatchError InFlightPiece} {b' : InFlightBatch}
    (hchange : ∀ p p', change p = .ok p' → p'.status = p.status ∨ ∀ e, p'.status ≠ .failed e)
    (h : (s.updatePiece now id i change).1.inFlight.lookup k = some b') (a : BatchAction) :
    Origin s k b' a := by
  rcases updatePiece_cases s now id i change with hs | ⟨batch, piece, piece', hb, hp, hc, hs⟩
  · rw [hs] at h
    exact .kept h
  · rw [hs] at h
    rcases lookup_insert_cases h with ⟨rfl, rfl⟩ | ⟨_, hold⟩
    · exact .moved hb rfl hp rfl (hchange piece piece' hc)
    · exact .kept hold

/-- **Every batch in flight after a step has an origin.** -/
theorem step_origin {s s' : StoreV2} {a : BatchAction} (h : BatchStep s a s') {k : String}
    {b' : InFlightBatch} (hb : s'.inFlight.lookup k = some b') : Origin s k b' a := by
  cases h with
  | matched => exact .kept hb
  | unmatched now =>
    rcases lookup_insert_cases hb with ⟨rfl, rfl⟩ | ⟨_, hold⟩
    · exact .created (Or.inl rfl) rfl rfl
    · exact .kept hold
  | create now =>
    rcases lookup_insert_cases hb with ⟨rfl, rfl⟩ | ⟨_, hold⟩
    · exact .created (Or.inr rfl) rfl rfl
    · exact .kept hold
  | setPieceBody now =>
    refine updatePiece_origin ?_ hb _
    rintro p p' ⟨rfl⟩
    exact Or.inl rfl
  | markResponseStarted now =>
    refine updatePiece_origin ?_ hb _
    intro p p' hp
    cases hs : p.status <;> simp [hs] at hp
    subst hp
    exact Or.inr (by simp)
  | markSent now =>
    refine updatePiece_origin ?_ hb _
    intro p p' hp
    cases hs : p.status <;> simp [hs] at hp
    subst hp
    exact Or.inr (by simp)
  | ackPiece now =>
    refine updatePiece_origin ?_ hb _
    intro p p' hp
    cases hs : p.status <;> simp [hs] at hp <;> subst hp <;> exact Or.inr (by simp)
  | @failBatch id error now =>
    rcases failBatch_lookup_cases hb with ⟨batch, rfl, hl, rfl⟩ | hold
    · exact .failed hl rfl
    · exact .kept hold
  | completeBatch now =>
    rw [completeBatch_inFlight] at hb
    exact .kept (lookup_erase_some hb).2
  | cleanAll => exact absurd hb (by simp [StoreV2.cleanAll])
  | discardAllInflight => exact absurd hb (by simp [StoreV2.discardAllInflight])

/-- Only the two creating steps bring in keys. -/
theorem Origin.key {s : StoreV2} {k : String} {b' : InFlightBatch} {a : BatchAction}
    (h : Origin s k b' a) (hm : ∀ id key count, a ≠ .matchOrCreate id key count)
    (hc : ∀ id key count, a ≠ .create id key count) :
    ∃ b, s.inFlight.lookup k = some b ∧ b'.key = b.key := by
  cases h with
  | kept h => exact ⟨b', h, rfl⟩
  | created ha _ _ =>
    rcases ha with ha | ha
    · exact absurd ha (hm _ _ _)
    · exact absurd ha (hc _ _ _)
  | moved h hkey _ _ _ => exact ⟨_, h, hkey⟩
  | failed h hb =>
    subst hb
    exact ⟨_, h, rfl⟩

/-! ## Looking for a batch -/

theorem findKeyed_some {values : List InFlightBatch} {key : BatchKey} {b : InFlightBatch}
    (h : findKeyed values key = some b) : b ∈ values ∧ b.key = key := by
  unfold findKeyed StoreV2.findMatchingBatch at h
  refine ⟨List.mem_of_find?_eq_some h, ?_⟩
  have := List.find?_some h
  simp only [Bool.and_eq_true, beq_iff_eq] at this
  obtain ⟨⟨⟨h1, h2⟩, h3⟩, h4⟩ := this
  unfold InFlightBatch.key
  rw [h1, h2, h3, h4]

theorem findKeyed_none {values : List InFlightBatch} {key : BatchKey}
    (h : findKeyed values key = none) {b : InFlightBatch} (hb : b ∈ values) : b.key ≠ key := by
  rintro rfl
  unfold findKeyed StoreV2.findMatchingBatch at h
  have := List.find?_eq_none.mp h b hb
  simp [InFlightBatch.key] at this

/-- A batch that comes first is found under its key. -/
theorem findKeyed_cons (b : InFlightBatch) (rest : List InFlightBatch) :
    findKeyed (b :: rest) b.key = some b := by
  unfold findKeyed StoreV2.findMatchingBatch
  exact List.find?_cons_of_pos (by simp [InFlightBatch.key])

/-- A search for a batch of the key, with the map's values in some order, comes to `found`. -/
def FindsBatch (store : StoreV2) (key : BatchKey) (found : Option InFlightBatch) : Prop :=
  ∃ values : List InFlightBatch, values.Perm store.inFlight.values ∧ findKeyed values key = found

theorem findsBatch_none_iff {store : StoreV2} {key : BatchKey} :
    FindsBatch store key none ↔ ∀ k b, store.inFlight.lookup k = some b → b.key ≠ key := by
  constructor
  · rintro ⟨values, order, miss⟩ k b hb
    exact findKeyed_none miss (order.mem_iff.mpr (StrMap.mem_values.mpr ⟨k, hb⟩))
  · intro hnone
    refine ⟨_, List.Perm.refl _, ?_⟩
    by_contra hsome
    obtain ⟨b, hb⟩ := Option.ne_none_iff_exists'.mp hsome
    obtain ⟨hmem, hkey⟩ := findKeyed_some hb
    obtain ⟨k, hk⟩ := StrMap.mem_values.mp hmem
    exact hnone k b hk hkey

/-- Every batch of the key is found in some order. -/
theorem findsBatch_some_iff {store : StoreV2} {key : BatchKey} {b : InFlightBatch} :
    FindsBatch store key (some b) ↔ b.key = key ∧ ∃ k, store.inFlight.lookup k = some b := by
  constructor
  · rintro ⟨values, order, hit⟩
    obtain ⟨hmem, hkey⟩ := findKeyed_some hit
    exact ⟨hkey, StrMap.mem_values.mp (order.mem_iff.mp hmem)⟩
  · rintro ⟨rfl, hb⟩
    obtain ⟨before, after, hvalues⟩ := List.append_of_mem (StrMap.mem_values.mpr hb)
    refine ⟨b :: (before ++ after), ?_, findKeyed_cons b _⟩
    rw [hvalues]
    exact List.perm_middle.symm

end InfSplitter.SplitSend
