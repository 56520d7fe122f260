import InfSplitter.Lib.Text
import InfSplitter.SplitSend.Pieces

/-!
# Split sends next to each other

A split send knows its batch by the id `batch-{session}-{second}` only. Here every send keeps its
own account of what it asked for and what it received, next to the shared store, and the question is
whether the store agrees when the send completes.

It does as long as no send starts while another one of the same session and second is under way
(`sends_isolated`). A start in that situation replaces the other send's batch, and both go on under
the one id: the keys differ, so `find_matching_batch` does not see it.

What a send does in its error exits is `fail`, with the clean-up, or `abandon`, without. Two steps
take batches away from sends that go on, `clean_all` and `discard_all_inflight`; `cleared` are the
ids they took away last. The steps themselves do not look at it.
-/

set_option autoImplicit false

namespace InfSplitter.SplitSend

open Lib Session

/-- What one send knows of itself. Between two pieces `started` is false; the piece after the
received ones is the one it works on. -/
structure Send where
  key : BatchKey
  second : UInt64
  received : List String
  started : Bool
  remaining : Nat
deriving DecidableEq, Repr

namespace Send

def batchId (x : Send) : String := batchIdOf x.key.sessionId x.second

/-- The statuses the send believes its pieces have. -/
def pieceStatuses (x : Send) : List InFlightStatus :=
  progress x.received x.started x.remaining

/-- The client node the send is after. -/
def clientNode (x : Send) (now : UInt64) : ClientInteractionNode :=
  { id := x.received.getLast?.getD "", prevId := x.key.prevInteractionId,
    messageHashes := x.key.messageHashes, systemInstructionHash := x.key.systemInstructionHash,
    upstreamIds := x.received, lastSeenUtc := now }

end Send

structure Sends where
  store : StoreV2
  live : List Send
  cleared : List String

def Sends.init : Sends := { store := StoreV2.new, live := [], cleared := [] }

/-- A new send, with a batch of its own. -/
def Sends.begun (s : Sends) (key : BatchKey) (second now : UInt64) (count : Nat) : Sends :=
  { store := createKeyed s.store now (batchIdOf key.sessionId second) key count
    live := ⟨key, second, [], false, count⟩ :: s.live
    cleared := s.cleared.filter (· ≠ batchIdOf key.sessionId second) }

inductive SendAction
  | start (x : Send)
  | markStarted (x : Send)
  | ack (x : Send) (interactionId : String)
  | complete (x : Send) (now : UInt64)
  | fail (x : Send)
  | abandon (x : Send)
  | cleanAll
  | discardAllInflight
  | other

inductive SendStep : Sends → SendAction → Sends → Prop
  -- `handle_split_send`, when it finds no batch of its own key
  | startContent {s : Sends} (key : BatchKey) (second now : UInt64) (count : Nat)
      (values : List InFlightBatch) (order : values.Perm s.store.inFlight.values)
      (miss : findKeyed values key = none) :
      SendStep s (.start ⟨key, second, [], false, count⟩) (s.begun key second now count)
  -- `send_split_system_instruction` does not look
  | startSystem {s : Sends} (key : BatchKey) (second now : UInt64) (count : Nat) :
      SendStep s (.start ⟨key, second, [], false, count⟩) (s.begun key second now count)
  | markStarted {s : Sends} {x : Send} (now now' : UInt64) (body : List UInt8)
      (mem : x ∈ s.live) (idle : x.started = false) (more : 0 < x.remaining) :
      SendStep s (.markStarted x)
        { s with
          store := markStartedAndPersist s.store now now' x.batchId x.received.length body
          live := { x with started := true, remaining := x.remaining - 1 } :: s.live.erase x }
  | ack {s : Sends} {x : Send} (now now' : UInt64) (interactionId : String)
      (mem : x ∈ s.live) (busy : x.started = true) :
      SendStep s (.ack x interactionId)
        { s with
          store := ackAndPersist s.store now now' x.batchId x.received.length interactionId
          live := { x with started := false, received := x.received ++ [interactionId] } ::
            s.live.erase x }
  | complete {s : Sends} {x : Send} (now : UInt64) (mem : x ∈ s.live)
      (idle : x.started = false) (all : x.remaining = 0) :
      SendStep s (.complete x now)
        { s with store := (s.store.completeBatch now x.batchId).1, live := s.live.erase x }
  | fail {s : Sends} {x : Send} (now : UInt64) (error : String) (mem : x ∈ s.live) :
      SendStep s (.fail x)
        { s with store := (s.store.failBatch now x.batchId error).1, live := s.live.erase x }
  | abandon {s : Sends} {x : Send} (mem : x ∈ s.live) :
      SendStep s (.abandon x) { s with live := s.live.erase x }
  | cleanAll {s : Sends} :
      SendStep s .cleanAll
        { s with store := s.store.cleanAll, cleared := s.live.map Send.batchId }
  | discardAllInflight {s : Sends} :
      SendStep s .discardAllInflight
        { s with store := s.store.discardAllInflight.1, cleared := s.live.map Send.batchId }
  -- whatever the rest of the proxy does outside the batches
  | other {s : Sends} {store : StoreV2} (inFlight : store.inFlight = s.store.inFlight) :
      SendStep s .other { s with store := store }

/-- All split sends, over all interleavings. -/
def sends : System Sends SendAction :=
  { init := Sends.init, step := SendStep }

/-! ## What a completing step should store, and when it does -/

/-- Where a completing send gets a node, it is that of its own request, over its own ids, and it is
stored. -/
def InsertsOwn (s : Sends) : SendAction → Prop
  | .complete x now =>
    ∀ node, (s.store.completeBatch now x.batchId).2 = .ok node →
      node = x.clientNode now ∧
        (s.store.completeBatch now x.batchId).1.interactions.getClient node.id = some node
  | _ => True

/-- A completing send does get its node, unless its batch was cleared; then it is told so and the
store stays as it is. -/
def CompletesOwn (s : Sends) : SendAction → Prop
  | .complete x now =>
    if x.batchId ∈ s.cleared then
      s.store.completeBatch now x.batchId = (s.store, .error (.batchNotFound x.batchId))
    else
      (s.store.completeBatch now x.batchId).2 = .ok (x.clientNode now) ∧
        (s.store.completeBatch now x.batchId).1.interactions.getClient (x.clientNode now).id =
          some (x.clientNode now)
  | _ => True

theorem CompletesOwn.insertsOwn {s : Sends} {a : SendAction} (h : CompletesOwn s a) :
    InsertsOwn s a := by
  cases a with
  | complete x now =>
    intro node hnode
    by_cases hcleared : x.batchId ∈ s.cleared
    · simp only [CompletesOwn, if_pos hcleared] at h
      rw [h] at hnode
      cases hnode
    · simp only [CompletesOwn, if_neg hcleared] at h
      obtain ⟨hok, hget⟩ := h
      rw [hok, Except.ok.injEq] at hnode
      subst hnode
      exact ⟨rfl, hget⟩
  | _ => trivial

/-- No other send of the session is under way that started in the same second. -/
def StartsAlone (s : Sends) : SendAction → Prop
  | .start x => ∀ y ∈ s.live, y.key.sessionId = x.key.sessionId → y.second ≠ x.second
  | _ => True

/-- Session and second can be read off a batch id. -/
theorem batchIdOf_inj {a b : String} {m n : UInt64} (h : batchIdOf a m = batchIdOf b n) :
    a = b ∧ m = n := by
  have digits : ∀ k : UInt64, '-' ∉ (toString k).toList := by
    intro k hk
    have hmem : '-' ∈ Nat.toDigits 10 k.toNat := by
      have heq : (toString k).toList = Nat.toDigits 10 k.toNat := String.toList_ofList
      exact heq ▸ hk
    exact absurd (Nat.isDigit_of_mem_toDigits (by decide) (by decide) hmem) (by decide)
  have hlist := congrArg String.toList h
  unfold batchIdOf at hlist
  simp only [String.toList_append, List.append_assoc] at hlist
  have htail := List.append_cancel_left hlist
  obtain ⟨hab, hmn⟩ := append_sep_inj (digits m) (digits n) htail
  exact ⟨String.toList_injective hab,
    UInt64.toNat_inj.mp (toString_nat_inj (String.toList_injective hmn))⟩

/-! ## The invariant -/

/-- No two sends share a batch id, and every send finds its own batch under its id, in the state it
believes it in, or none where it was cleared. -/
structure Separate (s : Sends) : Prop where
  apart : s.live.Pairwise fun x y => x.batchId ≠ y.batchId
  gone : ∀ x ∈ s.live, x.batchId ∈ s.cleared → s.store.inFlight.lookup x.batchId = none
  own : ∀ x ∈ s.live, x.batchId ∉ s.cleared → ∃ b, s.store.inFlight.lookup x.batchId = some b ∧
    b.key = x.key ∧ statuses b = x.pieceStatuses

namespace Separate

variable {s : Sends} {x : Send}

theorem others (h : Separate s) (mem : x ∈ s.live) :
    (∀ y ∈ s.live.erase x, x.batchId ≠ y.batchId) ∧
      (s.live.erase x).Pairwise fun x y => x.batchId ≠ y.batchId := by
  have hperm := (List.perm_cons_erase mem).pairwise h.apart Ne.symm
  exact ⟨(List.pairwise_cons.mp hperm).1, (List.pairwise_cons.mp hperm).2⟩

/-- A send that is done, where the store changed under its id only. -/
theorem leave (h : Separate s) (mem : x ∈ s.live) {store : StoreV2}
    (frame : ∀ k, k ≠ x.batchId → store.inFlight.lookup k = s.store.inFlight.lookup k) :
    Separate { s with store := store, live := s.live.erase x } := by
  obtain ⟨hne, hapart⟩ := h.others mem
  refine ⟨hapart, ?_, ?_⟩
  · intro y hy hcleared
    rw [frame _ (hne y hy).symm]
    exact h.gone y (List.mem_of_mem_erase hy) hcleared
  · intro y hy hkept
    rw [frame _ (hne y hy).symm]
    exact h.own y (List.mem_of_mem_erase hy) hkept

/-- A send that moves on to `x'`, where the store changed under its id only. -/
theorem advance (h : Separate s) (mem : x ∈ s.live) {store : StoreV2} {x' : Send}
    (same : x'.batchId = x.batchId)
    (frame : ∀ k, k ≠ x.batchId → store.inFlight.lookup k = s.store.inFlight.lookup k)
    (gone : s.store.inFlight.lookup x.batchId = none → store.inFlight.lookup x.batchId = none)
    (own : ∀ b, s.store.inFlight.lookup x.batchId = some b → b.key = x.key →
      statuses b = x.pieceStatuses → ∃ b', store.inFlight.lookup x.batchId = some b' ∧
        b'.key = x'.key ∧ statuses b' = x'.pieceStatuses) :
    Separate { s with store := store, live := x' :: s.live.erase x } := by
  obtain ⟨hne, hapart⟩ := h.others mem
  have hleave := h.leave mem frame
  refine ⟨List.pairwise_cons.mpr ⟨?_, hapart⟩, ?_, ?_⟩
  · intro y hy
    rw [same]
    exact hne y hy
  · intro y hy hcleared
    rcases List.mem_cons.mp hy with rfl | hy
    · rw [same] at hcleared ⊢
      exact gone (h.gone x mem hcleared)
    · exact hleave.gone y hy hcleared
  · intro y hy hkept
    rcases List.mem_cons.mp hy with rfl | hy
    · rw [same] at hkept ⊢
      obtain ⟨b, hb, hkey, hst⟩ := h.own x mem hkept
      exact own b hb hkey hst
    · exact hleave.own y hy hkept

/-- A send that starts under an id of its own. -/
theorem start (h : Separate s) (key : BatchKey) (second now : UInt64) (count : Nat)
    (alone : StartsAlone s (.start ⟨key, second, [], false, count⟩)) :
    Separate (s.begun key second now count) := by
  have hne : ∀ y ∈ s.live, batchIdOf key.sessionId second ≠ y.batchId := by
    intro y hy heq
    obtain ⟨hs, hsec⟩ := batchIdOf_inj heq
    exact alone y hy hs.symm hsec.symm
  have hcleared : ∀ k, k ∈ (s.begun key second now count).cleared ↔
      k ∈ s.cleared ∧ k ≠ batchIdOf key.sessionId second := by
    simp [Sends.begun, List.mem_filter]
  have hold : ∀ y ∈ s.live, (s.begun key second now count).store.inFlight.lookup y.batchId =
      s.store.inFlight.lookup y.batchId := by
    intro y hy
    exact AList.lookup_insert_ne (hne y hy).symm
  refine ⟨List.pairwise_cons.mpr ⟨hne, h.apart⟩, ?_, ?_⟩
  · intro y hy hc
    obtain ⟨hc, hid⟩ := (hcleared _).mp hc
    rcases List.mem_cons.mp hy with rfl | hy
    · exact absurd rfl hid
    · rw [hold y hy]
      exact h.gone y hy hc
  · intro y hy hkept
    rcases List.mem_cons.mp hy with rfl | hy
    · exact ⟨_, AList.lookup_insert _, rfl, statuses_pendingPieces count⟩
    · rw [hold y hy]
      exact h.own y hy fun hc => hkept ((hcleared _).mpr ⟨hc, (hne y hy).symm⟩)

/-- Where all batches are taken away at once, every send under way is cleared. -/
theorem allCleared (h : Separate s) {store : StoreV2}
    (empty : ∀ k, store.inFlight.lookup k = none) :
    Separate { s with store := store, cleared := s.live.map Send.batchId } where
  apart := h.apart
  gone := fun x _ _ => empty x.batchId
  own := fun _ hx hkept => absurd (List.mem_map_of_mem hx) hkept

end Separate

/-! ## Runs -/

theorem Separate.init : Separate Sends.init where
  apart := List.Pairwise.nil
  gone := fun _ hx => absurd hx List.not_mem_nil
  own := fun _ hx => absurd hx List.not_mem_nil

/-- One step keeps the sends separate, unless it starts one under the id of another. -/
theorem Separate.step {s s' : Sends} {a : SendAction} (h : Separate s) (alone : StartsAlone s a)
    (hstep : SendStep s a s') : Separate s' := by
  cases hstep with
  | startContent key second now count => exact h.start key second now count alone
  | startSystem key second now count => exact h.start key second now count alone
  | @markStarted x now now' body mem idle more =>
    obtain ⟨n, hn⟩ := Nat.exists_eq_succ_of_ne_zero (Nat.pos_iff_ne_zero.mp more)
    refine h.advance mem rfl
      (fun k hk => markStartedAndPersist_lookup_ne s.store now now' _ body hk) ?_ ?_
    · intro hl
      unfold markStartedAndPersist StoreV2.markResponseStarted StoreV2.setPieceBody
      rw [updatePiece_lookup_none hl, updatePiece_lookup_none hl, hl]
    · intro b hb hkey hst
      unfold Send.pieceStatuses at hst
      rw [idle, hn] at hst
      obtain ⟨b', hb', hkey', _, hst'⟩ := markStartedAndPersist_progress hb hst now now' body
      refine ⟨b', hb', hkey'.trans hkey, hst'.trans ?_⟩
      unfold Send.pieceStatuses
      rw [hn]
      rfl
  | @ack x now now' interactionId mem busy =>
    refine h.advance mem rfl
      (fun k hk => ackAndPersist_lookup_ne s.store now now' _ interactionId hk) ?_ ?_
    · intro hl
      unfold ackAndPersist StoreV2.ackPiece StoreV2.markSent
      rw [updatePiece_lookup_none hl, updatePiece_lookup_none hl, hl]
    · intro b hb hkey hst
      unfold Send.pieceStatuses at hst
      rw [busy] at hst
      obtain ⟨b', hb', hkey', _, hst'⟩ := ackAndPersist_progress hb hst now now' interactionId
      exact ⟨b', hb', hkey'.trans hkey, hst'⟩
  | complete now mem => exact h.leave mem fun k hk => completeBatch_lookup_ne s.store now hk
  | fail now error mem => exact h.leave mem fun k hk => failBatch_lookup_ne s.store now error hk
  | abandon mem => exact h.leave mem fun _ _ => rfl
  | cleanAll => exact h.allCleared fun k => by simp [StoreV2.cleanAll]
  | discardAllInflight => exact h.allCleared fun k => by simp [StoreV2.discardAllInflight]
  | other inFlight =>
    refine ⟨h.apart, ?_, ?_⟩
    · intro x hx hc
      rw [inFlight]
      exact h.gone x hx hc
    · intro x hx hkept
      rw [inFlight]
      exact h.own x hx hkept

/-- A send that completes among separate ones completes its own. -/
theorem Separate.completesOwn {s s' : Sends} {a : SendAction} (h : Separate s)
    (hstep : SendStep s a s') : CompletesOwn s a := by
  cases hstep with
  | @complete x now mem idle all =>
    by_cases hcleared : x.batchId ∈ s.cleared
    · simp only [CompletesOwn, if_pos hcleared]
      exact completeBatch_missing (h.gone x mem hcleared)
    · simp only [CompletesOwn, if_neg hcleared]
      obtain ⟨b, hl, hkey, hst⟩ := h.own x mem hcleared
      have hacked : statuses b = x.received.map InFlightStatus.acked := by
        rw [hst]
        unfold Send.pieceStatuses
        rw [idle, all, progress_all]
      have hnode : StoreV2.clientNodeOf b x.received now = x.clientNode now := by
        unfold StoreV2.clientNodeOf Send.clientNode
        rw [← hkey]
        rfl
      obtain ⟨hok, hget⟩ := completeBatch_acked hl hacked now
      rw [hnode] at hok hget
      exact ⟨hok, hget⟩
  | _ => trivial

/-- **Throughout a run in which no send starts under another's id, every send that completes stores
the node of its own request, over exactly the ids it received**, unless its batch was cleared. Sends
that fail, give up or complete next to it change nothing in that. -/
theorem sends_isolated {moments : List (Sends × SendAction)} {s : Sends}
    (run : sends.Run moments s) (alone : ∀ m ∈ moments, StartsAlone m.1 m.2) :
    ∀ m ∈ moments, InsertsOwn m.1 m.2 ∧ CompletesOwn m.1 m.2 :=
  run.at_moments StartsAlone (fun s a => InsertsOwn s a ∧ CompletesOwn s a) Separate.init
    (fun _ _ _ h ha hstep => h.step ha hstep)
    (fun _ _ _ h _ hstep => ⟨(h.completesOwn hstep).insertsOwn, h.completesOwn hstep⟩) alone

def firstSend : Send := ⟨⟨"s", none, [1], none⟩, 0, [], false, 1⟩

def secondSend : Send := ⟨⟨"s", none, [2], none⟩, 0, [], false, 1⟩

/-- Of the same session as the first, a second later. -/
def laterSend : Send := ⟨⟨"s", none, [3], none⟩, 1, [], false, 1⟩

def firstSendAcked : Send := { firstSend with received := ["a"], remaining := 0 }

def bothBegun : Sends := (Sends.init.begun firstSend.key 0 0 1).begun laterSend.key 1 1 1

/-- The first has its one piece acked, and the later one has failed at its own. -/
def laterFailed : Sends :=
  { store :=
      ((ackAndPersist
        (markStartedAndPersist
          (markStartedAndPersist bothBegun.store 1 1 "batch-s-0" 0 []) 1 1 "batch-s-1" 0 [])
        2 2 "batch-s-0" 0 "a").failBatch 2 "batch-s-1" "chunk 0 send error").1
    live := [firstSendAcked]
    cleared := [] }

/-- The two run next to each other; the later one fails before the first completes. -/
theorem sends_isolated_twoSends :
    InsertsOwn laterFailed (.complete firstSendAcked 3) ∧
      CompletesOwn laterFailed (.complete firstSendAcked 3) := by
  have r1 := System.Run.init.step (S := sends)
    (SendStep.startContent firstSend.key 0 0 1 [] List.Perm.nil rfl)
  have r2 := r1.step (SendStep.startContent laterSend.key 1 1 1 _ (List.Perm.refl _) (by decide))
  have r3 := r2.step (SendStep.markStarted 1 1 [] (x := firstSend) (by decide) rfl (by decide))
  have r4 := r3.step (SendStep.markStarted 1 1 [] (x := laterSend) (by decide) rfl (by decide))
  have r5 := r4.step (SendStep.ack 2 2 "a"
    (x := { firstSend with started := true, remaining := 0 }) (by decide) rfl)
  have r6 := r5.step (SendStep.fail 2 "chunk 0 send error"
    (x := { laterSend with started := true, remaining := 0 }) (by decide))
  have r7 := r6.step (SendStep.complete 3 (List.mem_cons_self ..) rfl rfl)
  refine sends_isolated r7 ?_ (laterFailed, _) (List.mem_cons_self ..)
  simp [StartsAlone, sends, Sends.begun, Sends.init, firstSend, laterSend]

/-- The second send of the session starts in the same second as the first, which then completes
with the messages of the second. -/
theorem sends_not_always_isolated :
    ¬ ∀ moments s, sends.Run moments s → ∀ m ∈ moments, InsertsOwn m.1 m.2 := by
  intro h
  have r1 := System.Run.init.step (S := sends)
    (SendStep.startContent firstSend.key 0 0 1 [] List.Perm.nil rfl)
  have r2 := r1.step (SendStep.startContent secondSend.key 0 0 1 _ (List.Perm.refl _) (by decide))
  have r3 := r2.step (SendStep.markStarted 0 0 [] (x := firstSend) (by decide) rfl (by decide))
  have r4 := r3.step (SendStep.ack 0 0 "a" (List.mem_cons_self ..) rfl)
  have r5 := r4.step (SendStep.complete 0 (List.mem_cons_self ..) rfl rfl)
  have hown := h _ _ r5 _ (List.mem_cons_self ..)
  obtain ⟨hnode, _⟩ := hown ⟨"a", none, [2], none, ["a"], 0⟩ (by rfl)
  exact absurd (congrArg ClientInteractionNode.messageHashes hnode) (by decide)

end InfSplitter.SplitSend
