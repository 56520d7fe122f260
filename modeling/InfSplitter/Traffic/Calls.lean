import InfSplitter.Session.Walks
import InfSplitter.Traffic.Chains

/-!
# The calls of all requests

What one event does to the upstream nodes (`call_change`): a request that is sent in one piece
brings one call, a batch that completes brings the calls of the pieces it begins with, and a batch
that fails takes those of its acked pieces away. As long as the upstream gives out every id once
(`Issued`), the ids that are brought are new and differ, and there is nothing to take away.
-/

set_option autoImplicit false

namespace InfSplitter.Traffic

open Lib Session Routing SplitSend

/-- The event brings calls with these ids, chained behind `prev`. -/
inductive Brings (p : Proxy) : Event → Option String → List String → Prop
  | commit {x : Exchange} {id : String} (mem : x ∈ p.asking) :
      Brings p (.commit x id) x.prevId [id]
  | complete {y : Send} {now : UInt64} {batch : InFlightBatch}
      (own : p.store.inFlight.lookup y.batchId = some batch) :
      Brings p (.complete y now) batch.prevInteractionId
        ((batch.calls now).map UpstreamInteractionNode.id)

/-- What an event does to the calls. -/
inductive CallChange (p : Proxy) (a : Event) (after : InteractionStore) : Prop
  | same (h : callLink after = callLink p.store.interactions)
      (none : ∀ node, ¬ Inserts p a node)
  | grown {prev : Option String} {ids : List String} (brings : Brings p a prev ids)
      (h : callLink after = grow (callLink p.store.interactions) prev ids)
      (inserted : ∀ node, Inserts p a node → node.prevId = prev ∧ node.upstreamIds = ids ∧
        node.id = ids.getLast?.getD "")
  | failed {k : String} {batch : InFlightBatch} (own : p.store.inFlight.lookup k = some batch)
      (h : ∀ id, callLink after id =
        if id ∈ batch.ackedIds then none else callLink p.store.interactions id)
      (none : ∀ node, ¬ Inserts p a node)
  | cleaned (ha : a = .cleanAll) (h : callLink after = fun _ => none)

theorem failBatch_upstreams {s : StoreV2} {batchId : String} {batch : InFlightBatch}
    (h : s.inFlight.lookup batchId = some batch) (now : UInt64) (error id : String) :
    (s.failBatch now batchId error).1.interactions.upstreams.lookup id =
      if id ∈ batch.ackedIds then none else s.interactions.upstreams.lookup id := by
  unfold StoreV2.failBatch
  rw [h]
  exact lookup_foldl_erase s.interactions.upstreams batch.ackedIds id

theorem failBatch_callLink {s : StoreV2} {batchId : String} {batch : InFlightBatch}
    (h : s.inFlight.lookup batchId = some batch) (now : UInt64) (error id : String) :
    callLink (s.failBatch now batchId error).1.interactions id =
      if id ∈ batch.ackedIds then none else callLink s.interactions id := by
  unfold callLink
  rw [failBatch_upstreams h]
  split <;> rfl

theorem touchUpstreamOnReplay_callLink (store : InteractionStore) (id : String) (now : UInt64) :
    callLink (store.touchUpstreamOnReplay id now) = callLink store := by
  funext k
  unfold InteractionStore.touchUpstreamOnReplay
  cases hid : store.upstreams.lookup id with
  | none => rfl
  | some node =>
    apply map_lookup_insert UpstreamInteractionNode.prevId hid
    rfl

theorem updatePiece_interactions (s : StoreV2) (now : UInt64) (batchId : String) (i : Nat)
    (change : InFlightPiece → Except BatchError InFlightPiece) :
    (s.updatePiece now batchId i change).1.interactions = s.interactions := by
  rcases updatePiece_cases s now batchId i change with hs | ⟨_, _, _, _, _, _, hs⟩ <;> rw [hs]

theorem markStartedAndPersist_interactions (s : StoreV2) (now now' : UInt64) (batchId : String)
    (i : Nat) (body : List UInt8) :
    (markStartedAndPersist s now now' batchId i body).interactions = s.interactions :=
  (updatePiece_interactions ..).trans (updatePiece_interactions ..)

theorem ackAndPersist_interactions (s : StoreV2) (now now' : UInt64) (batchId : String) (i : Nat)
    (id : String) : (ackAndPersist s now now' batchId i id).interactions = s.interactions :=
  (updatePiece_interactions ..).trans (updatePiece_interactions ..)

theorem extendLifetime_callLink (s : StoreV2) (now : UInt64) (sessionId : String)
    (expiresAtUtc : UInt64) :
    callLink (s.extendLifetime now sessionId expiresAtUtc).interactions =
      callLink s.interactions := by
  rcases extendLifetime_interactions s now sessionId expiresAtUtc with h | ⟨id, h⟩
  · rw [h]
  · rw [h]
    unfold StoreV2.touchClient
    split <;> rfl

theorem complete_callChange (p : Proxy) (y : Send) (now : UInt64) :
    CallChange p (.complete y now) (p.completed y now).store.interactions := by
  unfold Proxy.completed
  have grown (batch : InFlightBatch) :
      callLink (insertCalls p.store.interactions (batch.calls now)) = _ :=
    callLink_insertCalls _ batch now batch.pieces batch.prevInteractionId
  cases completing p.store now y.batchId with
  | missing hb result =>
    rw [result]
    refine .same rfl ?_
    intro node inserts
    cases inserts with
    | complete own _ => cases hb.symm.trans own
  | @partly batch _ hb unacked result =>
    rw [result]
    refine .grown (.complete hb) (grown batch) ?_
    intro node inserts
    cases inserts with
    | complete own all =>
      cases hb.symm.trans own
      rw [unacked] at all
      cases all
  | @whole batch hb all result =>
    rw [result]
    refine .grown (.complete hb) (grown batch) ?_
    intro node inserts
    cases inserts with
    | complete own _ =>
      cases hb.symm.trans own
      have hids : (batch.calls now).map UpstreamInteractionNode.id = batch.ackedIds :=
        map_id_pieceNodes batch now all _
      rw [hids]
      exact ⟨rfl, rfl, rfl⟩

/-- **What one event does to the calls.** -/
theorem call_change {p p' : Proxy} {a : Event} (h : Step p a p') :
    CallChange p a p'.store.interactions := by
  cases h with
  | answered => exact .same rfl (not_inserts rfl)
  | lookup => exact .same rfl (not_inserts rfl)
  | @commit x id now sessionId mem =>
    refine .grown (.commit mem) (callLink_insertUpstream _ _) ?_
    intro node inserts
    cases inserts
    exact ⟨rfl, rfl, rfl⟩
  | startContent => exact .same rfl (not_inserts rfl)
  | startSystem => exact .same rfl (not_inserts rfl)
  | markStarted =>
    exact .same (congrArg callLink (markStartedAndPersist_interactions ..)) (not_inserts rfl)
  | ack => exact .same (congrArg callLink (ackAndPersist_interactions ..)) (not_inserts rfl)
  | @complete y now => exact complete_callChange p y now
  | @fail y now error =>
    unfold Proxy.failed
    cases hb : p.store.inFlight.lookup y.batchId with
    | none =>
      rw [failBatch_missing hb]
      exact .same rfl (not_inserts rfl)
    | some batch => exact .failed hb (failBatch_callLink hb now error) (not_inserts rfl)
  | abandon => exact .same rfl (not_inserts rfl)
  | drop => exact .same rfl (not_inserts rfl)
  | unstored => exact .same rfl (not_inserts rfl)
  | sessions => exact .same rfl (not_inserts rfl)
  | extendLifetime => exact .same (extendLifetime_callLink ..) (not_inserts rfl)
  | touchUpstream => exact .same (touchUpstreamOnReplay_callLink ..) (not_inserts rfl)
  | cleanAll =>
    refine .cleaned rfl (funext fun id => ?_)
    simp [callLink, StoreV2.cleanAll]

/-! ## Ids the upstream gives out once -/

/-- Piece `i` of the batch under `k` is acked with `id`. -/
def AckedUnder (p : Proxy) (k : String) (i : Nat) (id : String) : Prop :=
  ∃ batch, p.store.inFlight.lookup k = some batch ∧ AckedAt batch i id

structure Issued (p : Proxy) : Prop where
  calls : ∀ id, (callLink p.store.interactions id).isSome = true → id ∈ p.issued
  -- no call is inserted before its batch completes
  acked : ∀ k i id, AckedUnder p k i id → id ∈ p.issued ∧ callLink p.store.interactions id = none
  apart : ∀ k i k' i' id, AckedUnder p k i id → AckedUnder p k' i' id → k = k' ∧ i = i'

theorem not_ackedAt_pending {batch : InFlightBatch} {count i : Nat} {id : String}
    (h : batch.pieces = pendingPieces count) : ¬ AckedAt batch i id := by
  intro hacked
  obtain ⟨piece, hpiece, hst⟩ := ackedAt_iff.mp hacked
  rw [h] at hpiece
  unfold pendingPieces at hpiece
  obtain ⟨_, _, rfl⟩ := Option.map_eq_some_iff.mp (List.getElem?_map ▸ hpiece)
  cases hst

theorem issued_mono {p p' : Proxy} {a : Event} (h : Step p a p') {id : String}
    (hid : id ∈ p.issued) : id ∈ p'.issued := by
  cases h with
  | commit => exact List.mem_append_left _ hid
  | ack => exact List.mem_append_left _ hid
  | unstored => exact List.mem_append_left _ hid
  | _ => exact hid

/-- A piece that is acked was so before, or the event acks it. -/
theorem ackedUnder_origin {p p' : Proxy} {a : Event} (h : Step p a p') {k : String} {i : Nat}
    {id : String} (hacked : AckedUnder p' k i id) :
    AckedUnder p k i id ∨ ∃ y, a = .ack y id ∧ k = y.batchId ∧ i = y.received.length := by
  obtain ⟨batch', hb, hacked⟩ := hacked
  cases batch_origin h hb with
  | moved old moved => exact (moved.acked hacked).imp_left fun hold => ⟨_, old, hold⟩
  | begun _ _ _ _ _ hpieces => exact absurd hacked (not_ackedAt_pending hpieces)

/-- The calls of a batch have ids its pieces are acked with. -/
theorem ackedUnder_of_calls {p : Proxy} {k id : String} {batch : InFlightBatch} {now : UInt64}
    (own : p.store.inFlight.lookup k = some batch)
    (hid : id ∈ (batch.calls now).map UpstreamInteractionNode.id) :
    ∃ i, AckedUnder p k i id := by
  have hacked : id ∈ batch.ackedIds := (ids_pieceNodes_sublist batch now _ _).subset hid
  obtain ⟨i, hi⟩ := mem_ackedIds.mp hacked
  exact ⟨i, batch, own, hi⟩

namespace Issued

theorem init : Issued Proxy.init where
  calls id h := by simp [callLink, Proxy.init, StoreV2.new, InteractionStore.new] at h
  acked k i id h := by
    obtain ⟨batch, hb, _⟩ := h
    simp [Proxy.init, StoreV2.new] at hb
  apart k i k' i' id h := by
    obtain ⟨batch, hb, _⟩ := h
    simp [Proxy.init, StoreV2.new] at hb

variable {p p' : Proxy} {a : Event}

theorem notStored (h : Issued p) {id : String} (hid : id ∉ p.issued) :
    callLink p.store.interactions id = none := by
  rw [← Option.not_isSome_iff_eq_none]
  exact fun hsome => hid (h.calls id hsome)

/-- The acked ids of one batch differ. -/
theorem nodup (h : Issued p) {k : String} {batch : InFlightBatch}
    (own : p.store.inFlight.lookup k = some batch) : batch.ackedIds.Nodup := by
  have under {i : Nat} {id : String} (hi : i < batch.pieces.length)
      (hid : batch.pieces[i].ackedId = some id) : AckedUnder p k i id :=
    ⟨batch, own, ackedAt_iff.mpr
      ⟨batch.pieces[i], List.getElem?_eq_getElem hi, ackedId_eq_some.mp hid⟩⟩
  apply List.pairwise_filterMap.mpr
  apply List.pairwise_iff_getElem.mpr
  rintro i j hi hj hlt id hid id' hid' rfl
  exact absurd (h.apart k i k j id (under hi hid) (under hj hid')).2 (Nat.ne_of_lt hlt)

/-- **What an event brings is new.** -/
theorem brings (h : Issued p) (fresh : Fresh p a) {prev : Option String} {ids : List String}
    (hbrings : Brings p a prev ids) :
    ids.Nodup ∧ ∀ id ∈ ids, callLink p.store.interactions id = none := by
  cases hbrings with
  | commit mem =>
    refine ⟨List.nodup_singleton _, fun id hid => ?_⟩
    rw [List.mem_singleton.mp hid]
    exact h.notStored fresh
  | complete own =>
    refine ⟨(ids_pieceNodes_sublist _ _ _ _).nodup (h.nodup own), fun id hid => ?_⟩
    obtain ⟨i, hacked⟩ := ackedUnder_of_calls own hid
    exact (h.acked _ _ _ hacked).2

/-- A batch that fails takes no call away. -/
theorem failed (h : Issued p) {k : String} {batch : InFlightBatch}
    (own : p.store.inFlight.lookup k = some batch) {after : InteractionStore}
    (hafter : ∀ id, callLink after id =
      if id ∈ batch.ackedIds then none else callLink p.store.interactions id) :
    callLink after = callLink p.store.interactions := by
  funext id
  rw [hafter]
  by_cases hid : id ∈ batch.ackedIds
  · rw [if_pos hid]
    obtain ⟨i, hi⟩ := mem_ackedIds.mp hid
    exact ((h.acked k i id ⟨batch, own, hi⟩).2).symm
  · rw [if_neg hid]

/-- What an event brings has been given out. -/
theorem brought_issued (h : Issued p) (hstep : Step p a p') {prev : Option String}
    {ids : List String} (hbrings : Brings p a prev ids) {id : String} (hmem : id ∈ ids) :
    id ∈ p'.issued := by
  cases hbrings with
  | commit mem =>
    cases hstep
    rw [List.mem_singleton.mp hmem]
    exact List.mem_append_right _ (List.mem_singleton_self _)
  | complete own =>
    obtain ⟨i, hacked⟩ := ackedUnder_of_calls own hmem
    exact issued_mono hstep (h.acked _ _ _ hacked).1

/-- What an event brings is not acked afterwards: the batch it comes from has left the map. -/
theorem brought_unacked (h : Issued p) (fresh : Fresh p a) (hstep : Step p a p')
    {prev : Option String} {ids : List String} (hbrings : Brings p a prev ids) {k : String}
    {i : Nat} {id : String} (hacked : AckedUnder p' k i id) : id ∉ ids := by
  intro hmem
  have hold : AckedUnder p k i id := by
    rcases ackedUnder_origin hstep hacked with hold | ⟨y, rfl, _⟩
    · exact hold
    · cases hbrings
  cases hbrings with
  | commit mem =>
    rw [List.mem_singleton.mp hmem] at hold
    exact fresh (h.acked _ _ _ hold).1
  | @complete y now batch own =>
    obtain ⟨j, hj⟩ := ackedUnder_of_calls own hmem
    obtain ⟨hk, _⟩ := h.apart k i _ j id hold hj
    obtain ⟨batch', hb, _⟩ := hacked
    cases hstep
    unfold Proxy.completed at hb
    rw [completeBatch_inFlight] at hb
    exact (lookup_erase_some hb).1 hk

theorem step (h : Issued p) (fresh : Fresh p a) (hstep : Step p a p') : Issued p' := by
  -- what is stored afterwards was stored before, or is brought by the event
  have calls : ∀ id, (callLink p'.store.interactions id).isSome = true → id ∈ p'.issued := by
    intro id hid
    cases call_change hstep with
    | same heq => exact issued_mono hstep (h.calls id (heq ▸ hid))
    | failed own heq => exact issued_mono hstep (h.calls id (h.failed own heq ▸ hid))
    | cleaned _ heq =>
      rw [heq] at hid
      cases hid
    | @grown prev ids hbrings heq =>
      by_cases hmem : id ∈ ids
      · exact h.brought_issued hstep hbrings hmem
      · rw [heq, grow_of_notMem hmem] at hid
        exact issued_mono hstep (h.calls id hid)
  refine ⟨calls, ?_, ?_⟩
  · intro k i id hacked
    rcases ackedUnder_origin hstep hacked with hold | ⟨y, rfl, rfl, rfl⟩
    · obtain ⟨hissued, hnone⟩ := h.acked k i id hold
      refine ⟨issued_mono hstep hissued, ?_⟩
      cases call_change hstep with
      | same heq => rw [heq, hnone]
      | failed own heq => rw [h.failed own heq, hnone]
      | cleaned _ heq => rw [heq]
      | grown hbrings heq =>
        rw [heq, grow_of_notMem (h.brought_unacked fresh hstep hbrings hacked), hnone]
    · have heq : callLink p'.store.interactions = callLink p.store.interactions := by
        cases hstep
        exact congrArg callLink (ackAndPersist_interactions ..)
      refine ⟨?_, heq ▸ h.notStored fresh⟩
      cases hstep
      exact List.mem_append_right _ (List.mem_singleton_self _)
  · intro k i k' i' id hacked hacked'
    rcases ackedUnder_origin hstep hacked with hold | ⟨y, rfl, rfl, rfl⟩
    · rcases ackedUnder_origin hstep hacked' with hold' | ⟨y, rfl, rfl, rfl⟩
      · exact h.apart k i k' i' id hold hold'
      · exact absurd (h.acked _ _ _ hold).1 fresh
    · rcases ackedUnder_origin hstep hacked' with hold' | ⟨y', heq, rfl, rfl⟩
      · exact absurd (h.acked _ _ _ hold').1 fresh
      · cases heq
        exact ⟨rfl, rfl⟩

end Issued

end InfSplitter.Traffic
