import InfSplitter.Routing.Invariant
import InfSplitter.Traffic.SessionRecord

/-!
# The client chains of all requests

What one event does to the client nodes and the two indexes the search reads (`chain_change`), and
where the requests that are under way have their previous id from (`asking_origin`).
-/

set_option autoImplicit false

namespace InfSplitter.Traffic

open Lib Session Routing SplitSend

/-- The event inserts the client node. -/
inductive Inserts (p : Proxy) : Event → ClientInteractionNode → Prop
  | commit {x : Exchange} {id : String} (now : UInt64) (mem : x ∈ p.asking) :
      Inserts p (.commit x id)
        (recordedNode now id x.prevId x.request.hashes x.storedSystemHash)
  | complete {y : Send} {now : UInt64} {batch : InFlightBatch}
      (own : p.store.inFlight.lookup y.batchId = some batch) (all : batch.allAcked = true) :
      Inserts p (.complete y now) (StoreV2.clientNodeOf batch batch.ackedIds now)

/-- The events that can insert a node. -/
def Event.inserts : Event → Bool
  | .commit .. => true
  | .complete .. => true
  | _ => false

theorem not_inserts {p : Proxy} {a : Event} (h : a.inserts = false)
    (node : ClientInteractionNode) : ¬ Inserts p a node := by
  intro inserts
  cases inserts with
  | commit => cases h
  | complete => cases h

/-- What an event does to the client nodes and their indexes. -/
inductive ChainChange (p : Proxy) (a : Event) (after : InteractionStore) : Prop
  | same (h : SameChains p.store.interactions after) (none : ∀ node, ¬ Inserts p a node)
  | inserted {node : ClientInteractionNode} (inserts : Inserts p a node)
      (h : SameChains (p.store.interactions.insertClient node) after)
  | touched (id : String) (now : UInt64)
      (h : after = StoreV2.touchClient p.store.interactions id now)
      (none : ∀ node, ¬ Inserts p a node)
  | cleaned (ha : a = .cleanAll) (h : after = p.store.cleanAll.interactions)

/-- A batch that completes inserts its node, any other inserts none. -/
theorem complete_change (p : Proxy) (y : Send) (now : UInt64) :
    ChainChange p (.complete y now) (p.completed y now).store.interactions := by
  unfold Proxy.completed
  cases completing p.store now y.batchId with
  | missing hb result =>
    rw [result]
    refine .same (.refl _) ?_
    intro node inserts
    cases inserts with
    | complete own _ => cases hb.symm.trans own
  | partly hb unacked result =>
    rw [result]
    refine .same (insertCalls_sameChains _ _) ?_
    intro node inserts
    cases inserts with
    | complete own all =>
      cases hb.symm.trans own
      rw [unacked] at all
      cases all
  | whole hb all result =>
    rw [result]
    exact .inserted (.complete hb all) (completed_sameChains p.store now y.batchId _)

/-- **What one event does to the chains.** -/
theorem chain_change {p p' : Proxy} {a : Event} (h : Step p a p') :
    ChainChange p a p'.store.interactions := by
  cases h with
  | answered => exact .same (.refl _) (not_inserts rfl)
  | lookup => exact .same (.refl _) (not_inserts rfl)
  | commit id now sessionId mem =>
    exact .inserted (.commit now mem) (recordInteraction_sameChains _ _ _ _ _ _ _)
  | startContent => exact .same (.refl _) (not_inserts rfl)
  | startSystem => exact .same (.refl _) (not_inserts rfl)
  | markStarted =>
    refine .same ?_ (not_inserts rfl)
    exact (updatePiece_sameChains ..).trans (updatePiece_sameChains ..)
  | ack =>
    refine .same ?_ (not_inserts rfl)
    exact (updatePiece_sameChains ..).trans (updatePiece_sameChains ..)
  | @complete y now => exact complete_change p y now
  | fail now error => exact .same (failBatch_sameChains ..) (not_inserts rfl)
  | abandon => exact .same (.refl _) (not_inserts rfl)
  | drop => exact .same (.refl _) (not_inserts rfl)
  | unstored => exact .same (.refl _) (not_inserts rfl)
  | sessions => exact .same (.refl _) (not_inserts rfl)
  | extendLifetime now sessionId expiresAtUtc =>
    rcases extendLifetime_interactions p.store now sessionId expiresAtUtc with heq | ⟨id, heq⟩
    · refine .same ?_ (not_inserts rfl)
      rw [show _ = _ from heq]
      exact .refl _
    · exact .touched id now heq (not_inserts rfl)
  | touchUpstream => exact .same (touchUpstreamOnReplay_sameChains ..) (not_inserts rfl)
  | cleanAll => exact .cleaned rfl rfl

theorem indexed_step {p p' : Proxy} {a : Event} (h : p.store.interactions.Indexed)
    (hstep : Step p a p') : p'.store.interactions.Indexed := by
  cases chain_change hstep with
  | same same => exact h.congr same
  | inserted inserts same => exact (h.insertClient _).congr same
  | touched id now heq => exact heq ▸ h.touchClient id now
  | cleaned _ heq => exact heq ▸ InteractionStore.Indexed.cleanAll p.store

/-- A request under way was so before, or the event is its lookup. -/
theorem asking_origin {p p' : Proxy} {a : Event} (h : Step p a p') {x : Exchange}
    (hx : x ∈ p'.asking) :
    x ∈ p.asking ∨ (findFrontier p.store.interactions x.request.hashes none none =
      some x.frontier ∧ Proceeds x.request x.frontier) := by
  cases h with
  | lookup found proceeds =>
    rcases List.mem_cons.mp hx with rfl | hx
    · exact Or.inr ⟨found, proceeds⟩
    · exact Or.inl hx
  | commit => exact Or.inl (List.mem_of_mem_erase hx)
  | startContent => exact Or.inl (List.mem_of_mem_erase hx)
  | startSystem => exact Or.inl (List.mem_of_mem_erase hx)
  | drop => exact Or.inl (List.mem_of_mem_erase hx)
  | _ => exact Or.inl hx

end InfSplitter.Traffic
