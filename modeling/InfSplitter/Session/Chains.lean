import InfSplitter.Session.InFlight

/-!
# The client nodes and what changes them

The frontier search reads three things of a store: the client nodes, the hash index over them and
the child links. Three operations change them, an insert, a stamp and the full clean-up; everything
else leaves all three alone (`SameChains`).

`Indexed` is the part of a well-formed store every one of these operations keeps, whatever it is
given: node ids are their keys, and the index misses no occurrence of a hash. It does not say that
the index lists *only* occurrences: a node that is inserted again under its id leaves its old
positions there, and the search checks each position it takes.
-/

set_option autoImplicit false

namespace InfSplitter.Session

open Lib

/-- `c` is one of the store's client nodes. -/
def InteractionStore.Stored (store : InteractionStore) (c : ClientInteractionNode) : Prop :=
  store.clients.lookup c.id = some c

instance (store : InteractionStore) (c : ClientInteractionNode) : Decidable (store.Stored c) :=
  inferInstanceAs (Decidable (_ = _))

structure InteractionStore.Indexed (store : InteractionStore) : Prop where
  keyed : ∀ {k : String} {c : ClientInteractionNode},
    store.clients.lookup k = some c → c.id = k
  indexed : ∀ {c : ClientInteractionNode} {i : Nat} {h : UInt64},
    store.Stored c → c.messageHashes[i]? = some h →
      { clientId := c.id, messageIndex := i } ∈ store.lookupHash h

/-- Two stores with the same client nodes and the same indexes for the search. -/
structure SameChains (store store' : InteractionStore) : Prop where
  clients : store'.clients = store.clients
  hashIndex : store'.hashIndex = store.hashIndex
  prevToClient : store'.prevToClient = store.prevToClient

variable {store store' : InteractionStore}

/-- What is found in a store whose nodes are stored under their ids is stored. -/
theorem stored_of_lookup (keyed : ∀ {k : String} {c : ClientInteractionNode},
    store.clients.lookup k = some c → c.id = k) {k : String} {c : ClientInteractionNode}
    (h : store.clients.lookup k = some c) : store.Stored c := by
  unfold InteractionStore.Stored
  rw [keyed h]
  exact h

theorem SameChains.stored_iff (h : SameChains store store') {c : ClientInteractionNode} :
    store'.Stored c ↔ store.Stored c := by
  unfold InteractionStore.Stored
  rw [h.clients]

theorem SameChains.insertClient (h : SameChains store store') (node : ClientInteractionNode) :
    SameChains (store.insertClient node) (store'.insertClient node) := by
  refine ⟨?_, ?_, ?_⟩
  · rw [InteractionStore.insertClient_clients, InteractionStore.insertClient_clients, h.clients]
  · unfold InteractionStore.insertClient
    rw [h.hashIndex]
  · unfold InteractionStore.insertClient
    rw [h.prevToClient]

/-! ## Three operations -/

/-- Which nodes are stored after an insert. -/
theorem stored_insertClient {node c : ClientInteractionNode} :
    (store.insertClient node).Stored c ↔ c = node ∨ c.id ≠ node.id ∧ store.Stored c := by
  unfold InteractionStore.Stored
  rw [InteractionStore.insertClient_lookup]
  by_cases hid : c.id = node.id
  · rw [if_pos hid, Option.some.injEq]
    exact ⟨fun h => Or.inl h.symm, fun h => h.elim Eq.symm fun h => absurd hid h.1⟩
  · rw [if_neg hid]
    refine ⟨fun h => Or.inr ⟨hid, h⟩, fun h => h.elim (fun h => ?_) And.right⟩
    exact absurd (congrArg ClientInteractionNode.id h) hid

/-- A stamp changes one node, and nothing of it but the stamp. -/
theorem touchClient_clients (store : InteractionStore) (id : String) (now : UInt64) (k : String) :
    (StoreV2.touchClient store id now).clients.lookup k =
      (store.clients.lookup k).map fun c => if k = id then { c with lastSeenUtc := now } else c := by
  unfold StoreV2.touchClient
  by_cases hk : k = id
  · subst hk
    cases hid : store.clients.lookup k with
    | none => simp [hid]
    | some client => simp [AList.lookup_insert]
  · cases store.clients.lookup id with
    | none => simp [hk]
    | some client => simp [AList.lookup_insert_ne hk, hk]

/-- Every node of a store after a stamp is an old one up to its stamp. -/
theorem touchClient_origin {id k : String} {now : UInt64} {c : ClientInteractionNode}
    (hc : (StoreV2.touchClient store id now).clients.lookup k = some c) :
    ∃ c0, store.clients.lookup k = some c0 ∧ c = { c0 with lastSeenUtc := c.lastSeenUtc } := by
  rw [touchClient_clients] at hc
  obtain ⟨c0, h0, rfl⟩ := Option.map_eq_some_iff.mp hc
  refine ⟨c0, h0, ?_⟩
  split <;> rfl

theorem touchClient_lookup {id k : String} {now : UInt64} {c : ClientInteractionNode}
    (hc : (StoreV2.touchClient store id now).clients.lookup k = some c) :
    ∃ c0, store.clients.lookup k = some c0 ∧ c.id = c0.id ∧ c.prevId = c0.prevId ∧
      c.messageHashes = c0.messageHashes ∧
      c.systemInstructionHash = c0.systemInstructionHash := by
  obtain ⟨c0, h0, heq⟩ := touchClient_origin hc
  rw [heq]
  exact ⟨c0, h0, rfl, rfl, rfl, rfl⟩

@[simp] theorem touchClient_hashIndex (store : InteractionStore) (id : String) (now : UInt64) :
    (StoreV2.touchClient store id now).hashIndex = store.hashIndex := by
  unfold StoreV2.touchClient
  cases store.clients.lookup id <;> rfl

@[simp] theorem touchClient_prevToClient (store : InteractionStore) (id : String) (now : UInt64) :
    (StoreV2.touchClient store id now).prevToClient = store.prevToClient := by
  unfold StoreV2.touchClient
  cases store.clients.lookup id <;> rfl

/-- `extend_lifetime` stamps at most one client node. -/
theorem extendLifetime_interactions (s : StoreV2) (now : UInt64) (sessionId : String)
    (expiresAtUtc : UInt64) :
    (s.extendLifetime now sessionId expiresAtUtc).interactions = s.interactions ∨
      ∃ id, (s.extendLifetime now sessionId expiresAtUtc).interactions =
        StoreV2.touchClient s.interactions id now := by
  unfold StoreV2.extendLifetime
  cases s.sessions.lookup sessionId with
  | none => exact Or.inl rfl
  | some session =>
    cases h : session.lastInteractionId with
    | none => simp [h]
    | some lastId => exact Or.inr ⟨lastId, by simp [h]⟩

theorem extendLifetime_inFlight (s : StoreV2) (now : UInt64) (sessionId : String)
    (expiresAtUtc : UInt64) :
    (s.extendLifetime now sessionId expiresAtUtc).inFlight = s.inFlight := by
  unfold StoreV2.extendLifetime
  split <;> rfl

theorem not_stored_cleanAll (s : StoreV2) (c : ClientInteractionNode) :
    ¬ s.cleanAll.interactions.Stored c := by
  simp [StoreV2.cleanAll, InteractionStore.Stored]

/-! ## Operations that leave the client nodes alone -/

theorem touchUpstreamOnReplay_sameChains (store : InteractionStore) (upstreamId : String)
    (now : UInt64) : SameChains store (store.touchUpstreamOnReplay upstreamId now) := by
  unfold InteractionStore.touchUpstreamOnReplay
  cases store.upstreams.lookup upstreamId with
  | none => exact ⟨rfl, rfl, rfl⟩
  | some node => exact ⟨rfl, rfl, rfl⟩

theorem updatePiece_sameChains (s : StoreV2) (now : UInt64) (batchId : String) (pieceIndex : Nat)
    (change : InFlightPiece → Except BatchError InFlightPiece) :
    SameChains s.interactions (s.updatePiece now batchId pieceIndex change).1.interactions := by
  unfold StoreV2.updatePiece
  cases s.inFlight.lookup batchId with
  | none => exact ⟨rfl, rfl, rfl⟩
  | some batch =>
    simp only
    cases batch.pieces[pieceIndex]? with
    | none => exact ⟨rfl, rfl, rfl⟩
    | some piece =>
      simp only
      cases change piece with
      | error e => exact ⟨rfl, rfl, rfl⟩
      | ok piece' => exact ⟨rfl, rfl, rfl⟩

theorem failBatch_missing {s : StoreV2} {id : String} (h : s.inFlight.lookup id = none)
    (now : UInt64) (error : String) :
    s.failBatch now id error = (s, .error (.batchNotFound id)) := by
  unfold StoreV2.failBatch
  rw [h]

/-- A batch that fails takes its upstream nodes with it, and no client node. -/
theorem failBatch_sameChains (s : StoreV2) (now : UInt64) (batchId error : String) :
    SameChains s.interactions (s.failBatch now batchId error).1.interactions := by
  unfold StoreV2.failBatch
  cases s.inFlight.lookup batchId with
  | none => exact ⟨rfl, rfl, rfl⟩
  | some batch => exact ⟨rfl, rfl, rfl⟩

/-! ## Every operation keeps the index complete -/

namespace InteractionStore.Indexed

theorem stored (ix : store.Indexed) {k : String} {c : ClientInteractionNode}
    (h : store.clients.lookup k = some c) : store.Stored c := stored_of_lookup ix.keyed h

theorem new : InteractionStore.new.Indexed := by
  constructor <;> simp [InteractionStore.new, InteractionStore.Stored]

theorem congr (ix : store.Indexed) (same : SameChains store store') : store'.Indexed where
  keyed hc := ix.keyed (same.clients ▸ hc)
  indexed hc hx := by
    have := ix.indexed (same.stored_iff.mp hc) hx
    unfold InteractionStore.lookupHash at this ⊢
    rw [same.hashIndex]
    exact this

theorem insertClient (ix : store.Indexed) (node : ClientInteractionNode) :
    (store.insertClient node).Indexed where
  keyed hc := InteractionStore.insertClient_keyed store ix.keyed hc
  indexed hc hx := by
    rw [InteractionStore.mem_insertClient_lookupHash]
    rcases stored_insertClient.mp hc with rfl | ⟨_, hold⟩
    · exact Or.inr ⟨rfl, hx⟩
    · exact Or.inl (ix.indexed hold hx)

theorem touchClient (ix : store.Indexed) (id : String) (now : UInt64) :
    (StoreV2.touchClient store id now).Indexed where
  keyed hc := by
    obtain ⟨c0, h0, he, _⟩ := touchClient_lookup hc
    rw [he]
    exact ix.keyed h0
  indexed hc hx := by
    obtain ⟨c0, h0, he, _, hm, _⟩ := touchClient_lookup hc
    have := ix.indexed (ix.stored h0) (hm ▸ hx)
    unfold InteractionStore.lookupHash at this ⊢
    rw [he, touchClient_hashIndex]
    exact this

theorem cleanAll (s : StoreV2) : s.cleanAll.interactions.Indexed where
  keyed hc := by simp [StoreV2.cleanAll] at hc
  indexed hc := absurd hc (not_stored_cleanAll s _)

end InteractionStore.Indexed

end InfSplitter.Session
