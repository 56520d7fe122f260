import InfSplitter.Session.Completion
import InfSplitter.Persistence.Runs

/-!
# The indexes against the nodes

Three maps of a store are read off its client nodes: the positions of every hash, the nodes each
call backs, and a child for every node that has one. They are kept by hand, an entry at a time, and
written to no file; a restart builds them anew. `Exact` says that they list what the nodes have and
nothing else.

An operation breaks this where it changes a node or an index without the other. An insert under an
id that is taken leaves the old node's entries behind, a batch that fails forgets which nodes a call
backs, and the clean-up of everything keeps the child index. `indexes_exact_iff` says exactly when.
-/

set_option autoImplicit false

namespace InfSplitter.Persistence

open Lib Lib.Toml Session

variable {store store' : InteractionStore}

/-- The node stored under `k` has the property. -/
def Has (store : InteractionStore) (k : String) (Q : ClientInteractionNode → Prop) : Prop :=
  ∃ c, store.clients.lookup k = some c ∧ Q c

/-- Every client node is stored under its own id. -/
def Keyed (store : InteractionStore) : Prop :=
  ∀ {k : String} {c : ClientInteractionNode}, store.clients.lookup k = some c → c.id = k

structure Exact (store : InteractionStore) : Prop where
  keyed : Keyed store
  hash : ∀ (h : UInt64) (pos : ClientInteractionPosition), pos ∈ store.lookupHash h ↔
    Has store pos.clientId fun c => c.messageHashes[pos.messageIndex]? = some h
  once : ∀ h : UInt64, (store.lookupHash h).Nodup
  upstream : ∀ upstreamId id : String, id ∈ store.upstreamToClients.get upstreamId ↔
    Has store id fun c => upstreamId ∈ c.upstreamIds
  child : ∀ {p id : String}, store.prevToClient.lookup p = some id →
    Has store id fun c => c.prevId = some p
  parent : ∀ {p k : String}, (Has store k fun c => c.prevId = some p) →
    ∃ id, store.prevToClient.lookup p = some id

theorem Exact.new : Exact InteractionStore.new where
  keyed hc := by simp [InteractionStore.new] at hc
  hash := by simp [InteractionStore.new, InteractionStore.lookupHash, Has]
  once := by simp [InteractionStore.new, InteractionStore.lookupHash]
  upstream := by simp [InteractionStore.new, Has]
  child hc := by simp [InteractionStore.new] at hc
  parent hc := by simp [InteractionStore.new, Has] at hc

/-! ## The positions of a node -/

/-- A node pushes each of its positions once. -/
theorem nodup_positionsOf (node : ClientInteractionNode) :
    ((InteractionStore.positionsOf node).map Prod.snd).Nodup := by
  have hmap : (InteractionStore.positionsOf node).map Prod.snd =
      (List.range' 0 node.messageHashes.length).map
        fun i => { clientId := node.id, messageIndex := i } := by
    rw [← List.zipIdx_map_snd, List.map_map]
    unfold InteractionStore.positionsOf
    rw [List.map_map]
    rfl
  rw [hmap]
  apply List.Nodup.map _ (List.nodup_range' 1)
  intro i j hij
  exact congrArg ClientInteractionPosition.messageIndex hij

theorem nodup_filter_positions {kvs : List (UInt64 × ClientInteractionPosition)}
    (h : (kvs.map Prod.snd).Nodup) (hash : UInt64) :
    ((kvs.filter fun kv => kv.1 = hash).map Prod.snd).Nodup :=
  h.sublist (List.filter_sublist.map Prod.snd)

/-! ## An insert -/

/-- What the node stored under the new node's id, if there is one, must be like. -/
structure Replaceable (store : InteractionStore) (node : ClientInteractionNode) : Prop where
  hashes : ∀ {c : ClientInteractionNode}, store.clients.lookup node.id = some c →
    c.messageHashes = []
  upstreams : ∀ {c : ClientInteractionNode}, store.clients.lookup node.id = some c →
    c.upstreamIds ⊆ node.upstreamIds
  moved : ∀ {p : String}, store.prevToClient.lookup p = some node.id → node.prevId = some p

theorem has_insertClient {node : ClientInteractionNode} {k : String}
    {Q : ClientInteractionNode → Prop} :
    Has (store.insertClient node) k Q ↔ k = node.id ∧ Q node ∨ k ≠ node.id ∧ Has store k Q := by
  unfold Has
  rw [InteractionStore.insertClient_lookup]
  by_cases hk : k = node.id
  · simp [hk]
  · simp [hk]

theorem mem_insertClient_upstreamToClients {node : ClientInteractionNode} {upstreamId id : String} :
    id ∈ (store.insertClient node).upstreamToClients.get upstreamId ↔
      id ∈ store.upstreamToClients.get upstreamId ∨ id = node.id ∧ upstreamId ∈ node.upstreamIds := by
  unfold InteractionStore.insertClient
  rw [MultiMap.mem_get_pushAll, List.mem_map]
  apply or_congr Iff.rfl
  constructor
  · rintro ⟨u, hu, heq⟩
    obtain ⟨rfl, rfl⟩ := Prod.mk.inj heq
    exact ⟨rfl, hu⟩
  · rintro ⟨rfl, hu⟩
    exact ⟨upstreamId, hu, rfl⟩

theorem lookupHash_insertClient (node : ClientInteractionNode) (h : UInt64) :
    (store.insertClient node).lookupHash h = store.lookupHash h ++
      ((InteractionStore.positionsOf node).filter fun kv => kv.1 = h).map Prod.snd :=
  MultiMap.get_pushAll ..

/-- An insert that leaves the indexes exact replaces next to nothing. -/
theorem Exact.replaceable (h : Exact store) {node : ClientInteractionNode}
    (h' : Exact (store.insertClient node)) : Replaceable store node where
  hashes {c} hc := by
    by_contra hne
    obtain ⟨x, rest, hx⟩ := List.exists_cons_of_ne_nil hne
    -- the first position of the old node is listed already, and pushed once more
    have hold : { clientId := node.id, messageIndex := 0 } ∈ store.lookupHash x := by
      apply (h.hash x _).mpr
      exact ⟨c, hc, by simp [hx]⟩
    have hnew : node.messageHashes[0]? = some x := by
      have := (h'.hash x _).mp ((store.mem_insertClient_lookupHash).mpr (Or.inl hold))
      rcases has_insertClient.mp this with ⟨_, hq⟩ | ⟨hid, _⟩
      · exact hq
      · exact absurd rfl hid
    have honce := h'.once x
    rw [lookupHash_insertClient] at honce
    refine List.disjoint_of_nodup_append honce hold ?_
    apply List.mem_map.mpr
    refine ⟨(x, { clientId := node.id, messageIndex := 0 }), ?_, rfl⟩
    apply List.mem_filter.mpr
    exact ⟨InteractionStore.mem_positionsOf.mpr ⟨rfl, hnew⟩, by simp⟩
  upstreams {c} hc u hu := by
    have hold : node.id ∈ store.upstreamToClients.get u := (h.upstream u _).mpr ⟨c, hc, hu⟩
    have := (h'.upstream u _).mp (mem_insertClient_upstreamToClients.mpr (Or.inl hold))
    rcases has_insertClient.mp this with ⟨_, hq⟩ | ⟨hid, _⟩
    · exact hq
    · exact absurd rfl hid
  moved {p} hp := by
    by_contra hne
    have hslot : (store.insertClient node).prevToClient.lookup p = some node.id := by
      rw [InteractionStore.insertClient_prevToClient_lookup, if_neg hne]
      exact hp
    rcases has_insertClient.mp (h'.child hslot) with ⟨_, hq⟩ | ⟨hid, _⟩
    · exact hne hq
    · exact absurd rfl hid

theorem Exact.insertClient (h : Exact store) {node : ClientInteractionNode}
    (hr : Replaceable store node) : Exact (store.insertClient node) where
  keyed hc := InteractionStore.insertClient_keyed store h.keyed hc
  hash x pos := by
    rw [InteractionStore.mem_insertClient_lookupHash, has_insertClient, h.hash, or_comm]
    apply or_congr Iff.rfl
    constructor
    · intro hpos
      refine ⟨fun hid => ?_, hpos⟩
      obtain ⟨c, hc, hx⟩ := hpos
      rw [hid] at hc
      rw [hr.hashes hc] at hx
      simp at hx
    · exact And.right
  once x := by
    rw [lookupHash_insertClient]
    refine List.Nodup.append (h.once x) (nodup_filter_positions (nodup_positionsOf node) x) ?_
    intro pos hold hnew
    obtain ⟨kv, hkv, rfl⟩ := List.mem_map.mp hnew
    have hid := (InteractionStore.mem_positionsOf.mp (List.mem_filter.mp hkv).1).1
    obtain ⟨c, hc, hx⟩ := (h.hash x _).mp hold
    rw [hid] at hc
    rw [hr.hashes hc] at hx
    simp at hx
  upstream u id := by
    rw [mem_insertClient_upstreamToClients, has_insertClient, h.upstream]
    by_cases hid : id = node.id
    · subst hid
      simp only [true_and, ne_eq, not_true_eq_false, false_and, or_false, or_iff_right_iff_imp]
      rintro ⟨c, hc, hu⟩
      exact hr.upstreams hc hu
    · simp [hid]
  child {p id} hslot := by
    rw [InteractionStore.insertClient_prevToClient_lookup] at hslot
    rw [has_insertClient]
    by_cases hp : node.prevId = some p
    · rw [if_pos hp, Option.some.injEq] at hslot
      exact Or.inl ⟨hslot.symm, hp⟩
    · rw [if_neg hp] at hslot
      refine Or.inr ⟨fun hid => ?_, h.child hslot⟩
      apply hp
      exact hr.moved (hid ▸ hslot)
  parent {p k} hk := by
    rw [InteractionStore.insertClient_prevToClient_lookup]
    by_cases hp : node.prevId = some p
    · exact ⟨node.id, if_pos hp⟩
    · rw [if_neg hp]
      rcases has_insertClient.mp hk with ⟨_, hq⟩ | ⟨_, hold⟩
      · exact absurd hq hp
      · exact h.parent hold

/-- **An insert leaves the indexes exact exactly if what it replaces has left no entries.** -/
theorem Exact.insertClient_iff (h : Exact store) (node : ClientInteractionNode) :
    Exact (store.insertClient node) ↔ Replaceable store node :=
  ⟨h.replaceable, h.insertClient⟩

/-! ## Operations that leave the indexes alone -/

/-- The client nodes and all three indexes are the same. -/
structure SameIndexes (store store' : InteractionStore) : Prop extends
    SameChains store store' where
  upstreamToClients : store'.upstreamToClients = store.upstreamToClients

theorem SameIndexes.exact_iff (same : SameIndexes store store') : Exact store' ↔ Exact store := by
  obtain ⟨⟨hc, hh, hp⟩, hu⟩ := same
  have key : ∀ {s s' : InteractionStore}, s'.clients = s.clients → s'.hashIndex = s.hashIndex →
      s'.prevToClient = s.prevToClient → s'.upstreamToClients = s.upstreamToClients →
      Exact s → Exact s' := by
    intro s s' hc hh hp hu h
    have hhas : ∀ {k Q}, Has s' k Q ↔ Has s k Q := by
      intro k Q
      unfold Has
      rw [hc]
    have hlook : ∀ x, s'.lookupHash x = s.lookupHash x := by
      intro x
      unfold InteractionStore.lookupHash
      rw [hh]
    constructor
    · intro k c hk
      exact h.keyed (hc ▸ hk)
    · intro x pos
      rw [hlook, hhas]
      exact h.hash x pos
    · intro x
      rw [hlook]
      exact h.once x
    · intro u id
      rw [hu, hhas]
      exact h.upstream u id
    · intro p id hslot
      rw [hhas]
      exact h.child (hp ▸ hslot)
    · intro p k hk
      rw [hp]
      exact h.parent (hhas.mp hk)
  exact ⟨key hc.symm hh.symm hp.symm hu.symm, key hc hh hp hu⟩

theorem touchUpstreamOnReplay_sameIndexes (store : InteractionStore) (upstreamId : String)
    (now : UInt64) : SameIndexes store (store.touchUpstreamOnReplay upstreamId now) := by
  refine ⟨touchUpstreamOnReplay_sameChains store upstreamId now, ?_⟩
  unfold InteractionStore.touchUpstreamOnReplay
  cases store.upstreams.lookup upstreamId <;> rfl

theorem updatePiece_sameIndexes (s : StoreV2) (now : UInt64) (batchId : String) (pieceIndex : Nat)
    (change : InFlightPiece → Except BatchError InFlightPiece) :
    SameIndexes s.interactions (s.updatePiece now batchId pieceIndex change).1.interactions := by
  refine ⟨updatePiece_sameChains s now batchId pieceIndex change, ?_⟩
  unfold StoreV2.updatePiece
  split
  · rfl
  · split
    · rfl
    · split <;> rfl

theorem insertCalls_sameIndexes (store : InteractionStore)
    (calls : List UpstreamInteractionNode) : SameIndexes store (insertCalls store calls) := by
  rw [insertCalls_eq]
  exact ⟨⟨rfl, rfl, rfl⟩, rfl⟩

theorem SameIndexes.insertClient (same : SameIndexes store store')
    (node : ClientInteractionNode) :
    SameIndexes (store.insertClient node) (store'.insertClient node) := by
  refine ⟨same.toSameChains.insertClient node, ?_⟩
  unfold InteractionStore.insertClient
  rw [same.upstreamToClients]

/-! ## A stamp -/

theorem has_touchClient {id k : String} {now : UInt64} {Q : ClientInteractionNode → Prop}
    (hQ : ∀ c, Q { c with lastSeenUtc := now } ↔ Q c) :
    Has (StoreV2.touchClient store id now) k Q ↔ Has store k Q := by
  unfold Has
  rw [touchClient_clients]
  cases store.clients.lookup k with
  | none => simp
  | some c =>
    by_cases hk : k = id
    · simpa [hk] using hQ c
    · simp [hk]

theorem Exact.touchClient (h : Exact store) (id : String) (now : UInt64) :
    Exact (StoreV2.touchClient store id now) where
  keyed hc := by
    obtain ⟨c0, h0, he, _⟩ := touchClient_lookup hc
    rw [he]
    exact h.keyed h0
  hash x pos := by
    have := h.hash x pos
    unfold InteractionStore.lookupHash at this ⊢
    rw [touchClient_hashIndex, this, has_touchClient]
    exact fun _ => Iff.rfl
  once x := by
    have := h.once x
    unfold InteractionStore.lookupHash at this ⊢
    rw [touchClient_hashIndex]
    exact this
  upstream u id' := by
    have hu : (StoreV2.touchClient store id now).upstreamToClients = store.upstreamToClients := by
      unfold StoreV2.touchClient
      cases store.clients.lookup id <;> rfl
    rw [hu, h.upstream, has_touchClient]
    exact fun _ => Iff.rfl
  child {p id'} hslot := by
    rw [touchClient_prevToClient] at hslot
    rw [has_touchClient]
    · exact h.child hslot
    · exact fun _ => Iff.rfl
  parent {p k} hk := by
    rw [touchClient_prevToClient]
    rw [has_touchClient] at hk
    · exact h.parent hk
    · exact fun _ => Iff.rfl

/-! ## Removals -/

/-- A batch that fails takes its acked calls out of the index, whoever lists them. -/
theorem Exact.failBatch_iff {s : StoreV2} (h : Exact s.interactions) (now : UInt64)
    (batchId error : String) :
    Exact (s.failBatch now batchId error).1.interactions ↔
      ∀ batch, s.inFlight.lookup batchId = some batch →
        ∀ u ∈ batch.ackedIds,
          ∀ id, ¬ Has s.interactions id fun c => u ∈ c.upstreamIds := by
  cases hb : s.inFlight.lookup batchId with
  | none =>
    rw [failBatch_missing hb]
    simp [h]
  | some batch =>
    have hinter : (s.failBatch now batchId error).1.interactions =
        { s.interactions with
          upstreams := batch.ackedIds.foldl
            (fun m id => m.erase id) s.interactions.upstreams
          upstreamToClients := batch.ackedIds.foldl
            (fun m id => m.erase id) s.interactions.upstreamToClients } := by
      unfold StoreV2.failBatch
      rw [hb]
      rfl
    rw [hinter]
    simp only [Option.some.injEq, forall_eq']
    constructor
    · intro h' u hu id hid
      have := (h'.upstream u id).mpr hid
      rw [MultiMap.get_foldl_erase, if_pos hu] at this
      exact absurd this List.not_mem_nil
    · intro hfree
      refine ⟨h.keyed, h.hash, h.once, fun u id => ?_, h.child, h.parent⟩
      rw [MultiMap.get_foldl_erase]
      by_cases hu : u ∈ batch.ackedIds
      · rw [if_pos hu]
        exact iff_of_false List.not_mem_nil (hfree u hu id)
      · rw [if_neg hu]
        exact h.upstream u id

/-- Nothing is left to find, and the child index is left as it was. -/
theorem Exact.cleanAll_iff {s : StoreV2} (h : Exact s.interactions) :
    Exact s.cleanAll.interactions ↔
      ∀ k p, ¬ Has s.interactions k fun c => c.prevId = some p := by
  have hnone : ∀ {k Q}, ¬ Has s.cleanAll.interactions k Q := by
    intro k Q
    simp [StoreV2.cleanAll, Has]
  constructor
  · intro h' k p hk
    obtain ⟨id, hid⟩ := h.parent hk
    exact hnone (h'.child (show s.cleanAll.interactions.prevToClient.lookup p = some id from hid))
  · intro hfree
    constructor
    · intro k c hc
      simp [StoreV2.cleanAll] at hc
    · intro x pos
      exact iff_of_false (by simp [StoreV2.cleanAll, InteractionStore.lookupHash]) hnone
    · intro x
      simp [StoreV2.cleanAll, InteractionStore.lookupHash]
    · intro u id
      exact iff_of_false (by simp [StoreV2.cleanAll]) hnone
    · intro p id hslot
      exact absurd (h.child hslot) (hfree id p)
    · intro p k hk
      exact absurd hk hnone

/-! ## Completing a batch -/

/-- A batch that completes inserts its node next to its calls. -/
theorem Exact.completeBatch_iff {s : StoreV2} (h : Exact s.interactions) (now : UInt64)
    (batchId : String) :
    Exact (s.completeBatch now batchId).1.interactions ↔
      ∀ batch, s.inFlight.lookup batchId = some batch → batch.allAcked = true →
        Replaceable s.interactions (StoreV2.clientNodeOf batch batch.ackedIds now) := by
  cases completing s now batchId with
  | missing hb result =>
    rw [result]
    simp [h, hb]
  | @partly batch _ hb unacked result =>
    have same := insertCalls_sameIndexes s.interactions (batch.calls now)
    rw [result]
    refine iff_of_true (same.exact_iff.mpr h) ?_
    intro _ hbatch hacked
    cases hb.symm.trans hbatch
    rw [unacked] at hacked
    cases hacked
  | @whole batch hb all result =>
    have same := insertCalls_sameIndexes s.interactions (batch.calls now)
    rw [result]
    have hiff := (same.insertClient (StoreV2.clientNodeOf batch batch.ackedIds now)).exact_iff
    rw [h.insertClient_iff] at hiff
    refine hiff.trans ?_
    simp [hb, all]

/-! ## A restart -/

theorem foldl_indexNode_indexes (nodes : List ClientInteractionNode) (store : InteractionStore) :
    (nodes.foldl indexNode store).hashIndex =
        store.hashIndex.pushAll (nodes.flatMap InteractionStore.positionsOf) ∧
      (nodes.foldl indexNode store).upstreamToClients =
        store.upstreamToClients.pushAll
          (nodes.flatMap fun node => node.upstreamIds.map (·, node.id)) := by
  induction nodes generalizing store with
  | nil => exact ⟨rfl, rfl⟩
  | cons node rest ih =>
    obtain ⟨hh, hu⟩ := ih (indexNode store node)
    rw [List.foldl_cons, hh, hu, List.flatMap_cons, List.flatMap_cons, MultiMap.pushAll_append,
      MultiMap.pushAll_append]
    exact ⟨rfl, rfl⟩

theorem nodup_ids (keyed : Keyed store) {nodes : List ClientInteractionNode}
    (hperm : nodes.Perm store.clients.values) :
    (nodes.map ClientInteractionNode.id).Nodup := by
  rw [(hperm.map ClientInteractionNode.id).nodup_iff]
  have hkeys : store.clients.values.map ClientInteractionNode.id = store.clients.keys := by
    unfold StrMap.values AList.keys List.keys
    rw [List.map_map]
    apply List.map_congr_left
    intro e he
    exact keyed (AList.mem_lookup_iff.mpr he)
  rw [hkeys]
  exact store.clients.nodupKeys

theorem nodup_positions {nodes : List ClientInteractionNode}
    (h : (nodes.map ClientInteractionNode.id).Nodup) :
    ((nodes.flatMap InteractionStore.positionsOf).map Prod.snd).Nodup := by
  rw [List.map_flatMap, List.nodup_flatMap]
  refine ⟨fun node _ => nodup_positionsOf node, ?_⟩
  apply (List.pairwise_map.mp h).imp
  intro a b hab pos ha hb
  obtain ⟨kv, hkv, rfl⟩ := List.mem_map.mp ha
  obtain ⟨kv', hkv', heq⟩ := List.mem_map.mp hb
  apply hab
  rw [← (InteractionStore.mem_positionsOf.mp hkv).1, ← heq,
    (InteractionStore.mem_positionsOf.mp hkv').1]

/-- **A restart builds exact indexes**, whatever the order in which it meets the nodes. -/
theorem exact_restored (keyed : Keyed store) {nodes : List ClientInteractionNode}
    (hperm : nodes.Perm store.clients.values) : Exact (restored store nodes) := by
  have hmem : ∀ {c}, c ∈ nodes ↔ store.clients.lookup c.id = some c := by
    intro c
    rw [hperm.mem_iff, StrMap.mem_values]
    exact ⟨fun ⟨k, hk⟩ => keyed hk ▸ hk, fun hc => ⟨c.id, hc⟩⟩
  have hhas : ∀ {k Q}, Has (restored store nodes) k Q ↔ ∃ c ∈ nodes, c.id = k ∧ Q c := by
    intro k Q
    constructor
    · intro ⟨c, hc, hq⟩
      have hid : c.id = k := keyed hc
      exact ⟨c, hmem.mpr (hid ▸ hc), hid, hq⟩
    · rintro ⟨c, hc, rfl, hq⟩
      exact ⟨c, hmem.mp hc, hq⟩
  have hindexes := foldl_indexNode_indexes nodes
    { clients := ∅, upstreams := store.upstreams, hashIndex := ∅, upstreamToClients := ∅,
      prevToClient := ∅ }
  constructor
  · intro k c hc
    exact keyed hc
  · intro x pos
    have hget : (restored store nodes).lookupHash x = MultiMap.get
        (MultiMap.pushAll ∅ (nodes.flatMap InteractionStore.positionsOf)) x :=
      congrArg (MultiMap.get · x) hindexes.1
    rw [hget, MultiMap.mem_get_pushAll, hhas, List.mem_flatMap]
    simp only [MultiMap.get_empty, List.not_mem_nil, false_or, InteractionStore.mem_positionsOf]
    refine exists_congr fun c => and_congr_right fun _ => and_congr_left fun _ => eq_comm
  · intro x
    have hget : (restored store nodes).lookupHash x = MultiMap.get
        (MultiMap.pushAll ∅ (nodes.flatMap InteractionStore.positionsOf)) x :=
      congrArg (MultiMap.get · x) hindexes.1
    rw [hget, MultiMap.get_pushAll, MultiMap.get_empty, List.nil_append]
    exact nodup_filter_positions (nodup_positions (nodup_ids keyed hperm)) x
  · intro u id
    have hget : (restored store nodes).upstreamToClients.get u = MultiMap.get
        (MultiMap.pushAll ∅ (nodes.flatMap fun node => node.upstreamIds.map (·, node.id))) u :=
      congrArg (MultiMap.get · u) hindexes.2
    rw [hget, MultiMap.mem_get_pushAll, hhas, List.mem_flatMap]
    simp only [MultiMap.get_empty, List.not_mem_nil, false_or, List.mem_map, Prod.mk.injEq]
    refine exists_congr fun c => and_congr_right fun _ => ?_
    constructor
    · rintro ⟨_, hu, rfl, hid⟩
      exact ⟨hid, hu⟩
    · rintro ⟨hid, hu⟩
      exact ⟨u, hu, rfl, hid⟩
  · intro p id hslot
    rw [restored_slot, Option.map_eq_some_iff] at hslot
    obtain ⟨c, hc, rfl⟩ := hslot
    obtain ⟨hin, hp⟩ := List.mem_filter.mp (List.mem_of_getLast? hc)
    exact hhas.mpr ⟨c, hin, rfl, of_decide_eq_true hp⟩
  · intro p k hk
    obtain ⟨c, hc, _, hp⟩ := hhas.mp hk
    have hin : c ∈ nodes.filter fun node => node.prevId = some p :=
      List.mem_filter.mpr ⟨hc, decide_eq_true hp⟩
    rw [restored_slot]
    cases hlast : (nodes.filter fun node => node.prevId = some p).getLast? with
    | none =>
      rw [List.getLast?_eq_none_iff.mp hlast] at hin
      exact absurd hin List.not_mem_nil
    | some d => exact ⟨d.id, rfl⟩

/-! ## Whole runs -/

/-- A store as the program starts with it: empty, or read from a file. -/
inductive Started : StoreV2 → Prop
  | empty : Started StoreV2.new
  | loaded {order : StrMap ClientInteractionNode → List ClientInteractionNode} {file : File}
      {s : StoreV2} (horder : IterationOrder order) (h : loadFromDisk order file = .ok s) :
      Started s

/-- A store that was read from a file is empty or one with its indexes just built. -/
theorem loadFromDisk_restored {order : StrMap ClientInteractionNode → List ClientInteractionNode}
    {file : File} {s : StoreV2} (horder : IterationOrder order)
    (h : loadFromDisk order file = .ok s) :
    s = StoreV2.new ∨ ∃ nodes, nodes.Perm s.interactions.clients.values ∧
      s.interactions = restored s.interactions nodes := by
  unfold loadFromDisk at h
  cases file with
  | missing => exact Or.inl (Except.ok.inj h).symm
  | notToml => simp at h
  | document content =>
    simp only at h
    split at h
    · exact Or.inl (Except.ok.inj h).symm
    · cases hd : storeDocumentV2Codec.decode content with
      | none => simp [hd] at h
      | some doc =>
        simp only [hd, Except.ok.injEq] at h
        subst h
        refine Or.inr ⟨order doc.interactions.clients, horder _, ?_⟩
        unfold restored rebuild
        simp only [foldl_indexNode_upstreams]

/-- A store starts exact exactly if its file has every node under its own id. -/
theorem Started.exact_iff {s : StoreV2} (h : Started s) :
    Exact s.interactions ↔ Keyed s.interactions := by
  refine ⟨fun h => h.keyed, fun keyed => ?_⟩
  cases h with
  | empty => exact Exact.new
  | loaded horder h =>
    rcases loadFromDisk_restored horder h with rfl | ⟨nodes, hperm, heq⟩
    · exact Exact.new
    · rw [heq]
      exact exact_restored keyed hperm

/-- When an operation leaves the indexes exact. -/
def KeepsIndexes (s : StoreV2) : StoreAction → Prop
  | .insertClient node => Replaceable s.interactions node
  | .completeBatch now batchId =>
    ∀ batch, s.inFlight.lookup batchId = some batch → batch.allAcked = true →
      Replaceable s.interactions (StoreV2.clientNodeOf batch batch.ackedIds now)
  | .failBatch _ batchId _ =>
    ∀ batch, s.inFlight.lookup batchId = some batch → ∀ u ∈ batch.ackedIds,
      ∀ id, ¬ Has s.interactions id fun c => u ∈ c.upstreamIds
  | .cleanAll => ∀ k p, ¬ Has s.interactions k fun c => c.prevId = some p
  | _ => True

/-- One step. -/
theorem Exact.run_iff {s : StoreV2} (h : Exact s.interactions) (a : StoreAction) :
    Exact (a.run s).interactions ↔ KeepsIndexes s a := by
  have kept : ∀ {s' : StoreV2}, SameIndexes s.interactions s'.interactions →
      (Exact s'.interactions ↔ True) := fun same => iff_true_intro (same.exact_iff.mpr h)
  have same : SameIndexes s.interactions s.interactions := ⟨⟨rfl, rfl, rfl⟩, rfl⟩
  cases a with
  | insertClient node => exact h.insertClient_iff node
  | completeBatch now batchId => exact h.completeBatch_iff now batchId
  | failBatch now batchId error => exact h.failBatch_iff now batchId error
  | cleanAll => exact h.cleanAll_iff
  | extendLifetime now sessionId expiresAtUtc =>
    apply iff_true_intro
    show Exact (s.extendLifetime now sessionId expiresAtUtc).interactions
    rcases extendLifetime_interactions s now sessionId expiresAtUtc with heq | ⟨id, heq⟩
    · rw [heq]
      exact h
    · rw [heq]
      exact h.touchClient id now
  | insertUpstream node => exact kept ⟨⟨rfl, rfl, rfl⟩, rfl⟩
  | touchUpstreamOnReplay upstreamId now =>
    exact kept (touchUpstreamOnReplay_sameIndexes s.interactions upstreamId now)
  | setPieceBody now batchId pieceIndex body => exact kept (updatePiece_sameIndexes ..)
  | markResponseStarted now batchId pieceIndex => exact kept (updatePiece_sameIndexes ..)
  | markSent now batchId pieceIndex interactionId => exact kept (updatePiece_sameIndexes ..)
  | ackPiece now batchId pieceIndex interactionId => exact kept (updatePiece_sameIndexes ..)
  | setSession _ _ => exact kept same
  | createBatch _ _ _ _ _ _ _ => exact kept same
  | removeBatch _ => exact kept same
  | discardAllInflight => exact kept same

/-- **The indexes stay exact throughout a run exactly if its file has every node under its own id
and every step keeps them.** -/
theorem indexes_exact_iff {start : StoreV2} (started : Started start)
    {moments : List (StoreV2 × StoreAction)} {s : StoreV2}
    (run : (storeRunsFrom start).Run moments s) :
    (Exact s.interactions ∧ ∀ m ∈ moments, Exact m.1.interactions) ↔
      Keyed start.interactions ∧ ∀ m ∈ moments, KeepsIndexes m.1 m.2 := by
  have hiff : Exact start.interactions →
      ((Exact s.interactions ∧ ∀ m ∈ moments, Exact m.1.interactions) ↔
        ∀ m ∈ moments, KeepsIndexes m.1 m.2) := fun hinit =>
    run.always_iff (fun s => Exact s.interactions) KeepsIndexes hinit fun s a s' h hstep => by
      have heq : s' = a.run s := hstep
      rw [heq]
      exact h.run_iff a
  constructor
  · intro h
    have hinit : Exact start.interactions :=
      run.init_of_always (P := fun s => Exact s.interactions) h.1 h.2
    exact ⟨started.exact_iff.mp hinit, (hiff hinit).mp h⟩
  · intro ⟨keyed, hkeeps⟩
    exact (hiff (started.exact_iff.mpr keyed)).mpr hkeeps

/-- A clean-up after two turns. -/
theorem indexes_not_always_exact :
    ¬ ∀ start, Started start → ∀ (moments : List (StoreV2 × StoreAction)) (s : StoreV2),
      (storeRunsFrom start).Run moments s → Exact s.interactions := by
  intro h
  have hexact := h StoreV2.new .empty _ _
    (.step (storeRuns_two (firstNode 1) (nextTurn "b" 2)) (a := .cleanAll) rfl)
  have hchild : (storeOf [firstNode 1, nextTurn "b" 2]).cleanAll.interactions.prevToClient.lookup
      "a" = some "b" := rfl
  obtain ⟨c, hc, _⟩ := hexact.child hchild
  exact absurd hc (by simp [StoreAction.run, StoreV2.cleanAll])

/-- Two turns of one conversation. -/
theorem indexes_exact_iff_twoTurns :
    Exact (storeOf [firstNode 1, nextTurn "b" 2]).interactions := by
  refine ((indexes_exact_iff .empty (storeRuns_two (firstNode 1) (nextTurn "b" 2))).mpr ⟨?_, ?_⟩).1
  · intro k c hc
    simp [StoreV2.new, InteractionStore.new] at hc
  intro m hm
  rcases List.mem_pair.mp hm with rfl | rfl
  · have hnone : (storeOf [firstNode 1]).interactions.clients.lookup "b" = none := by decide
    refine ⟨fun hc => ?_, fun hc => ?_, fun {p} hp => ?_⟩
    · exact absurd (hnone.symm.trans hc) (by simp)
    · exact absurd (hnone.symm.trans hc) (by simp)
    · exact absurd ((AList.lookup_empty p).symm.trans hp) (by simp)
  · refine ⟨fun hc => ?_, fun hc => ?_, fun hp => ?_⟩
    · simp [StoreV2.new, InteractionStore.new] at hc
    · simp [StoreV2.new, InteractionStore.new] at hc
    · simp [StoreV2.new, InteractionStore.new] at hp

end InfSplitter.Persistence
