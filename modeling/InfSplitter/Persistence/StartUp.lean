import InfSplitter.Persistence.Restore
import InfSplitter.Session.Completion

/-!
# The clean-up at start-up

Before the proxy takes requests it completes the batches of the loaded store whose pieces are all
acked, and discards the others. The batch ids are collected from a hash map, so they come in any
order.

A batch that completes is a `Turn`, and `Holds` says that the nodes of a store are those of a list
of turns, no two of which share an id. `completeAcked_holds` is the loop over the batches: it adds
the turns of the acked ones, in whatever order they are visited.
-/

set_option autoImplicit false

namespace InfSplitter.Persistence

open Lib Session

/-- Pass 1, over the batch ids; `clock` is what `complete_batch` reads for each. -/
def completeAcked (clock : String → UInt64) : List String → StoreV2 → StoreV2
  | [], store => store
  | batchId :: rest, store =>
    completeAcked clock rest <|
      -- the test is `batch_is_complete`, written out
      if store.batchIsComplete batchId then
        match store.completeBatch (clock batchId) batchId with
        | (store, .ok _) => store
        | (store, .error _) => store.removeBatch batchId
      else store

/-- Both passes. -/
def startUp (clock : String → UInt64) (batchIds : List String) (store : StoreV2) : StoreV2 :=
  (completeAcked clock batchIds store).discardAllInflight.1

/-- The maps that are persisted are the same. -/
structure SamePersisted (store store' : StoreV2) : Prop where
  sessions : store'.sessions = store.sessions
  clients : store'.interactions.clients = store.interactions.clients
  upstreams : store'.interactions.upstreams = store.interactions.upstreams
  inFlight : store'.inFlight = store.inFlight

/-- A store that could be saved comes back with them. -/
theorem samePersisted_load {saved loaded : StoreV2} {file : File}
    {order : StrMap ClientInteractionNode → List ClientInteractionNode}
    (hsave : saveToDisk saved = .ok file) (hload : loadFromDisk order file = .ok loaded) :
    SamePersisted saved loaded := by
  rw [loadFromDisk_saveToDisk hsave order, Except.ok.injEq] at hload
  subst hload
  exact ⟨rfl, rfl, foldl_indexNode_upstreams _ _, rfl⟩

/-! ## Turns -/

/-- A batch that has become a client node with its calls, and the clock at that. -/
structure Turn where
  batch : InFlightBatch
  now : UInt64

namespace Turn

def node (t : Turn) : ClientInteractionNode := StoreV2.clientNodeOf t.batch t.batch.ackedIds t.now

def calls (t : Turn) : List UpstreamInteractionNode := t.batch.calls t.now

/-- There are pieces, and all of them are acked. -/
structure Whole (t : Turn) : Prop where
  pieces : t.batch.pieces ≠ []
  acked : t.batch.allAcked = true

theorem Whole.ids {t : Turn} (h : t.Whole) :
    t.calls.map UpstreamInteractionNode.id = t.batch.ackedIds :=
  map_id_pieceNodes t.batch t.now h.acked _

/-- The client node has the id of the last call. -/
theorem Whole.id_mem {t : Turn} (h : t.Whole) : t.node.id ∈ t.batch.ackedIds :=
  clientNodeOf_id_mem h.pieces h.acked t.now

theorem Whole.call_id_mem {t : Turn} (h : t.Whole) {call : UpstreamInteractionNode}
    (hcall : call ∈ t.calls) : call.id ∈ t.batch.ackedIds :=
  h.ids ▸ List.mem_map_of_mem hcall

end Turn

/-- The nodes of the store are those of the turns, and no two turns share an id. -/
structure Holds (store : InteractionStore) (turns : List Turn) : Prop where
  whole : ∀ t ∈ turns, t.Whole
  apart : (turns.flatMap fun t => t.batch.ackedIds).Nodup
  clients : ∀ id node, store.clients.lookup id = some node ↔
    ∃ t ∈ turns, t.node = node ∧ node.id = id
  calls : ∀ id call, store.upstreams.lookup id = some call ↔
    ∃ t ∈ turns, call ∈ t.calls ∧ call.id = id

namespace Holds

variable {store store' : InteractionStore} {turns : List Turn}

theorem new : Holds InteractionStore.new [] := by
  constructor <;> simp [InteractionStore.new]

theorem congr (h : Holds store turns) (clients : store'.clients = store.clients)
    (upstreams : ∀ id, store'.upstreams.lookup id = store.upstreams.lookup id) :
    Holds store' turns where
  whole := h.whole
  apart := h.apart
  clients id node := by rw [clients, h.clients]
  calls id call := by rw [upstreams, h.calls]

/-- The ids of a turn are those of stored calls. -/
theorem isSome (h : Holds store turns) {t : Turn} (ht : t ∈ turns) {id : String}
    (hid : id ∈ t.batch.ackedIds) : (store.upstreams.lookup id).isSome = true := by
  rw [← (h.whole t ht).ids] at hid
  obtain ⟨call, hcall, heq⟩ := List.mem_map.mp hid
  rw [(h.calls id call).mpr ⟨t, ht, hcall, heq⟩]
  rfl

/-- An id of no turn is not stored. -/
theorem absent (h : Holds store turns) {id : String}
    (hid : ∀ t ∈ turns, id ∉ t.batch.ackedIds) :
    store.clients.lookup id = none ∧ store.upstreams.lookup id = none := by
  constructor
  · by_contra hsome
    obtain ⟨node, hnode⟩ := Option.ne_none_iff_exists'.mp hsome
    obtain ⟨t, ht, rfl, rfl⟩ := (h.clients id node).mp hnode
    exact hid t ht (h.whole t ht).id_mem
  · by_contra hsome
    obtain ⟨call, hcall⟩ := Option.ne_none_iff_exists'.mp hsome
    obtain ⟨t, ht, hmem, rfl⟩ := (h.calls id call).mp hcall
    exact hid t ht ((h.whole t ht).call_id_mem hmem)

/-- No turn has an id that is not stored. -/
theorem disjoint (h : Holds store turns) {ids : List String}
    (new : ∀ id ∈ ids, store.upstreams.lookup id = none) {t : Turn} (ht : t ∈ turns) {id : String}
    (hid : id ∈ t.batch.ackedIds) : id ∉ ids := by
  intro hmem
  have hsome := h.isSome ht hid
  rw [new id hmem] at hsome
  cases hsome

/-- **A turn that is inserted under ids that are not stored is added to the others.** -/
theorem add (h : Holds store turns) {t : Turn} (whole : t.Whole) (nodup : t.batch.ackedIds.Nodup)
    (new : ∀ id ∈ t.batch.ackedIds, store.upstreams.lookup id = none) :
    Holds ((insertCalls store t.calls).insertClient t.node) (turns ++ [t]) := by
  have hids := whole.ids
  refine ⟨?_, ?_, ?_, ?_⟩
  · intro t' ht'
    rcases List.mem_append.mp ht' with ht' | ht'
    · exact h.whole t' ht'
    · rw [List.mem_singleton.mp ht']
      exact whole
  · rw [List.flatMap_append, List.flatMap_singleton]
    refine List.nodup_append'.mpr ⟨h.apart, nodup, ?_⟩
    intro id hid hmem
    obtain ⟨t', ht', hid⟩ := List.mem_flatMap.mp hid
    exact h.disjoint new ht' hid hmem
  · intro id node
    rw [InteractionStore.insertClient_lookup, (insertCalls_sameChains store t.calls).clients]
    simp only [List.mem_append, List.mem_singleton, or_and_right, exists_or, exists_eq_left]
    by_cases hid : id = t.node.id
    · subst hid
      rw [if_pos rfl, Option.some.injEq]
      constructor
      · rintro rfl
        exact Or.inr ⟨rfl, rfl⟩
      · rintro (⟨t', ht', rfl, heq⟩ | ⟨rfl, _⟩)
        · exact absurd whole.id_mem (heq ▸ h.disjoint new ht' (h.whole t' ht').id_mem)
        · rfl
    · rw [if_neg hid, h.clients]
      constructor
      · exact Or.inl
      · rintro (hold | ⟨rfl, rfl⟩)
        · exact hold
        · exact absurd rfl hid
  · intro id call
    show (insertCalls store t.calls).upstreams.lookup id = some call ↔ _
    rw [lookup_insertCalls (hids.symm ▸ nodup), hids]
    simp only [List.mem_append, List.mem_singleton, or_and_right, exists_or, exists_eq_left]
    rw [or_comm]
    refine or_congr ?_ Iff.rfl
    rw [h.calls]
    constructor
    · exact And.right
    · rintro ⟨t', ht', hmem, rfl⟩
      exact ⟨h.disjoint new ht' ((h.whole t' ht').call_id_mem hmem), t', ht', hmem, rfl⟩

end Holds

/-! ## The loop over the batches -/

/-- The turns that the batches under the ids become, where their pieces are all acked. -/
def ackedTurns (store : StoreV2) (clock : String → UInt64) (batchIds : List String) : List Turn :=
  batchIds.filterMap fun k =>
    match store.inFlight.lookup k with
    | some batch => if batch.allAcked then some ⟨batch, clock k⟩ else none
    | none => none

theorem mem_ackedTurns {store : StoreV2} {clock : String → UInt64} {batchIds : List String}
    {t : Turn} :
    t ∈ ackedTurns store clock batchIds ↔
      ∃ k ∈ batchIds, store.inFlight.lookup k = some t.batch ∧ t.batch.allAcked = true ∧
        clock k = t.now := by
  unfold ackedTurns
  rw [List.mem_filterMap]
  refine exists_congr fun k => and_congr_right fun _ => ?_
  cases hk : store.inFlight.lookup k with
  | none => simp
  | some batch =>
    by_cases hall : batch.allAcked = true
    · simp only [hall, if_true, Option.some.injEq]
      constructor
      · rintro rfl
        exact ⟨rfl, hall, rfl⟩
      · rintro ⟨rfl, _, hnow⟩
        rw [hnow]
    · simp only [hall, Option.some.injEq]
      refine iff_of_false (by simp) ?_
      rintro ⟨rfl, hall', _⟩
      exact hall hall'

/-- The ids the batches in flight were given are not stored, and differ. -/
structure Unstored (store : StoreV2) : Prop where
  pieces : ∀ k batch, store.inFlight.lookup k = some batch → batch.pieces ≠ []
  nodup : ∀ k batch, store.inFlight.lookup k = some batch → batch.ackedIds.Nodup
  new : ∀ k batch, store.inFlight.lookup k = some batch → ∀ id ∈ batch.ackedIds,
    store.interactions.upstreams.lookup id = none
  apart : ∀ k batch k' batch' id, store.inFlight.lookup k = some batch →
    store.inFlight.lookup k' = some batch' → id ∈ batch.ackedIds → id ∈ batch'.ackedIds → k = k'

/-- It stays so when one of them completes. -/
theorem Unstored.completed {store : StoreV2} (h : Unstored store) {k : String}
    {batch : InFlightBatch} (own : store.inFlight.lookup k = some batch) (now : UInt64) :
    Unstored (completed store now k batch) where
  pieces k' batch' hb := h.pieces k' batch' (lookup_erase_some hb).2
  nodup k' batch' hb := h.nodup k' batch' (lookup_erase_some hb).2
  new k' batch' hb id hid := by
    obtain ⟨hne, hold⟩ := lookup_erase_some hb
    have hnot : id ∉ (batch.calls now).map UpstreamInteractionNode.id := by
      intro hmem
      have hacked : id ∈ batch.ackedIds := (ids_pieceNodes_sublist batch now _ _).subset hmem
      exact hne (h.apart k' batch' k batch id hold own hid hacked)
    have hlookup : (insertCalls store.interactions (batch.calls now)).upstreams.lookup id =
        store.interactions.upstreams.lookup id :=
      lookup_insertCalls_of_notMem hnot
    exact hlookup.trans (h.new k' batch' hold id hid)
  apart k' batch' k'' batch'' id hb hb' :=
    h.apart k' batch' k'' batch'' id (lookup_erase_some hb).2 (lookup_erase_some hb').2

theorem batchIsComplete_eq (store : StoreV2) (k : String) :
    store.batchIsComplete k =
      match store.inFlight.lookup k with
      | some batch => batch.allAcked
      | none => false := rfl

/-- **The loop adds the turns of the acked batches.** The induction is over the ids, with the turns
of the batches that have been visited among `turns`. -/
theorem completeAcked_holds (clock : String → UInt64) {batchIds : List String}
    (nodup : batchIds.Nodup) {store : StoreV2} {turns : List Turn}
    (holds : Holds store.interactions turns) (unstored : Unstored store) :
    Holds (completeAcked clock batchIds store).interactions
      (turns ++ ackedTurns store clock batchIds) := by
  induction batchIds generalizing store turns with
  | nil =>
    show Holds store.interactions (turns ++ [])
    rwa [List.append_nil]
  | cons k rest ih =>
    obtain ⟨hk, nodup⟩ := List.nodup_cons.mp nodup
    unfold completeAcked
    rw [batchIsComplete_eq]
    cases hb : store.inFlight.lookup k with
    | none =>
      have hturns : ackedTurns store clock (k :: rest) = ackedTurns store clock rest := by
        simp [ackedTurns, hb]
      rw [hturns]
      exact ih nodup holds unstored
    | some batch =>
      cases hall : batch.allAcked with
      | false =>
        have hturns : ackedTurns store clock (k :: rest) = ackedTurns store clock rest := by
          simp [ackedTurns, hb, hall]
        rw [hturns]
        simp only [hall, Bool.false_eq_true, if_false]
        exact ih nodup holds unstored
      | true =>
        simp only [hall, if_true, completeBatch_all hb hall]
        -- the batches still to visit are as they were
        have hrest : ackedTurns (completed store (clock k) k batch) clock rest =
            ackedTurns store clock rest := by
          refine List.filterMap_congr fun k' hk' => ?_
          have hne : k' ≠ k := by
            rintro rfl
            exact hk hk'
          show (match (store.inFlight.erase k).lookup k' with | some _ => _ | none => _) = _
          rw [AList.lookup_erase_ne hne]
        have hturns : ackedTurns store clock (k :: rest) =
            ⟨batch, clock k⟩ :: ackedTurns (completed store (clock k) k batch) clock rest := by
          rw [hrest]
          simp [ackedTurns, hb, hall]
        rw [hturns, List.append_cons]
        apply ih nodup
        · exact holds.add (t := ⟨batch, clock k⟩) ⟨unstored.pieces k batch hb, hall⟩
            (unstored.nodup k batch hb) (unstored.new k batch hb)
        · exact unstored.completed hb (clock k)

/-- What the clean-up leaves of a saved store that held the turns: no batch, the turns and those of
the acked batches, and nothing of any other batch. -/
structure Recovered (turns : List Turn) (saved : StoreV2) (clock : String → UInt64)
    (batchIds : List String) (after : StoreV2) : Prop where
  inFlight : after.inFlight = ∅
  holds : Holds after.interactions (turns ++ ackedTurns saved clock batchIds)
  absent : ∀ k batch, saved.inFlight.lookup k = some batch → batch.allAcked = false →
    ∀ id ∈ batch.ackedIds, after.interactions.clients.lookup id = none ∧
      after.interactions.upstreams.lookup id = none

theorem Unstored.congr {store store' : StoreV2} (h : Unstored store)
    (same : SamePersisted store store') : Unstored store' := by
  obtain ⟨pieces, nodup, new, apart⟩ := h
  rw [← same.inFlight] at pieces nodup new apart
  exact ⟨pieces, nodup, fun k batch hb id hid => by rw [same.upstreams, new k batch hb id hid],
    apart⟩

/-- **The clean-up recovers what was saved**, from whatever is loaded with the same maps. -/
theorem startUp_recovered {turns : List Turn} {saved loaded : StoreV2}
    (holds : Holds saved.interactions turns) (unstored : Unstored saved)
    (same : SamePersisted saved loaded) (clock : String → UInt64) {batchIds : List String}
    (order : batchIds.Perm loaded.inFlight.keys) :
    Recovered turns saved clock batchIds (startUp clock batchIds loaded) := by
  have hturns : ackedTurns loaded clock batchIds = ackedTurns saved clock batchIds := by
    unfold ackedTurns
    rw [same.inFlight]
  have after : Holds (startUp clock batchIds loaded).interactions
      (turns ++ ackedTurns saved clock batchIds) := by
    rw [← hturns]
    apply completeAcked_holds clock (order.nodup_iff.mpr loaded.inFlight.keys_nodup)
    · exact holds.congr same.clients fun id => by rw [same.upstreams]
    · exact unstored.congr same
  refine ⟨rfl, after, ?_⟩
  intro k batch hb hall id hid
  apply after.absent
  intro t ht hmem
  rcases List.mem_append.mp ht with ht | ht
  · have hsome := holds.isSome ht hmem
    rw [unstored.new k batch hb id hid] at hsome
    cases hsome
  · obtain ⟨k', _, hb', hall', _⟩ := mem_ackedTurns.mp ht
    cases unstored.apart k batch k' t.batch id hb hb' hid hmem
    cases hb.symm.trans hb'
    rw [hall] at hall'
    cases hall'

/-- Stores that hold the same turns have the same nodes. -/
theorem Holds.lookup_eq {store store' : InteractionStore} {turns turns' : List Turn}
    (h : Holds store turns) (h' : Holds store' turns') (same : ∀ t, t ∈ turns' ↔ t ∈ turns)
    (id : String) :
    store'.clients.lookup id = store.clients.lookup id ∧
      store'.upstreams.lookup id = store.upstreams.lookup id := by
  constructor
  · apply Option.ext
    intro node
    rw [h'.clients, h.clients]
    exact exists_congr fun t => and_congr_left' (same t)
  · apply Option.ext
    intro call
    rw [h'.calls, h.calls]
    exact exists_congr fun t => and_congr_left' (same t)

end InfSplitter.Persistence
