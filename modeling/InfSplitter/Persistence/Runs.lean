import InfSplitter.Lib.Run
import InfSplitter.Persistence.Steps

/-!
# Restarts over whole runs

`storeRuns` takes the operations of a store in any order. A store it reaches `RoundTrips` if saving
succeeds and what is loaded holds the same and answers the same, whatever the order in which the
rebuild meets the client nodes. Every store of a run does, as long as the steps are `Persistable`.
-/

set_option autoImplicit false

namespace InfSplitter.Persistence

open Lib Lib.Toml Session

/-- A store, over all sequences of its operations. -/
def storeRuns : System StoreV2 StoreAction :=
  { init := StoreV2.new, step := fun s a s' => s' = a.run s }

/-- The sequences of operations of a store that starts as `s`. -/
def storeRunsFrom (s : StoreV2) : System StoreV2 StoreAction := { storeRuns with init := s }

/-- Saving succeeds, and what is loaded from the file, in whatever order the client nodes are met,
has the same four maps and answers every search alike. -/
def RoundTrips (s : StoreV2) : Prop :=
  ∃ file, saveToDisk s = .ok file ∧
    ∀ order, IterationOrder order →
      ∃ loaded, loadFromDisk order file = .ok loaded ∧
        loaded.sessions = s.sessions ∧
        loaded.interactions.clients = s.interactions.clients ∧
        loaded.interactions.upstreams = s.interactions.upstreams ∧
        loaded.inFlight = s.inFlight ∧
        ∀ hashes prev sys,
          findFrontier loaded.interactions hashes prev sys =
            findFrontier s.interactions hashes prev sys

/-- What every step that is `Persistable` keeps. -/
structure Restorable (s : StoreV2) : Prop where
  storable : Storable s
  linked : Linked s.interactions

theorem Restorable.roundTrips {s : StoreV2} (h : Restorable s) : RoundTrips s := by
  obtain ⟨file, hfile⟩ := saveToDisk_iff.mpr h.storable
  refine ⟨file, hfile, fun order horder => ?_⟩
  have hlinked : Linked (restored s.interactions (order s.interactions.clients)) :=
    h.linked.restored (horder _)
  refine ⟨_, loadFromDisk_saveToDisk hfile order, rfl, rfl, foldl_indexNode_upstreams _ _, rfl, ?_⟩
  intro hashes prev sys
  exact (h.linked.sameGraph hlinked rfl).findFrontier_eq h.linked.toIndexed hlinked.toIndexed
    hashes prev sys

theorem Restorable.step {s s' : StoreV2} {a : StoreAction} (h : Restorable s)
    (ha : Persistable s a) (hstep : storeRuns.step s a s') : Restorable s' := by
  have heq : s' = a.run s := hstep
  rw [heq]
  exact ⟨h.storable.run ha.numbers, h.linked.run ha.links⟩

/-- **Every store a persistable run goes through survives a restart.** -/
theorem round_trips_of_persistable {moments : List (StoreV2 × StoreAction)} {s : StoreV2}
    (run : storeRuns.Run moments s) (h : ∀ m ∈ moments, Persistable m.1 m.2) :
    RoundTrips s ∧ ∀ m ∈ moments, RoundTrips m.1 := by
  have hinit : Restorable storeRuns.init := ⟨Storable.new, Linked.new⟩
  have hstep : ∀ s a s', Restorable s → Persistable s a → storeRuns.step s a s' →
      Restorable s' := fun _ _ _ hs ha hstep => hs.step ha hstep
  refine ⟨(run.preserves Persistable hinit hstep h).roundTrips, ?_⟩
  exact run.at_moments Persistable (fun s _ => RoundTrips s) hinit hstep
    (fun _ _ _ hs _ _ => hs.roundTrips) h

/-! ## A follow-up, a large hash, and a branch -/

/-- A node with one hash that comes first. -/
def firstNode (hash : UInt64) : ClientInteractionNode :=
  { id := "a", prevId := none, messageHashes := [hash], systemInstructionHash := none,
    upstreamIds := ["a"], lastSeenUtc := 100 }

/-- A turn that continues the first node. -/
def nextTurn (id : String) (hash : UInt64) : ClientInteractionNode :=
  { id := id, prevId := some "a", messageHashes := [1, hash], systemInstructionHash := none,
    upstreamIds := [id], lastSeenUtc := 200 }

theorem storable_firstNode {hash : UInt64} (h : InRange hash) :
    StorableClient (firstNode hash) := by
  refine ⟨?_, ?_, (by decide : InRange 100)⟩
  · intro x hx
    rw [List.mem_singleton.mp hx]
    exact h
  · intro x hx
    exact absurd hx (by simp [firstNode])

theorem storable_nextTurn (id : String) {hash : UInt64} (h : InRange hash) :
    StorableClient (nextTurn id hash) := by
  refine ⟨?_, ?_, (by decide : InRange 200)⟩
  · intro x hx
    rcases List.mem_pair.mp hx with rfl | rfl
    · decide
    · exact h
  · intro x hx
    exact absurd hx (by simp [nextTurn])

/-- The store after inserts of the nodes, in order. -/
def storeOf (nodes : List ClientInteractionNode) : StoreV2 :=
  nodes.foldl (fun s node => (StoreAction.insertClient node).run s) StoreV2.new

theorem storeRuns_one (node : ClientInteractionNode) :
    storeRuns.Run [(StoreV2.new, .insertClient node)] (storeOf [node]) :=
  .step .init rfl

theorem storeRuns_two (node node' : ClientInteractionNode) :
    storeRuns.Run [(storeOf [node], .insertClient node'), (StoreV2.new, .insertClient node)]
      (storeOf [node, node']) :=
  .step (storeRuns_one node) rfl

theorem keepsLinks_new (id : String) (prevId : Option String) :
    KeepsLinks StoreV2.new.interactions id prevId := by
  constructor <;> simp [StoreV2.new, InteractionStore.new, InteractionStore.Stored]

/-- A node under an id that nothing refers to, and the first to continue what it continues. -/
theorem KeepsLinks.of_fresh {store : InteractionStore} {id : String} {prevId : Option String}
    (hslots : ∀ p, store.prevToClient.lookup p ≠ some id)
    (hslot : store.prevToClient.lookup id = none)
    (hfirst : ∀ {c}, store.Stored c → c.prevId ≠ some id ∧ (prevId.isSome → c.prevId ≠ prevId)) :
    KeepsLinks store id prevId where
  only _ hc hp hcp := absurd (hcp.trans hp.symm) ((hfirst hc).2 (by rw [hp]; rfl))
  moved _ hm := absurd hm (hslots _)
  awaited _ _ hc _ := by
    rw [hslot]
    exact ⟨fun h => absurd h (by simp), fun h => absurd h (hfirst hc).1⟩

/-- Two turns of one conversation. -/
theorem round_trips_of_persistable_twoTurns :
    RoundTrips (storeOf [firstNode 1, nextTurn "b" 2]) := by
  refine (round_trips_of_persistable (storeRuns_two (firstNode 1) (nextTurn "b" 2)) ?_).1
  intro m hm
  rcases List.mem_pair.mp hm with rfl | rfl
  · refine ⟨storable_nextTurn "b" (by decide), KeepsLinks.of_fresh ?_ rfl ?_⟩
    · intro p
      rw [show (storeOf [firstNode 1]).interactions.prevToClient.lookup p = none from
        AList.lookup_empty p]
      simp
    · intro c hc
      rcases stored_insertClient.mp hc with rfl | ⟨_, hold⟩
      · decide
      · exact absurd hold (by simp [StoreV2.new, InteractionStore.new, InteractionStore.Stored])
  · exact ⟨storable_firstNode (by decide), keepsLinks_new _ _⟩

/-- A node with a hash beyond `i64::MAX` keeps the store from being saved. -/
theorem round_trip_not_always :
    ¬ ∀ (moments : List (StoreV2 × StoreAction)) (s : StoreV2),
      storeRuns.Run moments s → RoundTrips s := by
  intro h
  obtain ⟨file, hfile, _⟩ := h _ _ (storeRuns_one (firstNode 0x8000000000000000))
  have hclient := (saveToDisk_iff.mp ⟨file, hfile⟩).clients
    (show (storeOf [firstNode 0x8000000000000000]).interactions.clients.lookup "a" =
      some (firstNode 0x8000000000000000) from rfl)
  exact absurd (hclient.1 0x8000000000000000 (List.mem_singleton.mpr rfl)) (by decide)

/-- A node with two children does not come back as it was: the store is saved, and the search that
followed the second child then follows the first. -/
theorem branch_moves_on_restart :
    ∃ file loaded, saveToDisk (storeOf [firstNode 1, nextTurn "b" 2, nextTurn "c" 3]) = .ok file ∧
      loadFromDisk StrMap.values file = .ok loaded ∧
      findFrontier loaded.interactions [1, 1, 3] none none ≠
        findFrontier (storeOf [firstNode 1, nextTurn "b" 2, nextTurn "c" 3]).interactions
          [1, 1, 3] none none := by
  have hsave : ∃ file,
      saveToDisk (storeOf [firstNode 1, nextTurn "b" 2, nextTurn "c" 3]) = .ok file := by
    exact ⟨_, rfl⟩
  obtain ⟨file, hfile⟩ := hsave
  refine ⟨file, _, hfile, loadFromDisk_saveToDisk hfile StrMap.values, ?_⟩
  decide

end InfSplitter.Persistence
