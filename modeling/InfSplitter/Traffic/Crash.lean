import InfSplitter.Persistence.StartUp
import InfSplitter.Traffic.Calls

/-!
# Crashes during split sends

Nearly every section ends with `save_to_disk`, so what a crash leaves is the store at the end of the
last one that did (`onDisk`). `complete_batch_and_persist` saves only what succeeded: a batch that
cannot complete has left the map, with the calls of its first pieces inserted, and the next save of
any other section takes them along. `crash_consistent` says that in every run where this does not
come about, the clean-up at start-up finds exactly the turns that were completed before the crash
and completes those whose pieces were all acked.
-/

set_option autoImplicit false

namespace InfSplitter.Traffic

open Lib Session Routing SplitSend Persistence

/-- The sections that end with a save. -/
def saves (p : Proxy) : Event → Bool
  | .lookup _ => false
  | .abandon _ => false
  | .drop _ => false
  | .unstored _ => false
  | .complete y now =>
    match (p.store.completeBatch now y.batchId).2 with
    | .ok _ => true
    | .error _ => false
  | _ => true

/-- The store that is on the disk when the moments have led to `store`. -/
def onDisk : List (Proxy × Event) → StoreV2 → StoreV2
  | [], store => store
  | (p, a) :: moments, store => if saves p a then store else onDisk moments p.store

/-- The turns that were completed, oldest first. -/
def committed : List (Proxy × Event) → List Turn
  | [] => []
  | (p, .complete y now) :: moments =>
    committed moments ++ ackedTurns p.store (fun _ => now) [y.batchId]
  | _ :: moments => committed moments

/-- What a split send does. -/
def OfSplit : Event → Prop
  | .commit _ _ => False
  | .extendLifetime => False
  | .touchUpstream _ => False
  | .cleanAll => False
  | _ => True

/-- A split has a piece, and a batch that completes is acked as a whole or not from its first piece
on. -/
def CompletesWhole (p : Proxy) : Event → Prop
  | .start _ y => 0 < y.remaining
  | .complete y _ => ∀ batch, p.store.inFlight.lookup y.batchId = some batch →
    batch.allAcked = true ∨ ∀ piece, batch.pieces.head? = some piece →
      piece.status.isAcked = false
  | _ => True

theorem CompletesWhole.pieced {p : Proxy} {a : Event} (h : CompletesWhole p a) : Pieced a := by
  cases a with
  | start => exact h
  | _ => trivial

/-! ## One event -/

/-- A batch whose first piece is not acked has no calls to insert. -/
theorem calls_eq_nil {batch : InFlightBatch}
    (h : ∀ piece, batch.pieces.head? = some piece → piece.status.isAcked = false)
    (now : UInt64) : batch.calls now = [] := by
  unfold InFlightBatch.calls
  cases hpieces : batch.pieces with
  | nil => rfl
  | cons piece rest =>
    have hacked := h piece (by rw [hpieces]; rfl)
    unfold pieceNodes
    cases hst : piece.status with
    | acked id =>
      rw [hst] at hacked
      cases hacked
    | _ => rfl

/-- The ids of the batches in flight are not stored, as long as ids are not repeated. -/
theorem Issued.unstored {p : Proxy} (h : Issued p) (pieces : HasPieces p) : Unstored p.store where
  pieces := pieces
  nodup k batch hb := h.nodup hb
  new k batch hb id hid := by
    obtain ⟨i, hi⟩ := mem_ackedIds.mp hid
    exact callLink_eq_none.mp (h.acked k i id ⟨batch, hb, hi⟩).2
  apart k batch k' batch' id hb hb' hid hid' := by
    obtain ⟨i, hi⟩ := mem_ackedIds.mp hid
    obtain ⟨i', hi'⟩ := mem_ackedIds.mp hid'
    exact (h.apart k i k' i' id ⟨batch, hb, hi⟩ ⟨batch', hb', hi'⟩).1

/-- The store in memory holds the turns that were completed. -/
structure Durable (moments : List (Proxy × Event)) (p : Proxy) : Prop where
  holds : Holds p.store.interactions (committed moments)
  issued : Issued p
  pieces : HasPieces p

namespace Durable

variable {moments : List (Proxy × Event)} {p p' : Proxy} {a : Event}

theorem init : Durable [] Proxy.init where
  holds := Holds.new
  issued := Issued.init
  pieces := HasPieces.init

/-- A batch that completes adds its turn, and one that cannot adds nothing. -/
theorem complete_holds (h : Durable moments p) {y : Send} {now : UInt64}
    (whole : CompletesWhole p (.complete y now)) :
    Holds (p.completed y now).store.interactions (committed ((p, .complete y now) :: moments)) := by
  show Holds (p.store.completeBatch now y.batchId).1.interactions
    (committed moments ++ ackedTurns p.store (fun _ => now) [y.batchId])
  unfold ackedTurns
  simp only [List.filterMap_cons, List.filterMap_nil]
  cases completing p.store now y.batchId with
  | missing hb result =>
    rw [result]
    simp only [hb, List.append_nil]
    exact h.holds
  | @partly batch _ hb unacked result =>
    have hcalls : batch.calls now = [] := by
      apply calls_eq_nil
      rcases whole batch hb with all | hfirst
      · rw [unacked] at all
        cases all
      · exact hfirst
    rw [result]
    unfold partlyCompleted
    simp only [hb, unacked, hcalls, insertCalls_nil, Bool.false_eq_true, if_false, List.append_nil]
    exact h.holds
  | @whole batch hb all result =>
    have unstored := h.issued.unstored h.pieces
    rw [result]
    simp only [hb, all, if_true]
    exact h.holds.add (t := ⟨batch, now⟩) ⟨h.pieces _ _ hb, all⟩ (unstored.nodup _ _ hb)
      (unstored.new _ _ hb)

theorem step (h : Durable moments p) (split : OfSplit a) (fresh : Fresh p a)
    (whole : CompletesWhole p a) (hstep : Step p a p') : Durable ((p, a) :: moments) p' := by
  refine ⟨?_, h.issued.step fresh hstep, h.pieces.step whole.pieced hstep⟩
  cases hstep with
  | answered => exact h.holds
  | lookup => exact h.holds
  | commit => exact absurd split id
  | startContent => exact h.holds
  | startSystem => exact h.holds
  | @markStarted y now now' body =>
    have heq : (p.marked y now now' body).store.interactions = p.store.interactions :=
      markStartedAndPersist_interactions ..
    rw [heq]
    exact h.holds
  | @ack y now now' id =>
    have heq : (p.acked y now now' id).store.interactions = p.store.interactions :=
      ackAndPersist_interactions ..
    rw [heq]
    exact h.holds
  | complete now => exact h.complete_holds whole
  | @fail y now error =>
    refine h.holds.congr (failBatch_sameChains ..).clients fun id => ?_
    show (p.store.failBatch now y.batchId error).1.interactions.upstreams.lookup id = _
    cases hb : p.store.inFlight.lookup y.batchId with
    | none => rw [failBatch_missing hb]
    | some batch =>
      rw [failBatch_upstreams hb]
      -- there is nothing to take away
      by_cases hid : id ∈ batch.ackedIds
      · rw [if_pos hid, (h.issued.unstored h.pieces).new _ batch hb id hid]
      · rw [if_neg hid]
  | abandon => exact h.holds
  | drop => exact h.holds
  | unstored => exact h.holds
  | sessions => exact h.holds
  | extendLifetime => exact absurd split id
  | touchUpstream => exact absurd split id
  | cleanAll => exact absurd split id

/-- **In every run the store holds the completed turns.** -/
theorem of_run (run : traffic.Run moments p) (split : ∀ m ∈ moments, OfSplit m.2)
    (fresh : ∀ m ∈ moments, Fresh m.1 m.2) (whole : ∀ m ∈ moments, CompletesWhole m.1 m.2) :
    Durable moments p := by
  induction run with
  | init => exact init
  | step run hstep ih =>
    obtain ⟨split1, split⟩ := List.forall_mem_cons.mp split
    obtain ⟨fresh1, fresh⟩ := List.forall_mem_cons.mp fresh
    obtain ⟨whole1, whole⟩ := List.forall_mem_cons.mp whole
    exact (ih split fresh whole).step split1 fresh1 whole1 hstep

end Durable

/-! ## Crashes -/

/-- A section that does not save completes nothing. -/
theorem committed_of_unsaved {p : Proxy} {a : Event} (h : saves p a = false)
    (moments : List (Proxy × Event)) : committed ((p, a) :: moments) = committed moments := by
  cases a with
  | complete y now =>
    have none : ackedTurns p.store (fun _ => now) [y.batchId] = [] := by
      apply List.eq_nil_iff_forall_not_mem.mpr
      intro t ht
      obtain ⟨k, hk, hb, hall, _⟩ := mem_ackedTurns.mp ht
      rw [List.mem_singleton.mp hk] at hb
      simp only [saves, completeBatch_all hb hall] at h
      cases h
    show committed moments ++ ackedTurns p.store (fun _ => now) [y.batchId] = committed moments
    rw [none, List.append_nil]
  | _ => rfl

/-- **What is on the disk was the store at some time of the run**, and nothing has been completed
since. -/
theorem onDisk_reached {moments : List (Proxy × Event)} {p : Proxy}
    (run : traffic.Run moments p) :
    ∃ earlier q, traffic.Run earlier q ∧ (∀ m ∈ earlier, m ∈ moments) ∧
      q.store = onDisk moments p.store ∧ committed earlier = committed moments := by
  induction run with
  | init => exact ⟨[], Proxy.init, .init, fun _ hm => hm, rfl, rfl⟩
  | @step moments p p' a run hstep ih =>
    unfold onDisk
    cases hsaves : saves p a with
    | true => exact ⟨_, p', .step run hstep, fun _ hm => hm, rfl, rfl⟩
    | false =>
      obtain ⟨earlier, q, hrun, hsub, hstore, hcommitted⟩ := ih
      refine ⟨earlier, q, hrun, fun m hm => List.mem_cons_of_mem _ (hsub m hm), hstore, ?_⟩
      rw [hcommitted, committed_of_unsaved hsaves]

/-- **Split sends survive a crash at any moment** of a run in which every batch completes as a whole
or not at all; the order in which the clean-up visits the batches is of no account. -/
theorem crash_consistent {moments : List (Proxy × Event)} {p : Proxy}
    (run : traffic.Run moments p) (split : ∀ m ∈ moments, OfSplit m.2)
    (fresh : ∀ m ∈ moments, Fresh m.1 m.2) (whole : ∀ m ∈ moments, CompletesWhole m.1 m.2)
    {loaded : StoreV2} (same : SamePersisted (onDisk moments p.store) loaded)
    (clock : String → UInt64) {batchIds : List String}
    (order : batchIds.Perm loaded.inFlight.keys) :
    Recovered (committed moments) (onDisk moments p.store) clock batchIds
        (startUp clock batchIds loaded) ∧
      ∀ batchIds', batchIds'.Perm batchIds → ∀ id,
        (startUp clock batchIds' loaded).interactions.clients.lookup id =
            (startUp clock batchIds loaded).interactions.clients.lookup id ∧
          (startUp clock batchIds' loaded).interactions.upstreams.lookup id =
            (startUp clock batchIds loaded).interactions.upstreams.lookup id := by
  obtain ⟨earlier, q, hrun, hsub, hstore, hcommitted⟩ := onDisk_reached run
  have durable := Durable.of_run hrun (fun m hm => split m (hsub m hm))
    (fun m hm => fresh m (hsub m hm)) (fun m hm => whole m (hsub m hm))
  have unstored := durable.issued.unstored durable.pieces
  have holds := durable.holds
  rw [hstore] at unstored holds
  rw [hcommitted] at holds
  have recovered := startUp_recovered holds unstored same clock order
  refine ⟨recovered, fun batchIds' order' id => ?_⟩
  have recovered' := startUp_recovered holds unstored same clock (order'.trans order)
  refine recovered.holds.lookup_eq recovered'.holds (fun t => ?_) id
  rw [List.mem_append, List.mem_append, mem_ackedTurns, mem_ackedTurns]
  simp only [order'.mem_iff]

/-- Another request of the session. -/
def otherExchange : Exchange :=
  { request := { hashes := [2], systemInstructionHash := none }
    frontier := { index := 0, previousInteractionId := none, allKnown := false,
                  matchedClientId := none } }

/-- It is split into two pieces a second later. -/
def laterSplit : Send := newSend otherExchange "s" 1 2

def laterStarted : Send := { laterSplit with started := true, remaining := 1 }

def laterHalf : Send := { laterStarted with started := false, received := ["b"] }

def laterLast : Send := { laterHalf with started := true, remaining := 0 }

/-- The pieces of the two are sent in turn. The one completes, the other one has all answers. -/
def Proxy.bothSent : Proxy :=
  ((((((((((Proxy.init.lookedUp firstExchange.request firstExchange.frontier).lookedUp
    otherExchange.request otherExchange.frontier).begun firstExchange firstSplit 0 1).begun
    otherExchange laterSplit 1 2).marked laterSplit 1 1 []).marked firstSplit 1 1 []).acked
    laterStarted 2 2 "b").acked splitStarted 2 2 "a").completed splitAcked 3).marked
    laterHalf 4 4 []).acked laterLast 5 5 "c"

theorem run_bothSent : ∃ moments, traffic.Run moments Proxy.bothSent ∧
    (∀ m ∈ moments, OfSplit m.2) ∧ (∀ m ∈ moments, Fresh m.1 m.2) ∧
      (∀ m ∈ moments, CompletesWhole m.1 m.2) ∧ (committed moments).length = 1 ∧
        onDisk moments Proxy.bothSent.store = Proxy.bothSent.store := by
  have r1 := run_firstAsked.step (Step.lookup
    (by decide : findFrontier _ otherExchange.request.hashes none none =
      some otherExchange.frontier) (by decide))
  have r2 := r1.step (Step.startContent "s" 0 0 1 []
    (List.mem_cons_of_mem _ (List.mem_cons_self ..)) List.Perm.nil rfl)
  have r3 := r2.step (Step.startContent "s" 1 1 2 _ (List.mem_cons_self ..) (List.Perm.refl _)
    (by decide))
  have r4 := r3.step (Step.markStarted 1 1 [] (List.mem_cons_self .. : laterSplit ∈ _) rfl
    (by decide))
  have r5 := r4.step (Step.markStarted 1 1 []
    (List.mem_cons_of_mem _ (List.mem_cons_self ..) : firstSplit ∈ _) rfl Nat.one_pos)
  have r6 := r5.step (Step.ack 2 2 "b"
    (List.mem_cons_of_mem _ (List.mem_cons_self ..) : laterStarted ∈ _) rfl)
  have r7 := r6.step (Step.ack 2 2 "a"
    (List.mem_cons_of_mem _ (List.mem_cons_self ..) : splitStarted ∈ _) rfl)
  have r8 := r7.step (Step.complete 3 (List.mem_cons_self .. : splitAcked ∈ _) rfl rfl)
  have r9 := r8.step (Step.markStarted 4 4 [] (List.mem_cons_self .. : laterHalf ∈ _) rfl
    (by decide))
  have r10 := r9.step (Step.ack 5 5 "c" (List.mem_cons_self .. : laterLast ∈ _) rfl)
  refine ⟨_, r10, ?_, ?_, ?_, rfl, rfl⟩
  · simp [OfSplit]
  · simp only [List.forall_mem_cons]
    exact ⟨(by decide : "c" ∉ ["b", "a"]), trivial, trivial, (by decide : "a" ∉ ["b"]),
      (by decide : "b" ∉ []), trivial, trivial, trivial, trivial, trivial, trivial,
      List.forall_mem_nil _⟩
  · simp only [List.forall_mem_cons]
    refine ⟨trivial, trivial, fun batch hbatch => .inl ?_, trivial, trivial, trivial, trivial,
      (by decide : 0 < 2), Nat.one_pos, trivial, trivial, List.forall_mem_nil _⟩
    obtain rfl := Option.some.inj hbatch
    rfl

/-- A crash when all pieces of the second one are acked: the restart completes it, and the node of
the first one is there. -/
theorem crash_consistent_bothSent :
    ∃ moments file loaded, traffic.Run moments Proxy.bothSent ∧ (committed moments).length = 1 ∧
      saveToDisk (onDisk moments Proxy.bothSent.store) = .ok file ∧
        loadFromDisk StrMap.values file = .ok loaded ∧
          Recovered (committed moments) (onDisk moments Proxy.bothSent.store) (fun _ => 0)
              loaded.inFlight.keys (startUp (fun _ => 0) loaded.inFlight.keys loaded) ∧
            (startUp (fun _ => 0) loaded.inFlight.keys loaded).interactions.clients.keys =
              ["c", "a"] := by
  obtain ⟨moments, run, split, fresh, whole, hcommitted, hdisk⟩ := run_bothSent
  obtain ⟨file, hfile⟩ : ∃ file, saveToDisk Proxy.bothSent.store = .ok file := by
    exact ⟨_, rfl⟩
  have hload := loadFromDisk_saveToDisk hfile StrMap.values
  refine ⟨moments, file, _, run, hcommitted, by rw [hdisk]; exact hfile, hload, ?_, by decide⟩
  exact (crash_consistent run split fresh whole
    (by rw [hdisk]; exact samePersisted_load hfile hload) _ (List.Perm.refl _)).1


/-! ## A batch of two sends -/

/-- Two pieces of another request, in the same second. -/
def otherSplit : Send := newSend otherExchange "s" 0 2

/-- The first send gets the answer to its only piece, and acks the first piece of the other. -/
def Proxy.collided : Proxy :=
  (((((Proxy.init.lookedUp firstExchange.request firstExchange.frontier).lookedUp
    otherExchange.request otherExchange.frontier).begun firstExchange firstSplit 0 1).begun
    otherExchange otherSplit 0 2).marked firstSplit 0 0 []).acked splitStarted 0 0 "a"

/-- Then it completes the batch, which cannot complete, and the other send saves the store. -/
def Proxy.leftOver : Proxy := (Proxy.collided.completed splitAcked 0).marked otherSplit 0 0 []

theorem run_leftOver : ∃ moments, traffic.Run moments Proxy.leftOver ∧
    (∀ m ∈ moments, OfSplit m.2) ∧ (∀ m ∈ moments, Fresh m.1 m.2) ∧
      onDisk moments Proxy.leftOver.store = Proxy.leftOver.store ∧ committed moments = [] := by
  have r1 := run_firstAsked.step (Step.lookup
    (by decide : findFrontier _ otherExchange.request.hashes none none =
      some otherExchange.frontier) (by decide))
  have r2 := r1.step (Step.startContent "s" 0 0 1 []
    (List.mem_cons_of_mem _ (List.mem_cons_self ..)) List.Perm.nil rfl)
  have r3 := r2.step (Step.startContent "s" 0 0 2 _ (List.mem_cons_self ..) (List.Perm.refl _)
    (by decide))
  have r4 := r3.step (Step.markStarted 0 0 []
    (List.mem_cons_of_mem _ (List.mem_cons_self ..) : firstSplit ∈ _) rfl Nat.one_pos)
  have r5 := r4.step (Step.ack 0 0 "a" (List.mem_cons_self ..) rfl)
  have r6 := r5.step (Step.complete 0 (List.mem_cons_self ..) rfl rfl)
  have r7 := r6.step (Step.markStarted 0 0 [] (List.mem_cons_self .. : otherSplit ∈ _) rfl
    (by decide))
  refine ⟨_, r7, ?_, ?_, rfl, rfl⟩
  · simp [OfSplit]
  · simp [Fresh, Proxy.lookedUp, Proxy.begun, Proxy.marked, Proxy.init]

/-- The call of the acked piece is on the disk, and no turn has it. -/
theorem crash_not_always_consistent :
    ¬ ∀ moments p, traffic.Run moments p → (∀ m ∈ moments, OfSplit m.2) →
      (∀ m ∈ moments, Fresh m.1 m.2) → ∀ loaded,
        SamePersisted (onDisk moments p.store) loaded → ∀ clock batchIds,
          batchIds.Perm loaded.inFlight.keys →
            Recovered (committed moments) (onDisk moments p.store) clock batchIds
              (startUp clock batchIds loaded) := by
  intro h
  obtain ⟨moments, run, split, fresh, disk, none⟩ := run_leftOver
  obtain ⟨file, hfile⟩ : ∃ file, saveToDisk Proxy.leftOver.store = .ok file := by
    exact ⟨_, rfl⟩
  have same := samePersisted_load hfile (loadFromDisk_saveToDisk hfile StrMap.values)
  have recovered := h moments _ run split fresh _ (by rw [disk]; exact same) (fun _ => 0) []
    List.Perm.nil
  have unused : ∀ t ∈ committed moments ++
      ackedTurns (onDisk moments Proxy.leftOver.store) (fun _ => 0) [], "a" ∉ t.batch.ackedIds := by
    rw [none]
    exact List.forall_mem_nil _
  obtain ⟨_, stored⟩ := recovered.holds.absent unused
  exact absurd stored (by decide)

end InfSplitter.Traffic
