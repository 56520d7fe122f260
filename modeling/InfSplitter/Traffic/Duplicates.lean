import InfSplitter.Routing.Replay
import InfSplitter.Traffic.Calls
import InfSplitter.Traffic.Links

/-!
# Requests that wait for a batch

A request that finds a batch of its own key looks at the store again and again, until all pieces of
the batch are acked or a search with the key's hashes, previous id and system hash knows them all.
Then it searches once more. It does not know the node the batch became, and it does not know whether
the batch has become one: between the last ack and `complete_batch` the pieces are acked, and the
batch is still in flight.

`duplicates_find_iff` says when the search leads to the batch's turn: among the nodes a reading of
all the hashes stops in there has to be one of that turn, and one of that turn has to be the newest,
or as new as the others with the smallest id. The search looks at the previous id only after it has
chosen.
-/

set_option autoImplicit false

namespace InfSplitter.Traffic

open Lib Session Routing SplitSend

/-- The node is a turn with the hashes of the batch, at its place. -/
def AnswersBatch (batch : InFlightBatch) (c : ClientInteractionNode) : Prop :=
  c.messageHashes = batch.messageHashes ∧ c.prevId = batch.prevInteractionId

/-- A request that waited searches again, and is led to a turn like the batch's node. -/
def FindsAnswer (store : InteractionStore) (batch : InFlightBatch)
    (node : ClientInteractionNode) : Prop :=
  ∃ frontier matched,
    findFrontier store batch.messageHashes batch.prevInteractionId batch.systemInstructionHash =
        some frontier ∧
      frontier.allKnown = true ∧ frontier.matchedClientId = some matched.id ∧
        store.Stored matched ∧ matched.messageHashes = node.messageHashes ∧
          matched.prevId = node.prevId

/-- A reading of all the batch's hashes stops in the node. -/
def Stops (store : InteractionStore) (batch : InFlightBatch) (c : ClientInteractionNode) : Prop :=
  StopsWith store batch.systemInstructionHash batch.messageHashes c

/-- Every other turn a reading stops in is beaten by one of the batch's. -/
def Preferred (store : InteractionStore) (batch : InFlightBatch) : Prop :=
  ∀ terminal, Stops store batch terminal → ¬ AnswersBatch batch terminal →
    ∃ own, Stops store batch own ∧ AnswersBatch batch own ∧ Newer own terminal

/-- The search ends, a reading of all hashes stops in the batch's turn, and no other is newer. -/
structure AnswerPreferred (store : InteractionStore) (batch : InFlightBatch) : Prop where
  roots : RootsAnswer store batch.systemInstructionHash batch.messageHashes
  stops : ∃ own, Stops store batch own ∧ AnswersBatch batch own
  preferred : Preferred store batch

/-! ## A request that waits -/

/-- What the loops of `wait_for_inflight_batch` and of `handle_split_send` look at: whether the wait
is over. -/
def waitIsOver (store : StoreV2) (batch : InFlightBatch) : Option Bool :=
  (findFrontier store.interactions batch.messageHashes batch.prevInteractionId
    batch.systemInstructionHash).map fun frontier =>
      store.batchIsComplete batch.id || frontier.allKnown

/-- The client node the search after the loop leads to; without one, the request is sent after all,
or fails with "duplicate batch completed without ClientInteractionNode". -/
def answerAfterWait (store : StoreV2) (batch : InFlightBatch) : Option (Option String) :=
  (findFrontier store.interactions batch.messageHashes batch.prevInteractionId
    batch.systemInstructionHash).map fun frontier =>
      if frontier.allKnown then frontier.matchedClientId else none

inductive Waiter
  | idle
  | polling (batch : InFlightBatch)
  | stopped (batch : InFlightBatch)
  | ended (batch : InFlightBatch) (answer : Option String)
  -- after 30 seconds
  | timedOut (batch : InFlightBatch)

/-- All requests, and one more that waits for a batch of its key. -/
structure Waits where
  proxy : Proxy
  waiter : Waiter

inductive WaitEvent
  | other (a : Event)
  | find
  | poll
  | timeout
  | search

inductive WaitStep : Waits → WaitEvent → Waits → Prop
  | other {p p' : Proxy} {waiter : Waiter} {a : Event} (h : Step p a p') :
      WaitStep ⟨p, waiter⟩ (.other a) ⟨p', waiter⟩
  | find {p : Proxy} {batch : InFlightBatch} (finds : FindsBatch p.store batch.key (some batch)) :
      WaitStep ⟨p, .idle⟩ .find ⟨p, .polling batch⟩
  | keepPolling {p : Proxy} {batch : InFlightBatch}
      (isOver : waitIsOver p.store batch = some false) :
      WaitStep ⟨p, .polling batch⟩ .poll ⟨p, .polling batch⟩
  | stop {p : Proxy} {batch : InFlightBatch} (isOver : waitIsOver p.store batch = some true) :
      WaitStep ⟨p, .polling batch⟩ .poll ⟨p, .stopped batch⟩
  | timeout {p : Proxy} {batch : InFlightBatch} (isOver : waitIsOver p.store batch = some false) :
      WaitStep ⟨p, .polling batch⟩ .timeout ⟨p, .timedOut batch⟩
  -- under another lock than the last look
  | search {p : Proxy} {batch : InFlightBatch} {answer : Option String}
      (found : answerAfterWait p.store batch = some answer) :
      WaitStep ⟨p, .stopped batch⟩ .search ⟨p, .ended batch answer⟩

/-- The waiting request, over all interleavings with the others. -/
def waits : System Waits WaitEvent :=
  { init := ⟨Proxy.init, .idle⟩, step := WaitStep }

/-- The waiting request is answered from a turn with the hashes of the batch, at its place. -/
def RepliesWith (store : InteractionStore) (batch : InFlightBatch) : Waiter → Prop
  | .ended _ (some id) => ∃ c, store.Stored c ∧ c.id = id ∧ AnswersBatch batch c
  | _ => False

/-- What goes on around a waiting request is a run of its own. -/
theorem run_proxy {moments : List (Waits × WaitEvent)} {s : Waits} (run : waits.Run moments s) :
    ∃ moments', traffic.Run moments' s.proxy := by
  refine run.invariant (P := fun s => ∃ moments', traffic.Run moments' s.proxy)
    ⟨[], System.Run.init⟩ fun s a s' ⟨moments', run'⟩ hstep => ?_
  cases hstep with
  | other h => exact ⟨_, run'.step h⟩
  | _ => exact ⟨moments', run'⟩

/-! ## The search -/

section
variable {store store' : InteractionStore} {batch : InFlightBatch}

/-- The longest reading against any other complete one. -/
theorem eq_or_newer {terminal best : ClientInteractionNode} (ix : store.Indexed)
    (hl : LongestReading store batch.systemInstructionHash batch.messageHashes
      batch.messageHashes.length best)
    (hstop : Stops store batch terminal) : best = terminal ∨ Newer best terminal := by
  obtain ⟨best', hl', _, hbest⟩ := StopsWith.longest ix hstop
  obtain ⟨_, rfl⟩ := hl.unique ix hl'
  exact hbest

theorem findsAnswer_iff (ix : store.Indexed) {node : ClientInteractionNode}
    (hnode : AnswersBatch batch node) :
    FindsAnswer store batch node ↔ AnswerPreferred store batch := by
  obtain ⟨hhashes, hprev⟩ := hnode
  constructor
  · rintro ⟨frontier, matched, found, known, hid, hstored, hm, hp⟩
    have own : AnswersBatch batch matched := ⟨hm.trans hhashes, hp.trans hprev⟩
    obtain ⟨roots, hl, _⟩ := (findFrontier_known_iff ix hstored).mp ⟨frontier, found, known, hid⟩
    refine ⟨roots, ⟨matched, hl.1, own⟩, ?_⟩
    intro terminal hstop hother
    refine ⟨matched, hl.1, own, ?_⟩
    rcases eq_or_newer ix hl hstop with rfl | hnewer
    · exact absurd own hother
    · exact hnewer
  · rintro ⟨roots, ⟨own, hstop, hown⟩, preferred⟩
    obtain ⟨best, hl, hbest, _⟩ := StopsWith.longest ix hstop
    have answers : AnswersBatch batch best := by
      by_contra hother
      -- the selected node would be beaten by a newer one, which the search would have preferred
      obtain ⟨own', hstop', _, hnewer⟩ := preferred best hbest hother
      rcases eq_or_newer ix hl hstop' with rfl | hbest'
      · exact hnewer.asymm hnewer
      · exact hnewer.asymm hbest'
    have hstored := hl.stored ix
    obtain ⟨frontier, found, known, hid⟩ := (findFrontier_known_iff ix hstored).mpr
      ⟨roots, hl, Or.inr answers.2.symm⟩
    exact ⟨frontier, best, found, known, hid, hstored, answers.1.trans hhashes.symm,
      answers.2.trans hprev.symm⟩

/-- The search sees the client nodes and the two indexes only. -/
theorem AnswerPreferred.congr (h : AnswerPreferred store batch) (same : SameChains store store') :
    AnswerPreferred store' batch := by
  obtain ⟨clients, upstreams, hashIndex, upstreamToClients, prevToClient⟩ := store
  obtain ⟨clients', upstreams', hashIndex', upstreamToClients', prevToClient'⟩ := store'
  obtain ⟨rfl, rfl, rfl⟩ := same
  exact ⟨h.roots, h.stops, h.preferred⟩

end

/-! ## The node is found, as long as ids are not repeated -/

/-- The client nodes were stored under the `recorded` ids, in this order. -/
structure Kept (recorded : List String) (p : Proxy) : Prop where
  chained : Chained recorded p.store.interactions
  issued : Issued p
  given : ∀ id ∈ recorded, id ∈ p.issued
  apart : ∀ k i id, AckedUnder p k i id → id ∉ recorded
  pieces : HasPieces p
  asking : ∀ x ∈ p.asking, x.request.hashes ≠ [] ∧ ∀ q, x.prevId = some q → q ∈ recorded
  batches : ∀ k batch, p.store.inFlight.lookup k = some batch →
    batch.messageHashes ≠ [] ∧ ∀ q, batch.prevInteractionId = some q →
      q ∈ recorded ∧ batch.systemInstructionHash = none

namespace Kept

variable {recorded recorded' : List String} {p p' : Proxy} {a : Event}

theorem init : Kept [] Proxy.init where
  chained := Chained.new
  issued := Issued.init
  given id hid := absurd hid List.not_mem_nil
  apart k i id _ := List.not_mem_nil
  pieces := HasPieces.init
  asking x hx := by simp [Proxy.init] at hx
  batches k batch hb := by simp [Proxy.init, StoreV2.new] at hb

/-- A request that goes on brings harness messages. -/
theorem hashes_ne_nil {x : Exchange} {store : InteractionStore}
    (found : findFrontier store x.request.hashes none none = some x.frontier)
    (proceeds : Proceeds x.request x.frontier) : x.request.hashes ≠ [] := by
  intro hnil
  rw [hnil] at found
  apply proceeds.2
  exact ⟨hnil, congrArg Frontier.previousInteractionId (Option.some.inj found).symm⟩

/-- What an event leaves under way holds on to recorded ids, as what was under way did. -/
theorem carry (h : Kept recorded p) (fresh : Fresh p a) (pieced : Pieced a) (hstep : Step p a p')
    (chained : Chained recorded' p'.store.interactions) (grown : ∀ id ∈ recorded, id ∈ recorded')
    (given : ∀ id ∈ recorded', id ∈ p'.issued)
    (apart : ∀ k i id, AckedUnder p' k i id → id ∉ recorded') : Kept recorded' p' where
  chained := chained
  issued := h.issued.step fresh hstep
  given := given
  apart := apart
  pieces := h.pieces.step pieced hstep
  asking x hx := by
    rcases asking_origin hstep hx with hold | ⟨found, proceeds⟩
    · obtain ⟨hne, hprev⟩ := h.asking x hold
      exact ⟨hne, fun q hq => grown q (hprev q hq)⟩
    · exact ⟨hashes_ne_nil found proceeds,
        fun q hq => grown q (h.chained.frontier_issued found hq)⟩
  batches k batch' hb := by
    cases batch_origin hstep hb with
    | @moved batch old moved =>
      obtain ⟨hne, hprev⟩ := h.batches k batch old
      have hkey : batch'.key = batch.key := moved.key
      injection hkey with _ hp hm hs
      rw [hp, hm, hs]
      refine ⟨hne, fun q hq => ?_⟩
      obtain ⟨hq', hnone⟩ := hprev q hq
      exact ⟨grown q hq', hnone⟩
    | @begun x sessionId second count _ mem _ hkey =>
      obtain ⟨hne, hprev⟩ := h.asking x mem
      injection hkey with _ hp hm hs
      rw [hp, hm, hs]
      exact ⟨hne, fun q hq => ⟨grown q (hprev q hq), Exchange.storedSystemHash_none hq⟩⟩

/-- A piece that is acked has a new id, or has had it. -/
theorem unrecorded (h : Kept recorded p) (fresh : Fresh p a) (hstep : Step p a p') {k : String}
    {i : Nat} {id : String} (hacked : AckedUnder p' k i id) : id ∉ recorded := by
  rcases ackedUnder_origin hstep hacked with hold | ⟨y, rfl, _⟩
  · exact h.apart k i id hold
  · exact fun hid => fresh (h.given id hid)

/-- The node an event inserts has a new id, and continues a recorded one. -/
theorem inserts (h : Kept recorded p) (fresh : Fresh p a) {node : ClientInteractionNode}
    (inserts : Inserts p a node) :
    node.id ∉ recorded ∧ (∃ prev ids, Brings p a prev ids ∧ node.id ∈ ids) ∧
      ∀ q, node.prevId = some q → q ∈ recorded ∧ node.systemInstructionHash = none := by
  cases inserts with
  | @commit x id now mem =>
    refine ⟨fun hid => fresh (h.given id hid), ⟨_, _, .commit mem, List.mem_singleton_self id⟩, ?_⟩
    exact fun q hq => ⟨(h.asking x mem).2 q hq, Exchange.storedSystemHash_none hq⟩
  | @complete y now batch own all =>
    have hid := clientNodeOf_id_mem (h.pieces _ _ own) all now
    obtain ⟨i, hi⟩ := mem_ackedIds.mp hid
    refine ⟨h.apart _ i _ ⟨batch, own, hi⟩, ⟨_, _, .complete own, ?_⟩, (h.batches _ _ own).2⟩
    exact (map_id_pieceNodes batch now all _).symm ▸ hid

theorem step (h : Kept recorded p) (fresh : Fresh p a) (pieced : Pieced a) (hstep : Step p a p') :
    ∃ recorded', Kept recorded' p' := by
  have given {id : String} (hid : id ∈ recorded) : id ∈ p'.issued :=
    issued_mono hstep (h.given id hid)
  have same (chained : Chained recorded p'.store.interactions) : Kept recorded p' :=
    h.carry fresh pieced hstep chained (fun _ hid => hid) (fun _ => given)
      fun _ _ _ => h.unrecorded fresh hstep
  cases chain_change hstep with
  | same heq => exact ⟨recorded, same (h.chained.congr heq)⟩
  | touched id now heq => exact ⟨recorded, same (heq ▸ h.chained.touchClient id now)⟩
  | cleaned _ heq => exact ⟨recorded, same (heq ▸ h.chained.cleanAll)⟩
  | @inserted node ins heq =>
    obtain ⟨hnew, ⟨prev, ids, hbrings, hmem⟩, hprev⟩ := h.inserts fresh ins
    refine ⟨recorded ++ [node.id], h.carry fresh pieced hstep ?_ ?_ ?_ ?_⟩
    · refine Chained.congr (h.chained.insertClient (List.mem_singleton_self _) ?_ ?_ ?_) heq
      · intro id hid
        rw [List.mem_singleton.mp hid]
        exact hnew
      · exact fun q hq => (hprev q hq).1
      · exact fun q hq => (hprev q hq).2
    · exact fun id hid => List.mem_append_left _ hid
    · intro id hid
      rcases List.mem_append.mp hid with hid | hid
      · exact given hid
      · rw [List.mem_singleton.mp hid]
        exact h.issued.brought_issued hstep hbrings hmem
    · intro k i id hacked hid
      rcases List.mem_append.mp hid with hid | hid
      · exact h.unrecorded fresh hstep hacked hid
      · apply h.issued.brought_unacked fresh hstep hbrings hacked
        rwa [List.mem_singleton.mp hid]

/-- **Every run that repeats no id keeps the record.** -/
theorem of_run {moments : List (Waits × WaitEvent)} {s : Waits} (run : waits.Run moments s)
    (fresh : ∀ m ∈ moments, ∀ a, m.2 = .other a → Fresh m.1.proxy a ∧ Pieced a) :
    ∃ recorded, Kept recorded s.proxy := by
  refine run.preserves (P := fun s => ∃ recorded, Kept recorded s.proxy)
    (fun s event => ∀ a, event = .other a → Fresh s.proxy a ∧ Pieced a) ⟨[], init⟩ ?_ fresh
  intro s event s' ⟨recorded, h⟩ ok hstep
  cases hstep with
  | other hother =>
    obtain ⟨hfresh, hpieced⟩ := ok _ rfl
    exact h.step hfresh hpieced hother
  | _ => exact ⟨recorded, h⟩

end Kept

/-- A node under a new id has no child. -/
theorem nextNode_insertClient {recorded : List String} {store : InteractionStore}
    (h : Chained recorded store) {node : ClientInteractionNode} (hnew : node.id ∉ recorded)
    (hprev : ∀ q, node.prevId = some q → q ∈ recorded) :
    nextNode (store.insertClient node) node = none := by
  rw [← Option.not_isSome_iff_eq_none]
  intro hsome
  obtain ⟨d, hd⟩ := Option.isSome_iff_exists.mp hsome
  obtain ⟨k, hk, hd⟩ := Option.bind_eq_some_iff.mp hd
  unfold nextInChain at hk
  rw [InteractionStore.insertClient_prevToClient_lookup] at hk
  by_cases hself : node.prevId = some node.id
  · exact hnew (hprev _ hself)
  · rw [if_neg hself] at hk
    obtain ⟨hk', hback⟩ := h.child hk
    have hne : k ≠ node.id := by
      rintro rfl
      exact hnew hk'
    rw [InteractionStore.insertClient_lookup, if_neg hne] at hd
    exact hnew (h.prevIssued (h.stored hd) (hback d hd))

/-- A node without a child passes for a reading of its own hashes, under its own system hash. -/
theorem stopsWith_self {store : InteractionStore} {node : ClientInteractionNode}
    (hstored : store.Stored node) (hne : node.messageHashes ≠ [])
    (hlast : nextNode store node = none)
    (hroot : node.systemInstructionHash = none ∨ node.prevId = none) :
    StopsWith store node.systemInstructionHash node.messageHashes node := by
  have system : systemMatches store node.systemInstructionHash node = some true := by
    cases hs : node.systemInstructionHash with
    | none => rfl
    | some s =>
      have hprev : node.prevId = none := hroot.resolve_left (by simp [hs])
      have hprevNode : prevNode store node = none := by
        unfold prevNode
        rw [hprev]
        rfl
      have hend : findChainRoot store node = some node := chase_end hprevNode
      unfold systemMatches
      simp only [hend, Option.map_some, hs, beq_self_eq_true]
  refine ⟨node, 0, ⟨hstored, List.head?_eq_getElem?.symm, hne, system⟩, ?_⟩
  exact readOn_rest hlast [] hne rfl

/-! ## Completing a batch -/

/-- The client nodes once the batch has become one. -/
def withTurn (store : InteractionStore) (batch : InFlightBatch) (now : UInt64) :
    InteractionStore :=
  store.insertClient (StoreV2.clientNodeOf batch batch.ackedIds now)

/-- As long as ids are not repeated, the batch's own node is one the search comes to. -/
theorem Kept.answerPreferred {recorded : List String} {p : Proxy} (h : Kept recorded p)
    {batchId : String} {batch : InFlightBatch} (own : p.store.inFlight.lookup batchId = some batch)
    (all : batch.allAcked = true) {now : UInt64}
    (preferred : Preferred (withTurn p.store.interactions batch now) batch) :
    AnswerPreferred (withTurn p.store.interactions batch now) batch := by
  obtain ⟨hne, hprev⟩ := h.batches _ _ own
  have hid := clientNodeOf_id_mem (h.pieces _ _ own) all now
  obtain ⟨i, hi⟩ := mem_ackedIds.mp hid
  have hnew := h.apart _ i _ ⟨batch, own, hi⟩
  have chained : Chained (recorded ++ [(StoreV2.clientNodeOf batch batch.ackedIds now).id])
      (withTurn p.store.interactions batch now) := by
    refine h.chained.insertClient (List.mem_singleton_self _) ?_ ?_ ?_
    · intro id hid
      rwa [List.mem_singleton.mp hid]
    · exact fun q hq => (hprev q hq).1
    · exact fun q hq => (hprev q hq).2
  have stops : Stops (withTurn p.store.interactions batch now) batch
      (StoreV2.clientNodeOf batch batch.ackedIds now) := by
    apply stopsWith_self (stored_insertClient.mpr (Or.inl rfl)) hne
    · apply nextNode_insertClient h.chained hnew
      exact fun q hq => (hprev q hq).1
    · cases hq : batch.prevInteractionId with
      | none => exact Or.inr hq
      | some q => exact Or.inl (hprev q hq).2
  exact ⟨chained.wellFormed.rootsAnswer _ _, ⟨_, stops, rfl, rfl⟩, preferred⟩

theorem indexed_of_run {moments : List (Proxy × Event)} {p : Proxy}
    (run : traffic.Run moments p) : p.store.interactions.Indexed :=
  run.invariant (P := fun p => p.store.interactions.Indexed) InteractionStore.Indexed.new
    fun _ _ _ h hstep => indexed_step h hstep

/-- The search of a waiting request, in whatever state it is made. -/
theorem repliesWith_iff {p : Proxy} {batch : InFlightBatch} {s' : Waits}
    (ix : p.store.interactions.Indexed) (hstep : WaitStep ⟨p, .stopped batch⟩ .search s') :
    RepliesWith p.store.interactions batch s'.waiter ↔
      AnswerPreferred p.store.interactions batch := by
  cases hstep with
  | @search _ _ answer found =>
  obtain ⟨frontier, hfound, hanswer⟩ := Option.map_eq_some_iff.mp found
  -- any node that passes for the batch's turn will do
  have hnode : AnswersBatch batch (StoreV2.clientNodeOf batch [] 0) := ⟨rfl, rfl⟩
  rw [← findsAnswer_iff ix hnode]
  constructor
  · intro hreplies
    obtain ⟨id, rfl⟩ : ∃ id, answer = some id := by
      cases answer with
      | none => exact hreplies.elim
      | some id => exact ⟨id, rfl⟩
    obtain ⟨c, hstored, rfl, hhashes, hprev⟩ := hreplies
    by_cases hknown : frontier.allKnown = true
    · rw [if_pos hknown] at hanswer
      exact ⟨frontier, c, hfound, hknown, hanswer, hstored, hhashes, hprev⟩
    · rw [if_neg hknown] at hanswer
      cases hanswer
  · rintro ⟨frontier', matched, hfound', hknown, hid, hstored, hhashes, hprev⟩
    cases hfound.symm.trans hfound'
    rw [if_pos hknown, hid] at hanswer
    rw [← hanswer]
    exact ⟨matched, hstored, rfl, hhashes, hprev⟩

/-- **A request that waited finds the batch's turn exactly where there is one and no other turn is
preferred**: right after the batch has completed, and wherever a waiting request searches. As long
as the upstream repeats no id and batches have pieces, the turn is there right after the batch has
completed. -/
theorem duplicates_find_iff {moments : List (Waits × WaitEvent)} {s : Waits}
    (run : waits.Run moments s) :
    (∀ batchId batch now node, s.proxy.store.inFlight.lookup batchId = some batch →
      (s.proxy.store.completeBatch now batchId).2 = .ok node →
        (FindsAnswer (s.proxy.store.completeBatch now batchId).1.interactions batch node ↔
            AnswerPreferred (withTurn s.proxy.store.interactions batch now) batch) ∧
          ((∀ m ∈ moments, ∀ a, m.2 = .other a → Fresh m.1.proxy a ∧ Pieced a) →
            (AnswerPreferred (withTurn s.proxy.store.interactions batch now) batch ↔
              Preferred (withTurn s.proxy.store.interactions batch now) batch))) ∧
      ∀ batch s', s.waiter = .stopped batch → waits.step s .search s' →
        (RepliesWith s.proxy.store.interactions batch s'.waiter ↔
          AnswerPreferred s.proxy.store.interactions batch) := by
  obtain ⟨_, run'⟩ := run_proxy run
  have indexed := indexed_of_run run'
  constructor
  · intro batchId batch now node own completed
    obtain ⟨batch', own', all, rfl, hstore⟩ := completeBatch_ok_cases completed
    cases own.symm.trans own'
    have same := completed_sameChains s.proxy.store now batchId batch
    constructor
    · rw [hstore, findsAnswer_iff ((indexed.insertClient _).congr same) ⟨rfl, rfl⟩]
      exact ⟨fun h => h.congr same.symm, fun h => h.congr same⟩
    · intro fresh
      obtain ⟨recorded, kept⟩ := Kept.of_run run fresh
      exact ⟨fun h => h.preferred, kept.answerPreferred own all⟩
  · intro batch s' hstopped hstep
    obtain ⟨p, waiter⟩ := s
    cases hstopped
    exact repliesWith_iff indexed hstep

/-! ## A request that waits for the first turn -/

/-- The batch of the first split, with its one piece acked. -/
def splitBatch : InFlightBatch :=
  { id := firstSplit.batchId, sessionId := "s", prevInteractionId := none, messageHashes := [1],
    systemInstructionHash := none,
    pieces := [{ index := 0, contentHash := 0, requestBody := [], status := .acked "a" }],
    createdUtc := 0, updatedUtc := 0 }

/-- The first split has its answer, and a request has found its batch. -/
theorem run_splitFound :
    ∃ moments, waits.Run moments ⟨Proxy.firstSplitAcked, .polling splitBatch⟩ := by
  have r1 := System.Run.init.step (S := waits)
    (WaitStep.other (Step.lookup (by decide : findFrontier _ firstExchange.request.hashes none
      none = some firstExchange.frontier) (by decide)))
  have r2 := r1.step (WaitStep.other
    (Step.startContent "s" 0 0 1 [] (List.mem_cons_self ..) List.Perm.nil rfl))
  have r3 := r2.step (WaitStep.other
    (Step.markStarted 0 0 [] (List.mem_cons_self ..) rfl Nat.one_pos))
  have r4 := r3.step (WaitStep.other (Step.ack 0 0 "a" (List.mem_cons_self ..) rfl))
  exact ⟨_, r4.step (WaitStep.find ⟨[splitBatch], List.Perm.of_eq (by rfl), rfl⟩)⟩

/-- The split completes, and then the loop stops. -/
theorem run_splitCompleted :
    ∃ moments, waits.Run moments
      ⟨Proxy.firstSplitAcked.completed splitAcked 0, .stopped splitBatch⟩ := by
  obtain ⟨moments, found⟩ := run_splitFound
  have completed := found.step (WaitStep.other
    (Step.complete 0 (List.mem_cons_self ..) rfl rfl))
  exact ⟨_, completed.step (WaitStep.stop (by decide))⟩

/-- With nothing else stored, the first turn is found. -/
theorem duplicates_find_iff_firstSplit :
    (FindsAnswer (Proxy.firstSplitAcked.store.completeBatch 0 splitAcked.batchId).1.interactions
        splitBatch firstNode ↔
      AnswerPreferred (withTurn Proxy.firstSplitAcked.store.interactions splitBatch 0)
        splitBatch) ∧
      (RepliesWith (Proxy.firstSplitAcked.completed splitAcked 0).store.interactions splitBatch
          (.ended splitBatch (some "a")) ↔
        AnswerPreferred (Proxy.firstSplitAcked.completed splitAcked 0).store.interactions
          splitBatch) := by
  obtain ⟨_, found⟩ := run_splitFound
  obtain ⟨_, stopped⟩ := run_splitCompleted
  have own : Proxy.firstSplitAcked.store.inFlight.lookup splitAcked.batchId = some splitBatch := by
    rfl
  have completed : (Proxy.firstSplitAcked.store.completeBatch 0 splitAcked.batchId).2 =
      .ok firstNode := by
    rfl
  exact ⟨((duplicates_find_iff found).1 _ _ 0 _ own completed).1,
    (duplicates_find_iff stopped).2 splitBatch _ rfl (WaitStep.search (by decide))⟩

/-! ## Two conversations with one history -/

/-- A client that sends the same two messages at once, as a conversation of its own. -/
def rivalExchange : Exchange :=
  { request := { hashes := [1, 2], systemInstructionHash := none }
    frontier := { index := 0, previousInteractionId := none, allKnown := false,
                  matchedClientId := none } }

/-- The second turn is split, into one piece. -/
def secondSplit : Send := newSend secondExchange "s" 0 1

def secondStarted : Send := { secondSplit with started := true, remaining := 0 }

/-- Both have their answer in the same second, and the rival's id is the smaller one. -/
def Proxy.rivalled : Proxy :=
  (((((((Proxy.init.lookedUp firstExchange.request firstExchange.frontier).lookedUp
    rivalExchange.request rivalExchange.frontier).committed firstExchange "a" 0 "s").lookedUp
    secondExchange.request secondExchange.frontier).committed rivalExchange "c" 0 "t").begun
    secondExchange secondSplit 0 1).marked secondSplit 0 0 []).acked secondStarted 0 0 "d"

theorem run_rivalled : ∃ moments, traffic.Run moments Proxy.rivalled := by
  have r1 := run_firstAsked.step (Step.lookup
    (by decide : findFrontier _ rivalExchange.request.hashes none none =
      some rivalExchange.frontier) (by decide))
  have r2 := r1.step (Step.commit "a" 0 "s" (List.mem_cons_of_mem _ (List.mem_cons_self ..)))
  have r3 := r2.step (Step.lookup (by decide : findFrontier _ secondExchange.request.hashes none
    none = some secondExchange.frontier) (by decide))
  have r4 := r3.step (Step.commit "c" 0 "t" (List.mem_cons_of_mem _ (List.mem_cons_self ..)))
  have r5 := r4.step (Step.startContent "s" 0 0 1 [] (List.mem_cons_self ..) List.Perm.nil rfl)
  have r6 := r5.step (Step.markStarted 0 0 [] (List.mem_cons_self ..) rfl Nat.one_pos)
  exact ⟨_, r6.step (Step.ack 0 0 "d" (List.mem_cons_self ..) rfl)⟩

/-- The search right after a batch has completed can miss its turn: it chooses the rival's, and then
finds that its previous id is another. And the search of a waiting request can come before the batch
has completed: all its pieces are acked, and there is no turn. -/
theorem duplicates_sometimes_miss :
    (¬ ∀ moments p, traffic.Run moments p → ∀ batchId batch,
      p.store.inFlight.lookup batchId = some batch → ∀ now node,
        (p.store.completeBatch now batchId).2 = .ok node →
          FindsAnswer (p.store.completeBatch now batchId).1.interactions batch node) ∧
      ¬ ∀ moments s, waits.Run moments s → ∀ batch s', s.waiter = .stopped batch →
        waits.step s .search s' → RepliesWith s.proxy.store.interactions batch s'.waiter := by
  constructor
  · intro h
    obtain ⟨moments, run⟩ := run_rivalled
    obtain ⟨frontier, matched, found, known, _⟩ :=
      h moments _ run secondSplit.batchId _ (by rfl) 0 _ (by rfl)
    have missed : findFrontier
        (Proxy.rivalled.store.completeBatch 0 secondSplit.batchId).1.interactions [1, 2] (some "a")
        none = some { index := 2, previousInteractionId := some "c", allKnown := false,
                      matchedClientId := none } := by
      decide
    cases missed.symm.trans found
    cases known
  · intro h
    obtain ⟨_, found⟩ := run_splitFound
    have stopped := found.step (WaitStep.stop (by decide))
    have searched : waits.step ⟨Proxy.firstSplitAcked, .stopped splitBatch⟩ .search
        ⟨Proxy.firstSplitAcked, .ended splitBatch none⟩ := WaitStep.search (by decide)
    exact h _ _ stopped splitBatch _ rfl searched

end InfSplitter.Traffic
