import InfSplitter.Traffic.Calls
import InfSplitter.Traffic.Links

/-!
# The client chain over the upstream chain

As long as the upstream gives out every id once and nothing is cleaned, both chains only grow, at
new ids. So they stay forests, and every client node stays on top of its own calls (`Linked`): the
walk over the calls of a node is the walk over the nodes, each replaced by its calls
(`chains_refine`). A batch that cannot complete leaves calls that no client node has; they are
chained as well, and no walk from a client node passes them.
-/

set_option autoImplicit false

namespace InfSplitter.Traffic

open Lib Session Routing SplitSend

/-! ## The nodes behind the links -/

/-- Upstream nodes are stored under their ids. -/
def KeyedCalls (store : InteractionStore) : Prop :=
  ∀ k u, store.upstreams.lookup k = some u → u.id = k

theorem KeyedCalls.insertUpstream {store : InteractionStore} (h : KeyedCalls store)
    (node : UpstreamInteractionNode) : KeyedCalls (store.insertUpstream node) := by
  intro k u hu
  rcases lookup_insert_cases hu with ⟨rfl, rfl⟩ | ⟨_, hold⟩
  · rfl
  · exact h k u hold

theorem KeyedCalls.insertCalls {store : InteractionStore} (h : KeyedCalls store)
    (calls : List UpstreamInteractionNode) : KeyedCalls (insertCalls store calls) := by
  induction calls generalizing store with
  | nil => exact h
  | cons call rest ih => exact ih (h.insertUpstream call)

theorem keyedCalls_complete {s : StoreV2} (h : KeyedCalls s.interactions) (now : UInt64)
    (batchId : String) : KeyedCalls (s.completeBatch now batchId).1.interactions := by
  cases completing s now batchId with
  | missing _ result => rwa [result]
  | partly _ _ result =>
    rw [result]
    exact h.insertCalls _
  | whole _ _ result =>
    rw [result]
    exact h.insertCalls _

theorem keyedCalls_fail {s : StoreV2} (h : KeyedCalls s.interactions) (now : UInt64)
    (batchId error : String) : KeyedCalls (s.failBatch now batchId error).1.interactions := by
  cases hb : s.inFlight.lookup batchId with
  | none => rwa [failBatch_missing hb]
  | some batch =>
    intro k u hu
    rw [failBatch_upstreams hb] at hu
    split at hu
    · cases hu
    · exact h k u hu

theorem keyedCalls_step {p p' : Proxy} {a : Event} (h : KeyedCalls p.store.interactions)
    (hstep : Step p a p') : KeyedCalls p'.store.interactions := by
  cases hstep with
  | commit => exact h.insertUpstream _
  | markStarted =>
    show KeyedCalls (markStartedAndPersist ..).interactions
    rwa [markStartedAndPersist_interactions]
  | ack =>
    show KeyedCalls (ackAndPersist ..).interactions
    rwa [ackAndPersist_interactions]
  | complete now => exact keyedCalls_complete h now _
  | fail now error => exact keyedCalls_fail h now _ error
  | extendLifetime now sessionId expiresAtUtc =>
    rcases extendLifetime_interactions p.store now sessionId expiresAtUtc with heq | ⟨id, heq⟩
    · exact heq ▸ h
    · refine heq ▸ ?_
      unfold StoreV2.touchClient
      split
      · exact h
      · exact h
  | touchUpstream now id =>
    show KeyedCalls (p.store.interactions.touchUpstreamOnReplay id now)
    unfold InteractionStore.touchUpstreamOnReplay
    cases hid : p.store.interactions.upstreams.lookup id with
    | none => exact h
    | some node =>
      intro k u hu
      rcases lookup_insert_cases hu with ⟨rfl, rfl⟩ | ⟨_, hold⟩
      · exact h k node hid
      · exact h k u hold
  | cleanAll =>
    intro k u hu
    simp [StoreV2.cleanAll] at hu
  | _ => exact h

theorem touchClient_clientLink (store : InteractionStore) (id : String) (now : UInt64) :
    clientLink (StoreV2.touchClient store id now) = clientLink store := by
  funext k
  unfold clientLink
  rw [touchClient_clients, Option.map_map]
  congr 1
  funext c
  show ClientInteractionNode.prevId (if k = id then { c with lastSeenUtc := now } else c) = c.prevId
  split <;> rfl

/-- Without an insert, the client nodes stay as they are up to their stamps. -/
theorem clients_kept {p p' : Proxy} {a : Event} (hstep : Step p a p') (ha : a ≠ .cleanAll)
    (none : ∀ node, ¬ Inserts p a node) :
    clientLink p'.store.interactions = clientLink p.store.interactions ∧
      ∀ k c, p'.store.interactions.clients.lookup k = some c →
        ∃ c0, p.store.interactions.clients.lookup k = some c0 ∧
          c = { c0 with lastSeenUtc := c.lastSeenUtc } := by
  cases chain_change hstep with
  | same same =>
    refine ⟨?_, fun k c hc => ⟨c, same.clients ▸ hc, rfl⟩⟩
    unfold clientLink
    rw [same.clients]
  | inserted inserts => exact absurd inserts (none _)
  | touched id now heq =>
    rw [heq]
    exact ⟨touchClient_clientLink _ id now, fun k c hc => touchClient_origin hc⟩
  | cleaned hclean => exact absurd hclean ha

/-! ## The invariant -/

structure Linked (p : Proxy) : Prop where
  indexed : p.store.interactions.Indexed
  keyedCalls : KeyedCalls p.store.interactions
  links : LinksStored p
  issued : Issued p
  pieces : HasPieces p
  clients : Forest (clientLink p.store.interactions)
  calls : Forest (callLink p.store.interactions)
  backed : Backed p.store.interactions

namespace Linked

theorem init : Linked Proxy.init where
  indexed := InteractionStore.Indexed.new
  keyedCalls k u hu := by simp [Proxy.init, StoreV2.new, InteractionStore.new] at hu
  links := LinksStored.init
  issued := Issued.init
  pieces := HasPieces.init
  clients := Forest.empty
  calls := Forest.empty
  backed k c hc := by simp [Proxy.init, StoreV2.new, InteractionStore.new] at hc

variable {p p' : Proxy} {a : Event}

/-- A client node has a call of its own id. -/
theorem call_of_client (h : Linked p) {id : String}
    (hid : (p.store.interactions.clients.lookup id).isSome = true) :
    (callLink p.store.interactions id).isSome = true := by
  obtain ⟨c, hc⟩ := Option.isSome_iff_exists.mp hid
  obtain ⟨hlast, hchain⟩ := h.backed id c hc
  rw [h.indexed.keyed hc] at hlast
  exact hchain.isSome (List.mem_of_getLast? hlast)

/-- What the event brings continues a stored call. -/
theorem brings_prev (h : Linked p) {prev : Option String} {ids : List String}
    (hbrings : Brings p a prev ids) :
    ∀ q, prev = some q → (p.store.interactions.clients.lookup q).isSome = true := by
  cases hbrings with
  | commit mem => exact h.links.asking _ mem
  | complete own => exact h.links.batches _ _ own

/-- An event leaves the calls that are stored. -/
theorem call_kept (h : Linked p) (fresh : Fresh p a) (ha : a ≠ .cleanAll) (hstep : Step p a p')
    {id : String} (hid : (callLink p.store.interactions id).isSome = true) :
    callLink p'.store.interactions id = callLink p.store.interactions id := by
  cases call_change hstep with
  | same heq => rw [heq]
  | failed own heq => rw [h.issued.failed own heq]
  | cleaned hclean => exact absurd hclean ha
  | grown hbrings heq =>
    rw [heq]
    apply grow_of_notMem
    intro hmem
    rw [(h.issued.brings fresh hbrings).2 id hmem] at hid
    cases hid

theorem calls_step (h : Linked p) (fresh : Fresh p a) (ha : a ≠ .cleanAll)
    (hstep : Step p a p') : Forest (callLink p'.store.interactions) := by
  cases call_change hstep with
  | same heq => exact heq ▸ h.calls
  | failed own heq => exact h.issued.failed own heq ▸ h.calls
  | cleaned hclean => exact absurd hclean ha
  | grown hbrings heq =>
    obtain ⟨hnodup, hnew⟩ := h.issued.brings fresh hbrings
    rw [heq]
    exact h.calls.grow hnodup hnew fun q hq => h.call_of_client (h.brings_prev hbrings q hq)

/-- The ids of a node that is inserted: its calls, the last of them its own. -/
theorem inserts_last (h : Linked p) {node : ClientInteractionNode} (inserts : Inserts p a node) :
    node.upstreamIds.getLast? = some node.id := by
  cases inserts with
  | commit => rfl
  | @complete y now batch own all =>
    exact getLast?_clientNodeOf (ackedIds_ne_nil (h.pieces _ _ own) all) batch now

/-- A node that is stored stays backed by its calls. -/
theorem backed_kept (h : Linked p) (fresh : Fresh p a) (ha : a ≠ .cleanAll) (hstep : Step p a p')
    {k : String} {c : ClientInteractionNode}
    (hc : p.store.interactions.clients.lookup k = some c) :
    c.upstreamIds.getLast? = some c.id ∧
      InChain (callLink p'.store.interactions) c.prevId c.upstreamIds := by
  obtain ⟨hlast, hchain⟩ := h.backed k c hc
  exact ⟨hlast, hchain.congr fun id hid => h.call_kept fresh ha hstep (hchain.isSome hid)⟩

/-- An event that inserts no node. -/
theorem step_kept (h : Linked p) (fresh : Fresh p a) (ha : a ≠ .cleanAll) (hstep : Step p a p')
    (none : ∀ node, ¬ Inserts p a node) :
    Forest (clientLink p'.store.interactions) ∧ Backed p'.store.interactions := by
  obtain ⟨hlink, hold⟩ := clients_kept hstep ha none
  refine ⟨hlink ▸ h.clients, fun k c hc => ?_⟩
  obtain ⟨c0, hc0, heq⟩ := hold k c hc
  have hid : c.id = c0.id := by rw [heq]
  have hprev : c.prevId = c0.prevId := by rw [heq]
  have hids : c.upstreamIds = c0.upstreamIds := by rw [heq]
  rw [hid, hprev, hids]
  exact h.backed_kept fresh ha hstep hc0

/-- An event that inserts a node brings the calls that back it, under ids of their own. -/
theorem step_inserted (h : Linked p) (fresh : Fresh p a) (ha : a ≠ .cleanAll)
    (hstep : Step p a p') {node : ClientInteractionNode} (inserts : Inserts p a node)
    (same : SameChains (p.store.interactions.insertClient node) p'.store.interactions) :
    Forest (clientLink p'.store.interactions) ∧ Backed p'.store.interactions := by
  cases call_change hstep with
  | same _ none => exact absurd inserts (none node)
  | failed _ _ none => exact absurd inserts (none node)
  | cleaned hclean => exact absurd hclean ha
  | @grown prev ids hbrings heq hnode =>
    obtain ⟨hprev, hids, _⟩ := hnode node inserts
    obtain ⟨hnodup, hnew⟩ := h.issued.brings fresh hbrings
    have hlast := h.inserts_last inserts
    have hfresh : clientLink p.store.interactions node.id = none := by
      rw [clientLink_eq_none, ← Option.not_isSome_iff_eq_none]
      intro hsome
      have hcall := h.call_of_client hsome
      rw [hnew node.id (hids ▸ List.mem_of_getLast? hlast)] at hcall
      cases hcall
    constructor
    · have hlink : clientLink p'.store.interactions =
          clientLink (p.store.interactions.insertClient node) := by
        unfold clientLink
        rw [same.clients]
      rw [hlink, clientLink_insertClient]
      refine h.clients.insert hfresh fun q hq => ?_
      rw [isSome_clientLink]
      exact h.brings_prev hbrings q (hprev ▸ hq)
    · intro k c hc
      rw [same.clients, InteractionStore.insertClient_lookup] at hc
      by_cases hk : k = node.id
      · rw [if_pos hk, Option.some.injEq] at hc
        subst hc
        refine ⟨hlast, ?_⟩
        rw [heq, hprev, hids]
        exact inChain_grow hnodup
      · rw [if_neg hk] at hc
        exact h.backed_kept fresh ha hstep hc

/-- **One event keeps the two chains linked.** -/
theorem step (h : Linked p) (fresh : Fresh p a) (pieced : Pieced a) (ha : a ≠ .cleanAll)
    (hstep : Step p a p') : Linked p' := by
  have two : Forest (clientLink p'.store.interactions) ∧ Backed p'.store.interactions := by
    cases chain_change hstep with
    | same _ none => exact h.step_kept fresh ha hstep none
    | touched _ _ _ none => exact h.step_kept fresh ha hstep none
    | cleaned hclean => exact absurd hclean ha
    | inserted inserts same => exact h.step_inserted fresh ha hstep inserts same
  exact
    { indexed := indexed_step h.indexed hstep
      keyedCalls := keyedCalls_step h.keyedCalls hstep
      links := h.links.step h.indexed (fun hclean => absurd hclean ha) hstep
      issued := h.issued.step fresh hstep
      pieces := h.pieces.step pieced hstep
      clients := two.1
      calls := h.calls_step fresh ha hstep
      backed := two.2 }

end Linked

/-! ## The two chains of a store -/

/-- Both chains are forests, every walk along them ends, and the upstream chain below a client node
is its client chain, call by call. -/
structure ChainsRefine (store : InteractionStore) : Prop where
  clientsAcyclic : ∀ id,
    ¬ Relation.TransGen (fun k p => clientLink store k = some (some p)) id id
  callsAcyclic : ∀ id, ¬ Relation.TransGen (fun k p => callLink store k = some (some p)) id id
  clientWalk : ∀ id, ∃ chain, walkClientChain store id = some chain
  callWalk : ∀ id, ∃ chain, walkUpstreamChain store id = some chain
  root : ∀ c, store.Stored c → ∃ root, findChainRoot store c = some root
  boundary : ∀ hashes prefixLen c, store.Stored c →
    ∃ ended, endedAtClientBoundary store hashes prefixLen c = some ended
  ownCalls : ∀ c, store.Stored c →
    c.upstreamIds ≠ [] ∧ c.upstreamIds.getLast? = some c.id ∧
      ∀ id ∈ c.upstreamIds, (store.upstreams.lookup id).isSome = true
  refines : ∀ c, store.Stored c → ∃ clients calls,
    walkClientChain store c.id = some clients ∧ walkUpstreamChain store c.id = some calls ∧
      calls.map UpstreamInteractionNode.id = clients.flatMap fun d => d.upstreamIds.reverse

theorem Linked.wellFormed {p : Proxy} (h : Linked p) : p.store.interactions.WellFormed where
  toIndexed := h.indexed
  ranked := by
    obtain ⟨rank, hrank⟩ := h.clients.ranked
    refine ⟨rank, fun {c q} hc hq => hrank ?_⟩
    unfold clientLink
    rw [show p.store.interactions.clients.lookup c.id = some c from hc, Option.map_some, hq]

theorem Linked.refine {p : Proxy} (h : Linked p) : ChainsRefine p.store.interactions where
  clientsAcyclic := h.clients.acyclic
  callsAcyclic := h.calls.acyclic
  clientWalk := walkClientChain_isSome h.indexed.keyed h.clients
  callWalk := walkUpstreamChain_isSome (h.keyedCalls _ _) h.calls
  root c hc := h.wellFormed.chase_prevNode_isSome (fun _ => false) hc
  boundary hashes prefixLen c hc := endedAtClientBoundary_isSome h.wellFormed hashes prefixLen hc
  ownCalls c hc := by
    obtain ⟨hlast, hchain⟩ := h.backed c.id c hc
    refine ⟨?_, hlast, fun id hid => ?_⟩
    · rintro hnil
      rw [hnil] at hlast
      cases hlast
    · rw [← isSome_callLink]
      exact hchain.isSome hid
  refines c hc := by
    obtain ⟨clients, hclients⟩ := walkClientChain_isSome h.indexed.keyed h.clients c.id
    obtain ⟨calls, hcalls⟩ := walkUpstreamChain_isSome (h.keyedCalls _ _) h.calls c.id
    refine ⟨clients, calls, hclients, hcalls, ?_⟩
    have hwalk := walks_callLink (h.keyedCalls _ _) hcalls
    unfold walkClientChain at hclients
    rw [show p.store.interactions.clients.lookup c.id = some c from hc] at hclients
    exact hwalk.unique (walks_calls h.indexed.keyed h.clients.closed h.backed hc hclients)

/-- **The client chain is refined by the upstream chain**, in every store that requests reach while
the upstream repeats no id, nothing is split into no pieces, and nothing is cleaned. -/
theorem chains_refine {moments : List (Proxy × Event)} {p : Proxy}
    (run : traffic.Run moments p) (fresh : ∀ m ∈ moments, Fresh m.1 m.2)
    (pieced : ∀ m ∈ moments, Pieced m.2) (uncleaned : ∀ m ∈ moments, m.2 ≠ .cleanAll) :
    ChainsRefine p.store.interactions := by
  have linked : Linked p := by
    refine run.preserves (P := Linked) (fun p a => Fresh p a ∧ Pieced a ∧ a ≠ .cleanAll)
      Linked.init ?_ ?_
    · intro p a p' h ⟨hfresh, hpieced, ha⟩ hstep
      exact h.step hfresh hpieced ha hstep
    · intro m hm
      exact ⟨fresh m hm, pieced m hm, uncleaned m hm⟩
  exact linked.refine

/-- After two turns, the second of them split into two pieces. -/
theorem chains_refine_splitTurn :
    ∃ p : Proxy, ChainsRefine p.store.interactions ∧
      (walkUpstreamChain p.store.interactions "c").map (List.map UpstreamInteractionNode.id) =
        some ["c", "b", "a"] := by
  have r1 := run_secondAsked.step (Step.startSystem "s" 0 0 2 (List.mem_cons_self ..))
  have r2 := r1.step (Step.markStarted 0 0 [] (List.mem_cons_self ..) rfl (by decide))
  have r3 := r2.step (Step.ack 0 0 "b" (List.mem_cons_self ..) rfl)
  have r4 := r3.step (Step.markStarted 0 0 [] (List.mem_cons_self ..) rfl (by decide))
  have r5 := r4.step (Step.ack 0 0 "c" (List.mem_cons_self ..) rfl)
  have r6 := r5.step (Step.complete 0 (List.mem_cons_self ..) rfl rfl)
  refine ⟨_, chains_refine r6 ?_ ?_ ?_, ?_⟩
  · simp [Fresh, Proxy.secondAsked, Proxy.firstTurn, Proxy.committed, Proxy.lookedUp,
      Proxy.begun, Proxy.marked, Proxy.acked, Proxy.init]
  · simp [Pieced, newSend]
  · simp
  · rfl

end InfSplitter.Traffic
