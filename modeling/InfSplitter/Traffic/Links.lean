import InfSplitter.Traffic.Chains

/-!
# Links of the client chains

A request that continues a conversation holds on to the previous id its lookup found, and its node
is inserted under another lock, after the upstream has answered. A clean-all between the two takes
the parent away. `links_never_dangle_iff` says that this is the only way to a link that leads
nowhere. Nothing is assumed about the ids the upstream gives out.
-/

set_option autoImplicit false

namespace InfSplitter.Traffic

open Lib Session Routing SplitSend

/-- The id is stored, if there is one. -/
def LinkStored (store : InteractionStore) (prevId : Option String) : Prop :=
  ∀ q, prevId = some q → (store.clients.lookup q).isSome = true

/-- Every client node starts a chain, or continues a stored one. -/
def NoDangling (store : InteractionStore) : Prop :=
  ∀ k c, store.clients.lookup k = some c → LinkStored store c.prevId

/-- A node is inserted next to its parent. -/
def ParentStored (p : Proxy) (a : Event) : Prop :=
  ∀ node, Inserts p a node → ∀ q, node.prevId = some q →
    (p.store.interactions.clients.lookup q).isSome = true ∨ q = node.id

/-- Clean-all finds no request that continues a chain between its lookup and its insert, or its
batch. -/
def CleansBetween (p : Proxy) (a : Event) : Prop :=
  a = .cleanAll → ∀ x ∈ p.asking, x.prevId = none

/-! ## One event -/

theorem Inserts.same_link {p : Proxy} {a : Event} {node node' : ClientInteractionNode}
    (h : Inserts p a node) (h' : Inserts p a node') :
    node'.prevId = node.prevId ∧ node'.id = node.id := by
  cases h with
  | commit => cases h' with
    | commit => exact ⟨rfl, rfl⟩
  | complete own => cases h' with
    | complete own' =>
      cases own.symm.trans own'
      exact ⟨rfl, rfl⟩

section
variable {store store' : InteractionStore}

theorem NoDangling.congr (h : NoDangling store) (same : SameChains store store') :
    NoDangling store' := by
  intro k c hc q hq
  rw [same.clients] at hc ⊢
  exact h k c hc q hq

/-- What is stored after an insert. -/
theorem isSome_insertClient {node : ClientInteractionNode} {q : String} :
    ((store.insertClient node).clients.lookup q).isSome = true ↔
      (store.clients.lookup q).isSome = true ∨ q = node.id := by
  rw [InteractionStore.insertClient_lookup]
  by_cases hq : q = node.id
  · simp [hq]
  · simp [hq]

theorem noDangling_insertClient (h : NoDangling store) (node : ClientInteractionNode) :
    NoDangling (store.insertClient node) ↔
      ∀ q, node.prevId = some q →
        (store.clients.lookup q).isSome = true ∨ q = node.id := by
  constructor
  · intro h' q hq
    have hnode : (store.insertClient node).clients.lookup node.id = some node := by
      rw [InteractionStore.insertClient_lookup, if_pos rfl]
    exact isSome_insertClient.mp (h' node.id node hnode q hq)
  · intro hnode k c hc q hq
    apply isSome_insertClient.mpr
    rw [InteractionStore.insertClient_lookup] at hc
    by_cases hk : k = node.id
    · rw [if_pos hk, Option.some.injEq] at hc
      subst hc
      exact hnode q hq
    · rw [if_neg hk] at hc
      exact Or.inl (h k c hc q hq)

/-- A stamp stores the same ids. -/
theorem isSome_touchClient (id : String) (now : UInt64) (q : String) :
    ((StoreV2.touchClient store id now).clients.lookup q).isSome = true ↔
      (store.clients.lookup q).isSome = true := by
  rw [touchClient_clients, Option.isSome_map]

theorem NoDangling.touchClient (h : NoDangling store) (id : String) (now : UInt64) :
    NoDangling (StoreV2.touchClient store id now) := by
  intro k c hc q hq
  obtain ⟨c0, hc0, _, hprev, _⟩ := touchClient_lookup hc
  apply (isSome_touchClient id now q).mpr
  exact h k c0 hc0 q (hprev ▸ hq)

end

theorem NoDangling.cleanAll (s : StoreV2) : NoDangling s.cleanAll.interactions := by
  intro k c hc
  simp [StoreV2.cleanAll] at hc

/-- An event keeps the links exactly where its node is inserted next to its parent. -/
theorem noDangling_step {p p' : Proxy} {a : Event} (h : NoDangling p.store.interactions)
    (hstep : Step p a p') : NoDangling p'.store.interactions ↔ ParentStored p a := by
  cases chain_change hstep with
  | same same none => exact iff_of_true (h.congr same) fun node hn => absurd hn (none node)
  | touched id now heq none =>
    exact iff_of_true (heq ▸ h.touchClient id now) fun node hn => absurd hn (none node)
  | cleaned ha heq =>
    subst ha
    refine iff_of_true (heq ▸ NoDangling.cleanAll p.store) fun node hn => ?_
    cases hn
  | @inserted node inserts same =>
    have hiff : NoDangling p'.store.interactions ↔
        NoDangling (p.store.interactions.insertClient node) :=
      ⟨fun h' => h'.congr same.symm, fun h' => h'.congr same⟩
    rw [hiff, noDangling_insertClient h]
    constructor
    · intro hnode node' inserts' q hq
      obtain ⟨hprev, hid⟩ := inserts.same_link inserts'
      rw [hid]
      exact hnode q (hprev ▸ hq)
    · intro hparent q hq
      exact hparent node inserts q hq

/-! ## Where a previous id comes from -/

/-- A lookup without a system hash takes its previous id from the nodes that are stored. -/
theorem findFrontier_previous {store : InteractionStore} (ix : store.Indexed)
    {hashes : List UInt64} {frontier : Frontier}
    (found : findFrontier store hashes none none = some frontier) {q : String}
    (hq : frontier.previousInteractionId = some q) :
    ∃ c, store.Stored c ∧ (c.id = q ∨ c.prevId = some q) := by
  cases hashes with
  | nil =>
    cases found
    cases hq
  | cons h0 hs =>
    have answers : ∀ pos ∈ store.lookupHash h0,
        ∃ r, assess store (h0 :: hs) none none pos = some r :=
      fun pos _ => assess_isSome_of (fun _ _ => ⟨true, rfl⟩) _ _
    unfold findFrontier at found
    simp only [searchBest_eq answers, Option.bind_some, foldl_keepBest] at found
    generalize hl : (store.lookupHash h0).filterMap _ = l at found
    cases hb : l.argmax fun b => preference b.reading with
    | none =>
      rw [hb] at found
      cases found
      cases hq
    | some b =>
      rw [hb] at found
      have hmem := List.argmax_mem (Option.mem_def.mpr hb)
      obtain ⟨c, i, hc, hread, _⟩ := mem_assessed ix.keyed (by simp) none none (hl ▸ hmem)
      have hstored : store.Stored b.node := by
        have := hc.stored_stop ix.keyed
        rw [← hread] at this
        exact this
      refine ⟨b.node, hstored, ?_⟩
      simp only [frontierOf] at found
      split at found
      · cases found
        exact Or.inr hq
      · split at found
        · cases found
          cases hq
        · obtain ⟨ended, _, rfl⟩ := Option.map_eq_some_iff.mp found
          cases ended with
          | true => exact Or.inl (Option.some.inj hq)
          | false => exact Or.inr hq

/-! ## Every run -/

/-- Requests under way hold on to stored ids, and so do batches. -/
structure LinksStored (p : Proxy) : Prop where
  nodes : NoDangling p.store.interactions
  asking : ∀ x ∈ p.asking, LinkStored p.store.interactions x.prevId
  batches : ∀ k batch, p.store.inFlight.lookup k = some batch →
    LinkStored p.store.interactions batch.prevInteractionId

/-- An event that is no clean-all leaves every id stored. -/
theorem isSome_of_step {p p' : Proxy} {a : Event} (hstep : Step p a p') (ha : a ≠ .cleanAll)
    {q : String} (hq : (p.store.interactions.clients.lookup q).isSome = true) :
    (p'.store.interactions.clients.lookup q).isSome = true := by
  cases chain_change hstep with
  | same same => rwa [same.clients]
  | inserted _ same =>
    rw [same.clients]
    exact isSome_insertClient.mpr (Or.inl hq)
  | touched id now heq =>
    rw [heq]
    exact (isSome_touchClient id now q).mpr hq
  | cleaned hclean => exact absurd hclean ha

namespace LinksStored

theorem init : LinksStored Proxy.init where
  nodes k c hc := by simp [Proxy.init, StoreV2.new, InteractionStore.new] at hc
  asking x hx := by simp [Proxy.init] at hx
  batches k batch hb := by simp [Proxy.init, StoreV2.new] at hb

/-- While requests hold on to stored ids, nodes are inserted next to their parents. -/
theorem parentStored {p : Proxy} (h : LinksStored p) (a : Event) : ParentStored p a := by
  intro node inserts q hq
  cases inserts with
  | commit now mem => exact Or.inl (h.asking _ mem q hq)
  | complete own all => exact Or.inl (h.batches _ _ own q hq)

theorem step {p p' : Proxy} {a : Event} (h : LinksStored p) (ix : p.store.interactions.Indexed)
    (between : CleansBetween p a) (hstep : Step p a p') : LinksStored p' := by
  have nodes : NoDangling p'.store.interactions :=
    (noDangling_step h.nodes hstep).mpr (h.parentStored a)
  by_cases ha : a = .cleanAll
  · subst ha
    cases hstep
    refine ⟨nodes, ?_, ?_⟩
    · intro x hx q hq
      rw [between rfl x hx] at hq
      cases hq
    · intro k batch hb
      simp [StoreV2.cleanAll] at hb
  · have kept {prevId : Option String} (hstored : LinkStored p.store.interactions prevId) :
        LinkStored p'.store.interactions prevId :=
      fun q hq => isSome_of_step hstep ha (hstored q hq)
    refine ⟨nodes, ?_, ?_⟩
    · intro x hx
      apply kept
      rcases asking_origin hstep hx with hold | ⟨found, _⟩
      · exact h.asking x hold
      · intro q hq
        obtain ⟨c, hc, hid | hprev⟩ := findFrontier_previous ix found hq
        · rw [← hid, show p.store.interactions.clients.lookup c.id = some c from hc]
          rfl
        · exact h.nodes c.id c hc q hprev
    · intro k batch' hb
      apply kept
      cases batch_origin hstep hb with
      | moved old moved =>
        have hprev : batch'.prevInteractionId = _ := congrArg BatchKey.prevInteractionId moved.key
        exact hprev ▸ h.batches _ _ old
      | begun ha mem _ hkey =>
        have hprev : batch'.prevInteractionId = _ := congrArg BatchKey.prevInteractionId hkey
        exact hprev ▸ h.asking _ mem

end LinksStored

/-- **No link ever dangles if and only if every node is inserted while its parent is stored.** That
is so wherever clean-all only comes between the requests that continue a chain. -/
theorem links_never_dangle_iff {moments : List (Proxy × Event)} {p : Proxy}
    (run : traffic.Run moments p) :
    ((NoDangling p.store.interactions ∧ ∀ m ∈ moments, NoDangling m.1.store.interactions) ↔
        ∀ m ∈ moments, ParentStored m.1 m.2) ∧
      ((∀ m ∈ moments, CleansBetween m.1 m.2) → ∀ m ∈ moments, ParentStored m.1 m.2) := by
  refine ⟨run.always_iff (fun p => NoDangling p.store.interactions) ParentStored
    LinksStored.init.nodes fun _ _ _ => noDangling_step, fun between => ?_⟩
  refine run.at_moments (P := fun p => LinksStored p ∧ p.store.interactions.Indexed) CleansBetween
    ParentStored ⟨LinksStored.init, InteractionStore.Indexed.new⟩ ?_ ?_ between
  · intro p a p' h hbetween hstep
    exact ⟨h.1.step h.2 hbetween hstep, indexed_step h.2 hstep⟩
  · intro p a p' h _ _
    exact h.1.parentStored a

/-! ## A clean-all while a request is on its way -/

/-- The first turn, sent in one piece. -/
def Proxy.firstTurn : Proxy :=
  (Proxy.init.lookedUp firstExchange.request firstExchange.frontier).committed firstExchange "a" 0
    "s"

/-- The second turn continues it. -/
def secondExchange : Exchange :=
  { request := { hashes := [1, 2], systemInstructionHash := none }
    frontier := { index := 1, previousInteractionId := some "a", allKnown := false,
                  matchedClientId := none } }

def Proxy.secondAsked : Proxy :=
  Proxy.firstTurn.lookedUp secondExchange.request secondExchange.frontier

theorem run_secondAsked :
    traffic.Run
      [(Proxy.firstTurn, .lookup secondExchange.request),
        (Proxy.init.lookedUp firstExchange.request firstExchange.frontier,
          .commit firstExchange "a"),
        (Proxy.init, .lookup firstExchange.request)] Proxy.secondAsked := by
  have r1 := run_firstAsked.step (Step.commit "a" 0 "s" (List.mem_cons_self ..))
  exact r1.step (Step.lookup (by decide) (by decide))

/-- The parent is gone when the second node is inserted. -/
theorem links_sometimes_dangle :
    ¬ ∀ moments p, traffic.Run moments p → NoDangling p.store.interactions := by
  intro h
  have cleaned := run_secondAsked.step Step.cleanAll
  have dangling := h _ _ (cleaned.step (Step.commit "b" 0 "s" (List.mem_cons_self ..)))
  have gone := dangling "b" (recordedNode 0 "b" (some "a") [1, 2] none) rfl "a" rfl
  exact absurd gone (by decide)

/-- Without the clean-all, nothing dangles. -/
theorem links_never_dangle_iff_secondAsked :
    ∃ moments, traffic.Run moments Proxy.secondAsked ∧
      ((NoDangling Proxy.secondAsked.store.interactions ∧
          ∀ m ∈ moments, NoDangling m.1.store.interactions) ↔
        ∀ m ∈ moments, ParentStored m.1 m.2) ∧
      ((∀ m ∈ moments, CleansBetween m.1 m.2) → ∀ m ∈ moments, ParentStored m.1 m.2) :=
  ⟨_, run_secondAsked, links_never_dangle_iff run_secondAsked⟩

end InfSplitter.Traffic
