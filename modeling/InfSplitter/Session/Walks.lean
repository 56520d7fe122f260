import InfSplitter.Lib.Links
import InfSplitter.Session.Completion
import InfSplitter.Session.Frontier

/-!
# Walking the two chains

`walk_client_chain` and `walk_upstream_chain`, and the links they follow: `clientLink` and
`callLink` give the `prev_id` of an id that is stored. What the operations of the store do to the
two links is said in the terms of `Lib.Links`: an insert updates a link at one id, a batch grows the
links of the calls by its own chain.
-/

set_option autoImplicit false

namespace InfSplitter.Session

open Lib

section
variable (store : InteractionStore)

/-- The call `prev_id` points to, if it is stored. -/
def prevCall (node : UpstreamInteractionNode) : Option UpstreamInteractionNode :=
  node.prevId.bind store.upstreams.lookup

/-- Walk the client chain from leaf to root, inclusive. -/
def walkClientChain (id : String) : Option (List ClientInteractionNode) :=
  match store.clients.lookup id with
  | none => some []
  | some node => trail (prevNode store) (chainFuel store) node

/-- Walk the upstream chain from leaf to root, inclusive. -/
def walkUpstreamChain (id : String) : Option (List UpstreamInteractionNode) :=
  match store.upstreams.lookup id with
  | none => some []
  | some node => trail (prevCall store) (store.upstreams.entries.length + 1) node

def clientLink (id : String) : Option (Option String) :=
  (store.clients.lookup id).map ClientInteractionNode.prevId

def callLink (id : String) : Option (Option String) :=
  (store.upstreams.lookup id).map UpstreamInteractionNode.prevId

end

section
variable {store : InteractionStore}

@[simp] theorem isSome_callLink (id : String) :
    (callLink store id).isSome = (store.upstreams.lookup id).isSome := Option.isSome_map

@[simp] theorem isSome_clientLink (id : String) :
    (clientLink store id).isSome = (store.clients.lookup id).isSome := Option.isSome_map

theorem callLink_eq_none {id : String} :
    callLink store id = none ↔ store.upstreams.lookup id = none := Option.map_eq_none_iff

theorem clientLink_eq_none {id : String} :
    clientLink store id = none ↔ store.clients.lookup id = none := Option.map_eq_none_iff

/-! ## Inserts -/

/-- A value that is replaced by one that looks the same. -/
theorem map_lookup_insert {V W : Type} {m : StrMap V} {id : String} {v v' : V} (look : V → W)
    (hid : m.lookup id = some v) (hlook : look v' = look v) (k : String) :
    ((m.insert id v').lookup k).map look = (m.lookup k).map look := by
  by_cases hk : k = id
  · subst hk
    rw [AList.lookup_insert, hid, Option.map_some, Option.map_some, hlook]
  · rw [AList.lookup_insert_ne hk]

theorem callLink_insertUpstream (store : InteractionStore) (node : UpstreamInteractionNode) :
    callLink (store.insertUpstream node) =
      Function.update (callLink store) node.id (some node.prevId) := by
  funext id
  unfold callLink InteractionStore.insertUpstream
  by_cases hid : id = node.id
  · subst hid
    rw [Function.update_self, AList.lookup_insert, Option.map_some]
  · rw [Function.update_of_ne hid, AList.lookup_insert_ne hid]

theorem clientLink_insertClient (store : InteractionStore) (node : ClientInteractionNode) :
    clientLink (store.insertClient node) =
      Function.update (clientLink store) node.id (some node.prevId) := by
  funext id
  unfold clientLink
  rw [InteractionStore.insertClient_lookup]
  by_cases hid : id = node.id
  · subst hid
    rw [Function.update_self, if_pos rfl, Option.map_some]
  · rw [Function.update_of_ne hid, if_neg hid]

/-- The calls of a batch are inserted in a row. -/
theorem callLink_insertCalls (store : InteractionStore) (batch : InFlightBatch) (now : UInt64)
    (pieces : List InFlightPiece) (prev : Option String) :
    callLink (insertCalls store (pieceNodes batch now pieces prev)) =
      grow (callLink store) prev
        ((pieceNodes batch now pieces prev).map UpstreamInteractionNode.id) := by
  induction pieces generalizing store prev with
  | nil => rfl
  | cons piece rest ih =>
    unfold pieceNodes
    cases hst : piece.status with
    | acked id =>
      simp only [insertCalls_cons, List.map_cons, grow]
      rw [ih, callLink_insertUpstream]
    | _ => rfl

/-! ## The walks -/

/-- The walk over the calls follows their links. -/
theorem walks_callLink (keyed : ∀ {k u}, store.upstreams.lookup k = some u → u.id = k)
    {id : String} {chain : List UpstreamInteractionNode}
    (h : walkUpstreamChain store id = some chain) :
    Walks (callLink store) (some id) (chain.map UpstreamInteractionNode.id) := by
  unfold walkUpstreamChain at h
  cases hid : store.upstreams.lookup id with
  | none =>
    rw [hid] at h
    cases h
    exact .missing (callLink_eq_none.mpr hid)
  | some node =>
    rw [hid] at h
    have hkey := keyed hid
    subst hkey
    exact walks_of_trail keyed hid h

/-- On a forest, one unit of fuel more than there are values is enough. -/
theorem trail_isSome_of_forest {V : Type} {m : StrMap V} {key : V → String}
    {prev : V → Option String} (keyed : ∀ {k v}, m.lookup k = some v → key v = k)
    (forest : Forest fun k => (m.lookup k).map prev) {id : String} {v : V}
    (hid : m.lookup id = some v) :
    ∃ l, trail (fun v => (prev v).bind m.lookup) (m.entries.length + 1) v = some l := by
  obtain ⟨rank, hrank⟩ := forest.ranked
  have hstep : ∀ v w, m.lookup (key v) = some v → (prev v).bind m.lookup = some w →
      m.lookup (key w) = some w ∧ w ∈ m.values ∧ rank (key w) < rank (key v) := by
    intro v w hv hw
    obtain ⟨p, hp, hlookup⟩ := Option.bind_eq_some_iff.mp hw
    have hkey := keyed hlookup
    subst hkey
    refine ⟨hlookup, StrMap.mem_values.mpr ⟨_, hlookup⟩, hrank ?_⟩
    rw [hv, Option.map_some, hp]
  obtain ⟨r, hr⟩ := chase_isSome _ (fun _ => false) (fun v => rank (key v)) m.values hstep
    (keyed hid ▸ hid)
  unfold StrMap.values at hr
  rw [List.length_map] at hr
  exact trail_isSome hr

/-- On forests, both walks end. -/
theorem walkClientChain_isSome (keyed : ∀ {k c}, store.clients.lookup k = some c → c.id = k)
    (forest : Forest (clientLink store)) (id : String) :
    ∃ chain, walkClientChain store id = some chain := by
  unfold walkClientChain
  cases hid : store.clients.lookup id with
  | none => exact ⟨[], rfl⟩
  | some node => exact trail_isSome_of_forest keyed forest hid

theorem walkUpstreamChain_isSome (keyed : ∀ {k u}, store.upstreams.lookup k = some u → u.id = k)
    (forest : Forest (callLink store)) (id : String) :
    ∃ chain, walkUpstreamChain store id = some chain := by
  unfold walkUpstreamChain
  cases hid : store.upstreams.lookup id with
  | none => exact ⟨[], rfl⟩
  | some node => exact trail_isSome_of_forest keyed forest hid

/-! ## One chain over the other -/

/-- Every client node ends with its own call, and its calls are chained behind the node it
continues. -/
def Backed (store : InteractionStore) : Prop :=
  ∀ k c, store.clients.lookup k = some c →
    c.upstreamIds.getLast? = some c.id ∧ InChain (callLink store) c.prevId c.upstreamIds

/-- **The walk over the calls passes the calls of the nodes the walk over the clients passes.** -/
theorem walks_calls (keyed : ∀ {k c}, store.clients.lookup k = some c → c.id = k)
    (closed : ∀ {k p}, clientLink store k = some (some p) → (clientLink store p).isSome = true)
    (backed : Backed store) {fuel : Nat} {node : ClientInteractionNode}
    {chain : List ClientInteractionNode} (hnode : store.clients.lookup node.id = some node)
    (h : trail (prevNode store) fuel node = some chain) :
    Walks (callLink store) (some node.id)
      (chain.flatMap fun c => c.upstreamIds.reverse) := by
  induction fuel generalizing node chain with
  | zero => cases h
  | succ fuel ih =>
    obtain ⟨hlast, hchain⟩ := backed _ _ hnode
    have hwalk {l : List String} (rest : Walks (callLink store) node.prevId l) :
        Walks (callLink store) (some node.id) (node.upstreamIds.reverse ++ l) := by
      have := hchain.walks rest
      rwa [hlast, Option.some_or] at this
    unfold trail at h
    cases hp : node.prevId with
    | none =>
      have hprev : prevNode store node = none := by
        unfold prevNode
        rw [hp, Option.bind_none]
      rw [hprev] at h
      cases h
      exact hwalk (hp ▸ .stop)
    | some p =>
      have hlink : clientLink store node.id = some (some p) := by
        unfold clientLink
        rw [hnode, Option.map_some, hp]
      obtain ⟨parent, hparent⟩ := Option.isSome_iff_exists.mp
        ((isSome_clientLink p).symm.trans (closed hlink))
      have hprev : prevNode store node = some parent := by
        unfold prevNode
        rw [hp, Option.bind_some, hparent]
      rw [hprev] at h
      obtain ⟨rest, hrest, rfl⟩ := Option.map_eq_some_iff.mp h
      have hkey := keyed hparent
      subst hkey
      rw [List.flatMap_cons]
      exact hwalk (hp ▸ ih hparent hrest)

end

end InfSplitter.Session
