import InfSplitter.Session.Model

/-!
# Operations on the interaction store

`InteractionStore`'s methods, and what each does to the lookups the rest of the development reads
the store by. Nothing here unfolds an `AList` twice: the `_lookup` and `_get` lemmas are the
interface.
-/

set_option autoImplicit false

namespace InfSplitter.Session

open Lib

namespace InteractionStore

def insertUpstream (store : InteractionStore) (node : UpstreamInteractionNode) :
    InteractionStore :=
  { store with upstreams := store.upstreams.insert node.id node }

/-- `touch_upstream_on_replay`, reading the clock as `now`. -/
def touchUpstreamOnReplay (store : InteractionStore) (upstreamId : String) (now : UInt64) :
    InteractionStore :=
  match store.upstreams.lookup upstreamId with
  | some node =>
    { store with upstreams := store.upstreams.insert upstreamId { node with lastSeenUtc := now } }
  | none => store

/-- The index entries of one node: every hash with its position. -/
def positionsOf (node : ClientInteractionNode) : List (UInt64 × ClientInteractionPosition) :=
  node.messageHashes.zipIdx.map fun hi => (hi.1, { clientId := node.id, messageIndex := hi.2 })

def insertClient (store : InteractionStore) (node : ClientInteractionNode) : InteractionStore :=
  { store with
    hashIndex := store.hashIndex.pushAll (positionsOf node)
    upstreamToClients := store.upstreamToClients.pushAll (node.upstreamIds.map (·, node.id))
    prevToClient :=
      match node.prevId with
      | some prevId => store.prevToClient.insert prevId node.id
      | none => store.prevToClient
    clients := store.clients.insert node.id node }

def getClient (store : InteractionStore) (id : String) : Option ClientInteractionNode :=
  store.clients.lookup id

def lookupHash (store : InteractionStore) (hash : UInt64) : List ClientInteractionPosition :=
  store.hashIndex.get hash

section
variable (store : InteractionStore)

@[simp] theorem insertClient_clients (node : ClientInteractionNode) :
    (store.insertClient node).clients = store.clients.insert node.id node := rfl

theorem insertClient_lookup (node : ClientInteractionNode) (k : String) :
    (store.insertClient node).clients.lookup k =
      if k = node.id then some node else store.clients.lookup k := by
  rw [insertClient_clients]
  by_cases h : k = node.id
  · rw [if_pos h, h, AList.lookup_insert]
  · rw [if_neg h, AList.lookup_insert_ne h]

/-- Every node stays under its own id. -/
theorem insertClient_keyed {node : ClientInteractionNode}
    (keyed : ∀ {k : String} {c : ClientInteractionNode},
      store.clients.lookup k = some c → c.id = k)
    {k : String} {c : ClientInteractionNode}
    (hc : (store.insertClient node).clients.lookup k = some c) : c.id = k := by
  rw [insertClient_lookup] at hc
  by_cases hk : k = node.id
  · rw [if_pos hk, Option.some.injEq] at hc
    rw [hk, hc]
  · rw [if_neg hk] at hc
    exact keyed hc

theorem insertClient_prevToClient_lookup (node : ClientInteractionNode) (p : String) :
    (store.insertClient node).prevToClient.lookup p =
      if node.prevId = some p then some node.id else store.prevToClient.lookup p := by
  unfold insertClient
  cases hp : node.prevId with
  | none => simp
  | some q =>
    by_cases h : p = q
    · subst h
      simp [AList.lookup_insert]
    · simp [AList.lookup_insert_ne h, Ne.symm h]

theorem mem_positionsOf {node : ClientInteractionNode} {h : UInt64}
    {pos : ClientInteractionPosition} :
    (h, pos) ∈ positionsOf node ↔
      pos.clientId = node.id ∧ node.messageHashes[pos.messageIndex]? = some h := by
  unfold positionsOf
  rw [List.mem_map]
  constructor
  · intro ⟨⟨h', i⟩, hmem, heq⟩
    have hget := List.mk_mem_zipIdx_iff_getElem?.mp hmem
    simp only [Prod.mk.injEq] at heq
    obtain ⟨rfl, rfl⟩ := heq
    exact ⟨rfl, hget⟩
  · intro ⟨hid, hget⟩
    refine ⟨(h, pos.messageIndex), List.mk_mem_zipIdx_iff_getElem?.mpr hget, ?_⟩
    rw [← hid]

/-- What the index lists for a hash after an insert: what it listed, and the new node's
positions of that hash. -/
theorem mem_insertClient_lookupHash {node : ClientInteractionNode} {h : UInt64}
    {pos : ClientInteractionPosition} :
    pos ∈ (store.insertClient node).lookupHash h ↔
      pos ∈ store.lookupHash h ∨
        (pos.clientId = node.id ∧ node.messageHashes[pos.messageIndex]? = some h) := by
  unfold lookupHash insertClient
  rw [MultiMap.mem_get_pushAll, mem_positionsOf]

end

end InteractionStore

end InfSplitter.Session
