import InfSplitter.Lib.MultiMap

/-!
# The session state

The data of `session.rs`. A `HashMap<String, V>` is a `StrMap V`, an association list with distinct
keys: lookups, inserts and removals are Rust's, and where the code walks over a map's values the
order it meets them in is a parameter of the modelled function, never the order of the list here.

Two graphs share the store. The *upstream* nodes are the calls that were really made, one per HTTP
exchange; the *client* nodes are the turns the client sees, one per completed request, each backed
by one upstream node or, after a split send, by several. Both point backwards through `prevId`. The
three maps after them are indexes over the client nodes.

`u64` values are `UInt64`, `usize` values are `Nat`.
-/

set_option autoImplicit false

namespace InfSplitter.Session

open Lib

/-- `HashMap<String, V>`. -/
abbrev StrMap (V : Type) := AList fun _ : String => V

/-- The values of a map. -/
def StrMap.values {V : Type} (m : StrMap V) : List V := m.entries.map Sigma.snd

theorem StrMap.mem_values {V : Type} {m : StrMap V} {v : V} :
    v ∈ m.values ↔ ∃ k, m.lookup k = some v := by
  unfold StrMap.values
  rw [List.mem_map]
  constructor
  · rintro ⟨⟨k, v'⟩, hmem, rfl⟩
    exact ⟨k, AList.mem_lookup_iff.mpr hmem⟩
  · intro ⟨k, hk⟩
    exact ⟨⟨k, v⟩, AList.mem_lookup_iff.mp hk, rfl⟩

/-- An entry after an insert is the new one or an old one under another key. -/
theorem lookup_insert_cases {V : Type} {m : StrMap V} {k id : String} {v v' : V}
    (h : (m.insert id v).lookup k = some v') : k = id ∧ v' = v ∨ k ≠ id ∧ m.lookup k = some v' := by
  by_cases hk : k = id
  · subst hk
    rw [AList.lookup_insert, Option.some.injEq] at h
    exact Or.inl ⟨rfl, h.symm⟩
  · rw [AList.lookup_insert_ne hk] at h
    exact Or.inr ⟨hk, h⟩

theorem lookup_erase_some {V : Type} {m : StrMap V} {k id : String} {v : V}
    (h : (m.erase id).lookup k = some v) : k ≠ id ∧ m.lookup k = some v := by
  by_cases hk : k = id
  · subst hk
    rw [AList.lookup_erase] at h
    simp at h
  · rw [AList.lookup_erase_ne hk] at h
    exact ⟨hk, h⟩

/-- 12 hours. -/
def defaultSessionTtlSecs : UInt64 := 12 * 60 * 60

/-- Metadata about a client session. It does not drive the routing frontier. -/
structure SessionInfo where
  clientSessionId : String
  lastInteractionId : Option String
  lastSeenUtc : UInt64
  expiresAtUtc : UInt64
deriving DecidableEq, Repr

/-- A turn the client sees. Its id is the last of its upstream ids; its hashes are those of the
whole history the request carried. -/
structure ClientInteractionNode where
  id : String
  prevId : Option String
  messageHashes : List UInt64
  -- `none` for every node that continues another one
  systemInstructionHash : Option UInt64
  upstreamIds : List String
  lastSeenUtc : UInt64
deriving DecidableEq, Repr

/-- One upstream call. -/
structure UpstreamInteractionNode where
  id : String
  prevId : Option String
  clientId : String
  lastSeenUtc : UInt64
  expiresAtUtc : UInt64
deriving DecidableEq, Repr

/-- How far one piece of a split send has come. -/
inductive InFlightStatus
  | pending
  | responseStarted
  | sent (interactionId : String)
  | acked (interactionId : String)
  | failed (error : String)
deriving DecidableEq, Repr

structure InFlightPiece where
  index : Nat
  contentHash : UInt64
  requestBody : List UInt8
  status : InFlightStatus
deriving DecidableEq, Repr

/-- A split send in progress. -/
structure InFlightBatch where
  id : String
  sessionId : String
  prevInteractionId : Option String
  messageHashes : List UInt64
  systemInstructionHash : Option UInt64
  pieces : List InFlightPiece
  createdUtc : UInt64
  updatedUtc : UInt64
deriving DecidableEq, Repr

/-- Where in a client node a hash stands. -/
structure ClientInteractionPosition where
  clientId : String
  messageIndex : Nat
deriving DecidableEq, Repr

structure InteractionStore where
  clients : StrMap ClientInteractionNode
  upstreams : StrMap UpstreamInteractionNode
  -- message hash → positions
  hashIndex : MultiMap UInt64 ClientInteractionPosition
  -- upstream id → ids of the client nodes it backs
  upstreamToClients : MultiMap String String
  -- previous id → child, one slot
  prevToClient : StrMap String

/-- Result of frontier selection. -/
structure Frontier where
  index : Nat
  previousInteractionId : Option String
  allKnown : Bool
  matchedClientId : Option String
deriving DecidableEq, Repr

structure StoreV2 where
  sessions : StrMap SessionInfo
  interactions : InteractionStore
  inFlight : StrMap InFlightBatch

def InteractionStore.new : InteractionStore :=
  { clients := ∅, upstreams := ∅, hashIndex := ∅, upstreamToClients := ∅, prevToClient := ∅ }

def StoreV2.new : StoreV2 :=
  { sessions := ∅, interactions := InteractionStore.new, inFlight := ∅ }

end InfSplitter.Session
