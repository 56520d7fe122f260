import InfSplitter.Persistence.Document
import InfSplitter.Session.Agreement

/-!
# What a saved store loads as

A store can be saved exactly when every 64-bit number in it is at most `i64::MAX`
(`saveToDisk_iff`), and a saved store loads with the same four maps (`loadFromDisk_saveToDisk`).

The indexes are another matter. The hash index comes back complete. The child index has one slot for
each parent; while the program runs it holds the child inserted last, after a restart the child the
map's iterator yields last. `Linked` is the condition on a store under which that is the same: the
slot of a stored node holds a stored node exactly if that one continues it, so a node has at most
one stored child. `linked_iff` says that it is necessary too, if the links are to come back from
every order.
-/

set_option autoImplicit false

namespace InfSplitter.Persistence

open Lib Lib.Toml Session

/-! ## What can be saved -/

/-- An unsigned 64-bit value that TOML can hold. -/
def InRange (n : UInt64) : Prop := n.toNat ≤ i64Max

instance (n : UInt64) : Decidable (InRange n) := inferInstanceAs (Decidable (_ ≤ _))

def StorableSession (s : SessionInfo) : Prop := InRange s.lastSeenUtc ∧ InRange s.expiresAtUtc

def StorableClient (c : ClientInteractionNode) : Prop :=
  (∀ h ∈ c.messageHashes, InRange h) ∧ (∀ h ∈ c.systemInstructionHash, InRange h) ∧
    InRange c.lastSeenUtc

def StorableUpstream (u : UpstreamInteractionNode) : Prop :=
  InRange u.lastSeenUtc ∧ InRange u.expiresAtUtc

def StorablePiece (p : InFlightPiece) : Prop := p.index ≤ i64Max ∧ InRange p.contentHash

def StorableBatch (b : InFlightBatch) : Prop :=
  (∀ h ∈ b.messageHashes, InRange h) ∧ (∀ h ∈ b.systemInstructionHash, InRange h) ∧
    (∀ p ∈ b.pieces, StorablePiece p) ∧ InRange b.createdUtc ∧ InRange b.updatedUtc

/-- Every value of the map has the property. -/
def All {V : Type} (P : V → Prop) (m : StrMap V) : Prop := ∀ ⦃k v⦄, m.lookup k = some v → P v

structure Storable (s : StoreV2) : Prop where
  sessions : All StorableSession s.sessions
  clients : All StorableClient s.interactions.clients
  upstreams : All StorableUpstream s.interactions.upstreams
  inFlight : All StorableBatch s.inFlight

theorem all_iff_entries {V : Type} {P : V → Prop} {m : StrMap V} :
    All P m ↔ ∀ e ∈ m.entries, P e.2 := by
  constructor
  · intro h e he
    exact h (AList.mem_lookup_iff.mpr he)
  · intro h k v hv
    exact h ⟨k, v⟩ (AList.mem_lookup_iff.mp hv)

theorem accepts_session {s : SessionInfo} : sessionInfoCodec.Accepts s ↔ StorableSession s := by
  simp [sessionInfoCodec, StorableSession, InRange]

theorem accepts_client {c : ClientInteractionNode} :
    clientNodeCodec.Accepts c ↔ StorableClient c := by
  simp [clientNodeCodec, StorableClient, InRange]

theorem accepts_upstream {u : UpstreamInteractionNode} :
    upstreamNodeCodec.Accepts u ↔ StorableUpstream u := by
  simp [upstreamNodeCodec, StorableUpstream, InRange]

/-- No status is refused: it holds texts only. -/
@[simp] theorem accepts_status (status : InFlightStatus) :
    inFlightStatusCodec.Accepts status := by
  cases status <;> rfl

theorem accepts_piece {p : InFlightPiece} : inFlightPieceCodec.Accepts p ↔ StorablePiece p := by
  simp [inFlightPieceCodec, StorablePiece, InRange]

theorem accepts_batch {b : InFlightBatch} : inFlightBatchCodec.Accepts b ↔ StorableBatch b := by
  simp [inFlightBatchCodec, StorableBatch, InRange, accepts_piece]

theorem accepts_document {s : StoreV2} :
    storeDocumentV2Codec.Accepts (documentOf s) ↔ Storable s := by
  have h : storeDocumentV2Codec.Accepts (documentOf s) ↔
      All StorableSession s.sessions ∧
        (All StorableClient s.interactions.clients ∧
          All StorableUpstream s.interactions.upstreams) ∧ All StorableBatch s.inFlight := by
    simp only [storeDocumentV2Codec, interactionsSectionCodec, documentOf, accepts_record,
      accepts_and, accepts_required, accepts_uint32, accepts_defaulted, accepts_stringMap,
      accepts_session, accepts_client, accepts_upstream, accepts_batch, all_iff_entries, true_and]
  rw [h]
  exact ⟨fun h => ⟨h.1, h.2.1.1, h.2.1.2, h.2.2⟩,
    fun h => ⟨h.sessions, ⟨h.clients, h.upstreams⟩, h.inFlight⟩⟩

/-- **A store can be saved exactly if TOML can hold its numbers.** -/
theorem saveToDisk_iff {s : StoreV2} : (∃ file, saveToDisk s = .ok file) ↔ Storable s := by
  rw [← accepts_document]
  unfold saveToDisk Codec.Accepts
  cases storeDocumentV2Codec.encode (documentOf s) <;> simp

/-! ## What comes back -/

theorem versionOf_encode {doc : StoreDocumentV2} {content : Toml}
    (h : storeDocumentV2Codec.encode doc = some content) :
    versionOf content = some (doc.version.toNat : Int) := by
  obtain ⟨es, hes, rfl⟩ := Option.map_eq_some_iff.mp h
  obtain ⟨xs, hx, hxs⟩ := Option.bind_eq_some_iff.mp hes
  obtain ⟨ys, _, rfl⟩ := Option.map_eq_some_iff.mp hxs
  obtain ⟨t, ht, rfl⟩ := Option.map_eq_some_iff.mp hx
  have hv : Codec.uint32.encode doc.version = some (.integer doc.version.toNat) :=
    encode_unsigned (accepts_unsigned.mp (accepts_uint32 _))
  have htv : t = .integer doc.version.toNat := Option.some.inj (ht.symm.trans hv)
  rw [htv]
  rfl

/-- **The four maps come back as they were saved.** -/
theorem loadFromDisk_saveToDisk {s : StoreV2} {file : File} (h : saveToDisk s = .ok file)
    (order : StrMap ClientInteractionNode → List ClientInteractionNode) :
    loadFromDisk order file =
      .ok
        { sessions := s.sessions
          interactions := rebuild (order s.interactions.clients)
            { clients := s.interactions.clients, upstreams := s.interactions.upstreams }
          inFlight := s.inFlight } := by
  unfold saveToDisk at h
  cases hc : storeDocumentV2Codec.encode (documentOf s) with
  | none =>
    rw [hc] at h
    exact absurd h (by simp)
  | some content =>
    rw [hc] at h
    rw [← Except.ok.inj h]
    have hversion : versionOf content = some 2 := versionOf_encode hc
    unfold loadFromDisk
    simp only [hversion, storeDocumentV2Codec.decode_encode hc]
    rfl

/-! ## The rebuilt indexes -/

/-- `order` lists the values of every map, each once. -/
def IterationOrder (order : StrMap ClientInteractionNode → List ClientInteractionNode) : Prop :=
  ∀ m, (order m).Perm m.values

theorem foldl_indexNode_upstreams (nodes : List ClientInteractionNode)
    (store : InteractionStore) : (nodes.foldl indexNode store).upstreams = store.upstreams := by
  induction nodes generalizing store with
  | nil => rfl
  | cons node rest ih => exact ih (indexNode store node)

theorem mem_foldl_indexNode {nodes : List ClientInteractionNode} {store : InteractionStore}
    {h : UInt64} {pos : ClientInteractionPosition} :
    pos ∈ (nodes.foldl indexNode store).hashIndex.get h ↔
      pos ∈ store.hashIndex.get h ∨
        ∃ node ∈ nodes, (h, pos) ∈ InteractionStore.positionsOf node := by
  induction nodes generalizing store with
  | nil => simp
  | cons node rest ih =>
    rw [List.foldl_cons, ih]
    unfold indexNode
    rw [MultiMap.mem_get_pushAll, List.exists_mem_cons_iff, or_assoc]

/-- The slot of a parent goes to the child that comes last. -/
theorem foldl_indexNode_prevToClient (nodes : List ClientInteractionNode)
    (store : InteractionStore) (p : String) :
    (nodes.foldl indexNode store).prevToClient.lookup p =
      ((nodes.filter fun node => node.prevId = some p).getLast?.map
        ClientInteractionNode.id).or (store.prevToClient.lookup p) := by
  induction nodes generalizing store with
  | nil => simp
  | cons node rest ih =>
    have hslot : (indexNode store node).prevToClient.lookup p =
        if node.prevId = some p then some node.id else store.prevToClient.lookup p :=
      InteractionStore.insertClient_prevToClient_lookup store node p
    rw [List.foldl_cons, ih, hslot]
    by_cases hp : node.prevId = some p
    · rw [if_pos hp, List.filter_cons_of_pos (by simpa using hp), List.getLast?_cons]
      cases (rest.filter fun node => node.prevId = some p).getLast? <;> simp
    · rw [if_neg hp, List.filter_cons_of_neg (by simpa using hp)]

variable {store : InteractionStore} {nodes : List ClientInteractionNode}

/-- The interaction store a file with the nodes and calls of `store` loads as. -/
def restored (store : InteractionStore) (nodes : List ClientInteractionNode) :
    InteractionStore :=
  rebuild nodes { clients := store.clients, upstreams := store.upstreams }

theorem restored_slot (p : String) :
    (restored store nodes).prevToClient.lookup p =
      (nodes.filter fun node => node.prevId = some p).getLast?.map ClientInteractionNode.id := by
  have := foldl_indexNode_prevToClient nodes
    { clients := ∅, upstreams := store.upstreams, hashIndex := ∅, upstreamToClients := ∅,
      prevToClient := ∅ } p
  rw [AList.lookup_empty, Option.or_none] at this
  exact this

theorem mem_values_iff_stored (ix : store.Indexed) {c : ClientInteractionNode} :
    c ∈ store.clients.values ↔ store.Stored c := by
  rw [StrMap.mem_values]
  constructor
  · intro ⟨k, hk⟩
    exact ix.stored hk
  · intro hc
    exact ⟨c.id, hc⟩

/-- **The rebuilt index misses nothing.** -/
theorem restored_indexed (ix : store.Indexed) (hperm : nodes.Perm store.clients.values) :
    (restored store nodes).Indexed where
  keyed hc := ix.keyed hc
  indexed {c i h} hc hx := by
    apply mem_foldl_indexNode.mpr
    refine Or.inr ⟨c, hperm.mem_iff.mpr ((mem_values_iff_stored ix).mpr hc), ?_⟩
    exact InteractionStore.mem_positionsOf.mpr ⟨rfl, hx⟩

/-! ## Linked stores -/

/-- The slot of a stored node holds a stored node exactly if that one continues it. -/
structure Linked (store : InteractionStore) : Prop extends store.Indexed where
  slot : ∀ {a c : ClientInteractionNode}, store.Stored a → store.Stored c →
    (store.prevToClient.lookup a.id = some c.id ↔ c.prevId = some a.id)

/-- On a linked store the child links are read off the client nodes. -/
theorem Linked.nextNode_iff (h : Linked store) {a c : ClientInteractionNode}
    (ha : store.Stored a) : nextNode store a = some c ↔ store.Stored c ∧ c.prevId = some a.id := by
  unfold nextNode nextInChain
  rw [Option.bind_eq_some_iff]
  constructor
  · intro ⟨k, hk, hc⟩
    have hst := h.stored hc
    rw [← h.keyed hc] at hk
    exact ⟨hst, (h.slot ha hst).mp hk⟩
  · intro ⟨hst, hp⟩
    exact ⟨c.id, (h.slot ha hst).mpr hp, hst⟩

theorem Linked.sameGraph {store' : InteractionStore} (h : Linked store) (h' : Linked store')
    (clients : store'.clients = store.clients) : SameGraph store store' where
  clients := clients
  next {c} hc := by
    have hst : ∀ {d}, store'.Stored d ↔ store.Stored d := by
      intro d
      unfold InteractionStore.Stored
      rw [clients]
    apply Option.ext
    intro d
    rw [h.nextNode_iff hc, h'.nextNode_iff (hst.mpr hc), hst]

/-- The links of a linked store come back, whatever the order. -/
theorem Linked.restored (h : Linked store) (hperm : nodes.Perm store.clients.values) :
    Linked (restored store nodes) where
  toIndexed := restored_indexed h.toIndexed hperm
  slot {a c} ha hc := by
    have hmem : ∀ {d}, d ∈ nodes.filter (fun node => node.prevId = some a.id) ↔
        store.Stored d ∧ d.prevId = some a.id := by
      intro d
      rw [List.mem_filter, hperm.mem_iff, mem_values_iff_stored h.toIndexed, decide_eq_true_iff]
    rw [restored_slot, Option.map_eq_some_iff]
    constructor
    · intro ⟨d, hd, hid⟩
      obtain ⟨hst, hp⟩ := hmem.mp (List.mem_of_getLast? hd)
      unfold InteractionStore.Stored at hst
      rw [hid, show store.clients.lookup c.id = some c from hc, Option.some.injEq] at hst
      rw [hst]
      exact hp
    · intro hp
      have hin := hmem.mpr ⟨hc, hp⟩
      cases hlast : (nodes.filter fun node => node.prevId = some a.id).getLast? with
      | none =>
        rw [List.getLast?_eq_none_iff.mp hlast] at hin
        exact absurd hin List.not_mem_nil
      | some d =>
        refine ⟨d, rfl, ?_⟩
        -- both continue `a`, and the slot of `a` holds one id
        obtain ⟨hst, hpd⟩ := hmem.mp (List.mem_of_getLast? hlast)
        have hcslot := (h.slot ha hc).mpr hp
        rw [(h.slot ha hst).mpr hpd] at hcslot
        exact Option.some.inj hcslot

/-- **The links come back from every order exactly on a linked store.** -/
theorem linked_iff (ix : store.Indexed) :
    Linked store ↔
      ∀ nodes, nodes.Perm store.clients.values → SameGraph store (restored store nodes) := by
  constructor
  · intro h nodes hperm
    exact h.sameGraph (h.restored hperm) rfl
  · intro h
    refine ⟨ix, fun {a c} ha hc => ?_⟩
    have hnext : ∀ {d}, store.Stored d →
        (nextNode store a = some d ↔ store.prevToClient.lookup a.id = some d.id) := by
      intro d hd
      unfold nextNode nextInChain
      rw [Option.bind_eq_some_iff]
      constructor
      · intro ⟨k, hk, hkd⟩
        rw [ix.keyed hkd]
        exact hk
      · intro hk
        exact ⟨d.id, hk, hd⟩
    rw [← hnext hc]
    constructor
    · intro hn
      rw [← (h _ (List.Perm.refl _)).next ha] at hn
      obtain ⟨k, hk, hkc⟩ := Option.bind_eq_some_iff.mp hn
      unfold nextInChain at hk
      rw [restored_slot, Option.map_eq_some_iff] at hk
      obtain ⟨d, hd, rfl⟩ := hk
      obtain ⟨hmem, hp⟩ := List.mem_filter.mp (List.mem_of_getLast? hd)
      have hst : store.Stored d := (mem_values_iff_stored ix).mp hmem
      have hdc : d = c := Option.some.inj (hst.symm.trans hkc)
      rw [← hdc]
      exact of_decide_eq_true hp
    · intro hp
      -- the order that yields `c` last
      have hin := (mem_values_iff_stored ix).mpr hc
      have hperm : (store.clients.values.erase c ++ [c]).Perm store.clients.values :=
        (List.perm_append_singleton c _).trans (List.perm_cons_erase hin).symm
      rw [← (h _ hperm).next ha]
      unfold nextNode nextInChain
      rw [restored_slot, List.filter_append, List.filter_cons_of_pos (by simpa using hp),
        List.filter_nil, List.getLast?_append]
      exact hc

end InfSplitter.Persistence
