import InfSplitter.Lib.Toml
import InfSplitter.Session.Frontier

/-!
# The session file

`save_to_disk` and `load_from_disk`. A file is modelled by the document it holds: the TOML library
prints and parses documents faithfully, and refuses an integer above `i64Max`. What the `derive`d
`Serialize` and `Deserialize` of the records do is spelled out by their codecs, under the field
names of the source.

Only sessions, client nodes, upstream nodes and batches are written. The three indexes are built
again from the client nodes, in the order the map's iterator yields them: the parameter `order`.
-/

set_option autoImplicit false

namespace InfSplitter.Persistence

open Lib Lib.Toml Session

/-! ## The records -/

def sessionInfoCodec : Codec SessionInfo :=
  .record
    ((Fields.required "client_session_id" .string).and
      ((Fields.optional "last_interaction_id" .string).and
        ((Fields.required "last_seen_utc" .uint64).and
          (Fields.required "expires_at_utc" .uint64))))
    (fun (clientSessionId, lastInteractionId, lastSeenUtc, expiresAtUtc) =>
      { clientSessionId, lastInteractionId, lastSeenUtc, expiresAtUtc })
    (fun s => (s.clientSessionId, s.lastInteractionId, s.lastSeenUtc, s.expiresAtUtc))
    (fun _ => rfl)

def clientNodeCodec : Codec ClientInteractionNode :=
  .record
    ((Fields.required "id" .string).and
      ((Fields.optional "prev_id" .string).and
        ((Fields.required "message_hashes" (.list .uint64)).and
          ((Fields.optional "system_instruction_hash" .uint64).and
            ((Fields.required "upstream_ids" (.list .string)).and
              (Fields.required "last_seen_utc" .uint64))))))
    (fun (id, prevId, messageHashes, systemInstructionHash, upstreamIds, lastSeenUtc) =>
      { id, prevId, messageHashes, systemInstructionHash, upstreamIds, lastSeenUtc })
    (fun c => (c.id, c.prevId, c.messageHashes, c.systemInstructionHash, c.upstreamIds,
      c.lastSeenUtc))
    (fun _ => rfl)

def upstreamNodeCodec : Codec UpstreamInteractionNode :=
  .record
    ((Fields.required "id" .string).and
      ((Fields.optional "prev_id" .string).and
        ((Fields.required "client_id" .string).and
          ((Fields.required "last_seen_utc" .uint64).and
            (Fields.required "expires_at_utc" .uint64)))))
    (fun (id, prevId, clientId, lastSeenUtc, expiresAtUtc) =>
      { id, prevId, clientId, lastSeenUtc, expiresAtUtc })
    (fun u => (u.id, u.prevId, u.clientId, u.lastSeenUtc, u.expiresAtUtc))
    (fun _ => rfl)

/-- The fields of a variant with one text. -/
def variantCodec (field : String) : Codec String :=
  .record (.required field .string) id id fun _ => rfl

/-- An externally tagged enum: a bare name, or a table with the variant's name as its key. -/
def inFlightStatusCodec : Codec InFlightStatus where
  encode
    | .pending => some (.string "Pending")
    | .responseStarted => some (.string "ResponseStarted")
    | .sent interactionId =>
      ((variantCodec "interaction_id").encode interactionId).map fun t => .table [("Sent", t)]
    | .acked interactionId =>
      ((variantCodec "interaction_id").encode interactionId).map fun t => .table [("Acked", t)]
    | .failed error =>
      ((variantCodec "error").encode error).map fun t => .table [("Failed", t)]
  decode
    | .string "Pending" => some .pending
    | .string "ResponseStarted" => some .responseStarted
    | .table [("Sent", t)] => ((variantCodec "interaction_id").decode t).map .sent
    | .table [("Acked", t)] => ((variantCodec "interaction_id").decode t).map .acked
    | .table [("Failed", t)] => ((variantCodec "error").decode t).map .failed
    | _ => none
  decode_encode {status t} h := by
    cases status with
    | pending =>
      rw [← Option.some.inj h]
      rfl
    | responseStarted =>
      rw [← Option.some.inj h]
      rfl
    | sent interactionId =>
      obtain ⟨t', ht', rfl⟩ := Option.map_eq_some_iff.mp h
      simp [(variantCodec "interaction_id").decode_encode ht']
    | acked interactionId =>
      obtain ⟨t', ht', rfl⟩ := Option.map_eq_some_iff.mp h
      simp [(variantCodec "interaction_id").decode_encode ht']
    | failed error =>
      obtain ⟨t', ht', rfl⟩ := Option.map_eq_some_iff.mp h
      simp [(variantCodec "error").decode_encode ht']

def inFlightPieceCodec : Codec InFlightPiece :=
  .record
    ((Fields.required "index" .usize).and
      ((Fields.required "content_hash" .uint64).and
        ((Fields.required "request_body" (.list .uint8)).and
          (Fields.required "status" inFlightStatusCodec))))
    (fun (index, contentHash, requestBody, status) => { index, contentHash, requestBody, status })
    (fun p => (p.index, p.contentHash, p.requestBody, p.status))
    (fun _ => rfl)

def inFlightBatchCodec : Codec InFlightBatch :=
  .record
    ((Fields.required "id" .string).and
      ((Fields.required "session_id" .string).and
        ((Fields.optional "prev_interaction_id" .string).and
          ((Fields.required "message_hashes" (.list .uint64)).and
            ((Fields.optional "system_instruction_hash" .uint64).and
              ((Fields.required "pieces" (.list inFlightPieceCodec)).and
                ((Fields.required "created_utc" .uint64).and
                  (Fields.required "updated_utc" .uint64))))))))
    (fun (id, sessionId, prevInteractionId, messageHashes, systemInstructionHash, pieces,
        createdUtc, updatedUtc) =>
      { id, sessionId, prevInteractionId, messageHashes, systemInstructionHash, pieces,
        createdUtc, updatedUtc })
    (fun b => (b.id, b.sessionId, b.prevInteractionId, b.messageHashes, b.systemInstructionHash,
      b.pieces, b.createdUtc, b.updatedUtc))
    (fun _ => rfl)

structure InteractionsSection where
  clients : StrMap ClientInteractionNode
  upstreams : StrMap UpstreamInteractionNode

structure StoreDocumentV2 where
  version : UInt32
  sessions : StrMap SessionInfo
  interactions : InteractionsSection
  inFlight : StrMap InFlightBatch

def interactionsSectionCodec : Codec InteractionsSection :=
  .record
    ((Fields.defaulted "clients" (.stringMap clientNodeCodec) ∅).and
      (Fields.defaulted "upstreams" (.stringMap upstreamNodeCodec) ∅))
    (fun (clients, upstreams) => { clients, upstreams })
    (fun s => (s.clients, s.upstreams))
    (fun _ => rfl)

def storeDocumentV2Codec : Codec StoreDocumentV2 :=
  .record
    ((Fields.required "version" .uint32).and
      ((Fields.defaulted "sessions" (.stringMap sessionInfoCodec) ∅).and
        ((Fields.defaulted "interactions" interactionsSectionCodec
            { clients := ∅, upstreams := ∅ }).and
          (Fields.defaulted "in_flight" (.stringMap inFlightBatchCodec) ∅))))
    (fun (version, sessions, interactions, inFlight) =>
      { version, sessions, interactions, inFlight })
    (fun d => (d.version, d.sessions, d.interactions, d.inFlight))
    (fun _ => rfl)

/-! ## Saving and loading -/

/-- What stands at the store's path. -/
inductive File
  | missing
  | notToml
  | document (content : Toml)

inductive StoreError
  -- "failed to parse session TOML: {e}"
  | parse
  -- "failed to deserialize v2 store: {e}"
  | deserialize
  -- "failed to serialize v2 store: {e}"
  | serialize
deriving DecidableEq, Repr

/-- The document `save_to_disk` builds. -/
def documentOf (store : StoreV2) : StoreDocumentV2 :=
  { version := 2
    sessions := store.sessions
    interactions :=
      { clients := store.interactions.clients, upstreams := store.interactions.upstreams }
    inFlight := store.inFlight }

/-- The file a save leaves behind, where the file system takes it. -/
def saveToDisk (store : StoreV2) : Except StoreError File :=
  match storeDocumentV2Codec.encode (documentOf store) with
  | some content => .ok (.document content)
  | none => .error .serialize

/-- What `insert_client` and the rebuild both do with a node, besides storing it. -/
def indexNode (store : InteractionStore) (node : ClientInteractionNode) : InteractionStore :=
  { store with
    hashIndex := store.hashIndex.pushAll (InteractionStore.positionsOf node)
    upstreamToClients := store.upstreamToClients.pushAll (node.upstreamIds.map (·, node.id))
    prevToClient :=
      match node.prevId with
      | some prevId => store.prevToClient.insert prevId node.id
      | none => store.prevToClient }

/-- The interaction store with its indexes built from `nodes`, `clients.values()` in the order of
its iterator. The map itself is taken out meanwhile and put back. -/
def rebuild (nodes : List ClientInteractionNode) (saved : InteractionsSection) :
    InteractionStore :=
  { nodes.foldl indexNode
      { clients := ∅, upstreams := saved.upstreams, hashIndex := ∅, upstreamToClients := ∅,
        prevToClient := ∅ } with
    clients := saved.clients }

/-- `check.get("version").and_then(|v| v.as_integer())`. -/
def versionOf : Toml → Option Int
  | .table entries =>
    match entries.lookup "version" with
    | some (.integer v) => some v
    | _ => none
  | _ => none

def loadFromDisk (order : StrMap ClientInteractionNode → List ClientInteractionNode) :
    File → Except StoreError StoreV2
  | .missing => .ok StoreV2.new
  | .notToml => .error .parse
  | .document content =>
    -- an old store, without `version = 2`, is ignored
    if versionOf content ≠ some 2 then .ok StoreV2.new
    else
      match storeDocumentV2Codec.decode content with
      | none => .error .deserialize
      | some doc =>
        .ok
          { sessions := doc.sessions
            interactions := rebuild (order doc.interactions.clients) doc.interactions
            inFlight := doc.inFlight }

end InfSplitter.Persistence
