import InfSplitter.Responses.Merge
import InfSplitter.Responses.Wire
import InfSplitter.Routing.World
import InfSplitter.SplitSend.CleanUp

/-!
# A replay against the original answer

A request that is answered leaves a client node behind, and a retry is answered from the node by
fetching its upstream interactions once more. `Answered` are the three ways to get a non-streaming
answer and its node: one send, a content split, a system-instruction split. The first two translate
all they received; the third only the last piece. A replay merges everything whichever it was, and
always under the status `completed`.

So a replay never shows calls, and after a system-instruction split it also shows what the earlier
pieces answered. `replay_equals_original_iff` says exactly when this makes no difference.
-/

set_option autoImplicit false

namespace InfSplitter.Responses

open Interactions Session SplitSend

/-! ## The replay -/

inductive ReplayError
  -- "client node {client_id} not found"
  | clientNotFound (clientId : String)
  | fetch (message : String)
deriving DecidableEq, Repr

/-- The loop over the upstream ids: fetch, touch, collect. The store is left touched even when a
later fetch fails. -/
def replayLoop (fetch : String → Except String Interaction) (now : UInt64) :
    List String → InteractionStore → List Interaction →
      InteractionStore × Except ReplayError (List Interaction)
  | [], store, fetched => (store, .ok fetched)
  | upstreamId :: rest, store, fetched =>
    match fetch upstreamId with
    | .error message => (store, .error (.fetch message))
    | .ok interaction =>
      replayLoop fetch now rest (store.touchUpstreamOnReplay upstreamId now)
        (fetched ++ [interaction])

/-- What the fetched interactions are merged into. -/
def replayedInteraction (fetched : List Interaction) (model : String) : Interaction :=
  let m := Merging.ofPieces fetched
  { id := (fetched.getLast?.map Interaction.id).getD ""
    status := "completed"
    created := none
    updated := none
    steps := some m.allSteps
    model := some model
    usage := some m.usage }

/-- `replay_from_client_node`, up to the bytes of the body. -/
def replayFromClientNode (wire : Wire) (store : StoreV2)
    (fetch : String → Except String Interaction) (now : UInt64) (clientId model : String)
    (ingress : Protocol) : StoreV2 × Except ReplayError Json :=
  match store.interactions.getClient clientId with
  | none => (store, .error (.clientNotFound clientId))
  | some node =>
    match replayLoop fetch now node.upstreamIds store.interactions [] with
    | (interactions, .error e) => ({ store with interactions := interactions }, .error e)
    | (interactions, .ok fetched) =>
      ({ store with interactions := interactions },
       .ok (buildResponseFromInteraction wire (replayedInteraction fetched model) model ingress))

theorem replayLoop_ok {fetch : String → Except String Interaction} {pieces : List Interaction}
    (hfetch : ∀ piece ∈ pieces, fetch piece.id = .ok piece) (now : UInt64)
    (store : InteractionStore) (fetched : List Interaction) :
    (replayLoop fetch now (pieces.map Interaction.id) store fetched).2 =
      .ok (fetched ++ pieces) := by
  induction pieces generalizing store fetched with
  | nil => simp [replayLoop]
  | cons piece rest ih =>
    rw [List.map_cons]
    unfold replayLoop
    rw [hfetch piece (List.mem_cons_self ..)]
    simp only
    rw [ih fun p hp => hfetch p (List.mem_cons_of_mem _ hp), List.append_assoc,
      List.singleton_append]

/-- A replay of a node that lists the pieces builds its answer from them. -/
theorem replayFromClientNode_ok {wire : Wire} {store : StoreV2}
    {fetch : String → Except String Interaction} {now : UInt64} {clientId model : String}
    {ingress : Protocol} {node : ClientInteractionNode} {pieces : List Interaction}
    (hnode : store.interactions.getClient clientId = some node)
    (hids : node.upstreamIds = pieces.map Interaction.id)
    (hfetch : ∀ piece ∈ pieces, fetch piece.id = .ok piece) :
    (replayFromClientNode wire store fetch now clientId model ingress).2 =
      .ok (buildResponseFromInteraction wire (replayedInteraction pieces model) model
        ingress) := by
  have hloop := replayLoop_ok hfetch now store.interactions []
  unfold replayFromClientNode
  simp only [hnode, hids]
  generalize replayLoop fetch now (pieces.map Interaction.id) store.interactions [] = result
    at hloop
  obtain ⟨interactions, outcome⟩ := result
  simp only at hloop
  subst hloop
  rfl

/-! ## The original answer -/

/-- How much of what was received the original answer is translated from. -/
inductive Path
  | whole
  | lastPiece

/-- The ids of the pieces are the answers to the first `count` bodies. -/
def Received (env : Environment) (pieces : List Interaction) (count : Nat) : Prop :=
  pieces.map (fun piece => Except.ok piece.id) = (List.range count).map (env.accepted false)

/-- A successful request that was not streamed: the interactions it received, the store and the
client node it left behind, and the interaction its answer was built from. -/
inductive Answered : Path → List Interaction → StoreV2 → String → Interaction → Prop
  -- `send_and_translate`
  | single (store : StoreV2) (now : UInt64) (sessionId : String) (prev : Option String)
      (hashes : List UInt64) (system : Option UInt64) (piece : Interaction) :
      Answered .whole [piece]
        (Routing.recordInteraction store now sessionId piece.id prev hashes system) piece.id piece
  -- `handle_split_send`
  | contents {r : SplitRequest} {env : Environment} {store : StoreV2} {w : Sending}
      {chunks : List (List Interactions.Content)} {pieces : List Interaction} {id : String}
      (plain : r.stream = false) (packed : r.pack = .ok chunks)
      (whole : r.systemSplit chunks = none) (received : Received env pieces chunks.length)
      (ends : handleSplitSend r env (Sending.ofStore store) = (w, .answered id)) :
      Answered .whole pieces w.store id (mergeInteractionResponses pieces id)
  -- `send_split_system_instruction`, called with some part of the limit
  | system {r : SplitRequest} {env : Environment} {store : StoreV2} {w : Sending}
      {s : SystemSplit} {plans : List SplitPiecePlan} {pieces : List Interaction} {id : String}
      {last : Interaction} (plain : r.stream = false) (planned : s.plans r = .ok plans)
      (received : Received env pieces plans.length)
      (ends : sendSplitSystemInstruction r s env (Sending.ofStore store) = (w, .answered id))
      (isLast : pieces.getLast? = some last) :
      Answered .lastPiece pieces w.store id last

section
variable {α : Type} {loop : SendLoop α} {r : SplitRequest} {env : Environment} {batchId : String}

/-- A loop that runs through has received the answers in order. -/
theorem sendPieces_received {rest : List α} {i : Nat} {prev : Option String} {w w' : Sending}
    (h : sendPieces loop r env batchId rest i prev w = (w', .ok ())) :
    ∃ ids, w'.received = w.received ++ ids ∧
      ids.map Except.ok = (List.range' i rest.length).map (env.accepted r.stream) := by
  induction rest generalizing i prev w with
  | nil =>
    unfold sendPieces at h
    rw [← (Prod.mk.inj h).1]
    exact ⟨[], by simp, rfl⟩
  | cons piece rest ih =>
    unfold sendPieces at h
    cases ha : env.accepted r.stream i with
    | error e =>
      simp only [ha] at h
      cases hc : loop.cleanUp i e <;> simp [hc] at h
    | ok id =>
      simp only [ha] at h
      cases hc : loop.recheck i id rest with
      | some e => simp [hc] at h
      | none =>
        simp only [hc] at h
        obtain ⟨ids, hw, hids⟩ := ih h
        refine ⟨id :: ids, ?_, ?_⟩
        · rw [hw]
          show w.received ++ [id] ++ ids = _
          rw [List.append_assoc, List.singleton_append]
        · rw [List.length_cons, List.range'_succ, List.map_cons, List.map_cons, ha, hids]

/-- The batch of a finished loop becomes a client node that lists what was received. -/
theorem Progress.node {n : Nat} {w w' : Sending} {node : ClientInteractionNode}
    (h : Progress batchId n n w) (hc : w.completeBatch env batchId = (w', .ok node)) :
    w'.store.interactions.getClient node.id = some node ∧ node.upstreamIds = w.received ∧
      node.id = w.received.getLast?.getD "" := by
  obtain ⟨⟨b, hb, hst⟩, _, _⟩ := h
  rw [Nat.sub_self, progress_all] at hst
  obtain ⟨hok, hget⟩ := completeBatch_acked hb hst env.endedAt
  unfold Sending.completeBatch at hc
  simp only at hc
  obtain ⟨rfl, hnode⟩ := Prod.mk.inj hc
  rw [hok, Except.ok.injEq] at hnode
  subst hnode
  exact ⟨hget, rfl, rfl⟩

/-- A loop that runs through over a new batch has received its pieces. -/
theorem sendPieces_pieces {items : List α} {pieces : List Interaction} {key : BatchKey}
    {prev : Option String} {store : StoreV2} {w : Sending} (plain : r.stream = false)
    (received : Received env pieces items.length)
    (h : sendPieces loop r env (batchIdOf r.sessionId env.second) items 0 prev
      ((Sending.ofStore store).create r env key items.length) = (w, .ok ())) :
    w.received = pieces.map Interaction.id ∧
      Progress (batchIdOf r.sessionId env.second) items.length items.length w := by
  have fate : Fate loop r env (batchIdOf r.sessionId env.second) items (w, .ok ()) := by
    rw [← h]
    exact sendPieces_fate prev List.drop_zero (Nat.zero_le _) (by simp)
      (create_progress r env key items.length store)
  cases fate with
  | finished passed done =>
    refine ⟨?_, done⟩
    obtain ⟨ids, hw, hids⟩ := sendPieces_received h
    rw [hw]
    show [] ++ ids = _
    rw [List.nil_append]
    have hmap : ids.map (Except.ok (ε := SendError)) = (pieces.map Interaction.id).map .ok := by
      rw [hids, plain, ← List.range_eq_range', ← received, List.map_map]
      rfl
    exact List.map_injective_iff.mpr (fun _ _ he => Except.ok.inj he) hmap

/-- A content split that answers has run its loop through and completed its batch. -/
theorem sendChunks_answered {chunks : List (List Interactions.Content)} {w w' : Sending}
    {id : String} (h : sendChunks r env batchId chunks w = (w', .answered id)) :
    ∃ w0 node, sendPieces (contentLoop r) r env batchId chunks 0 r.params.previousInteractionId w =
        (w0, .ok ()) ∧ w0.completeBatch env batchId = (w', .ok node) ∧ id = node.id := by
  unfold sendChunks at h
  generalize sendPieces (contentLoop r) r env batchId chunks 0 r.params.previousInteractionId w =
    result at h ⊢
  obtain ⟨w0, outcome⟩ := result
  cases outcome with
  | error e => simp at h
  | ok _ =>
    simp only at h
    unfold finishContent at h
    generalize hc : w0.completeBatch env batchId = completed at h
    obtain ⟨w1, result⟩ := completed
    cases result with
    | error e => simp at h
    | ok node =>
      cases ht : env.translation with
      | error message => simp [ht] at h
      | ok _ =>
        simp only [ht, Prod.mk.injEq, SplitOutcome.answered.injEq] at h
        obtain ⟨rfl, rfl⟩ := h
        exact ⟨w0, node, rfl, hc, rfl⟩

/-- So has a split of the system instruction, and then written the session entry. -/
theorem sendPlans_answered {plans : List SplitPiecePlan} {w w' : Sending} {id : String}
    (plain : r.stream = false) (h : sendPlans r env batchId plans w = (w', .answered id)) :
    ∃ w0 w1 node, sendPieces (systemLoop r) r env batchId plans 0 r.params.previousInteractionId
        w = (w0, .ok ()) ∧ w0.completeBatch env batchId = (w1, .ok node) ∧ id = node.id ∧
      w'.store.interactions = w1.store.interactions := by
  unfold sendPlans at h
  generalize sendPieces (systemLoop r) r env batchId plans 0 r.params.previousInteractionId w =
    result at h ⊢
  obtain ⟨w0, outcome⟩ := result
  cases outcome with
  | error e => simp at h
  | ok _ =>
    simp only [plain] at h
    unfold finishSystem at h
    generalize hc : w0.completeBatch env batchId = completed at h
    obtain ⟨w1, result⟩ := completed
    cases result with
    | error e => simp at h
    | ok node =>
      cases ht : env.translation with
      | error message => simp [ht] at h
      | ok _ =>
        simp only [ht] at h
        obtain ⟨hw, ho⟩ := Prod.mk.inj h
        obtain rfl := SplitOutcome.answered.inj ho
        refine ⟨w0, w1, node, rfl, hc, rfl, ?_⟩
        rw [← hw]
        cases w1.received.getLast? <;> rfl

/-- **Every answered request leaves a client node that lists what it received**, under the id of
the last interaction. -/
theorem Answered.node {path : Path} {pieces : List Interaction} {store : StoreV2} {id : String}
    {answer : Interaction} (h : Answered path pieces store id answer) :
    ∃ node, store.interactions.getClient id = some node ∧
      node.upstreamIds = pieces.map Interaction.id ∧
      id = (pieces.getLast?.map Interaction.id).getD "" := by
  cases h with
  | single store now sessionId prev hashes system piece =>
    refine ⟨Routing.recordedNode now answer.id prev hashes system, ?_, rfl, rfl⟩
    unfold InteractionStore.getClient Routing.recordInteraction
    rw [InteractionStore.insertClient_lookup]
    exact if_pos rfl
  | @contents r env store w chunks pieces id plain packed whole received ends =>
    unfold handleSplitSend at ends
    simp only [packed, whole] at ends
    cases hf : findKeyed env.batches (r.key env) with
    | some existing => simp [hf] at ends
    | none =>
      simp only [hf] at ends
      obtain ⟨w0, node, hs, hc, rfl⟩ := sendChunks_answered ends
      obtain ⟨hrec, done⟩ := sendPieces_pieces plain received hs
      obtain ⟨hget, hids, hid⟩ := Progress.node done hc
      refine ⟨node, hget, hids.trans hrec, ?_⟩
      rw [hid, hrec, List.getLast?_map]
  | @system r env store w s plans pieces id last plain planned received ends isLast =>
    unfold sendSplitSystemInstruction at ends
    simp only [planned] at ends
    obtain ⟨w0, w1, node, hs, hc, rfl, hstore⟩ := sendPlans_answered plain ends
    obtain ⟨hrec, done⟩ := sendPieces_pieces plain received hs
    obtain ⟨hget, hids, hid⟩ := Progress.node done hc
    refine ⟨node, hstore ▸ hget, hids.trans hrec, ?_⟩
    rw [hid, hrec, List.getLast?_map]

end

/-! ## When they agree -/

/-- The token count of the answer, as the client gets it. -/
def Interaction.clampedTokens (interaction : Interaction) (count : Usage → Option Int64) : UInt32 :=
  clampI64ToU32 (interaction.tokens count)

/-- A response that shows calls equals none that shows text, and two that show text are equal if
they are about the same text and counts. -/
theorem buildTypedResponse_eq_iff {a b : Interaction}
    (hb : extractInteractionToolCalls b = none) (model : String) (ingress : Protocol) :
    buildTypedResponse a model ingress = buildTypedResponse b model ingress ↔
      a.id = b.id ∧ extractInteractionToolCalls a = none ∧
        extractInteractionText a = extractInteractionText b ∧
        a.clampedTokens Usage.totalInputTokens = b.clampedTokens Usage.totalInputTokens ∧
        a.clampedTokens Usage.totalOutputTokens = b.clampedTokens Usage.totalOutputTokens := by
  unfold buildTypedResponse Interaction.clampedTokens
  simp only [hb]
  cases extractInteractionToolCalls a with
  | some calls =>
    refine iff_of_false ?_ (fun h => absurd h.2.1 (by simp))
    cases ingress <;> simp [messageResponse, chatCompletionResponse]
  | none =>
    cases ingress with
    | anthropic => simp [messageResponse]
    | openAi =>
      simp only [chatCompletionResponse, TypedResponse.openAi.injEq]
      constructor
      · intro h
        simp at h
        exact ⟨h.1, trivial, h.2.1, h.2.2.1, h.2.2.2.1⟩
      · rintro ⟨hid, _, htext, hin, hout⟩
        rw [hid, htext, hin, hout]

/-- What has to be true of the pieces for a replay to give the original answer. -/
def ReplaysAlike : Path → List Interaction → Prop
  -- the last piece does not wait for calls of any of them
  | .whole, pieces =>
    ¬ ((∃ last, pieces.getLast? = some last ∧ last.status = "requires_action") ∧
      HasCalls (pieces.flatMap Interaction.stepList))
  -- nor for its own, the pieces before it have no text, and it reports the usage that counts
  | .lastPiece, pieces =>
    ∀ last, pieces.getLast? = some last →
      ¬ AwaitsCalls last ∧ Silent (pieces.dropLast.flatMap Interaction.stepList) ∧
        ∀ count, count = Usage.totalInputTokens ∨ count = Usage.totalOutputTokens →
          last.clampedTokens count =
            clampI64ToU32 (((latestUsage pieces).bind count).getD 0)

theorem extractInteractionToolCalls_replayed (pieces : List Interaction) (model : String) :
    extractInteractionToolCalls (replayedInteraction pieces model) = none := by
  unfold extractInteractionToolCalls replayedInteraction
  exact if_pos (by simp)

theorem stepList_replayed (pieces : List Interaction) (model : String) :
    (replayedInteraction pieces model).stepList = pieces.flatMap Interaction.stepList :=
  Merging.allSteps_ofPieces pieces

theorem clampedTokens_replayed (pieces : List Interaction) (model : String)
    {count : Usage → Option Int64}
    (hcount : count = Usage.totalInputTokens ∨ count = Usage.totalOutputTokens) :
    (replayedInteraction pieces model).clampedTokens count =
      clampI64ToU32 (((latestUsage pieces).bind count).getD 0) := by
  obtain ⟨hin, hout⟩ := Merging.tokens_ofPieces pieces
  rcases hcount with rfl | rfl
  · exact congrArg clampI64ToU32 hin
  · exact congrArg clampI64ToU32 hout

theorem extractInteractionText_replayed (pieces : List Interaction) (model : String) :
    extractInteractionText (replayedInteraction pieces model) =
      String.join ((pieces.flatMap Interaction.stepList).filterMap Step.text?) := by
  unfold extractInteractionText
  rw [stepList_replayed]

/-- An answer under the right id equals the replay if it shows the same text and counts. -/
theorem answer_eq_replayed_iff {pieces : List Interaction} {answer : Interaction}
    (hid : answer.id = (pieces.getLast?.map Interaction.id).getD "") (model : String)
    (ingress : Protocol) :
    buildTypedResponse answer model ingress =
        buildTypedResponse (replayedInteraction pieces model) model ingress ↔
      ¬ AwaitsCalls answer ∧
        extractInteractionText answer =
          String.join ((pieces.flatMap Interaction.stepList).filterMap Step.text?) ∧
        ∀ count, count = Usage.totalInputTokens ∨ count = Usage.totalOutputTokens →
          answer.clampedTokens count =
            clampI64ToU32 (((latestUsage pieces).bind count).getD 0) := by
  rw [buildTypedResponse_eq_iff (extractInteractionToolCalls_replayed pieces model),
    extractInteractionToolCalls_eq, extractInteractionText_replayed,
    clampedTokens_replayed pieces model (Or.inl rfl),
    clampedTokens_replayed pieces model (Or.inr rfl)]
  have hcalls : (if AwaitsCalls answer then some (answer.stepList.filterMap Step.call?)
      else none) = none ↔ ¬ AwaitsCalls answer := by
    by_cases h : AwaitsCalls answer <;> simp [h]
  rw [hcalls]
  constructor
  · intro ⟨_, ha, ht, hin, hout⟩
    refine ⟨ha, ht, ?_⟩
    intro count hcount
    rcases hcount with rfl | rfl
    · exact hin
    · exact hout
  · intro ⟨ha, ht, hcounts⟩
    exact ⟨hid, ha, ht, hcounts _ (Or.inl rfl), hcounts _ (Or.inr rfl)⟩

/-- One interaction, translated as it is. -/
theorem single_eq_replayed_iff (piece : Interaction) (model : String) (ingress : Protocol) :
    buildTypedResponse piece model ingress =
        buildTypedResponse (replayedInteraction [piece] model) model ingress ↔
      ReplaysAlike .whole [piece] := by
  have hsteps : [piece].flatMap Interaction.stepList = piece.stepList := List.flatMap_singleton ..
  have husage : latestUsage [piece] = piece.usage := by
    unfold latestUsage
    cases hu : piece.usage <;> simp [hu]
  rw [answer_eq_replayed_iff rfl, husage, hsteps, and_iff_left ⟨rfl, fun _ _ => rfl⟩]
  show _ ↔ ¬ ((∃ last, some piece = some last ∧ last.status = "requires_action") ∧
    HasCalls ([piece].flatMap Interaction.stepList))
  rw [hsteps]
  simp only [Option.some.injEq, exists_eq_left']
  rfl

/-- All pieces merged. -/
theorem merged_eq_replayed_iff (pieces : List Interaction) (model : String) (ingress : Protocol) :
    buildTypedResponse (mergeInteractionResponses pieces
          ((pieces.getLast?.map Interaction.id).getD "")) model ingress =
        buildTypedResponse (replayedInteraction pieces model) model ingress ↔
      ReplaysAlike .whole pieces := by
  rw [answer_eq_replayed_iff rfl]
  have hstatus : AwaitsCalls (mergeInteractionResponses pieces
      ((pieces.getLast?.map Interaction.id).getD "")) ↔
      (∃ last, pieces.getLast? = some last ∧ last.status = "requires_action") ∧
        HasCalls (pieces.flatMap Interaction.stepList) := by
    unfold AwaitsCalls
    rw [stepList_merge, status_merge_iff]
  rw [hstatus]
  unfold ReplaysAlike extractInteractionText
  rw [stepList_merge]
  refine and_iff_left ⟨rfl, ?_⟩
  intro count hcount
  rw [← clampedTokens_replayed pieces model hcount]
  rfl

theorem self_eq_append_iff {a b : String} : b = a ++ b ↔ a = "" := by
  rw [← String.toList_inj, String.toList_append, List.self_eq_append_left,
    String.toList_eq_nil_iff]

/-- The last piece alone, out of all that a replay merges. -/
theorem last_eq_replayed_iff {pieces : List Interaction} {last : Interaction}
    (isLast : pieces.getLast? = some last) (model : String) (ingress : Protocol) :
    buildTypedResponse last model ingress =
        buildTypedResponse (replayedInteraction pieces model) model ingress ↔
      ReplaysAlike .lastPiece pieces := by
  have hpieces : pieces.dropLast ++ [last] = pieces := List.dropLast_append_getLast? last isLast
  have htext : extractInteractionText last =
        String.join ((pieces.flatMap Interaction.stepList).filterMap Step.text?) ↔
      Silent (pieces.dropLast.flatMap Interaction.stepList) := by
    conv => lhs; rhs; rw [← hpieces]
    rw [List.flatMap_append, List.filterMap_append, String.join_append, List.flatMap_singleton,
      ← join_eq_empty_iff]
    exact self_eq_append_iff
  rw [answer_eq_replayed_iff (by rw [isLast]; rfl), htext]
  constructor
  · intro h last' hlast'
    rw [isLast, Option.some.injEq] at hlast'
    subst hlast'
    exact h
  · exact fun h => h last isLast

/-- The two bodies are equal if they are made of equal responses. -/
theorem Answered.replay_eq_iff {wire : Wire} {path : Path} {pieces : List Interaction}
    {store : StoreV2} {id : String} {answer : Interaction}
    (answered : Answered path pieces store id answer)
    {fetch : String → Except String Interaction}
    (hfetch : ∀ piece ∈ pieces, fetch piece.id = .ok piece) {now : UInt64} {model : String}
    {ingress : Protocol} :
    (replayFromClientNode wire store fetch now id model ingress).2 =
        .ok (buildResponseFromInteraction wire answer model ingress) ↔
      buildTypedResponse answer model ingress =
        buildTypedResponse (replayedInteraction pieces model) model ingress := by
  obtain ⟨node, hnode, hids, _⟩ := answered.node
  rw [replayFromClientNode_ok hnode hids hfetch, Except.ok.injEq]
  unfold buildResponseFromInteraction
  rw [wire.toValue_injective.eq_iff, eq_comm]

/-- **A replay equals the original answer** exactly under `ReplaysAlike`. -/
theorem replay_equals_original_iff (wire : Wire) {path : Path} {pieces : List Interaction}
    {store : StoreV2} {id : String} {answer : Interaction}
    (answered : Answered path pieces store id answer)
    {fetch : String → Except String Interaction}
    (hfetch : ∀ piece ∈ pieces, fetch piece.id = .ok piece) (now : UInt64) (model : String)
    (ingress : Protocol) :
    (replayFromClientNode wire store fetch now id model ingress).2 =
        .ok (buildResponseFromInteraction wire answer model ingress) ↔
      ReplaysAlike path pieces := by
  rw [answered.replay_eq_iff hfetch]
  cases answered with
  | single => exact single_eq_replayed_iff answer model ingress
  | contents plain packed whole received ends =>
    obtain ⟨_, _, _, hid⟩ := (Answered.contents plain packed whole received ends).node
    rw [hid]
    exact merged_eq_replayed_iff pieces model ingress
  | system plain planned received ends isLast => exact last_eq_replayed_iff isLast model ingress

/-- An answer that asks for one call. -/
def weatherCall : Interaction :=
  { id := "int-1", status := "requires_action", created := none, updated := none,
    steps := some [.functionCallStep "call-1" "get_weather" none], model := none, usage := none }

def fetchWeather : String → Except String Interaction := fun _ => .ok weatherCall

theorem fetchWeather_ok : ∀ piece ∈ [weatherCall], fetchWeather piece.id = .ok piece :=
  fun _ h => congrArg Except.ok (List.mem_singleton.mp h).symm

theorem replay_equals_original_iff_weatherCall :
    (replayFromClientNode usualWire
          (Routing.recordInteraction StoreV2.new 0 "s" "int-1" none [1] none) fetchWeather 0
          "int-1" "m" .anthropic).2 =
        .ok (buildResponseFromInteraction usualWire weatherCall "m" .anthropic) ↔
      ReplaysAlike .whole [weatherCall] :=
  replay_equals_original_iff usualWire (.single StoreV2.new 0 "s" none [1] none weatherCall)
    fetchWeather_ok 0 "m" .anthropic

/-- The call is gone from the replay. -/
theorem replay_not_always_original :
    ¬ ∀ (wire : Wire) (path : Path) (pieces : List Interaction) (store : StoreV2) (id : String)
      (answer : Interaction), Answered path pieces store id answer →
      ∀ fetch : String → Except String Interaction,
        (∀ piece ∈ pieces, fetch piece.id = .ok piece) → ∀ now model ingress,
          (replayFromClientNode wire store fetch now id model ingress).2 =
            .ok (buildResponseFromInteraction wire answer model ingress) := by
  intro h
  have answered := Answered.single StoreV2.new 0 "s" none [1] none weatherCall
  have heq := (answered.replay_eq_iff fetchWeather_ok).mp
    (h usualWire _ _ _ _ _ answered fetchWeather fetchWeather_ok 0 "m" .anthropic)
  refine (single_eq_replayed_iff weatherCall "m" .anthropic).mp heq ⟨⟨weatherCall, rfl, rfl⟩, ?_⟩
  exact ⟨.functionCallStep "call-1" "get_weather" none, List.mem_singleton_self _, rfl⟩

end InfSplitter.Responses
