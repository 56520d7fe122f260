import InfSplitter.Json.Value

/-!
# The ingress messages

What `interactions.rs` reads out of the message list of a request: which messages count as harness
messages, the text of a message, and the position in the full list that belongs to a position in the
list of harness messages.

Two walks over the same list have to agree. The frontier counts harness messages; the content
builder skips a number of *all* messages. `startIndex` translates one into the other, and
`startIndex_spec` says what the translation is worth: behind it there are exactly the harness
messages that should still be sent, and any number of other messages.
-/

set_option autoImplicit false

namespace InfSplitter.Interactions

inductive Protocol
  | anthropic
  | openAi
deriving DecidableEq, Repr

def role (msg : Json) : Option String := (msg.get "role").bind Json.asStr

/-- Whether `filter_harness_messages` keeps a message. -/
def isHarness : Protocol → Json → Bool
  | .anthropic, msg => role msg == some "user"
  | .openAi, msg =>
    match role msg with
    | some r => r == "system" || r == "developer" || r == "user" || r == "tool"
    | none => false

def filterHarnessMessages (protocol : Protocol) (messages : List Json) : List Json :=
  messages.filter (isHarness protocol)

/-! ## The text of a message -/

/-- The texts of the blocks that have one. -/
def blockTexts (blocks : List Json) : List String :=
  blocks.filterMap fun b => (b.get "text").bind Json.asStr

def joinLines (texts : List String) : String := "\n".intercalate texts

/-- One block of an Anthropic message. -/
def anthropicBlockText (b : Json) : Option String :=
  match (b.get "type").bind Json.asStr with
  | some "text" => (b.get "text").bind Json.asStr
  | some "tool_result" =>
    match b.get "content" with
    | none => none
    | some c =>
      match c.asStr with
      | some s => some s
      | none =>
        match c.asArray with
        | some inner =>
          let joined := joinLines (blockTexts inner)
          if joined = "" then none else some joined
        | none => none
  | _ => none

/-- One part of an OpenAI message. -/
def openAiPartText (part : Json) : Option String :=
  ((part.get "text").bind Json.asStr).or ((part.get "value").bind Json.asStr)

/-- `Content::TextContent`, the only kind the builders make. -/
structure Content where
  text : String
deriving DecidableEq, Repr

/-- The content of a message whose parts have the texts `partText`. -/
def extractContent (partText : Json → Option String) (msg : Json) : Option Content :=
  match msg.get "content" with
  | none => none
  | some content =>
    let text :=
      match content.asStr with
      | some s => some s
      | none => content.asArray.map fun parts => joinLines (parts.filterMap partText)
    match text with
    | none => none
    | some text => if text = "" then none else some { text := text }

def extractAnthropicContent (msg : Json) : Option Content :=
  extractContent anthropicBlockText msg

def extractOpenaiContent (msg : Json) : Option Content :=
  extractContent openAiPartText msg

/-- The text of a value that is a string or a list of blocks, if the list has any text. -/
def systemText (value : Json) : Option String :=
  match value.asStr with
  | some s => some s
  | none =>
    match value.asArray with
    | some blocks =>
      let text := joinLines (blockTexts blocks)
      if text = "" then none else some text
    | none => none

def extractAnthropicSystem (body : Json) : Option String := (body.get "system").bind systemText

/-- Only the first `system` message is looked at. -/
def extractOpenaiSystem (messages : List Json) : Option String :=
  (messages.find? fun m => role m == some "system").bind fun m =>
    (m.get "content").bind systemText

/-! ## From harness positions to message positions -/

/-- The role test of the loop in the two handlers, which reads a missing role as the empty one. -/
def countsAsHarness : Protocol → Json → Bool
  | .anthropic, msg => (role msg).getD "" == "user"
  | .openAi, msg =>
    let r := (role msg).getD ""
    r == "system" || r == "developer" || r == "user" || r == "tool"

/-- The loop counts what the filter keeps: no role is as good as the empty one. -/
theorem countsAsHarness_eq (protocol : Protocol) (msg : Json) :
    countsAsHarness protocol msg = isHarness protocol msg := by
  cases protocol with
  | anthropic =>
    simp only [countsAsHarness, isHarness]
    cases role msg with
    | none => rfl
    | some r => rfl
  | openAi =>
    simp only [countsAsHarness, isHarness]
    cases role msg with
    | none => rfl
    | some r => rfl

/-- The loop in the two handlers that finds where the new messages start. -/
def startIndexFrom (protocol : Protocol) (frontierIndex : Nat) :
    List Json → Nat → Nat → Nat → Nat
  | [], _, _, fullIdx => fullIdx
  | msg :: rest, i, harnessCount, _ =>
    if harnessCount ≥ frontierIndex then i
    else
      startIndexFrom protocol frontierIndex rest (i + 1)
        (if countsAsHarness protocol msg then harnessCount + 1 else harnessCount) (i + 1)

def startIndex (protocol : Protocol) (messages : List Json) (frontierIndex : Nat) : Nat :=
  startIndexFrom protocol frontierIndex messages 0 0 0

/-- The number of harness messages among the first `i` messages. -/
def harnessBefore (protocol : Protocol) (messages : List Json) (i : Nat) : Nat :=
  (messages.take i).countP (isHarness protocol)

/-- What the loop computes, started at position `i` after `count` harness messages: the first
position with `k` of them before it, or the end of the list. -/
theorem startIndexFrom_spec (protocol : Protocol) (k : Nat) (messages : List Json)
    (i count : Nat) :
    ∃ j, startIndexFrom protocol k messages i count i = i + j ∧ j ≤ messages.length ∧
      (∀ m < messages.length, j ≤ m ↔ k ≤ count + harnessBefore protocol messages m) ∧
      filterHarnessMessages protocol (messages.drop j) =
        (filterHarnessMessages protocol messages).drop (k - count) := by
  induction messages generalizing i count with
  | nil =>
    refine ⟨0, rfl, Nat.zero_le _, ?_, ?_⟩
    · intro m hm
      exact absurd hm (Nat.not_lt_zero m)
    · simp [filterHarnessMessages]
  | cons msg rest ih =>
    unfold startIndexFrom
    by_cases hk : count ≥ k
    · rw [if_pos hk]
      refine ⟨0, rfl, Nat.zero_le _, ?_, ?_⟩
      · intro m _
        exact iff_of_true (Nat.zero_le m) (Nat.le_trans hk (Nat.le_add_right _ _))
      · rw [Nat.sub_eq_zero_of_le hk, List.drop_zero, List.drop_zero]
    · rw [if_neg hk, countsAsHarness_eq]
      obtain ⟨j, heq, hle, hiff, hdrop⟩ :=
        ih (i + 1) (if isHarness protocol msg then count + 1 else count)
      refine ⟨j + 1, ?_, Nat.succ_le_succ hle, ?_, ?_⟩
      · rw [heq]
        omega
      · intro m hm
        cases m with
        | zero =>
          apply iff_of_false (Nat.not_succ_le_zero j)
          intro h
          exact hk (by simpa [harnessBefore] using h)
        | succ m =>
          rw [Nat.succ_le_succ_iff, hiff m (Nat.lt_of_succ_lt_succ hm)]
          unfold harnessBefore
          rw [List.take_succ_cons, List.countP_cons]
          split <;> omega
      · rw [List.drop_succ_cons, hdrop]
        unfold filterHarnessMessages
        cases hm : isHarness protocol msg with
        | true =>
          rw [List.filter_cons_of_pos hm, if_pos rfl,
            show k - count = (k - (count + 1)) + 1 by omega, List.drop_succ_cons]
        | false =>
          rw [List.filter_cons_of_neg (by simp [hm]), if_neg Bool.false_ne_true]

/-- What the start index is worth: a message stands behind it exactly when `k` harness messages
stand before it, and the harness messages behind it are those from the frontier on. -/
theorem startIndex_spec (protocol : Protocol) (messages : List Json) (k : Nat) :
    startIndex protocol messages k ≤ messages.length ∧
      (∀ i < messages.length,
        startIndex protocol messages k ≤ i ↔ k ≤ harnessBefore protocol messages i) ∧
      filterHarnessMessages protocol (messages.drop (startIndex protocol messages k)) =
        (filterHarnessMessages protocol messages).drop k := by
  obtain ⟨j, heq, hle, hiff, hdrop⟩ := startIndexFrom_spec protocol k messages 0 0
  unfold startIndex
  rw [heq, Nat.zero_add]
  refine ⟨hle, ?_, ?_⟩
  · intro i hi
    rw [hiff i hi, Nat.zero_add]
  · rw [hdrop, Nat.sub_zero]

theorem startIndex_le_iff (protocol : Protocol) (messages : List Json) (k : Nat) {i : Nat}
    (hi : i < messages.length) :
    startIndex protocol messages k ≤ i ↔ k ≤ harnessBefore protocol messages i :=
  (startIndex_spec protocol messages k).2.1 i hi

/-- **The start index stays in the list, and behind it stand the harness messages from the frontier
on**, whatever the roles of the messages and wherever the frontier is. -/
theorem filterHarnessMessages_drop_startIndex (protocol : Protocol) (messages : List Json)
    (k : Nat) :
    startIndex protocol messages k ≤ messages.length ∧
      filterHarnessMessages protocol (messages.drop (startIndex protocol messages k)) =
        (filterHarnessMessages protocol messages).drop k := by
  obtain ⟨hle, _, hfilter⟩ := startIndex_spec protocol messages k
  exact ⟨hle, hfilter⟩

end InfSplitter.Interactions
