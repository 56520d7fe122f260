import InfSplitter.Interactions.Request

/-!
# Which messages are forwarded

The builders skip `start_index` messages and convert every message after that. They do not look at
roles, so an assistant message that stands behind the start index is converted with the rest, and so
is a system or developer message of an OpenAI request. `OnlyNewTextIsForwardable` is the condition
under which this makes no difference.

For the other half, an OpenAI request's system instruction should hold the text of all its system
and developer messages, one per line. `extract_openai_system` takes the first system message.
-/

set_option autoImplicit false

namespace InfSplitter.Interactions

open Lib

/-- The messages whose text belongs into the contents. -/
def isForwardable : Protocol → Json → Bool
  | .anthropic, msg => role msg == some "user"
  | .openAi, msg => role msg == some "user" || role msg == some "tool"

/-- The messages whose text belongs into the system instruction. -/
def isSystem (msg : Json) : Bool := role msg == some "system" || role msg == some "developer"

def messageSystemText (msg : Json) : Option String := (msg.get "content").bind systemText

/-- The text of a message, as the builder of the protocol extracts it. -/
def contentOf : Protocol → Json → Option Content
  | .anthropic => extractAnthropicContent
  | .openAi => extractOpenaiContent

/-- What should be forwarded from the `k`-th harness message on. -/
def newContents (protocol : Protocol) (messages : List Json) (k : Nat) : List Content :=
  (((filterHarnessMessages protocol messages).drop k).filter (isForwardable protocol)).filterMap
    (contentOf protocol)

/-- The texts of the system and developer messages. -/
def systemTexts (messages : List Json) : List String :=
  (messages.filter isSystem).filterMap messageSystemText

/-- What an OpenAI request's system instruction should be. -/
def wholeSystemInstruction (messages : List Json) : Option String :=
  if systemTexts messages = [] then none else some (joinLines (systemTexts messages))

/-- No message with `k` harness messages before it has any text, except those that belong into the
contents. -/
def OnlyNewTextIsForwardable (protocol : Protocol) (messages : List Json) (k : Nat) : Prop :=
  ∀ i msg, messages[i]? = some msg → k ≤ harnessBefore protocol messages i →
    isForwardable protocol msg = false → contentOf protocol msg = none

/-- A system or developer message has text only if it is the first system message. -/
def OnlyFirstSystemHasText (messages : List Json) : Prop :=
  ∀ before msg after, messages = before ++ msg :: after → isSystem msg = true →
    messageSystemText msg ≠ none →
      role msg = some "system" ∧ ∀ m ∈ before, role m ≠ some "system"

/-! ## Contents -/

theorem isForwardable_isHarness {protocol : Protocol} {msg : Json}
    (h : isForwardable protocol msg = true) : isHarness protocol msg = true := by
  cases protocol with
  | anthropic => exact h
  | openAi =>
    unfold isForwardable at h
    unfold isHarness
    rcases Bool.or_eq_true_iff.mp h with h | h <;>
    · rw [beq_iff_eq] at h
      simp [h]

/-- Leaving elements out before a `filterMap` changes nothing exactly when they map to nothing. -/
theorem filterMap_filter_eq_iff {α β : Type} (p : α → Bool) (f : α → Option β) (l : List α) :
    l.filterMap f = (l.filter p).filterMap f ↔ ∀ a ∈ l, p a = false → f a = none := by
  induction l with
  | nil => simp
  | cons a l ih =>
    rw [List.forall_mem_cons]
    cases hp : p a with
    | true =>
      rw [List.filter_cons_of_pos hp, List.filterMap_cons, List.filterMap_cons]
      cases f a <;> simp [ih]
    | false =>
      rw [List.filter_cons_of_neg (by simp [hp])]
      cases hf : f a with
      | none =>
        rw [List.filterMap_cons_none hf, ih]
        simp
      | some b =>
        refine iff_of_false ?_ (by simp)
        intro h
        have hlen := congrArg List.length h
        rw [List.filterMap_cons_some hf, List.length_cons] at hlen
        have hsub := (List.filter_sublist (p := p) (l := l)).filterMap f |>.length_le
        omega

/-- The messages behind the start index, by their positions. -/
theorem mem_drop_startIndex {protocol : Protocol} {messages : List Json} {k : Nat} {msg : Json} :
    msg ∈ messages.drop (startIndex protocol messages k) ↔
      ∃ i, messages[i]? = some msg ∧ k ≤ harnessBefore protocol messages i := by
  rw [List.mem_iff_getElem?]
  constructor
  · intro ⟨d, hd⟩
    rw [List.getElem?_drop] at hd
    have hlt := (List.getElem?_eq_some_iff.mp hd).1
    exact ⟨_, hd, (startIndex_le_iff protocol messages k hlt).mp (Nat.le_add_right _ _)⟩
  · intro ⟨i, hi, hk⟩
    have hlt := (List.getElem?_eq_some_iff.mp hi).1
    have hle := (startIndex_le_iff protocol messages k hlt).mpr hk
    refine ⟨i - startIndex protocol messages k, ?_⟩
    rw [List.getElem?_drop, Nat.add_sub_cancel' hle]
    exact hi

/-- What the builders convert is what should be forwarded, exactly under the condition. -/
theorem converted_eq_newContents_iff (protocol : Protocol) (messages : List Json) (k : Nat) :
    (messages.drop (startIndex protocol messages k)).filterMap (contentOf protocol) =
        newContents protocol messages k ↔
      OnlyNewTextIsForwardable protocol messages k := by
  have hnew : newContents protocol messages k =
      ((messages.drop (startIndex protocol messages k)).filter
        (isForwardable protocol)).filterMap (contentOf protocol) := by
    unfold newContents
    rw [← (startIndex_spec protocol messages k).2.2]
    unfold filterHarnessMessages
    rw [List.filter_filter]
    congr 2
    funext msg
    cases h : isForwardable protocol msg with
    | true => exact (Bool.true_and _).trans (isForwardable_isHarness h)
    | false => rfl
  rw [hnew, filterMap_filter_eq_iff]
  constructor
  · intro h i msg hi hk
    exact h msg (mem_drop_startIndex.mpr ⟨i, hi, hk⟩)
  · intro h msg hmem
    obtain ⟨i, hi, hk⟩ := mem_drop_startIndex.mp hmem
    exact h i msg hi hk

/-! ## The system instruction -/

theorem systemTexts_append (l l' : List Json) :
    systemTexts (l ++ l') = systemTexts l ++ systemTexts l' := by
  unfold systemTexts
  rw [List.filter_append, List.filterMap_append]

theorem systemTexts_eq_nil_iff {l : List Json} :
    systemTexts l = [] ↔ ∀ m ∈ l, isSystem m = true → messageSystemText m = none := by
  unfold systemTexts
  rw [List.filterMap_eq_nil_iff]
  constructor
  · intro h m hm hsys
    exact h m (List.mem_filter.mpr ⟨hm, hsys⟩)
  · intro h m hm
    obtain ⟨hm, hsys⟩ := List.mem_filter.mp hm
    exact h m hm hsys

/-- Around a system message the texts are those before it, its own, and those after it. -/
theorem systemTexts_around {before after : List Json} {msg : Json}
    (hrole : role msg = some "system") :
    systemTexts (before ++ msg :: after) =
      systemTexts before ++ ((messageSystemText msg).toList ++ systemTexts after) := by
  have hsys : isSystem msg = true := by simp [isSystem, hrole]
  rw [systemTexts_append]
  congr 1
  unfold systemTexts
  rw [List.filter_cons_of_pos hsys, List.filterMap_cons]
  cases messageSystemText msg <;> rfl

/-- Nothing before the first system message and nothing after it has text, exactly if the texts of
all system and developer messages are the text of that one. -/
theorem onlyFirstSystemHasText_iff {before after : List Json} {first : Json}
    (hrole : role first = some "system") (hbefore : ∀ m ∈ before, role m ≠ some "system") :
    OnlyFirstSystemHasText (before ++ first :: after) ↔
      systemTexts before = [] ∧ systemTexts after = [] := by
  rw [systemTexts_eq_nil_iff, systemTexts_eq_nil_iff]
  constructor
  · intro h
    refine ⟨?_, ?_⟩
    · intro m hm hsys
      by_contra htext
      obtain ⟨l, r, rfl⟩ := List.append_of_mem hm
      have := h l m (r ++ first :: after) (by simp) hsys htext
      exact hbefore m (by simp) this.1
    · intro m hm hsys
      by_contra htext
      obtain ⟨l, r, rfl⟩ := List.append_of_mem hm
      have := h (before ++ first :: l) m r (by simp) hsys htext
      exact this.2 first (by simp) hrole
  · intro ⟨hpre, hpost⟩ l m r heq hsys htext
    rcases List.append_eq_append_iff.mp heq with ⟨mid, hl, hr⟩ | ⟨mid, hl, hr⟩
    · cases mid with
      | nil =>
        simp only [List.nil_append, List.cons.injEq] at hr
        obtain ⟨rfl, rfl⟩ := hr
        rw [List.append_nil] at hl
        subst hl
        exact ⟨hrole, hbefore⟩
      | cons f mid =>
        -- `m` stands after the first system message
        simp only [List.cons_append, List.cons.injEq] at hr
        obtain ⟨_, hr⟩ := hr
        exact absurd (hpost m (hr ▸ by simp) hsys) htext
    · cases mid with
      | nil =>
        simp only [List.nil_append, List.cons.injEq] at hr
        obtain ⟨rfl, rfl⟩ := hr
        rw [List.append_nil] at hl
        subst hl
        exact ⟨hrole, hbefore⟩
      | cons f mid =>
        -- `m` stands before it
        simp only [List.cons_append, List.cons.injEq] at hr
        obtain ⟨rfl, _⟩ := hr
        exact absurd (hpre m (hl ▸ by simp) hsys) htext

/-- The first system message's text is the whole system instruction exactly under the condition. -/
theorem extractOpenaiSystem_eq_iff (messages : List Json) :
    extractOpenaiSystem messages = wholeSystemInstruction messages ↔
      OnlyFirstSystemHasText messages := by
  unfold extractOpenaiSystem wholeSystemInstruction
  cases hf : messages.find? fun m => role m == some "system" with
  | none =>
    have hno : ∀ m ∈ messages, role m ≠ some "system" := by
      intro m hm
      have := List.find?_eq_none.mp hf m hm
      simpa using this
    rw [Option.bind_none]
    have hnil : systemTexts messages = [] ↔ OnlyFirstSystemHasText messages := by
      rw [systemTexts_eq_nil_iff]
      constructor
      · rintro h before m after rfl hsys htext
        exact absurd (h m (by simp) hsys) htext
      · intro h m hm hsys
        by_contra htext
        obtain ⟨l, r, rfl⟩ := List.append_of_mem hm
        exact hno m hm (h l m r rfl hsys htext).1
    rw [← hnil]
    by_cases h : systemTexts messages = []
    · simp [h]
    · simp [h]
  | some first =>
    obtain ⟨hrole, before, after, rfl, hbefore⟩ := List.find?_eq_some_iff_append.mp hf
    rw [beq_iff_eq] at hrole
    have hbefore : ∀ m ∈ before, role m ≠ some "system" := by
      intro m hm
      have := hbefore m hm
      simpa using this
    rw [onlyFirstSystemHasText_iff hrole hbefore, systemTexts_around hrole, Option.bind_some]
    show messageSystemText first = _ ↔ _
    cases htext : messageSystemText first with
    | none =>
      rw [Option.toList_none, List.nil_append, ← List.append_eq_nil_iff]
      by_cases h : systemTexts before ++ systemTexts after = []
      · simp [h]
      · simp [h]
    | some t =>
      rw [Option.toList_some, if_neg (by simp), Option.some.injEq]
      constructor
      · intro h
        -- joined with anything else the text would be longer
        have := eq_singleton_of_intercalate_eq (s := "\n") (by decide)
          (by simp : t ∈ systemTexts before ++ ([t] ++ systemTexts after)) h.symm
        have hlen := congrArg List.length this
        simp only [List.length_append, List.length_singleton] at hlen
        exact ⟨List.length_eq_zero_iff.mp (by omega), List.length_eq_zero_iff.mp (by omega)⟩
      · intro ⟨hpre, hpost⟩
        rw [hpre, hpost]
        simp [joinLines]

/-! ## Both protocols -/

/-- **Forwarded content is exactly the new harness content, under exactly these conditions.** For
every list of messages and every frontier index the Anthropic builder forwards the new contents if
and only if nothing else behind the start index has text; the OpenAI builder does, and its system
instruction is the whole one where it sets one, if and only if moreover no system or developer
message has text except the first system message. -/
theorem forwarded_iff (messages : List Json) (k : Nat) (route : RouteTarget)
    (prev : Option String) (model : String) (stream : Bool) (temperature : Option Json)
    (maxTokens : Option UInt32) (system : Option String) (tools : Option (List Json))
    (toolChoice : Option Json) :
    ((buildInteractionsRequestAnthropic messages (startIndex .anthropic messages k) route prev model
          stream temperature maxTokens system tools toolChoice).input =
        newContents .anthropic messages k ↔
      OnlyNewTextIsForwardable .anthropic messages k) ∧
    (((buildInteractionsRequestOpenai messages (startIndex .openAi messages k) route prev model
            stream temperature maxTokens tools toolChoice).input =
          newContents .openAi messages k ∧
        (prev = none →
          (buildInteractionsRequestOpenai messages (startIndex .openAi messages k) route prev model
            stream temperature maxTokens tools toolChoice).systemInstruction =
            wholeSystemInstruction messages)) ↔
      OnlyNewTextIsForwardable .openAi messages k ∧
        (prev = none → OnlyFirstSystemHasText messages)) := by
  refine ⟨converted_eq_newContents_iff .anthropic messages k,
    and_congr (converted_eq_newContents_iff .openAi messages k) ?_⟩
  apply forall_congr'
  intro hprev
  rw [← extractOpenaiSystem_eq_iff, hprev]
  rfl

/-- A user message, an assistant message and a user message, the first of them known. -/
def interleavedMessages : List Json :=
  [.obj [("content", .str "a"), ("role", .str "user")],
    .obj [("content", .str "b"), ("role", .str "assistant")],
    .obj [("content", .str "c"), ("role", .str "user")]]

/-- The assistant message between the known message and the new one is forwarded with it. -/
theorem forwarded_not_always_new :
    ¬ ∀ (messages : List Json) (k : Nat) (route : RouteTarget) (prev : Option String)
        (model : String) (stream : Bool) (temperature : Option Json) (maxTokens : Option UInt32)
        (system : Option String) (tools : Option (List Json)) (toolChoice : Option Json),
      (buildInteractionsRequestAnthropic messages (startIndex .anthropic messages k) route prev
        model stream temperature maxTokens system tools toolChoice).input =
          newContents .anthropic messages k := by
  intro h
  have := h interleavedMessages 1 { maxTokens := none, proxyLimit := none } (some "int-1") "m" false
    none none none none none
  exact absurd this (by decide)

end InfSplitter.Interactions
