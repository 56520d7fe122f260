import InfSplitter.Interactions.Request
import InfSplitter.Responses.Interaction

/-!
# Responses as JSON

The response types are written by code of a third-party crate, so a `Wire` is any way to write them
that keeps different responses apart; that is all a comparison of two bodies needs. `usualWire` is
the JSON the two protocols document.
-/

set_option autoImplicit false

namespace InfSplitter.Responses

open Interactions

/-- How the crate's types are written as JSON. Each of them can be read back, so no two values are
written alike. -/
structure Wire where
  toValue : TypedResponse → Json
  toValue_injective : Function.Injective toValue

def buildResponseFromInteraction (wire : Wire) (interaction : Interaction) (model : String)
    (ingress : Protocol) : Json :=
  wire.toValue (buildTypedResponse interaction model ingress)

/-! ## The documented JSON -/

def countValue (n : UInt32) : Json := .num n.toNat.repr

def Role.toValue : Role → Json
  | .user => .str "user"
  | .assistant => .str "assistant"

def StopReason.toValue : StopReason → Json
  | .endTurn => .str "end_turn"
  | .toolUse => .str "tool_use"

def FinishReason.toValue : FinishReason → Json
  | .stop => .str "stop"
  | .toolCalls => .str "tool_calls"

def ContentBlock.toValue : ContentBlock → Json
  | .text t => .obj [("text", .str t), ("type", .str "text")]
  | .toolUse id name input =>
    .obj [("id", .str id), ("input", input), ("name", .str name), ("type", .str "tool_use")]

def MessageResponse.toValue (r : MessageResponse) : Json :=
  .obj ([("content", .arr (r.content.map ContentBlock.toValue)), ("id", .str r.id),
      ("model", .str r.model), ("role", r.role.toValue)] ++
    member "stop_reason" StopReason.toValue r.stopReason ++
    [("type", .str r.responseType),
      ("usage", .obj [("input_tokens", countValue r.usage.inputTokens),
        ("output_tokens", countValue r.usage.outputTokens)])])

def ToolCall.toValue (c : ToolCall) : Json :=
  .obj [("function", .obj [("arguments", .str c.arguments), ("name", .str c.name)]),
    ("id", .str c.id), ("type", .str c.callType)]

def ChatMessage.toValue (m : ChatMessage) : Json :=
  .obj (member "content" .str m.content ++ [("role", m.role.toValue)] ++
    member "tool_calls" (fun calls => .arr (calls.map ToolCall.toValue)) m.toolCalls)

def Choice.toValue (c : Choice) : Json :=
  .obj (member "finish_reason" FinishReason.toValue c.finishReason ++
    [("index", countValue c.index), ("message", c.message.toValue)])

def ChatUsage.toValue (u : ChatUsage) : Json :=
  .obj [("completion_tokens", countValue u.completionTokens),
    ("prompt_tokens", countValue u.promptTokens), ("total_tokens", countValue u.totalTokens)]

def ChatCompletionResponse.toValue (r : ChatCompletionResponse) : Json :=
  .obj ([("choices", .arr (r.choices.map Choice.toValue)), ("id", .str r.id),
      ("model", .str r.model), ("object", .str r.object)] ++
    member "usage" ChatUsage.toValue r.usage)

def TypedResponse.toValue : TypedResponse → Json
  | .anthropic r => r.toValue
  | .openAi r => r.toValue

section
open Function

theorem countValue_injective : Injective countValue := by
  intro a b h
  have hdigits := congrArg (Nat.ofDigitChars 10 · 0)
    (congrArg String.toList (Json.num.inj h))
  simp only [Nat.toList_repr, Nat.ofDigitChars_ten_toDigits] at hdigits
  exact UInt32.toNat.inj hdigits

theorem Role.toValue_injective : Injective Role.toValue := by
  intro a b h
  cases a <;> cases b <;> simp_all [Role.toValue]

theorem StopReason.toValue_injective : Injective StopReason.toValue := by
  intro a b h
  cases a <;> cases b <;> simp_all [StopReason.toValue]

theorem FinishReason.toValue_injective : Injective FinishReason.toValue := by
  intro a b h
  cases a <;> cases b <;> simp_all [FinishReason.toValue]

theorem ContentBlock.toValue_injective : Injective ContentBlock.toValue := by
  intro a b h
  cases a <;> cases b <;> simp_all [ContentBlock.toValue]

theorem ToolCall.toValue_injective : Injective ToolCall.toValue := by
  intro a b h
  cases a
  cases b
  simp_all [ToolCall.toValue]


theorem MessageResponse.toValue_injective : Injective MessageResponse.toValue := by
  intro a b h
  obtain ⟨id, type, role, model, content, stop, input, output⟩ := a
  obtain ⟨id', type', role', model', content', stop', input', output'⟩ := b
  cases stop <;> cases stop' <;>
    simp_all [MessageResponse.toValue, member, (List.map_injective_iff.mpr
      ContentBlock.toValue_injective).eq_iff, Role.toValue_injective.eq_iff,
      StopReason.toValue_injective.eq_iff, countValue_injective.eq_iff]

theorem ChatMessage.toValue_injective : Injective ChatMessage.toValue := by
  intro a b h
  obtain ⟨role, content, calls⟩ := a
  obtain ⟨role', content', calls'⟩ := b
  cases content <;> cases content' <;> cases calls <;> cases calls' <;>
    simp_all [ChatMessage.toValue, member, Role.toValue_injective.eq_iff,
      (List.map_injective_iff.mpr ToolCall.toValue_injective).eq_iff]

theorem Choice.toValue_injective : Injective Choice.toValue := by
  intro a b h
  obtain ⟨index, message, finish⟩ := a
  obtain ⟨index', message', finish'⟩ := b
  cases finish <;> cases finish' <;>
    simp_all [Choice.toValue, member, FinishReason.toValue_injective.eq_iff,
      ChatMessage.toValue_injective.eq_iff, countValue_injective.eq_iff]

theorem ChatUsage.toValue_injective : Injective ChatUsage.toValue := by
  intro a b h
  cases a
  cases b
  simp_all [ChatUsage.toValue, countValue_injective.eq_iff]

theorem ChatCompletionResponse.toValue_injective : Injective ChatCompletionResponse.toValue := by
  intro a b h
  obtain ⟨id, object, model, choices, usage⟩ := a
  obtain ⟨id', object', model', choices', usage'⟩ := b
  cases usage <;> cases usage' <;>
    simp_all [ChatCompletionResponse.toValue, member, ChatUsage.toValue_injective.eq_iff,
      (List.map_injective_iff.mpr Choice.toValue_injective).eq_iff]

/-- The JSON of the two protocols. -/
def usualWire : Wire where
  toValue := TypedResponse.toValue
  toValue_injective := by
    intro a b h
    cases a with
    | anthropic r =>
      cases b with
      | anthropic r' => rw [MessageResponse.toValue_injective h]
      | openAi r' => simp [TypedResponse.toValue, MessageResponse.toValue,
          ChatCompletionResponse.toValue] at h
    | openAi r =>
      cases b with
      | anthropic r' => simp [TypedResponse.toValue, MessageResponse.toValue,
          ChatCompletionResponse.toValue] at h
      | openAi r' => rw [ChatCompletionResponse.toValue_injective h]

end

end InfSplitter.Responses
