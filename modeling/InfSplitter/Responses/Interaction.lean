import InfSplitter.Interactions.Messages

/-!
# An upstream interaction and the answer made of it

`Interaction` with the fields the proxy reads, and `build_response_from_interaction`, which turns
one into a response of either ingress protocol. It finds the tool calls
(`extractInteractionToolCalls`), the text (`extractInteractionText`) and the token counts
(`clampI64ToU32`) apart from each other, and then shows the calls if there are any and the text if
there are none.

The response types belong to a third-party crate. What is kept of them is every field that is not
`None` for all answers.
-/

set_option autoImplicit false

namespace InfSplitter.Responses

open Interactions

/-! ## Interactions -/

/-- `Content`. Only the text of a text content is ever read. -/
inductive Content
  | textContent (text : String)
  | other (type : String)

inductive Step
  | modelOutputStep (content : Option (List Content))
  | functionCallStep (id name : String) (arguments : Option Json)
  -- the fifteen kinds of steps that are passed over
  | other (type : String)

structure Usage where
  totalTokens : Option Int64
  totalInputTokens : Option Int64
  totalOutputTokens : Option Int64
deriving DecidableEq, Repr

structure Interaction where
  id : String
  status : String
  created : Option String
  updated : Option String
  steps : Option (List Step)
  model : Option String
  usage : Option Usage

/-- `steps.as_deref().unwrap_or_default()`. -/
def Interaction.stepList (interaction : Interaction) : List Step := interaction.steps.getD []

/-! ## Reading an interaction -/

/-- A call as `(id, name, arguments)`. -/
abbrev Call := String × String × Json

def Step.call? : Step → Option Call
  | .functionCallStep id name arguments => some (id, name, arguments.getD .null)
  | _ => none

def extractInteractionToolCalls (interaction : Interaction) : Option (List Call) :=
  if interaction.status ≠ "requires_action" then none
  else
    let calls := interaction.stepList.filterMap Step.call?
    if calls.isEmpty then none else some calls

def Content.text? : Content → Option String
  | .textContent text => some text
  | .other _ => none

/-- The text of one step. -/
def Step.text? : Step → Option String
  | .modelOutputStep content => content.map fun c => String.join (c.filterMap Content.text?)
  | _ => none

def extractInteractionText (interaction : Interaction) : String :=
  String.join (interaction.stepList.filterMap Step.text?)

def clampI64ToU32 (n : Int64) : UInt32 :=
  if n < 0 then 0
  else if n > 4294967295 then 4294967295
  else n.toUInt64.toUInt32

/-- A token count of the usage, 0 where there is none. -/
def Interaction.tokens (interaction : Interaction) (count : Usage → Option Int64) : Int64 :=
  (interaction.usage.bind count).getD 0

/-! ## Responses -/

inductive Role
  | user
  | assistant
deriving DecidableEq, Repr

inductive StopReason
  | endTurn
  | toolUse
deriving DecidableEq, Repr

inductive FinishReason
  | stop
  | toolCalls
deriving DecidableEq, Repr

inductive ContentBlock
  | text (text : String)
  | toolUse (id name : String) (input : Json)

structure MessageUsage where
  inputTokens : UInt32
  outputTokens : UInt32
deriving DecidableEq, Repr

structure MessageResponse where
  id : String
  responseType : String
  role : Role
  model : String
  content : List ContentBlock
  stopReason : Option StopReason
  usage : MessageUsage

/-- `ToolCall` with its `FunctionCall`; the arguments are the text of a JSON value. -/
structure ToolCall where
  id : String
  callType : String
  name : String
  arguments : String
deriving DecidableEq, Repr

structure ChatMessage where
  role : Role
  content : Option String
  toolCalls : Option (List ToolCall)
deriving DecidableEq, Repr

structure Choice where
  index : UInt32
  message : ChatMessage
  finishReason : Option FinishReason
deriving DecidableEq, Repr

structure ChatUsage where
  promptTokens : UInt32
  completionTokens : UInt32
  totalTokens : UInt32
deriving DecidableEq, Repr

structure ChatCompletionResponse where
  id : String
  object : String
  model : String
  choices : List Choice
  usage : Option ChatUsage
deriving DecidableEq, Repr

/-- A response before it is written as JSON. -/
inductive TypedResponse
  | anthropic (response : MessageResponse)
  | openAi (response : ChatCompletionResponse)

/-- `u32::saturating_add`. -/
def saturatingAdd (a b : UInt32) : UInt32 :=
  if a.toNat + b.toNat < UInt32.size then a + b else 4294967295

def ContentBlock.ofCall (call : Call) : ContentBlock := .toolUse call.1 call.2.1 call.2.2

def ToolCall.ofCall (call : Call) : ToolCall :=
  { id := call.1, callType := "function", name := call.2.1, arguments := call.2.2.render }

def messageResponse (interaction : Interaction) (model : String) (text : String)
    (toolCalls : Option (List Call)) (input output : UInt32) : MessageResponse :=
  { id := interaction.id, responseType := "message", role := .assistant, model := model
    content :=
      match toolCalls with
      | some calls => calls.map ContentBlock.ofCall
      | none => [.text text]
    stopReason := if toolCalls.isSome then some .toolUse else some .endTurn
    usage := { inputTokens := input, outputTokens := output } }

def chatCompletionResponse (interaction : Interaction) (model : String) (text : String)
    (toolCalls : Option (List Call)) (input output : UInt32) : ChatCompletionResponse :=
  { id := interaction.id, object := "chat.completion", model := model
    choices :=
      [{ index := 0
         message :=
           { role := .assistant
             content := if toolCalls.isSome then none else some text
             toolCalls := toolCalls.map fun calls => calls.map ToolCall.ofCall }
         finishReason := if toolCalls.isSome then some .toolCalls else some .stop }]
    usage := some { promptTokens := input, completionTokens := output,
                    totalTokens := saturatingAdd input output } }

/-- `build_response_from_interaction` up to `serde_json::to_value`. -/
def buildTypedResponse (interaction : Interaction) (model : String) (ingress : Protocol) :
    TypedResponse :=
  let text := extractInteractionText interaction
  let toolCalls := extractInteractionToolCalls interaction
  let input := clampI64ToU32 (interaction.tokens Usage.totalInputTokens)
  let output := clampI64ToU32 (interaction.tokens Usage.totalOutputTokens)
  match ingress with
  | .openAi => .openAi (chatCompletionResponse interaction model text toolCalls input output)
  | .anthropic => .anthropic (messageResponse interaction model text toolCalls input output)

end InfSplitter.Responses
