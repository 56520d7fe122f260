import InfSplitter.Interactions.Messages

/-!
# Building the upstream request

`CreateModelInteractionParams` with the fields the proxy sets, its JSON, and the builders. The
fields that configure a conversation (system instruction, tools, generation config) go into the
request that starts a chain and into no other.

Tools, tool choices and the temperature are passed through, so they are JSON values here.
-/

set_option autoImplicit false

namespace InfSplitter.Interactions

structure GenerationConfig where
  temperature : Option Json
  maxOutputTokens : Option Int
  toolChoice : Option Json
deriving Repr

structure CreateModelInteractionParams where
  model : String
  input : List Content
  stream : Option Bool
  systemInstruction : Option String
  tools : Option (List Json)
  generationConfig : Option GenerationConfig
  previousInteractionId : Option String
deriving Repr

/-- The fields of a route the request depends on. -/
structure RouteTarget where
  maxTokens : Option UInt32
  proxyLimit : Option Nat
deriving DecidableEq, Repr

/-! ## The JSON of a request -/

/-- A member that is left out when it is `None`. -/
def member {α : Type} (key : String) (toJson : α → Json) : Option α → List (String × Json)
  | some a => [(key, toJson a)]
  | none => []

def Content.toJson (c : Content) : Json := .obj [("text", .str c.text), ("type", .str "text")]

def GenerationConfig.toJson (g : GenerationConfig) : Json :=
  .obj (member "max_output_tokens" (fun n : Int => .num (toString n)) g.maxOutputTokens ++
    member "temperature" id g.temperature ++ member "tool_choice" id g.toolChoice)

def CreateModelInteractionParams.toJson (p : CreateModelInteractionParams) : Json :=
  .obj (member "generation_config" GenerationConfig.toJson p.generationConfig ++
    [("input", .arr (p.input.map Content.toJson)), ("model", .str p.model)] ++
    member "previous_interaction_id" .str p.previousInteractionId ++
    member "stream" .bool p.stream ++
    member "system_instruction" .str p.systemInstruction ++
    member "tools" .arr p.tools)

/-! ## The builders -/

/-- The generation config of a request that starts a chain. The route's `max_tokens` is a cap. -/
def firstGenerationConfig (route : RouteTarget) (temperature : Option Json)
    (ingressMaxTokens : Option UInt32) (toolChoice : Option Json) : Option GenerationConfig :=
  let maxTokens :=
    match route.maxTokens, ingressMaxTokens with
    | some routeCap, some clientVal => some (min routeCap clientVal)
    | some routeCap, none => some routeCap
    | none, clientVal => clientVal
  if maxTokens.isSome || temperature.isSome || toolChoice.isSome then
    some { temperature := temperature, maxOutputTokens := maxTokens.map fun v => (v.toNat : Int),
           toolChoice := toolChoice }
  else none

def buildRequestBody (contents : List Content) (route : RouteTarget)
    (previousInteractionId : Option String) (model : String) (stream : Bool)
    (temperature : Option Json) (ingressMaxTokens : Option UInt32)
    (systemInstruction : Option String) (tools : Option (List Json)) (toolChoice : Option Json) :
    CreateModelInteractionParams :=
  let isFirst := previousInteractionId.isNone
  { model := model
    input := contents
    stream := some stream
    tools := if isFirst then tools.filter fun t => !t.isEmpty else none
    generationConfig :=
      if isFirst then firstGenerationConfig route temperature ingressMaxTokens toolChoice
      else none
    systemInstruction := if isFirst then systemInstruction else none
    previousInteractionId := previousInteractionId }

def buildInteractionsRequestAnthropic (messages : List Json) (startIndex : Nat)
    (route : RouteTarget) (previousInteractionId : Option String) (model : String)
    (stream : Bool) (temperature : Option Json) (ingressMaxTokens : Option UInt32)
    (system : Option String) (tools : Option (List Json)) (toolChoice : Option Json) :
    CreateModelInteractionParams :=
  buildRequestBody ((messages.drop startIndex).filterMap extractAnthropicContent) route
    previousInteractionId model stream temperature ingressMaxTokens system tools toolChoice

def buildInteractionsRequestOpenai (messages : List Json) (startIndex : Nat)
    (route : RouteTarget) (previousInteractionId : Option String) (model : String)
    (stream : Bool) (temperature : Option Json) (ingressMaxTokens : Option UInt32)
    (tools : Option (List Json)) (toolChoice : Option Json) : CreateModelInteractionParams :=
  buildRequestBody ((messages.drop startIndex).filterMap extractOpenaiContent) route
    previousInteractionId model stream temperature ingressMaxTokens (extractOpenaiSystem messages)
    tools toolChoice

/-- One request of a split send. -/
def buildChunkRequest (model : String) (input : List Content) (systemInstruction : Option String)
    (previousInteractionId : Option String) (stream : Bool) : CreateModelInteractionParams :=
  { model := model, input := input, stream := some stream, systemInstruction := systemInstruction,
    tools := none, generationConfig := none, previousInteractionId := previousInteractionId }

end InfSplitter.Interactions
