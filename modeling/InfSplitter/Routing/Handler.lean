import InfSplitter.Interactions.Request
import InfSplitter.Session.Frontier

/-!
# The ingress handlers

`handle_from_anthropic` and `handle_from_openai` from the parsed body to the upstream request, after
control messages are stripped. The two differ in where the system instruction comes from and in the
builder they call; `Ingress` holds what either reads from the body.

The hash is `xxh3-64` of a third-party crate and stays a parameter.
-/

set_option autoImplicit false

namespace InfSplitter.Routing

open Session Interactions

/-- What a handler reads from the body. `system` is what `extract_anthropic_system` finds. -/
structure Ingress where
  protocol : Protocol
  messages : List Json
  model : String
  stream : Bool
  temperature : Option Json
  maxTokens : Option UInt32
  system : Option String
  tools : Option (List Json)
  toolChoice : Option Json

section
variable (xxh3 : List UInt8 → UInt64)

def hashHarnessMessage (message : Json) : UInt64 := xxh3 message.toVec

def hashSystemInstruction (value : String) : UInt64 := xxh3 (Json.str value).toVec

namespace Ingress

def hashes (req : Ingress) : List UInt64 :=
  (filterHarnessMessages req.protocol req.messages).map (hashHarnessMessage xxh3)

/-- The system instruction the request would start a chain with. -/
def systemInstruction (req : Ingress) : Option String :=
  match req.protocol with
  | .anthropic => req.system
  | .openAi => extractOpenaiSystem req.messages

def systemHash (req : Ingress) : Option UInt64 :=
  req.systemInstruction.map (hashSystemInstruction xxh3)

def buildRequest (req : Ingress) (route : RouteTarget) (frontier : Frontier) :
    CreateModelInteractionParams :=
  let start := startIndex req.protocol req.messages frontier.index
  match req.protocol with
  | .anthropic =>
    buildInteractionsRequestAnthropic req.messages start route frontier.previousInteractionId
      req.model req.stream req.temperature req.maxTokens req.system req.tools req.toolChoice
  | .openAi =>
    buildInteractionsRequestOpenai req.messages start route frontier.previousInteractionId
      req.model req.stream req.temperature req.maxTokens req.tools req.toolChoice

end Ingress

/-- How a handler goes on once the frontier is known. -/
inductive Decision
  | replay (clientId : String)
  -- `BadRequest("empty messages on new session")`
  | reject
  | send (params : CreateModelInteractionParams)

def decision (req : Ingress) (route : RouteTarget) (frontier : Frontier) : Decision :=
  match frontier.allKnown, frontier.matchedClientId with
  | true, some clientId => .replay clientId
  | _, _ =>
    if req.hashes xxh3 = [] ∧ frontier.previousInteractionId = none then .reject
    else .send (req.buildRequest route frontier)

/-- The lookup of a handler and what follows from it. -/
def lookupDecision (store : InteractionStore) (route : RouteTarget) (req : Ingress) :
    Option Decision :=
  (findFrontier store (req.hashes xxh3) none none).map (decision xxh3 req route)

theorem lookupDecision_eq {xxh3 : List UInt8 → UInt64} {store : InteractionStore}
    (route : RouteTarget) {req : Ingress} {frontier : Frontier}
    (found : findFrontier store (req.hashes xxh3) none none = some frontier) :
    lookupDecision xxh3 store route req = some (decision xxh3 req route frontier) := by
  unfold lookupDecision
  rw [found]
  rfl

/-- The system hash a request with previous id `prev` waits with: only requests that start a chain
have one. -/
def awaitedSystemHash (req : Ingress) (prev : Option String) : Option UInt64 :=
  if prev.isNone then req.systemHash xxh3 else none

/-- The client node `wait_for_inflight_batch` replays from, if the batch it waited for left one
behind; `prev` is the previous id the lookup gave. -/
def awaitDecision (store : InteractionStore) (req : Ingress) (prev : Option String) :
    Option (Option String) :=
  (findFrontier store (req.hashes xxh3) prev (awaitedSystemHash xxh3 req prev)).map
    fun frontier => if frontier.allKnown then frontier.matchedClientId else none

end

/-- Both builders configure a request that starts a chain, and no other. -/
theorem Ingress.buildRequest_fields (req : Ingress) (route : RouteTarget) (frontier : Frontier) :
    (req.buildRequest route frontier).previousInteractionId = frontier.previousInteractionId ∧
      (frontier.previousInteractionId = none →
        (req.buildRequest route frontier).systemInstruction = req.systemInstruction ∧
        (req.buildRequest route frontier).tools = req.tools.filter (fun t => !t.isEmpty) ∧
        (req.buildRequest route frontier).generationConfig =
          firstGenerationConfig route req.temperature req.maxTokens req.toolChoice) := by
  unfold Ingress.buildRequest Ingress.systemInstruction
  cases req.protocol with
  | anthropic =>
    refine ⟨rfl, ?_⟩
    intro h
    rw [h]
    exact ⟨rfl, rfl, rfl⟩
  | openAi =>
    refine ⟨rfl, ?_⟩
    intro h
    rw [h]
    exact ⟨rfl, rfl, rfl⟩

end InfSplitter.Routing
