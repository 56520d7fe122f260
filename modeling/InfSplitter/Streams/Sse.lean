import InfSplitter.Lib.Frames
import InfSplitter.Lib.Utf8
import InfSplitter.Streams.Events

/-!
# Server-sent events as text

An upstream stream is text: events end at an empty line, and what counts of an event is the payload
of its `data:` lines. What goes to the client is text again, one `Sent` after another.

Reading a payload, writing an event and the translation to OpenAI chunks are done by third-party
crates and gathered in `External`. The reverse translator among them is any state machine that
answers an event with a list of chunks.
-/

set_option autoImplicit false

namespace InfSplitter.Streams

open Interactions Lib

/-! ## Reading -/

def trim (text : List Char) : List Char :=
  ((text.dropWhile isWhitespace).reverse.dropWhile isWhitespace).reverse

def stripPrefix (start text : List Char) : Option (List Char) :=
  if start <+: text then some (text.drop start.length) else none

/-- `str::lines`: the line breaks are left out, a last line without one is kept as it is. -/
def lines (text : List Char) : List (List Char) :=
  let cut := frames ['\n'] text
  cut.1.map (fun line => if line.getLast? = some '\r' then line.dropLast else line) ++
    (if cut.2 = [] then [] else [cut.2])

/-- The payload of a `data:` line, if it has one that is read at all. -/
def payload? (line : List Char) : Option (List Char) :=
  ((stripPrefix "data: ".toList line).or (stripPrefix "data:".toList line)).bind fun data =>
    if trim data = [] ∨ trim data = "[DONE]".toList then none else some (trim data)

def payloads (event : List Char) : List (List Char) := (lines event).filterMap payload?

def eventEnd : List Char := ['\n', '\n']

theorem eventEnd_ne_nil : eventEnd ≠ [] := List.cons_ne_nil _ _

/-! ## What the crates do -/

/-- The parts of third-party crates that a stream goes through. `τ` is the state of a reverse
translator and `χ` a chunk of it. -/
structure External (τ χ : Type) where
  /-- `serde_json::from_str::<InteractionSseEvent>` -/
  fromStr : List Char → Option InteractionSseEvent
  /-- what a `message_delta` is built with of two token counts -/
  usageOf : UInt64 → UInt64 → Option DeltaUsage
  /-- `serde_json::to_string` of a client event and of a chunk -/
  eventToString : StreamEvent → Option String
  chunkToString : χ → Option String
  newReverseStreamTranslator : String → String → τ
  processEvent : τ → StreamEvent → τ × List χ

/-- The counts that a `message_delta` is built with at all. -/
def External.accepts {τ χ : Type} (lib : External τ χ) (inputTokens outputTokens : UInt64) :
    Bool :=
  (lib.usageOf inputTokens outputTokens).isSome

section
variable {τ χ : Type} {lib : External τ χ} {inputTokens outputTokens : UInt64}

theorem External.accepts_iff : lib.accepts inputTokens outputTokens = true ↔
    ∃ usage, lib.usageOf inputTokens outputTokens = some usage := Option.isSome_iff_exists

theorem External.not_accepts_iff : ¬ lib.accepts inputTokens outputTokens = true ↔
    lib.usageOf inputTokens outputTokens = none := Option.not_isSome_iff_eq_none

end

/-! ## Writing -/

def eventName : StreamEvent → String
  | .messageStart .. => "message_start"
  | .contentBlockStart .. => "content_block_start"
  | .contentBlockDelta .. => "content_block_delta"
  | .contentBlockStop .. => "content_block_stop"
  | .messageDelta .. => "message_delta"
  | .messageStop => "message_stop"
  | .error .. => "error"

section
variable {τ χ : Type} (lib : External τ χ)

def formatSseEventStr (event : StreamEvent) : String :=
  let payload := (lib.eventToString event).getD "\x7b\x7d"
  "event: " ++ eventName event ++ "\ndata: " ++ payload ++ "\n\n"

def formatOpenaiSseChunk (chunk : χ) : String :=
  let payload := (lib.chunkToString chunk).getD "\x7b\x7d"
  "data: " ++ payload ++ "\n\n"

/-- One thing sent to the client. -/
inductive Sent (χ : Type)
  | event (event : StreamEvent)
  | chunk (chunk : χ)
  | done
deriving DecidableEq, Repr

def Sent.text : Sent χ → String
  | .event e => formatSseEventStr lib e
  | .chunk c => formatOpenaiSseChunk lib c
  | .done => "data: [DONE]\n\n"

/-- The text of everything sent. -/
def render (sent : List (Sent χ)) : String := String.join (sent.map (Sent.text lib))

end

/-! ## The client's side of a stream -/

structure ClientSide (τ χ : Type) where
  translator : Option τ
  sent : List (Sent χ)

namespace ClientSide

variable {τ χ : Type}

def fresh : ClientSide τ χ := { translator := none, sent := [] }

/-- One client event. An Anthropic client gets it as it is; for an OpenAI client a `message_start`
makes a new translator, and of what the translator answers to the other events the chunks picked by
`pick` are sent. -/
def send (lib : External τ χ) (pick : List χ → List χ) (ingress : Protocol) (model : String)
    (client : ClientSide τ χ) (event : StreamEvent) : ClientSide τ χ :=
  match ingress, event, client.translator with
  | .anthropic, event, _ => { client with sent := client.sent ++ [.event event] }
  | .openAi, .messageStart id _ _ _, _ =>
    { client with translator := some (lib.newReverseStreamTranslator id model) }
  | .openAi, _, none => client
  | .openAi, event, some active =>
    { translator := some (lib.processEvent active event).1
      sent := client.sent ++ (pick (lib.processEvent active event).2).map Sent.chunk }

end ClientSide

end InfSplitter.Streams
