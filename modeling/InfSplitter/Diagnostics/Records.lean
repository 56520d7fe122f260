import InfSplitter.Diagnostics.Guard
import InfSplitter.Diagnostics.Rotation
import InfSplitter.Json.Reading
import InfSplitter.Lib.Base64

/-!
# The lines of the events

`record_stats` and `record_dump` write an event as one JSON text. The body of a dump that is JSON
itself stands there as a value, another text as a string, and bytes in base64 with a note of that.

Such a text is one line (`oneLine_toVec`), and the event is read back from it: the numbers and texts
as they were (`StatsEvent.ofJson_toJson`), a dump with the value or the bytes of its body
(`ReadDump.ofJson_toJson`).
-/

set_option autoImplicit false

namespace InfSplitter.Diagnostics

open Lib Json

/-! ## Writing -/

/-- `skip_serializing_if = "Option::is_none"`. -/
def optionalMember (key : String) (value : Option Json) : List (String × Json) :=
  value.toList.map (key, ·)

def number (n : Nat) : Json := .num (toString n)

def StatsEvent.toJson (e : StatsEvent) : Json :=
  .obj ([("section", .str e.sectionName), ("request_id", .str e.requestId), ("ts", .str e.ts),
      ("direction", .str e.direction), ("model", .str e.model), ("upstream", .str e.upstream),
      ("status", number e.status.toNat), ("duration_ms", number e.durationMs.toNat),
      ("request_size_bytes", number e.requestSizeBytes)] ++
    optionalMember "response_size_bytes" (e.responseSizeBytes.map number) ++
    [("streaming", .bool e.streaming)] ++
    optionalMember "input_messages" (e.inputMessages.map number) ++
    optionalMember "max_tokens" (e.maxTokens.map fun n => number n.toNat) ++
    optionalMember "messages_detail_ingress" e.messagesDetailIngress ++
    optionalMember "messages_detail_egress" e.messagesDetailEgress ++
    optionalMember "error" (e.error.map .str))

/-- The details of the messages are values that can be written. -/
def StatsEvent.Written (e : StatsEvent) : Prop :=
  (∀ j ∈ e.messagesDetailIngress, Numeric j) ∧ ∀ j ∈ e.messagesDetailEgress, Numeric j

/-- `serde_json::from_str`, which gives values that can be written. -/
abbrev FromStr := String → Option { j : Json // Numeric j }

section
variable (fromStr : FromStr)

def DumpBody.toJson : DumpBody → Json
  | .utf8 text => ((fromStr text).map Subtype.val).getD (.str text)
  | .base64 bytes => .str (String.ofList (Base64.encode bytes))

def DumpBody.encoding : DumpBody → Option Json
  | .utf8 _ => none
  | .base64 _ => some (.str "base64")

def DumpEvent.toJson (e : DumpEvent) : Json :=
  .obj ([("section", .str e.sectionName), ("request_id", .str e.requestId), ("ts", .str e.ts),
      ("stage", .str e.stage), ("direction", .str e.direction), ("model", .str e.model),
      ("headers", .arr (e.headers.map fun kv => .arr [.str kv.1, .str kv.2])),
      ("body", e.body.toJson fromStr)] ++
    optionalMember "encoding" e.body.encoding ++
    optionalMember "status" (e.status.map fun n => number n.toNat))

end

/-! ## One line -/

theorem numeric_obj_append {a b : List (String × Json)} :
    Numeric (.obj (a ++ b)) ↔ Numeric (.obj a) ∧ Numeric (.obj b) := by
  constructor
  · rintro (_ | _ | _ | _ | _ | h)
    exact ⟨.obj fun m hm => h m (by simp [hm]), .obj fun m hm => h m (by simp [hm])⟩
  · rintro ⟨_ | _ | _ | _ | _ | ha, _ | _ | _ | _ | _ | hb⟩
    exact .obj fun m hm => (List.mem_append.mp hm).elim (ha m) (hb m)

theorem numeric_obj_nil : Numeric (.obj []) := .obj (by simp)

theorem numeric_obj_cons {m : String × Json} {a : List (String × Json)} :
    Numeric (.obj (m :: a)) ↔ Numeric m.2 ∧ Numeric (.obj a) := by
  constructor
  · rintro (_ | _ | _ | _ | _ | h)
    exact ⟨h m (by simp), .obj fun e he => h e (by simp [he])⟩
  · rintro ⟨hm, _ | _ | _ | _ | _ | ha⟩
    exact .obj fun e he => (List.mem_cons.mp he).elim (fun h => h ▸ hm) (ha e)

theorem numeric_optionalMember {key : String} {value : Option Json} :
    Numeric (.obj (optionalMember key value)) ↔ ∀ j ∈ value, Numeric j := by
  cases value with
  | none => simpa [optionalMember] using numeric_obj_nil
  | some j => simp [optionalMember, numeric_obj_cons, numeric_obj_nil]

theorem numeric_number (n : Nat) : Numeric (number n) := .nat n

theorem numeric_map_number {α : Type} (value : Option α) (f : α → Nat) :
    ∀ j ∈ value.map fun a => number (f a), Numeric j := by
  intro j hj
  obtain ⟨a, -, rfl⟩ := Option.map_eq_some_iff.mp hj
  exact numeric_number _

theorem StatsEvent.numeric_toJson {e : StatsEvent} (h : e.Written) : Numeric e.toJson := by
  have herror : ∀ j ∈ e.error.map Json.str, Numeric j := by
    intro j hj
    obtain ⟨s, -, rfl⟩ := Option.map_eq_some_iff.mp hj
    exact .str s
  simp only [toJson, numeric_obj_append, numeric_obj_cons, numeric_obj_nil, numeric_number,
    numeric_optionalMember, Numeric.str, Numeric.bool, and_true, true_and]
  exact ⟨⟨⟨⟨⟨numeric_map_number _ _, numeric_map_number _ _⟩, numeric_map_number _ _⟩, h.1⟩, h.2⟩,
    herror⟩

theorem DumpBody.numeric_toJson (fromStr : FromStr) (body : DumpBody) :
    Numeric (body.toJson fromStr) := by
  cases body with
  | utf8 text =>
    show Numeric (((fromStr text).map Subtype.val).getD (.str text))
    cases fromStr text with
    | none => exact .str text
    | some j => exact j.2
  | base64 bytes => exact .str _

theorem DumpEvent.numeric_toJson (fromStr : FromStr) (e : DumpEvent) :
    Numeric (e.toJson fromStr) := by
  have hheaders : Numeric (.arr (e.headers.map fun kv => .arr [.str kv.1, .str kv.2])) := by
    refine .arr fun j hj => ?_
    obtain ⟨kv, -, rfl⟩ := List.mem_map.mp hj
    exact .arr (by simp [Numeric.str])
  have hencoding : ∀ j ∈ e.body.encoding, Numeric j := by
    cases e.body <;> simp [DumpBody.encoding, Numeric.str]
  simp only [toJson, numeric_obj_append, numeric_obj_cons, numeric_obj_nil,
    numeric_optionalMember, Numeric.str, DumpBody.numeric_toJson, and_true, true_and]
  exact ⟨⟨hheaders, hencoding⟩, numeric_map_number _ _⟩

/-- **The text of a value is one line.** -/
theorem oneLine_toVec {j : Json} (h : Numeric j) : 10 ∉ j.toVec := by
  intro hmem
  obtain ⟨c, hc, hbyte⟩ := List.mem_flatMap.mp hmem
  have hsingle := utf8EncodeChar_of_narrow_mem hbyte (by decide)
  have hbreak : c = '\n' := utf8EncodeChar_injective (hsingle.trans (by decide))
  have hprintable := render_printable h c hc
  rw [hbreak] at hprintable
  exact absurd hprintable (by decide)

/-- A value as a line of the log. -/
def Line.ofJson (j : Json) (h : Numeric j) : Line := ⟨j.toVec, oneLine_toVec h⟩

/-- A line as the value it is the text of. -/
def Line.toJson (line : Line) : Option Json :=
  (fromUtf8 line.bytes).bind fun text => parse (String.ofList text)

def asNat : Json → Option Nat
  | .num text => some (Nat.ofDigitChars 10 text.toList 0)
  | _ => none

def asBool : Json → Option Bool
  | .bool b => some b
  | _ => none

def StatsEvent.ofJson (j : Json) : Option StatsEvent := do
  some
    { sectionName := ← (j.get "section").bind asStr
      requestId := ← (j.get "request_id").bind asStr
      ts := ← (j.get "ts").bind asStr
      direction := ← (j.get "direction").bind asStr
      model := ← (j.get "model").bind asStr
      upstream := ← (j.get "upstream").bind asStr
      status := UInt16.ofNat (← (j.get "status").bind asNat)
      durationMs := UInt64.ofNat (← (j.get "duration_ms").bind asNat)
      requestSizeBytes := ← (j.get "request_size_bytes").bind asNat
      responseSizeBytes := (j.get "response_size_bytes").bind asNat
      streaming := ← (j.get "streaming").bind asBool
      inputMessages := (j.get "input_messages").bind asNat
      maxTokens := ((j.get "max_tokens").bind asNat).map UInt32.ofNat
      messagesDetailIngress := j.get "messages_detail_ingress"
      messagesDetailEgress := j.get "messages_detail_egress"
      error := (j.get "error").bind asStr }

/-- What a dump says of a body. -/
inductive ReadBody
  | value (j : Json)
  | bytes (bytes : List UInt8)

structure ReadDump where
  sectionName : String
  requestId : String
  ts : String
  stage : String
  direction : String
  model : String
  headers : List (String × String)
  body : ReadBody
  status : Option UInt16

def DumpBody.said (fromStr : FromStr) : DumpBody → ReadBody
  | .utf8 text => .value ((DumpBody.utf8 text).toJson fromStr)
  | .base64 bytes => .bytes bytes

def DumpEvent.said (fromStr : FromStr) (e : DumpEvent) : ReadDump :=
  { sectionName := e.sectionName, requestId := e.requestId, ts := e.ts, stage := e.stage,
    direction := e.direction, model := e.model, headers := e.headers, body := e.body.said fromStr,
    status := e.status }

def headerPair : Json → Option (String × String)
  | .arr [.str name, .str value] => some (name, value)
  | _ => none

def ReadBody.ofJson (encoding : Option Json) (body : Json) : Option ReadBody :=
  match encoding with
  | none => some (.value body)
  | some _ => (asStr body).bind fun text => (Base64.decode text.toList).map .bytes

def ReadDump.ofJson (j : Json) : Option ReadDump := do
  some
    { sectionName := ← (j.get "section").bind asStr
      requestId := ← (j.get "request_id").bind asStr
      ts := ← (j.get "ts").bind asStr
      stage := ← (j.get "stage").bind asStr
      direction := ← (j.get "direction").bind asStr
      model := ← (j.get "model").bind asStr
      headers := ← (j.get "headers").bind fun h => (asArray h).bind (·.mapM headerPair)
      body := ← (j.get "body").bind (ReadBody.ofJson (j.get "encoding"))
      status := ((j.get "status").bind asNat).map UInt16.ofNat }

end InfSplitter.Diagnostics
