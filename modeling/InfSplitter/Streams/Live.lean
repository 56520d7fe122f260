import InfSplitter.Streams.Buffered

/-!
# The live translation of a stream

`handle_stream_response` translates a stream while it arrives. Every chunk has to be text of its
own; the events that are complete with it are translated at once, and what they are translated to is
sent before the next chunk is read. The id of the first `interaction.created` is recorded on the
way.

Against the translation of buffered streams, no control event is dropped, an event without an empty
line behind it is never translated, and of the chunks the reverse translator answers one event with
only the first is sent. On a complete stream of one piece the last two are all the difference there
is (`live_agrees_iff`).
-/

set_option autoImplicit false

namespace InfSplitter.Streams

open Interactions Lib Responses

def MAX_SSE_BUFFER_BYTES : Nat := 1048576

/-- What the task has done. `ended` is set when it returns before the end of the stream, or
panics. -/
structure Live (τ χ : Type) where
  client : ClientSide τ χ
  lastActiveIndex : Option UInt32
  persisted : Option String
  ended : Bool

/-- The task between two chunks, with the text that is not yet a whole event. -/
structure StreamReader (τ χ : Type) where
  buffer : List Char
  live : Live τ χ

def InteractionSseEvent.createdId? : InteractionSseEvent → Option String
  | .interactionCreatedEvent interaction => some interaction.id
  | _ => none

section
variable {τ χ : Type} (lib : External τ χ) (ingress : Protocol) (model : String)

namespace Live

def start : Live τ χ :=
  { client := ClientSide.fresh, lastActiveIndex := none, persisted := none, ended := false }

def onPayload (live : Live τ χ) (data : List Char) : Live τ χ :=
  if live.ended then live
  else
    match lib.fromStr data with
    | none => live
    | some event =>
      match translateStreamEventFromParsed lib.usageOf model live.lastActiveIndex event with
      | none => { live with ended := true }
      | some t =>
        { client := (t.events.getD []).foldl (ClientSide.send lib (List.take 1) ingress model)
            live.client
          lastActiveIndex := t.lastActiveIndex
          persisted := live.persisted.or event.createdId?
          ended := false }

def onEvent (live : Live τ χ) (event : List Char) : Live τ χ :=
  (payloads event).foldl (onPayload lib ingress model) live

/-- An error event ends the task. -/
def fail (live : Live τ χ) (message : String) : Live τ χ :=
  { live with
    client := { live.client with
      sent := live.client.sent ++ [.event (.error "upstream_error" message)] }
    ended := true }

/-- Everything sent, at the end of the stream. -/
def flush (live : Live τ χ) : List (Sent χ) :=
  if live.ended = false ∧ live.client.translator.isSome then live.client.sent ++ [.done]
  else live.client.sent

end Live

def StreamReader.onChunk (reader : StreamReader τ χ) (chunk : List UInt8) : StreamReader τ χ :=
  if reader.live.ended then reader
  else
    match fromUtf8 chunk with
    | none => { reader with live := reader.live.fail "non-utf8 response from upstream" }
    | some text =>
      let buffer := reader.buffer ++ text
      if (encodeUtf8 buffer).length > MAX_SSE_BUFFER_BYTES then
        { buffer, live := reader.live.fail "sse buffer exceeded max line length" }
      else
        let cut := frames eventEnd buffer
        { buffer := cut.2, live := cut.1.foldl (Live.onEvent lib ingress model) reader.live }

def readStream (chunks : List (List UInt8)) : StreamReader τ χ :=
  chunks.foldl (StreamReader.onChunk lib ingress model) { buffer := [], live := Live.start }

/-- What `handle_stream_response` sends, and the id it records. -/
def handleStreamResponse (chunks : List (List UInt8)) : List (Sent χ) × Option String :=
  let live := (readStream lib ingress model chunks).live
  (live.flush, live.persisted)

/-- The event loop on a text that is there as a whole. -/
def liveTranslation (text : List Char) : Live τ χ :=
  (frames eventEnd text).1.foldl (Live.onEvent lib ingress model) Live.start

end

/-! ## The loop as a translation -/

section
variable {τ χ : Type} {lib : External τ χ} {ingress : Protocol} {model : String}

/-- Events that can be translated are, and are sent one after another. -/
theorem foldl_onPayload (lib : External τ χ) (ingress : Protocol) (model : String)
    (live : Live τ χ) (hlive : live.ended = false) {data : List (List Char)}
    {events : List StreamEvent}
    (h : translateAll lib.usageOf model live.lastActiveIndex (data.filterMap lib.fromStr) =
      some events) :
    (data.foldl (Live.onPayload lib ingress model) live).client =
        events.foldl (ClientSide.send lib (List.take 1) ingress model) live.client ∧
      (data.foldl (Live.onPayload lib ingress model) live).ended = false := by
  induction data generalizing live events with
  | nil =>
    cases h
    exact ⟨rfl, hlive⟩
  | cons text rest ih =>
    rw [List.foldl_cons]
    cases hparsed : lib.fromStr text with
    | none =>
      rw [List.filterMap_cons_none hparsed] at h
      have hstep : live.onPayload lib ingress model text = live := by
        simp [Live.onPayload, hparsed]
      rw [hstep]
      exact ih live hlive h
    | some event =>
      rw [List.filterMap_cons_some hparsed, translateAll] at h
      obtain ⟨t, ht, hrest⟩ := Option.bind_eq_some_iff.mp h
      obtain ⟨after, hafter, heq⟩ := Option.map_eq_some_iff.mp hrest
      have hstep : live.onPayload lib ingress model text =
          { client := (t.events.getD []).foldl (ClientSide.send lib (List.take 1) ingress model)
              live.client
            lastActiveIndex := t.lastActiveIndex
            persisted := live.persisted.or event.createdId?
            ended := false } := by
        simp [Live.onPayload, hlive, hparsed, ht]
      rw [hstep, ← heq, List.foldl_append]
      exact ih _ rfl hafter

theorem liveTranslation_eq (text : List Char) :
    liveTranslation lib ingress model text =
      ((frames eventEnd text).1.flatMap payloads).foldl (Live.onPayload lib ingress model)
        Live.start := by
  unfold liveTranslation
  rw [List.foldl_flatMap]
  rfl

/-! ## Rendered streams -/

theorem sent_length_pos (lib : External τ χ) (s : Sent χ) : 0 < (s.text lib).length := by
  have hpos : ∀ start rest : String, 0 < start.length → 0 < (start ++ rest).length := by
    intro start rest h
    rw [String.length_append]
    omega
  cases s with
  | event e =>
    unfold Sent.text formatSseEventStr
    simp only [String.append_assoc]
    exact hpos _ _ (by decide)
  | chunk c =>
    unfold Sent.text formatOpenaiSseChunk
    simp only [String.append_assoc]
    exact hpos _ _ (by decide)
  | done => exact (by decide : 0 < "data: [DONE]\n\n".length)

theorem render_cons (s : Sent χ) (rest : List (Sent χ)) :
    render lib (s :: rest) = s.text lib ++ render lib rest := by
  unfold render
  rw [List.map_cons, String.join_cons]

theorem render_length_le (lib : External τ χ) {a b : List (Sent χ)} (h : a.Sublist b) :
    (render lib a).length ≤ (render lib b).length := by
  induction h with
  | slnil => exact Nat.le_refl _
  | cons s _ ih =>
    rw [render_cons, String.length_append]
    omega
  | cons_cons s _ ih =>
    rw [render_cons, render_cons, String.length_append, String.length_append]
    omega

/-- What leaves something out is another text. -/
theorem eq_of_render_eq {a b : List (Sent χ)} (h : a.Sublist b)
    (heq : render lib a = render lib b) : a = b := by
  have hlen := congrArg String.length heq
  clear heq
  induction h with
  | slnil => rfl
  | @cons a b s hsub _ =>
    have hle := render_length_le lib hsub
    have hpos := sent_length_pos lib s
    rw [render_cons, String.length_append] at hlen
    omega
  | @cons_cons a b s _ ih =>
    rw [render_cons, render_cons, String.length_append, String.length_append] at hlen
    rw [ih (by omega)]

/-! ## Streams of one piece -/

/-- The events with an empty line behind them, and those without. -/
def wholeEvents (lib : External τ χ) (text : List Char) : List InteractionSseEvent :=
  ((frames eventEnd text).1.flatMap payloads).filterMap lib.fromStr

def openEvents (lib : External τ χ) (text : List Char) : List InteractionSseEvent :=
  (payloads (frames eventEnd text).2).filterMap lib.fromStr

theorem parseEvents_eq (lib : External τ χ) (text : List Char) :
    parseEvents lib text = wholeEvents lib text ++ openEvents lib text := by
  simp [parseEvents, splitAll, wholeEvents, openEvents, List.filterMap_append]

/-- Created first, completed last, and neither in between. -/
def OnePiece (lib : External τ χ) (text : List Char) (created completed : Interaction) : Prop :=
  ∃ body, parseEvents lib text =
      .interactionCreatedEvent created :: (body ++ [.interactionCompletedEvent completed]) ∧
    ∀ event ∈ body, event.isControl = false

/-- What the translator answers to one event after another. -/
def chunkLists (lib : External τ χ) : τ → List StreamEvent → List (List χ)
  | _, [] => []
  | active, event :: rest =>
    (lib.processEvent active event).2 :: chunkLists lib (lib.processEvent active event).1 rest

/-- What it answers over some events of a stream, the first of which makes it. -/
def translatorAnswers (lib : External τ χ) (model : String) (events : List InteractionSseEvent) :
    List (List χ) :=
  match translateAll lib.usageOf model none events with
  | some (.messageStart id _ _ _ :: rest) =>
    chunkLists lib (lib.newReverseStreamTranslator id model) rest
  | _ => []

/-- Both translations come to an end, with the same bytes. -/
def TranslatorsAgree (lib : External τ χ) (ingress : Protocol) (model : String)
    (text : List Char) : Prop :=
  ∃ sent, translateBufferedSseToClient lib ingress model (encodeUtf8 text) = .ok sent ∧
    render lib (liveTranslation lib ingress model text).flush = render lib sent

theorem chunkLists_append (lib : External τ χ) (active : τ) (a b : List StreamEvent) :
    ∃ later, chunkLists lib active (a ++ b) = chunkLists lib active a ++ later ∧
      (b = [] → later = []) := by
  induction a generalizing active with
  | nil => exact ⟨chunkLists lib active b, rfl, fun hb => by rw [hb]; rfl⟩
  | cons event rest ih =>
    obtain ⟨later, hlater, hnil⟩ := ih (lib.processEvent active event).1
    exact ⟨later, by rw [List.cons_append, chunkLists, hlater]; rfl, hnil⟩

/-- An OpenAI client with a translator is sent what `pick` leaves of its answers. -/
theorem foldl_send_openAi (model : String) (pick : List χ → List χ) {events : List StreamEvent}
    (h : ∀ event ∈ events, event.isMessageStart = false) (active : τ) (sent : List (Sent χ)) :
    ∃ later, events.foldl (ClientSide.send lib pick .openAi model)
        { translator := some active, sent } =
      { translator := some later
        sent := sent ++ ((chunkLists lib active events).flatMap pick).map Sent.chunk } := by
  induction events generalizing active sent with
  | nil => exact ⟨active, by simp [chunkLists]⟩
  | cons event rest ih =>
    rw [List.forall_mem_cons] at h
    obtain ⟨later, hlater⟩ := ih h.2 (lib.processEvent active event).1
      (sent ++ (pick (lib.processEvent active event).2).map Sent.chunk)
    have hsend : ClientSide.send lib pick .openAi model { translator := some active, sent } event =
        { translator := some (lib.processEvent active event).1
          sent := sent ++ (pick (lib.processEvent active event).2).map Sent.chunk } := by
      cases event <;> first | rfl | exact absurd h.1 (by simp [StreamEvent.isMessageStart])
    refine ⟨later, ?_⟩
    rw [List.foldl_cons, hsend, hlater, chunkLists, List.flatMap_cons, List.map_append,
      List.append_assoc]

/-- What is kept is a part of everything, in order. -/
theorem flatMap_take_sublist (answers later : List (List χ)) :
    (answers.flatMap (List.take 1)).Sublist (answers ++ later).flatten := by
  induction answers with
  | nil => exact List.nil_sublist _
  | cons answer rest ih =>
    rw [List.flatMap_cons, List.cons_append, List.flatten_cons]
    exact (List.take_sublist 1 answer).append ih

/-- Keeping one chunk of every answer loses nothing if there is never more than one. -/
theorem flatMap_take_eq_iff (answers later : List (List χ)) :
    answers.flatMap (List.take 1) = (answers ++ later).flatten ↔
      (∀ answer ∈ answers, answer.length ≤ 1) ∧ ∀ answer ∈ later, answer = [] := by
  induction answers with
  | nil =>
    rw [List.flatMap_nil, List.nil_append, eq_comm, List.flatten_eq_nil_iff]
    simp
  | cons answer rest ih =>
    rw [List.flatMap_cons, List.cons_append, List.flatten_cons, List.forall_mem_cons]
    constructor
    · intro h
      have hlen := congrArg List.length h
      have hle := (flatMap_take_sublist rest later).length_le
      rw [List.length_append, List.length_append, List.length_take] at hlen
      have hone : answer.length ≤ 1 := by omega
      rw [List.take_of_length_le hone] at h
      have hrest := ih.mp (List.append_cancel_left h)
      exact ⟨⟨hone, hrest.1⟩, hrest.2⟩
    · intro ⟨⟨hone, hrest⟩, hlater⟩
      rw [List.take_of_length_le hone, ih.mpr ⟨hrest, hlater⟩]

/-! ## Agreement -/

theorem translate_no_messageStart {event : InteractionSseEvent} (h : event.createdId? = none)
    {last : Option UInt32} {t : Translated}
    (ht : translateStreamEventFromParsed lib.usageOf model last event = some t) :
    ∀ e ∈ t.events.getD [], e.isMessageStart = false := by
  cases event with
  | interactionCreatedEvent => exact absurd h (by simp [InteractionSseEvent.createdId?])
  | interactionCompletedEvent interaction =>
    obtain ⟨events, hevents, heq⟩ := Option.map_eq_some_iff.mp ht
    obtain ⟨usage, _, rfl⟩ := Option.map_eq_some_iff.mp hevents
    cases heq
    cases last <;> simp [StreamEvent.isMessageStart]
  | interactionStatusUpdate =>
    cases ht
    simp
  | errorEvent =>
    cases ht
    simp [StreamEvent.isMessageStart]
  | stepStart =>
    cases ht
    simp [StreamEvent.isMessageStart]
  | stepDelta index delta =>
    cases ht
    cases clientDelta delta <;> simp [StreamEvent.isMessageStart]
  | stepStop =>
    cases ht
    simp [StreamEvent.isMessageStart]

theorem no_messageStart {events : List InteractionSseEvent}
    (h : ∀ event ∈ events, event.createdId? = none) {last : Option UInt32}
    {translated : List StreamEvent}
    (ht : translateAll lib.usageOf model last events = some translated) :
    ∀ event ∈ translated, event.isMessageStart = false := by
  induction events generalizing last translated with
  | nil =>
    cases ht
    simp
  | cons event rest ih =>
    rw [List.forall_mem_cons] at h
    rw [translateAll] at ht
    obtain ⟨t, hevent, hrest⟩ := Option.bind_eq_some_iff.mp ht
    obtain ⟨after, hafter, heq⟩ := Option.map_eq_some_iff.mp hrest
    rw [← heq, List.forall_mem_append]
    exact ⟨translate_no_messageStart h.1 hevent, ih h.2 hafter⟩

theorem isControl_false {event : InteractionSseEvent} (h : event.isControl = false) :
    event.isCompleted = false ∧ event.createdId? = none := by
  cases event <;> first
    | exact ⟨rfl, rfl⟩
    | exact absurd h (by simp [InteractionSseEvent.isControl])

/-- The end of a stream ends the message. -/
theorem translateAll_to_completed (model : String) {body : List InteractionSseEvent}
    (hbody : ∀ event ∈ body, event.isControl = false) {completed : Interaction}
    (haccepts : lib.accepts (passedOn completed).1 (passedOn completed).2 = true)
    (last : Option UInt32) :
    ∃ translated, translateAll lib.usageOf model last
        (body ++ [.interactionCompletedEvent completed]) = some translated ∧ translated ≠ [] := by
  obtain ⟨middle, hmiddle⟩ := translateAll_append lib.usageOf model body last
  obtain ⟨before, hbefore⟩ := translateAll_isSome lib.usageOf model
    (fun event hevent => (isControl_false (hbody event hevent)).1) last
  obtain ⟨usage, husage⟩ := External.accepts_iff.mp haccepts
  refine ⟨_, by rw [hmiddle, hbefore, translateAll_completed, husage]; rfl, ?_⟩
  simp

/-- What the translations of a stream and of its part with empty lines have in common. -/
theorem OnePiece.translated {text : List Char} {created completed : Interaction}
    (h : OnePiece lib text created completed)
    (haccepts : lib.accepts (passedOn completed).1 (passedOn completed).2 = true)
    (hwhole : wholeEvents lib text ≠ []) (model : String) :
    ∃ before after, translateAll lib.usageOf model none (wholeEvents lib text) =
        some (.messageStart created.id model 0 0 :: before) ∧
      translateAll lib.usageOf model none (parseEvents lib text) =
        some (.messageStart created.id model 0 0 :: (before ++ after)) ∧
      (∀ event ∈ before ++ after, event.isMessageStart = false) ∧
      (after = [] ↔ openEvents lib text = []) := by
  obtain ⟨body, hparse, hbody⟩ := h
  obtain ⟨first, rest, hfirst⟩ := List.exists_cons_of_ne_nil hwhole
  rw [parseEvents_eq, hfirst, List.cons_append, List.cons.injEq] at hparse
  obtain ⟨rfl, hrest⟩ := hparse
  have hnone : ∀ event ∈ rest ++ openEvents lib text, event.createdId? = none := by
    rw [hrest, List.forall_mem_append]
    exact ⟨fun event hevent => (isControl_false (hbody event hevent)).2, by
      simp [InteractionSseEvent.createdId?]⟩
  have hall : ∀ {translated}, translateAll lib.usageOf model none (rest ++ openEvents lib text) =
      some translated → translateAll lib.usageOf model none (parseEvents lib text) =
        some (.messageStart created.id model 0 0 :: translated) := by
    intro translated ht
    rw [parseEvents_eq, hfirst, List.cons_append, translateAll_cons rfl, ht]
    rfl
  rcases List.eq_nil_or_concat' (openEvents lib text) with hopen | ⟨opened, final, hopen⟩
  · rw [hopen, List.append_nil] at hrest
    obtain ⟨before, hbefore, _⟩ := translateAll_to_completed model hbody haccepts none
    rw [← hrest] at hbefore
    refine ⟨before, [], ?_, ?_, ?_, by simp [hopen]⟩
    · rw [hfirst, translateAll_cons rfl, hbefore]
      rfl
    · rw [List.append_nil]
      exact hall (by rw [hopen, List.append_nil, hbefore])
    · rw [List.append_nil]
      exact no_messageStart (fun event hevent => hnone event (List.mem_append_left _ hevent))
        hbefore
  · rw [hopen, ← List.append_assoc] at hrest
    obtain ⟨hsplit, hfinal⟩ := List.append_inj' hrest rfl
    cases hfinal
    rw [← hsplit, List.forall_mem_append] at hbody
    obtain ⟨middle, hmiddle⟩ := translateAll_append lib.usageOf model rest none
    obtain ⟨before, hbefore⟩ := translateAll_isSome lib.usageOf model
      (fun event hevent => (isControl_false (hbody.1 event hevent)).1) none
    obtain ⟨after, hafter, hne⟩ := translateAll_to_completed model hbody.2 haccepts middle
    have htotal : translateAll lib.usageOf model none (rest ++ openEvents lib text) =
        some (before ++ after) := by
      rw [hmiddle, hbefore, hopen, hafter]
      rfl
    refine ⟨before, after, ?_, hall htotal, no_messageStart hnone htotal, by simp [hne, hopen]⟩
    rw [hfirst, translateAll_cons rfl, hbefore]
    rfl

/-- Without the counts the buffered translation fails. -/
theorem OnePiece.not_translated {text : List Char} {created completed : Interaction}
    (h : OnePiece lib text created completed)
    (haccepts : ¬ lib.accepts (passedOn completed).1 (passedOn completed).2 = true) :
    translateAll lib.usageOf model none (parseEvents lib text) = none := by
  obtain ⟨body, hparse, hbody⟩ := h
  obtain ⟨middle, hmiddle⟩ := translateAll_append lib.usageOf model body none
  rw [hparse, translateAll_cons rfl, hmiddle, translateAll_completed,
    External.not_accepts_iff.mp haccepts]
  simp

/-- The buffered translation of one piece drops no event. -/
theorem OnePiece.translateEvents {text : List Char} {created completed : Interaction}
    (h : OnePiece lib text created completed) :
    translateEvents lib ingress model (parseEvents lib text) =
      (translateAll lib.usageOf model none (parseEvents lib text)).map fun translated =>
        finish ingress 1 { seenStart := true, completedSeen := 1 }
          (translated.foldl (ClientSide.send lib id ingress model) ClientSide.fresh) := by
  obtain ⟨body, hparse, hbody⟩ := h
  have hcount : (parseEvents lib text).countP InteractionSseEvent.isCompleted = 1 := by
    have hzero : body.countP InteractionSseEvent.isCompleted = 0 := by
      rw [List.countP_eq_zero]
      intro event hevent
      simp [(isControl_false (hbody event hevent)).1]
    rw [hparse, List.countP_cons, List.countP_append, hzero]
    simp [InteractionSseEvent.isCompleted]
  have hplain := controlled_plain 1 { seenStart := true, completedSeen := 0 } hbody
  have hkept : controlled 1 { seenStart := false, completedSeen := 0 } (parseEvents lib text) =
      parseEvents lib text := by
    rw [hparse, controlled_passed rfl, controlled_append, hplain.1, hplain.2, controlled_passed rfl]
    rfl
  have hcontrols : controlsAfter 1 { seenStart := false, completedSeen := 0 }
      (parseEvents lib text) = { seenStart := true, completedSeen := 1 } := by
    have hrest : controlsAfter 1 { seenStart := true, completedSeen := 0 }
        (body ++ [.interactionCompletedEvent completed]) =
          { seenStart := true, completedSeen := 1 } := by
      rw [controlsAfter_append, hplain.2]
      rfl
    rw [hparse]
    exact hrest
  rw [translateEvents_eq _ 1 hcount, hkept, hcontrols]

/-- What is sent for a message when `pick` is kept of every answer. -/
def sentFor (lib : External τ χ) (pick : List χ → List χ) (ingress : Protocol) (model id : String)
    (rest : List StreamEvent) : List (Sent χ) :=
  match ingress with
  | .anthropic => (.messageStart id model 0 0 :: rest).map Sent.event
  | .openAi =>
    ((chunkLists lib (lib.newReverseStreamTranslator id model) rest).flatMap pick).map Sent.chunk ++
      [.done]

/-- Both ends of a stream, after the same message. -/
theorem sentFor_eq (pick : List χ → List χ) (id : String) {rest : List StreamEvent}
    (h : ∀ event ∈ rest, event.isMessageStart = false) (live : Live τ χ)
    (hended : live.ended = false)
    (hclient : live.client = (.messageStart id model 0 0 :: rest).foldl
      (ClientSide.send lib pick ingress model) ClientSide.fresh) :
    live.flush = sentFor lib pick ingress model id rest ∧
      finish ingress 1 { seenStart := true, completedSeen := 1 } live.client =
        sentFor lib pick ingress model id rest := by
  cases ingress with
  | anthropic =>
    rw [foldl_send_anthropic] at hclient
    unfold Live.flush finish
    rw [hclient]
    simp [sentFor, ClientSide.fresh]
  | openAi =>
    rw [List.foldl_cons] at hclient
    obtain ⟨later, hlater⟩ := foldl_send_openAi model pick h
      (lib.newReverseStreamTranslator id model) []
    have hstart : ClientSide.send lib pick .openAi model ClientSide.fresh
        (.messageStart id model 0 0) =
          { translator := some (lib.newReverseStreamTranslator id model), sent := [] } := rfl
    rw [hstart, hlater] at hclient
    unfold Live.flush finish
    rw [hclient]
    simp [sentFor, hended]

/-- What the live translation leaves out: everything without an empty line behind it, and for an
OpenAI client all but the first chunk of every answer. This says that there is no such thing. -/
def NothingLeftOut (lib : External τ χ) (ingress : Protocol) (model : String)
    (text : List Char) : Prop :=
  match ingress with
  | .anthropic => openEvents lib text = []
  | .openAi =>
    let whole := translatorAnswers lib model (wholeEvents lib text)
    wholeEvents lib text ≠ [] ∧ (∀ answer ∈ whole, answer.length ≤ 1) ∧
      ∀ answer ∈ (translatorAnswers lib model (parseEvents lib text)).drop whole.length, answer = []

/-- Between two renderings of a message, only what is left out makes a difference. -/
theorem render_sentFor_iff (ingress : Protocol) {text : List Char} {id : String}
    {before after : List StreamEvent} (hwhole : wholeEvents lib text ≠ [])
    (hbefore : translateAll lib.usageOf model none (wholeEvents lib text) =
      some (.messageStart id model 0 0 :: before))
    (hall : translateAll lib.usageOf model none (parseEvents lib text) =
      some (.messageStart id model 0 0 :: (before ++ after)))
    (hafter : after = [] ↔ openEvents lib text = []) :
    render lib (sentFor lib (List.take 1) ingress model id before) =
        render lib (sentFor lib (fun chunks => chunks) ingress model id (before ++ after)) ↔
      NothingLeftOut lib ingress model text := by
  cases ingress with
  | anthropic =>
    rw [NothingLeftOut, ← hafter]
    constructor
    · intro heq
      have hsub : (sentFor lib (List.take 1) .anthropic model id before).Sublist
          (sentFor lib (fun chunks => chunks) .anthropic model id (before ++ after)) :=
        ((List.sublist_append_left before after).cons_cons _).map _
      have hlen := congrArg List.length (eq_of_render_eq hsub heq)
      simp [sentFor] at hlen
      exact hlen
    · intro hnil
      rw [hnil, List.append_nil]
      rfl
  | openAi =>
    obtain ⟨later, hlater, _⟩ := chunkLists_append lib
      (lib.newReverseStreamTranslator id model) before after
    have hanswers : NothingLeftOut lib .openAi model text ↔
        (∀ answer ∈ chunkLists lib (lib.newReverseStreamTranslator id model) before,
          answer.length ≤ 1) ∧ ∀ answer ∈ later, answer = [] := by
      unfold NothingLeftOut translatorAnswers
      rw [hbefore, hall]
      simp only [hlater, List.drop_left]
      exact and_iff_right hwhole
    have hkept : sentFor lib (fun chunks => chunks) .openAi model id (before ++ after) =
        ((chunkLists lib (lib.newReverseStreamTranslator id model) before ++
          later).flatten).map Sent.chunk ++ [.done] := by
      unfold sentFor
      rw [hlater, List.flatMap_id']
    rw [hanswers, ← flatMap_take_eq_iff, hkept]
    have hsub := flatMap_take_sublist
      (chunkLists lib (lib.newReverseStreamTranslator id model) before) later
    constructor
    · intro heq
      have hsent := eq_of_render_eq ((hsub.map Sent.chunk).append_right [.done]) heq
      exact List.map_injective_iff.mpr (fun _ _ => Sent.chunk.inj) (List.append_cancel_right hsent)
    · intro heq
      unfold sentFor
      rw [heq]

theorem sentFor_ne_nil (pick : List χ → List χ) (id : String) (rest : List StreamEvent) :
    sentFor lib pick ingress model id rest ≠ [] := by
  cases ingress <;> simp [sentFor]

theorem OnePiece.translated_all {text : List Char} {created completed : Interaction}
    (h : OnePiece lib text created completed)
    (haccepts : lib.accepts (passedOn completed).1 (passedOn completed).2 = true)
    (model : String) :
    ∃ rest, translateAll lib.usageOf model none (parseEvents lib text) =
        some (.messageStart created.id model 0 0 :: rest) ∧
      ∀ event ∈ rest, event.isMessageStart = false := by
  obtain ⟨body, hparse, hbody⟩ := h
  obtain ⟨rest, hrest, _⟩ := translateAll_to_completed model hbody haccepts none
  refine ⟨rest, ?_, no_messageStart ?_ hrest⟩
  · rw [hparse, translateAll_cons rfl, hrest]
    rfl
  · rw [List.forall_mem_append]
    exact ⟨fun event hevent => (isControl_false (hbody event hevent)).2, by
      simp [InteractionSseEvent.createdId?]⟩

/-- What the buffered translation sends for a stream of one piece. -/
theorem OnePiece.buffered {text : List Char} {created completed : Interaction}
    (h : OnePiece lib text created completed) {rest : List StreamEvent}
    (hall : translateAll lib.usageOf model none (parseEvents lib text) =
      some (.messageStart created.id model 0 0 :: rest))
    (hrest : ∀ event ∈ rest, event.isMessageStart = false) :
    translateBufferedSseToClient lib ingress model (encodeUtf8 text) =
      .ok (sentFor lib (fun chunks => chunks) ingress model created.id rest) := by
  let live : Live τ χ :=
    { client := (.messageStart created.id model 0 0 :: rest).foldl
        (ClientSide.send lib (fun chunks => chunks) ingress model) ClientSide.fresh
      lastActiveIndex := none, persisted := none, ended := false }
  have hsent := (sentFor_eq (fun chunks => chunks) created.id hrest live rfl rfl).2
  unfold translateBufferedSseToClient
  rw [fromUtf8_eq_some_iff.mpr rfl]
  simp only [h.translateEvents, hall, Option.map_some]
  exact congrArg Except.ok hsent

theorem OnePiece.agrees_iff {text : List Char} {created completed : Interaction}
    (h : OnePiece lib text created completed)
    (haccepts : lib.accepts (passedOn completed).1 (passedOn completed).2 = true) :
    TranslatorsAgree lib ingress model text ↔ NothingLeftOut lib ingress model text := by
  unfold TranslatorsAgree
  by_cases hwhole : wholeEvents lib text = []
  · obtain ⟨rest, hall, hrest⟩ := h.translated_all haccepts model
    have hsilent : translateAll lib.usageOf model none (wholeEvents lib text) = some [] := by
      rw [hwhole]
      rfl
    have hlive := foldl_onPayload lib ingress model Live.start rfl hsilent
    rw [← liveTranslation_eq] at hlive
    have hflush : (liveTranslation lib ingress model text).flush = [] := by
      unfold Live.flush
      rw [hlive.1]
      simp [Live.start, ClientSide.fresh]
    rw [h.buffered hall hrest, hflush]
    constructor
    · intro hagree
      obtain ⟨sent, hsent, hrender⟩ := hagree
      have hnil := eq_of_render_eq (List.nil_sublist _) hrender
      rw [← Except.ok.inj hsent] at hnil
      exact absurd hnil.symm (sentFor_ne_nil _ _ _)
    · intro hnothing
      cases ingress with
      | anthropic =>
        obtain ⟨body, hparse, _⟩ := h
        rw [parseEvents_eq, hwhole, hnothing] at hparse
        exact absurd hparse (by simp)
      | openAi => exact absurd hwhole hnothing.1
  · obtain ⟨before, after, hbefore, hall, hnone, hafter⟩ := h.translated haccepts hwhole model
    have hlive := foldl_onPayload lib ingress model Live.start rfl hbefore
    rw [← liveTranslation_eq] at hlive
    have hflush := (sentFor_eq (List.take 1) created.id
      (fun event hevent => hnone event (List.mem_append_left _ hevent)) _ hlive.2 hlive.1).1
    rw [h.buffered hall hnone, hflush,
      ← render_sentFor_iff ingress hwhole hbefore hall hafter]
    constructor
    · intro hagree
      obtain ⟨sent, hsent, hrender⟩ := hagree
      rw [← Except.ok.inj hsent] at hrender
      exact hrender
    · intro hrender
      exact ⟨_, rfl, hrender⟩

/-- **The live and the buffered translation agree** on a complete stream of one piece exactly if its
counts are taken and nothing of it is left out live. -/
theorem live_agrees_iff {text : List Char} {created completed : Interaction}
    (h : OnePiece lib text created completed) :
    TranslatorsAgree lib ingress model text ↔
      lib.accepts (passedOn completed).1 (passedOn completed).2 = true ∧
        NothingLeftOut lib ingress model text := by
  by_cases haccepts : lib.accepts (passedOn completed).1 (passedOn completed).2 = true
  · rw [and_iff_right haccepts]
    exact h.agrees_iff haccepts
  · constructor
    · intro ⟨sent, hsent, _⟩
      unfold translateBufferedSseToClient at hsent
      rw [fromUtf8_eq_some_iff.mpr rfl] at hsent
      simp [h.translateEvents, h.not_translated haccepts] at hsent
    · intro hall
      exact absurd hall.1 haccepts

end

/-! ## Two translators -/

/-- A translator that answers every event with these chunks. -/
def answering (chunks : List Nat) : External Unit Nat where
  fromStr := oneStepFromStr
  usageOf := crateUsage
  eventToString _ := none
  chunkToString chunk := some (toString chunk)
  newReverseStreamTranslator _ _ := ()
  processEvent _ _ := ((), chunks)

theorem oneStep_onePiece (chunks : List Nat) :
    OnePiece (answering chunks) (streamText (oneStepTexts "int-2"))
      (bareInteraction "int-2" "in_progress") (bareInteraction "int-2" "completed") := by
  refine ⟨[.stepStart 0 (.modelOutputStep none), .stepStop 0], parse_oneStep rfl, ?_⟩
  simp [InteractionSseEvent.isControl]

theorem live_agrees_iff_oneChunk :
    TranslatorsAgree (answering [0]) .openAi "model" (streamText (oneStepTexts "int-2")) ↔
      (answering [0]).accepts (passedOn (bareInteraction "int-2" "completed")).1
          (passedOn (bareInteraction "int-2" "completed")).2 = true ∧
        NothingLeftOut (answering [0]) .openAi "model" (streamText (oneStepTexts "int-2")) :=
  live_agrees_iff (oneStep_onePiece [0])

/-- Of two chunks in one answer the second is not sent live. -/
theorem live_not_always_agrees :
    ¬ ∀ (lib : External Unit Nat) (ingress : Protocol) (model : String) (text : List Char)
        (created completed : Interaction), OnePiece lib text created completed →
      TranslatorsAgree lib ingress model text := by
  intro hall
  have hone := oneStep_onePiece [0, 1]
  have hagree := hall _ .openAi "model" _ _ _ hone
  have hnothing := (hone.agrees_iff rfl).mp hagree
  have hparse : wholeEvents (answering [0, 1]) (streamText (oneStepTexts "int-2")) =
      oneStepEvents := by
    have hsplit := parseEvents_eq (answering [0, 1]) (streamText (oneStepTexts "int-2"))
    have hopen : openEvents (answering [0, 1]) (streamText (oneStepTexts "int-2")) = [] := by
      unfold openEvents
      rw [oneStep_whole]
      rfl
    rw [parse_oneStep rfl, hopen, List.append_nil] at hsplit
    exact hsplit.symm
  have hanswers := hnothing.2.1
  rw [hparse] at hanswers
  have hmem : [0, 1] ∈ translatorAnswers (answering [0, 1]) "model" oneStepEvents :=
    List.mem_cons_self ..
  exact absurd (hanswers _ hmem) (by simp)

end InfSplitter.Streams
