import InfSplitter.Lib.Run
import InfSplitter.Server.Passthrough

/-!
# Requests side by side

The handlers share the handle of the diagnostics and nothing else. A request that arrives is
refused, or a guard takes an id for it; what the guard records comes later, when other requests have
arrived and other guards have recorded theirs, in any order. The handlers that translate are there
as guards with any calls at all. A stream that is relayed outlives its guard: it is polled while
other requests are served, and its dump comes when it ends or is dropped.

In every such run the events are those of the requests that were answered, one for each, and say
what the clients were told; every dump is about the client of the event whose id it has
(`run_agrees`). Only a body that is routed and is no value all the same is answered without an
event.
-/

set_option autoImplicit false

namespace InfSplitter.Server

open InfSplitter.Configuration Diagnostics Interactions Lib

/-! ## The system -/

/-- A request for the upstream of its own protocol, with all that comes of it from outside. -/
structure Arrived (σ : Type) where
  request : Request
  headers : Egress.Headers
  readings : Readings
  upstream : Read (UpstreamResponse σ)

/-- A request, and what the client was told. -/
abbrev Answer (σ : Type) := Arrived σ × Outcome σ

/-- A guard that is there, and what it is going to record. -/
structure Pending (σ : Type) where
  requestId : String
  recorded : Recorded
  -- of the handlers that are modelled
  answer : Option (Answer σ)

/-- A client that is given a stream. -/
structure Reader (σ : Type) where
  answer : Answer σ
  stream : DiagnosticStream σ

structure State (σ : Type) where
  handle : Handle
  arrived : List (Arrived σ)
  pending : List (Pending σ)
  -- whom each event is about
  answered : List (Option (Answer σ))
  -- and each dump
  dumped : List (Option (Answer σ))
  readers : List (Reader σ)
  -- with what they were told
  unlogged : List (Arrived σ × AppError)

inductive Action (σ : Type)
  | arrive (a : Arrived σ)
  -- of another handler
  | guard (sectionName model : String) (calls : List GuardCall) (ts : String) (durationMs : UInt64)
  -- a guard records what it has
  | record (i : Nat)
  -- a stream is polled, or its client leaves
  | poll (i : Nat) (ts : String)
  | drop (i : Nat) (ts : String)

def passthroughOf : Protocol → Upstream → Option Passthrough
  | .anthropic, .anthropic => some fromAnthropic
  | .openAi, .openAi => some fromOpenai
  | _, _ => none

def Handle.record (handle : Handle) (recorded : Recorded) : Handle :=
  { handle with
    recorded :=
      { stats := handle.recorded.stats ++ recorded.stats
        dumps := handle.recorded.dumps ++ recorded.dumps } }

/-- Who is given a stream. -/
def readerOf {σ : Type} : Option (Answer σ) → Option (Reader σ)
  | some (a, some (.ok ⟨status, headers, .stream stream⟩)) =>
    some ⟨(a, some (.ok ⟨status, headers, .stream stream⟩)), stream⟩
  | _ => none

/-- The next poll sends what comes then. -/
def Reader.sent {σ : Type} (reader : Reader σ) (stream : DiagnosticStream σ) : Reader σ :=
  { reader with
    stream := { stream with diagnostics := { stream.diagnostics with sent := [] } } }

section
variable {σ : Type} (s : State σ)

/-- A guard takes the next id. -/
def State.guard (recorded : Recorded) (answer : Option (Answer σ)) : State σ :=
  { s with
    handle := s.handle.take
    pending := s.pending ++ [⟨s.handle.nextId, recorded, answer⟩] }

def State.reject (request : Request) (model error : String) (a : Arrived σ) (e : AppError) :
    State σ :=
  { s with
    handle := s.handle.reject request model error
    arrived := s.arrived ++ [a]
    answered := s.answered ++ [some (a, some (.error e))]
    dumped := s.dumped ++ [some (a, some (.error e))] }

/-- A guard records, and the handler is left: a stream is read from now on. -/
def State.record (i : Nat) (pending : Pending σ) : State σ :=
  { s with
    handle := s.handle.record pending.recorded
    pending := s.pending.eraseIdx i
    answered := s.answered ++ [pending.answer]
    dumped := s.dumped ++ pending.recorded.dumps.map fun _ => pending.answer
    readers := s.readers ++ (readerOf pending.answer).toList }

/-- The stream of a client has sent its dump, if it has one now. -/
def State.receive (answer : Answer σ) (stream : DiagnosticStream σ) (readers : List (Reader σ)) :
    State σ :=
  { s with
    handle := s.handle.record
      { stats := [], dumps := stream.diagnostics.sent.map fun dump => (dump, false) }
    dumped := s.dumped ++ stream.diagnostics.sent.map fun _ => some answer
    readers := readers }

end

section
variable {σ ε : Type} (serde : Serde) (config : Config) (h : Handlers)
  (poll : σ → Polled ε × σ)

/-- A request that arrives, if it is not for a handler that translates. -/
def State.arrive (s : State σ) (a : Arrived σ) : Option (State σ) :=
  let request := { a.request with headers := a.headers.iter }
  match dispatchMessages serde config s.handle request with
  | (.error e, handle) => some
      { s with
        handle := handle
        arrived := s.arrived ++ [a]
        answered := s.answered ++ [some (a, some (.error e))]
        dumped := s.dumped ++ [some (a, some (.error e))] }
  | (.ok handed, _) =>
    (passthroughOf request.ingress handed.upstream).map fun p =>
      let passed := ⟨request.body, a.headers, handed.route, handed.endpoint⟩
      let s := { s with arrived := s.arrived ++ [a] }
      match p.handle h passed a.readings s.handle.nextId a.upstream with
      | .error e => { s with unlogged := s.unlogged ++ [(a, e)] }
      | .ok handling => s.guard handling.recorded (some (a, handling.outcome))

def State.perform (s : State σ) : Action σ → Option (State σ)
  | .arrive a => s.arrive serde config h a
  | .guard sectionName model calls ts durationMs =>
    some (s.guard (lifetime ⟨s.handle.nextId, sectionName, model⟩ calls ts durationMs) none)
  | .record i => s.pending[i]?.map (s.record i)
  | .poll i ts => s.readers[i]?.map fun reader =>
      let stream := (reader.stream.pollNext poll ts).2
      s.receive reader.answer stream (s.readers.set i (reader.sent stream))
  | .drop i ts => s.readers[i]?.map fun reader =>
      s.receive reader.answer (reader.stream.drop ts) (s.readers.eraseIdx i)

/-- The server from its start. -/
def server (startSecs : Nat) : System (State σ) (Action σ) where
  init := { handle := ⟨startSecs, 0, ⟨[], []⟩⟩, arrived := [], pending := [], answered := [],
            dumped := [], readers := [], unlogged := [] }
  step s a s' := s.perform serde config h poll a = some s'

end

/-! ## The invariant -/

section
variable {σ : Type} (h : Handlers)

/-- An event says what was told to the client it is about. -/
def Knows (answer : Option (Answer σ)) (event : StatsEvent) : Prop :=
  ∀ a outcome, answer = some (a, outcome) →
    Agrees h.errorTranslation event.requestId a.request.body.length outcome event

/-- A guard is going to record one event and some dumps, all under its id, and so is the stream it
leaves. -/
structure Owes (pending : Pending σ) : Prop where
  stats : ∃ event, pending.recorded.stats = [event] ∧ event.requestId = pending.requestId ∧
    Knows h pending.answer event
  dumps : ∀ dump ∈ pending.recorded.dumps, dump.1.requestId = pending.requestId
  reader : ∀ reader, readerOf pending.answer = some reader →
    some reader.answer = pending.answer ∧ reader.stream.requestId = pending.requestId ∧
      reader.stream.diagnostics.sent = []

end

namespace State

variable {σ : Type} (s : State σ)

def events : List StatsEvent := s.handle.recorded.stats

/-- All ids that are taken. -/
def ids : List String := s.events.map (·.requestId) ++ s.pending.map (·.requestId)

/-- There is an event about somebody, under an id. -/
def About (answer : Option (Answer σ)) (requestId : String) : Prop :=
  ∃ event, (answer, event) ∈ s.answered.zip s.events ∧ event.requestId = requestId

/-- What is recorded so far. -/
structure Consistent (h : Handlers) (startSecs : Nat) : Prop where
  started : s.handle.startSecs = startSecs
  events : List.Forall₂ (Knows h) s.answered s.events
  ids : s.ids.Nodup
  taken : ∀ id ∈ s.ids, ∃ n < s.handle.counter, id = newRequestId startSecs n
  dumps : List.Forall₂ (fun answer dump => s.About answer dump.1.requestId) s.dumped
    s.handle.recorded.dumps
  pending : ∀ pending ∈ s.pending, Owes h pending
  readers : ∀ reader ∈ s.readers, s.About (some reader.answer) reader.stream.requestId ∧
    reader.stream.diagnostics.sent = []

/-- The requests that have arrived are answered or have a guard. -/
def Counted : Prop :=
  s.arrived.Perm (s.answered.filterMap (·.map Prod.fst) ++ s.unlogged.map Prod.fst ++
    s.pending.filterMap fun pending => pending.answer.map Prod.fst)

end State

section
variable {σ : Type} {s : State σ} {h : Handlers} {startSecs : Nat}

theorem State.Consistent.nextId_notMem (hs : s.Consistent h startSecs) :
    s.handle.nextId ∉ s.ids := by
  intro hmem
  obtain ⟨n, hlt, hid⟩ := hs.taken _ hmem
  unfold Handle.nextId at hid
  rw [hs.started] at hid
  rw [newRequestId_inj hid] at hlt
  exact absurd hlt (Nat.lt_irrefl n)

/-- One more event changes nothing about the others, and is about its own client. -/
theorem State.Consistent.about (hs : s.Consistent h startSecs) {s' : State σ}
    {answer : Option (Answer σ)} {event : StatsEvent}
    (hanswered : s'.answered = s.answered ++ [answer])
    (hevents : s'.events = s.events ++ [event]) :
    s'.About answer event.requestId ∧
      ∀ other requestId, s.About other requestId → s'.About other requestId := by
  have hzip : s'.answered.zip s'.events = s.answered.zip s.events ++ [(answer, event)] := by
    rw [hanswered, hevents, List.zip_append hs.events.length_eq]
    rfl
  unfold State.About
  rw [hzip]
  refine ⟨⟨event, List.mem_append_right _ List.mem_cons_self, rfl⟩, ?_⟩
  exact fun other requestId ⟨found, hmem, hid⟩ => ⟨found, List.mem_append_left _ hmem, hid⟩

theorem State.Consistent.guard (hs : s.Consistent h startSecs) {recorded : Recorded}
    {answer : Option (Answer σ)} (howes : Owes h ⟨s.handle.nextId, recorded, answer⟩) :
    (s.guard recorded answer).Consistent h startSecs := by
  have hids : (s.guard recorded answer).ids = s.ids ++ [s.handle.nextId] := by
    unfold State.ids State.guard State.events
    rw [List.map_append, ← List.append_assoc]
    rfl
  refine ⟨hs.started, hs.events, ?_, ?_, hs.dumps, ?_, hs.readers⟩
  · rw [hids, ← List.concat_eq_append]
    exact hs.ids.concat hs.nextId_notMem
  · rw [hids]
    refine List.forall_mem_append.mpr ⟨fun id hid => ?_, List.forall_mem_singleton.mpr ?_⟩
    · obtain ⟨n, hlt, rfl⟩ := hs.taken id hid
      exact ⟨n, Nat.lt_succ_of_lt hlt, rfl⟩
    · refine ⟨s.handle.counter, Nat.lt_succ_self _, ?_⟩
      rw [← hs.started]
      rfl
  · exact List.forall_mem_append.mpr ⟨hs.pending, List.forall_mem_singleton.mpr howes⟩

/-- A guard records: its event comes behind the others, under the same id, and its dumps are about
the same client. -/
theorem State.Consistent.record (hs : s.Consistent h startSecs) {i : Nat} {pending : Pending σ}
    (hpending : s.pending[i]? = some pending) : (s.record i pending).Consistent h startSecs := by
  obtain ⟨hlt, hget⟩ := List.getElem?_eq_some_iff.mp hpending
  have hperm : (pending :: s.pending.eraseIdx i).Perm s.pending := by
    rw [← hget]
    exact List.getElem_cons_eraseIdx_perm hlt
  have howes : Owes h pending := hs.pending pending (hperm.subset List.mem_cons_self)
  obtain ⟨event, hstats, hid, hknows⟩ := howes.stats
  have hevents : (s.record i pending).events = s.events ++ [event] := by
    unfold State.record State.events Handle.record
    dsimp only
    rw [hstats]
  have hids : (s.record i pending).ids.Perm s.ids := by
    unfold State.ids
    rw [hevents, List.map_append, List.append_assoc, List.map_singleton, hid]
    exact (hperm.map (·.requestId)).append_left _
  obtain ⟨hown, hothers⟩ :=
    @State.Consistent.about σ s h startSecs hs (s.record i pending) _ _ rfl hevents
  rw [hid] at hown
  refine ⟨hs.started, ?_, hids.nodup_iff.mpr hs.ids, fun id hmem => hs.taken id (hids.subset hmem),
    ?_, fun other hother => hs.pending other (hperm.subset (List.mem_cons_of_mem _ hother)), ?_⟩
  · rw [hevents]
    exact List.rel_append hs.events (.cons hknows .nil)
  · refine List.rel_append (hs.dumps.imp fun other dump => hothers other _) ?_
    rw [List.forall₂_map_left_iff, List.forall₂_same]
    intro dump hdump
    rw [howes.dumps dump hdump]
    exact hown
  · refine List.forall_mem_append.mpr ⟨fun reader hreader => ?_, fun reader hreader => ?_⟩
    · obtain ⟨habout, hsent⟩ := hs.readers reader hreader
      exact ⟨hothers _ _ habout, hsent⟩
    · obtain ⟨hanswer, hstream, hsent⟩ := howes.reader reader (Option.mem_toList.mp hreader)
      rw [hanswer, hstream]
      exact ⟨hown, hsent⟩

/-- A refusal records under an id of its own. -/
theorem State.Consistent.reject (hs : s.Consistent h startSecs) {a : Arrived σ} {e : AppError}
    {error : String} (he : e.status = 400) (reason : Reason e error) (headers : HeaderMap)
    (model : String) :
    (s.reject { a.request with headers := headers } model error a e).Consistent h startSecs := by
  have hperm : (s.events.map (·.requestId) ++ [s.handle.nextId] ++
      s.pending.map (·.requestId)).Perm (s.ids ++ [s.handle.nextId]) := by
    unfold State.ids
    rw [List.append_assoc, List.append_assoc]
    exact List.perm_append_comm.append_left _
  have hids : (s.reject { a.request with headers := headers } model error a e).ids.Perm
      (s.ids ++ [s.handle.nextId]) := by
    unfold State.ids State.events State.reject Handle.reject
    dsimp only
    rw [List.map_append]
    exact hperm
  obtain ⟨hown, hothers⟩ := @State.Consistent.about σ s h startSecs hs
    (s.reject { a.request with headers := headers } model error a e) _ _ rfl rfl
  refine ⟨hs.started, ?_, ?_, ?_, ?_, hs.pending, fun reader hreader => ?_⟩
  · refine List.rel_append hs.events (.cons ?_ .nil)
    intro a' outcome hanswer
    obtain ⟨rfl, rfl⟩ := Prod.mk.inj (Option.some.inj hanswer)
    exact ⟨rfl, rfl, he.symm, .refused reason⟩
  · refine hids.nodup_iff.mpr ?_
    rw [← List.concat_eq_append]
    exact hs.ids.concat hs.nextId_notMem
  · intro id hmem
    rcases List.mem_append.mp (hids.subset hmem) with hold | hnew
    · obtain ⟨n, hlt, rfl⟩ := hs.taken id hold
      exact ⟨n, Nat.lt_succ_of_lt hlt, rfl⟩
    · rw [List.mem_singleton.mp hnew, ← hs.started]
      exact ⟨s.handle.counter, Nat.lt_succ_self _, rfl⟩
  · exact List.rel_append (hs.dumps.imp fun other dump => hothers other _) (.cons hown .nil)
  · obtain ⟨habout, hsent⟩ := hs.readers reader hreader
    exact ⟨hothers _ _ habout, hsent⟩

/-- What a stream sends is about its client. -/
theorem State.Consistent.receive (hs : s.Consistent h startSecs) {answer : Answer σ}
    {stream : DiagnosticStream σ} {readers : List (Reader σ)}
    (habout : s.About (some answer) stream.requestId) (hown : stream.SendsOwn)
    (hreaders : ∀ reader ∈ readers, reader ∈ s.readers ∨
      reader.answer = answer ∧ reader.stream.requestId = stream.requestId ∧
        reader.stream.diagnostics.sent = []) :
    (s.receive answer stream readers).Consistent h startSecs := by
  have hevents : (s.receive answer stream readers).events = s.events := List.append_nil _
  have hids : (s.receive answer stream readers).ids = s.ids := by
    unfold State.ids
    rw [hevents]
    rfl
  have hsame (other : Option (Answer σ)) (requestId : String) :
      s.About other requestId → (s.receive answer stream readers).About other requestId := by
    unfold State.About
    rw [hevents]
    exact id
  refine ⟨hs.started, ?_, ?_, ?_, ?_, hs.pending, fun reader hreader => ?_⟩
  · rw [hevents]
    exact hs.events
  · rw [hids]
    exact hs.ids
  · rw [hids]
    exact hs.taken
  · refine List.rel_append (hs.dumps.imp fun other dump => hsame other _) ?_
    rw [List.forall₂_map_left_iff, List.forall₂_map_right_iff, List.forall₂_same]
    intro dump hdump
    dsimp only
    rw [hown dump hdump]
    exact hsame _ _ habout
  · rcases hreaders reader hreader with hold | ⟨hanswer, hid, hsent⟩
    · obtain ⟨habout, hsent⟩ := hs.readers reader hold
      exact ⟨hsame _ _ habout, hsent⟩
    · rw [hanswer, hid]
      exact ⟨hsame _ _ habout, hsent⟩

/-- Nothing that is arrived or told changes what is recorded. -/
theorem State.Consistent.frame (hs : s.Consistent h startSecs) (arrived : List (Arrived σ))
    (unlogged : List (Arrived σ × AppError)) :
    ({ s with arrived := arrived, unlogged := unlogged } : State σ).Consistent h startSecs :=
  ⟨hs.started, hs.events, hs.ids, hs.taken, hs.dumps, hs.pending, hs.readers⟩

theorem knows_none (h : Handlers) (event : StatsEvent) : Knows (σ := σ) h none event := by
  intro a outcome hanswer
  cases hanswer

/-- What the calls of a guard record. -/
theorem owes_lifetime {requestId : String} (sectionName model : String) (calls : List GuardCall)
    (ts : String) (durationMs : UInt64) :
    Owes (σ := σ) h
      ⟨requestId, lifetime ⟨requestId, sectionName, model⟩ calls ts durationMs, none⟩ := by
  have hreader (reader : Reader σ) : readerOf none ≠ some reader := nofun
  refine ⟨?_, lifetime_requestId _ _ _ _, fun reader h => absurd h (hreader reader)⟩
  dsimp only
  rcases exists_first_finishing calls with hall | ⟨pre, call, post, f, rfl, hpre, hc⟩
  · rw [lifetime_unfinished hall]
    exact ⟨_, rfl, rfl, knows_none h _⟩
  · rw [lifetime_finished hpre hc]
    exact ⟨_, rfl, rfl, knows_none h _⟩

/-- Whoever is given a stream is given that of the answer. -/
theorem readerOf_eq_some {answer : Option (Answer σ)} {reader : Reader σ}
    (hreader : readerOf answer = some reader) :
    some reader.answer = answer ∧ ∃ response, reader.answer.2 = some (.ok response) ∧
      response.body = .stream reader.stream := by
  unfold readerOf at hreader
  split at hreader
  · cases hreader
    exact ⟨rfl, _, rfl, rfl⟩
  · cases hreader

theorem owes_handling {p : Passthrough} {r : Passed} {a : Arrived σ}
    {requestId : String} {handling : Handling σ} (hbody : r.body = a.request.body)
    (hok : p.handle h r a.readings requestId a.upstream = .ok handling) :
    Owes h ⟨requestId, handling.recorded, some (a, handling.outcome)⟩ := by
  obtain ⟨-, ⟨event, hstats, hagrees⟩, hdumps⟩ := handle_agrees hok
  refine ⟨⟨event, hstats, hagrees.requestId, ?_⟩, hdumps, fun reader hreader => ?_⟩
  · intro a' outcome hanswer
    obtain ⟨rfl, rfl⟩ := Prod.mk.inj (Option.some.inj hanswer)
    rw [hagrees.requestId, ← hbody]
    exact hagrees
  · obtain ⟨hanswer, response, hresponse, hstream⟩ := readerOf_eq_some hreader
    have houtcome : reader.answer.2 = handling.outcome :=
      congrArg Prod.snd (Option.some.inj hanswer)
    exact ⟨hanswer, handle_stream hok (houtcome.symm.trans hresponse) hstream⟩

end

/-! ## The steps -/

section
variable {σ ε : Type} {env : Environment} {hashOrder : HashOrder} {file : FileConfig}
  {config : Config} {serde : Serde} {h : Handlers} {poll : σ → Polled ε × σ} {s s' : State σ}

/-- How a request can arrive: it is refused, or its body is no value, or a guard is made for it. -/
theorem arrive_cases (hconfig : fromFileConfig env hashOrder file = .ok config) {a : Arrived σ}
    (harrive : s.arrive serde config h a = some s') :
    (∃ e model error, e.status = 400 ∧ Reason e error ∧
      s' = s.reject { a.request with headers := a.headers.iter } model error a e) ∨
    (∃ error, h.fromSlice a.request.body = .error error ∧ s' =
      { s with
        arrived := s.arrived ++ [a], unlogged := s.unlogged ++ [(a, .badRequest error)] }) ∨
    ∃ recorded outcome, Owes h ⟨s.handle.nextId, recorded, some (a, outcome)⟩ ∧
      s' = { s with arrived := s.arrived ++ [a] }.guard recorded (some (a, outcome)) := by
  unfold State.arrive at harrive
  dsimp only at harrive
  obtain ⟨answered, hdispatch⟩ := dispatch_cases hconfig serde s.handle
    { a.request with headers := a.headers.iter }
  rcases hdispatch with ⟨handed, hok⟩ | ⟨e, model, error, reason, herror⟩
  · rw [hok] at harrive
    obtain ⟨p, hp, hs'⟩ := Option.map_eq_some_iff.mp harrive
    cases hvalue : h.fromSlice a.request.body with
    | error error =>
      unfold Passthrough.handle at hs'
      rw [hvalue] at hs'
      exact Or.inr (Or.inl ⟨error, rfl, hs'.symm⟩)
    | ok value =>
      cases hhandle : p.handle h ⟨a.request.body, a.headers, handed.route, handed.endpoint⟩
          a.readings s.handle.nextId a.upstream with
      | error e =>
        rw [handle_ok hvalue] at hhandle
        cases hhandle
      | ok handling =>
        rw [hhandle] at hs'
        exact Or.inr (Or.inr ⟨_, _, owes_handling rfl hhandle, hs'.symm⟩)
  · rw [herror] at harrive answered
    exact Or.inl ⟨e, model, error, answered.status rfl, reason, (Option.some.inj harrive).symm⟩

/-- A request whose answer is a stream: a guard is made, and the client is given the stream. -/
theorem arrive_stream {p : Passthrough} {a : Arrived σ} {up : UpstreamResponse σ}
    {handed : Handed} {value sent : Json}
    (hdispatch : dispatchMessages serde config s.handle
      { a.request with headers := a.headers.iter } = (.ok handed, s.handle))
    (hp : passthroughOf a.request.ingress handed.upstream = some p)
    (hvalue : h.fromSlice a.request.body = .ok value)
    (hsent : Egress.applyEgressTransforms value (modelOf value) (caps handed.route) = some sent)
    (hup : a.upstream = .read up) (hstream : isEventStream up.headers = true) :
    ∃ recorded headers requestId sectionName model relayed, s.arrive serde config h a = some
      ({ s with arrived := s.arrived ++ [a] }.guard recorded (some (a, some (.ok
        { status := up.status, headers := headers
          body := .stream (DiagnosticStream.new up.stream ⟨h.dumpMode, []⟩ requestId sectionName
            model relayed up.status.code) })))) := by
  obtain ⟨front, -, hcalls⟩ := @calls_eq σ p h ⟨a.request.body, a.headers, handed.route,
    handed.endpoint⟩ a.readings value (guardedRequest ⟨a.request.body, a.headers, handed.route,
      handed.endpoint⟩ s.handle.nextId value) (.read up) sent hsent
  obtain ⟨calls, headers, hexchange⟩ := exchange_stream p h ⟨a.request.body, a.headers,
    handed.route, handed.endpoint⟩ a.readings (guardedRequest ⟨a.request.body, a.headers,
      handed.route, handed.endpoint⟩ s.handle.nextId value) up hstream
  have hhandle := @handle_ok σ p h ⟨a.request.body, a.headers, handed.route, handed.endpoint⟩
    a.readings s.handle.nextId (.read up) value hvalue
  rw [hcalls, hexchange] at hhandle
  unfold State.arrive
  dsimp only
  rw [hdispatch]
  dsimp only
  rw [hp, hup, Option.map_some, hhandle]
  exact ⟨_, _, _, _, _, _, rfl⟩

/-- What is told without an event is that a body is no value. -/
def State.Unlogged (s : State σ) (h : Handlers) : Prop :=
  ∀ told ∈ s.unlogged, ∃ error, h.fromSlice told.1.request.body = .error error ∧
    told.2 = .badRequest error

/-- One more element, in the place of any of the parts. -/
theorem perm_insert {α : Type} {l front back : List α} (h : l.Perm (front ++ back)) (a : α) :
    (l ++ [a]).Perm (front ++ [a] ++ back) := by
  rw [List.append_assoc]
  refine (h.append_right [a]).trans ?_
  rw [List.append_assoc]
  exact List.perm_append_comm.append_left front

theorem State.Counted.record {i : Nat} {pending : Pending σ} (hs : s.Counted)
    (hpending : s.pending[i]? = some pending) : (s.record i pending).Counted := by
  obtain ⟨hlt, hget⟩ := List.getElem?_eq_some_iff.mp hpending
  have hperm : (pending :: s.pending.eraseIdx i).Perm s.pending := by
    rw [← hget]
    exact List.getElem_cons_eraseIdx_perm hlt
  have hleft := hperm.filterMap fun pending => pending.answer.map Prod.fst
  have hsplit : (pending :: s.pending.eraseIdx i).filterMap
      (fun pending => pending.answer.map Prod.fst) = (pending.answer.map Prod.fst).toList ++
        (s.pending.eraseIdx i).filterMap fun pending => pending.answer.map Prod.fst := by
    rw [List.filterMap_cons]
    cases pending.answer <;> rfl
  have hlast : (s.answered ++ [pending.answer]).filterMap (·.map Prod.fst) =
      s.answered.filterMap (·.map Prod.fst) ++ (pending.answer.map Prod.fst).toList := by
    rw [List.filterMap_append]
    cases pending.answer <;> rfl
  rw [hsplit] at hleft
  unfold State.Counted State.record at *
  dsimp only
  refine hs.trans ((hleft.symm.append_left _).trans ?_)
  rw [hlast, ← List.append_assoc, List.append_assoc (s.answered.filterMap _) (_ : List _) _]
  refine List.Perm.append_right _ ?_
  rw [List.append_assoc]
  exact List.perm_append_comm.append_left _

/-- **Every step keeps the record consistent**, and counts the requests. -/
theorem perform_kept (hconfig : fromFileConfig env hashOrder file = .ok config) {startSecs : Nat}
    {action : Action σ} (hperform : s.perform serde config h poll action = some s')
    (hs : s.Consistent h startSecs) (hcounted : s.Counted) (hunlogged : s.Unlogged h) :
    s'.Consistent h startSecs ∧ s'.Counted ∧ s'.Unlogged h := by
  cases action with
  | arrive a =>
    rcases arrive_cases hconfig hperform with
      ⟨e, model, error, he, reason, rfl⟩ | ⟨error, hvalue, rfl⟩ | ⟨recorded, outcome, howes, rfl⟩
    · refine ⟨hs.reject he reason _ _, ?_, hunlogged⟩
      unfold State.Counted State.reject at *
      dsimp only
      rw [List.append_assoc] at hcounted ⊢
      rw [List.filterMap_append]
      exact perm_insert hcounted a
    · refine ⟨hs.frame _ _, ?_, ?_⟩
      · unfold State.Counted at hcounted ⊢
        dsimp only
        rw [List.map_append, ← List.append_assoc]
        exact perm_insert hcounted a
      · exact List.forall_mem_append.mpr
          ⟨hunlogged, List.forall_mem_singleton.mpr ⟨error, hvalue, rfl⟩⟩
    · refine ⟨(hs.frame _ _).guard howes, ?_, hunlogged⟩
      unfold State.Counted State.guard at *
      dsimp only
      rw [List.filterMap_append, ← List.append_assoc]
      exact hcounted.append_right [a]
  | guard sectionName model calls ts durationMs =>
    cases hperform
    refine ⟨hs.guard (owes_lifetime _ _ _ _ _), ?_, hunlogged⟩
    unfold State.Counted State.guard at *
    dsimp only
    rw [List.filterMap_append]
    refine hcounted.trans (List.Perm.of_eq ?_)
    rw [← List.append_assoc]
    exact (List.append_nil _).symm
  | record i =>
    obtain ⟨pending, hpending, rfl⟩ := Option.map_eq_some_iff.mp hperform
    exact ⟨hs.record hpending, hcounted.record hpending, hunlogged⟩
  | poll i ts =>
    obtain ⟨reader, hreader, rfl⟩ := Option.map_eq_some_iff.mp hperform
    obtain ⟨habout, hsent⟩ := hs.readers reader (List.mem_of_getElem? hreader)
    have hown : reader.stream.SendsOwn := by
      intro dump hdump
      rw [hsent] at hdump
      cases hdump
    obtain ⟨hown', hid⟩ := hown.pollNext poll ts
    rw [← hid] at habout
    refine ⟨hs.receive habout hown' fun other hother => ?_, hcounted, hunlogged⟩
    rcases List.mem_or_eq_of_mem_set hother with hold | rfl
    · exact Or.inl hold
    · exact Or.inr ⟨rfl, rfl, rfl⟩
  | drop i ts =>
    obtain ⟨reader, hreader, rfl⟩ := Option.map_eq_some_iff.mp hperform
    obtain ⟨habout, hsent⟩ := hs.readers reader (List.mem_of_getElem? hreader)
    have hown : reader.stream.SendsOwn := by
      intro dump hdump
      rw [hsent] at hdump
      cases hdump
    obtain ⟨hown', hid⟩ := hown.drop ts
    rw [← hid] at habout
    exact ⟨hs.receive habout hown' fun other hother => Or.inl (List.mem_of_mem_eraseIdx hother),
      hcounted, hunlogged⟩

/-- **In every run the events are those of the requests.** Each of them says what the client was
told that it is about, no two have one id, and every dump is about the client of the event with its
id, that of a stream too. A request that has arrived is answered with an event, or it was refused
for a body that is no value, or it has a guard that is going to record its event. -/
theorem run_agrees (hconfig : fromFileConfig env hashOrder file = .ok config) (startSecs : Nat)
    {moments : List (State σ × Action σ)}
    (run : (server serde config h poll startSecs).Run moments s) :
    List.Forall₂ (Knows h) s.answered s.events ∧ (s.events.map (·.requestId)).Nodup ∧
      List.Forall₂ (fun answer dump => s.About answer dump.1.requestId) s.dumped
        s.handle.recorded.dumps ∧
      s.Counted ∧ s.Unlogged h ∧ ∀ pending ∈ s.pending, Owes h pending := by
  have hinv : s.Consistent h startSecs ∧ s.Counted ∧ s.Unlogged h := by
    apply run.invariant (P := fun s => s.Consistent h startSecs ∧ s.Counted ∧ s.Unlogged h)
    · refine ⟨⟨rfl, .nil, .nil, ?_, .nil, ?_, ?_⟩, .nil, ?_⟩ <;> exact List.forall_mem_nil _
    · intro s action s' hs hstep
      exact @perform_kept σ ε env hashOrder file config serde h poll s s' hconfig startSecs action
        hstep hs.1 hs.2.1 hs.2.2
  obtain ⟨hs, hcounted, hunlogged⟩ := hinv
  exact ⟨hs.events, (List.nodup_append.mp hs.ids).1, hs.dumps, hcounted, hunlogged, hs.pending⟩

end

/-- A request whose body is no text. -/
def notTextArrived : Arrived (List (Polled Unit)) :=
  { request := { ingress := .openAi, headers := [], body := [255], statsTs := "", dumpTs := "" }
    headers := EntryMap.empty, readings := plainReadings, upstream := .gone }

/-- An upstream that yields one chunk, and then the end. -/
def oneChunk : UpstreamResponse (List (Polled Unit)) :=
  { status := plainUpstream.status, headers := [("content-type", some "text/event-stream")]
    text := .gone, bytes := .gone, stream := [.ready (some (.ok [1]))] }

/-- A request that is passed through. -/
def tinyArrived : Arrived (List (Polled Unit)) :=
  { request :=
      { ingress := .openAi, headers := [], body := tinyBody.toVec, statsTs := "", dumpTs := "" }
    headers := EntryMap.empty, readings := plainReadings, upstream := .read oneChunk }

theorem tiny_handed {config : Config}
    (hconfig : fromFileConfig plainEnvironment inOrder twoSections = .ok config) :
    ∃ handed, handed.upstream = .openAi ∧ ∀ handle,
      dispatchMessages plainSerde config handle
        { tinyArrived.request with headers := tinyArrived.headers.iter } =
      (.ok handed, handle) := by
  have hrouted : ((fromFileConfig plainEnvironment inOrder twoSections).toOption.any fun config =>
      (config.resolveRoute "tiny").toOption.any fun route => route.endpointOpenai.isSome) =
        true := by
    decide +kernel
  rw [hconfig] at hrouted
  obtain ⟨text, htext, hpeek, hblank⟩ := @names_tiny tinyArrived.request rfl
  cases hresolve : config.resolveRoute "tiny" with
  | error e =>
    simp [hresolve, Except.toOption] at hrouted
  | ok route =>
    obtain ⟨endpoint, hendpoint⟩ : ∃ endpoint, route.endpointOpenai = some endpoint := by
      simpa [hresolve, Except.toOption, Option.isSome_iff_exists] using hrouted
    refine ⟨⟨.openAi, route, endpoint⟩, rfl, fun handle => ?_⟩
    unfold dispatchMessages
    simp only [htext, hpeek, if_neg hblank, hresolve]
    unfold handOver
    rw [hendpoint]
    rfl


/-- A refusal and a guard come before a request that is passed through, and its stream is read to
the end. -/
theorem run_agrees_relayed :
    ∃ config, fromFileConfig plainEnvironment inOrder twoSections = .ok config ∧
      ∃ moments s, (server plainSerde config plainHandlers pollListed 0).Run moments s ∧
        s.events.length = 3 ∧
        (∃ answer, s.dumped.getLast? = some (some answer) ∧ answer.1 = tinyArrived) ∧
        List.Forall₂ (fun answer dump => s.About answer dump.1.requestId) s.dumped
          s.handle.recorded.dumps := by
  obtain ⟨config, hconfig⟩ := twoSections_accepted
  refine ⟨config, hconfig, ?_⟩
  have step {moments : List (State (List (Polled Unit)) × Action (List (Polled Unit)))}
      {s s' : State (List (Polled Unit))} (action : Action (List (Polled Unit)))
      (run : (server plainSerde config plainHandlers pollListed 0).Run moments s)
      (hperform : s.perform plainSerde config plainHandlers pollListed action = some s') :
      (server plainSerde config plainHandlers pollListed 0).Run ((s, action) :: moments) s' :=
    run.step hperform
  obtain ⟨handed, hupstream, hdispatch⟩ := tiny_handed hconfig
  obtain ⟨sent, hsent⟩ := (transforms_return_iff_settable tinyBody (modelOf tinyBody)
    (caps handed.route)).mpr (Or.inl (Or.inl ⟨_, rfl⟩))
  have hp : passthroughOf tinyArrived.request.ingress handed.upstream = some fromOpenai := by
    rw [hupstream]
    rfl
  have hvalue : plainHandlers.fromSlice tinyArrived.request.body = .ok tinyBody := by
    have hfrom (body : List UInt8) : plainHandlers.fromSlice body = readSlice body := rfl
    have hbody : tinyArrived.request.body = tinyBody.toVec := rfl
    rw [hfrom, hbody]
    exact readSlice_toVec tinyBody_numeric
  have hstream : isEventStream oneChunk.headers = true :=
    decide_eq_true (List.infix_refl "text/event-stream".toList)
  have passed (s : State (List (Polled Unit))) :=
    @arrive_stream _ config plainSerde plainHandlers s fromOpenai tinyArrived oneChunk handed
      tinyBody sent (hdispatch s.handle) hp hvalue hsent rfl hstream
  obtain ⟨moments, s, rejected, ⟨other, hpending⟩, hreaders, hanswered⟩ :
      ∃ moments s, (server plainSerde config plainHandlers pollListed 0).Run moments s ∧
        (∃ other, s.pending = [other] ∧ other.answer = none) ∧ s.readers = [] ∧
        s.answered.length = 1 :=
    ⟨_, _, step (.arrive notTextArrived) (step (.guard "" "" [] "" 0) .init rfl) rfl,
      ⟨_, rfl, rfl⟩, rfl, rfl⟩
  obtain ⟨recorded, headers, requestId, sectionName, model, relayed, harrive⟩ := passed s
  generalize tinyArrived = a at harrive ⊢
  generalize oneChunk.status = status at harrive
  have arrived := step (.arrive a) rejected harrive
  obtain ⟨handle, arrivals, pending, answered, dumped, readers, unlogged⟩ := s
  obtain ⟨rfl, hother⟩ := hpending
  obtain rfl : readers = [] := hreaders
  obtain ⟨requestId', recorded', answer'⟩ := other
  obtain rfl : answer' = none := hother
  have run := step (.poll 0 "") (step (.poll 0 "") (step (.record 0) (step (.record 0) arrived
    rfl) rfl) rfl) rfl
  refine ⟨_, _, run, ?_, ⟨_, List.getLast?_concat, rfl⟩, (run_agrees hconfig 0 run).2.2.1⟩
  rw [← (run_agrees hconfig 0 run).1.length_eq]
  show (answered ++ [none] ++ [_]).length = 3
  rw [List.length_append, List.length_append, hanswered]
  rfl

end InfSplitter.Server
