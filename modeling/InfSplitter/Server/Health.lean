import InfSplitter.Configuration.Load
import InfSplitter.Lib.KeptValue
import Mathlib.Data.List.Induction

/-!
# The health of the upstreams

`/health` sends a request to every endpoint of the configuration, each once, all of them at the same
time, and tells how that went. What it has told is told again for five seconds.

The status is that of all endpoints together. The map below it has one entry for a section, though,
and one loop fills it: a section of two endpoints shows the one that comes last, and an endpoint
that two sections share shows under the first of them only. So a failure that makes the status
"degraded" may be shown nowhere (`healthResponse_upstreams`).
-/

set_option autoImplicit false

namespace InfSplitter.Server

open InfSplitter.Configuration Lib Session

/-! ## The endpoints -/

/-- An element of `upstream_endpoints`. -/
structure Endpoint where
  name : String
  url : String
  isInteractions : Bool
deriving DecidableEq, Repr

/-- What the loop over the sections comes by, in order. -/
def candidates (built : ProviderSection) : List Endpoint :=
  (built.endpointOpenai.toList ++ built.endpointAnthropic.toList).map (⟨built.name, ·, false⟩) ++
    built.endpointInteractions.toList.map (⟨built.name, ·, true⟩)

/-- `seen.insert(..)`, and the push if it was new. -/
def pushUnseen (acc : List String × List Endpoint) (endpoint : Endpoint) :
    List String × List Endpoint :=
  if endpoint.url ∈ acc.1 then acc else (endpoint.url :: acc.1, acc.2 ++ [endpoint])

/-- `values` are the sections in the order the map yields them. -/
def upstreamEndpoints (values : List ProviderSection) : List Endpoint :=
  ((values.flatMap candidates).foldl pushUnseen ([], [])).2

/-! ## One round -/

inductive Probe
  | get (url : String)
  | head (url : String)
deriving DecidableEq, Repr

inductive ProbeResult
  | ok
  | unreachable
  | timeout
deriving DecidableEq, Repr

def ProbeResult.shown : ProbeResult → String
  | .ok => "ok"
  | .unreachable => "unreachable"
  | .timeout => "timeout"

/-- An endpoint of the interactions is asked as it stands, its query string included. -/
def probeOf (endpoint : Endpoint) : Probe :=
  if endpoint.isInteractions then .get endpoint.url
  else .head (String.ofList (endpoint.url.toList.takeWhile (· ≠ '?')) ++ "/")

structure HealthResponse where
  status : String
  upstreams : StrMap String

def insertStatus (upstreams : StrMap String) (check : String × String) : StrMap String :=
  upstreams.insert check.1 check.2

/-- The loop over the results of the checks, and the response. -/
def healthResponse (checks : List (String × String)) : HealthResponse :=
  { status := if checks.all fun check => check.2 == "ok" then "ok" else "degraded"
    upstreams := checks.foldl insertStatus ∅ }

/-- The checks of one round, if the endpoints answer like this. -/
def checksOf (answers : Endpoint → Probe → ProbeResult) (endpoints : List Endpoint) :
    List (String × String) :=
  endpoints.map fun endpoint => (endpoint.name, (answers endpoint (probeOf endpoint)).shown)

def HealthResponse.statusCode (response : HealthResponse) : UInt16 :=
  if response.status = "ok" then 200 else 503

/-- Five seconds. -/
def cacheTtl : Nat := 5000000000

/-- All requests for the health of some sections; the clock counts nanoseconds. -/
def health (values : List ProviderSection) :
    System (KeptValue HealthResponse) (KeptEvent HealthResponse) :=
  KeptValue.system cacheTtl fun response =>
    ∃ answers, response = healthResponse (checksOf answers (upstreamEndpoints values))

/-! ## Every endpoint, once -/

theorem foldl_pushUnseen (endpoints : List Endpoint) (acc : List String × List Endpoint)
    (seen : ∀ url, url ∈ acc.1 ↔ url ∈ acc.2.map Endpoint.url)
    (nodup : (acc.2.map Endpoint.url).Nodup) :
    ((endpoints.foldl pushUnseen acc).2.map Endpoint.url).Nodup ∧
      ∀ url, url ∈ (endpoints.foldl pushUnseen acc).2.map Endpoint.url ↔
        url ∈ acc.2.map Endpoint.url ∨ url ∈ endpoints.map Endpoint.url := by
  induction endpoints generalizing acc with
  | nil => exact ⟨nodup, fun url => (or_iff_left List.not_mem_nil).symm⟩
  | cons endpoint rest ih =>
    rw [List.foldl_cons, List.map_cons]
    by_cases hmem : endpoint.url ∈ acc.1
    · have hacc : pushUnseen acc endpoint = acc := if_pos hmem
      rw [hacc]
      obtain ⟨hnodup, hurls⟩ := ih acc seen nodup
      have hold (url : String) (hurl : url = endpoint.url) : url ∈ acc.2.map Endpoint.url :=
        hurl ▸ (seen _).mp hmem
      refine ⟨hnodup, fun url => (hurls url).trans ?_⟩
      rw [List.mem_cons, ← or_assoc]
      exact or_congr_left (or_iff_left_of_imp (hold url)).symm
    · have hacc : pushUnseen acc endpoint = (endpoint.url :: acc.1, acc.2 ++ [endpoint]) :=
        if_neg hmem
      rw [hacc]
      have hnew : endpoint.url ∉ acc.2.map Endpoint.url := fun hold => hmem ((seen _).mpr hold)
      obtain ⟨hnodup, hurls⟩ := ih (endpoint.url :: acc.1, acc.2 ++ [endpoint]) (by
          intro url
          simp only [List.map_append, List.mem_append, List.mem_cons, List.map_cons, List.map_nil,
            List.not_mem_nil, or_false, seen url]
          exact or_comm) (by
          simp only [List.map_append, List.map_cons, List.map_nil]
          exact List.nodup_append'.mpr ⟨nodup, List.nodup_singleton _,
            List.disjoint_singleton.mpr hnew⟩)
      refine ⟨hnodup, fun url => (hurls url).trans ?_⟩
      simp only [List.map_append, List.mem_append, List.map_cons, List.map_nil, List.mem_cons,
        List.not_mem_nil, or_false, or_assoc]

/-- **Every endpoint of a section is asked, and none twice.** -/
theorem upstreamEndpoints_spec (values : List ProviderSection) :
    ((upstreamEndpoints values).map Endpoint.url).Nodup ∧
      ∀ url, url ∈ (upstreamEndpoints values).map Endpoint.url ↔
        ∃ built ∈ values, some url = built.endpointOpenai ∨ some url = built.endpointAnthropic ∨
          some url = built.endpointInteractions := by
  obtain ⟨nodup, urls⟩ := foldl_pushUnseen (values.flatMap candidates) ([], [])
    (fun _ => Iff.rfl) .nil
  refine ⟨nodup, fun url => (urls url).trans ?_⟩
  simp only [List.map_nil, List.not_mem_nil, false_or, List.mem_map, List.mem_flatMap]
  constructor
  · intro ⟨endpoint, ⟨built, hbuilt, hmem⟩, hurl⟩
    refine ⟨built, hbuilt, ?_⟩
    simp only [candidates, List.mem_append, List.mem_map, Option.mem_toList] at hmem
    rcases hmem with ⟨url', hurl' | hurl', rfl⟩ | ⟨url', hurl', rfl⟩ <;> simp_all
  · intro ⟨built, hbuilt, hurl⟩
    rcases hurl with hurl | hurl | hurl
    · exact ⟨⟨built.name, url, false⟩, ⟨built, hbuilt, by simp [candidates, ← hurl]⟩, rfl⟩
    · exact ⟨⟨built.name, url, false⟩, ⟨built, hbuilt, by simp [candidates, ← hurl]⟩, rfl⟩
    · exact ⟨⟨built.name, url, true⟩, ⟨built, hbuilt, by simp [candidates, ← hurl]⟩, rfl⟩

/-! ## What a response says -/

theorem ProbeResult.shown_eq_ok {result : ProbeResult} : result.shown = "ok" ↔ result = .ok := by
  cases result <;> decide

/-- The status is that of all endpoints. -/
theorem healthResponse_statusCode (answers : Endpoint → Probe → ProbeResult)
    (endpoints : List Endpoint) :
    (healthResponse (checksOf answers endpoints)).statusCode =
      if ∀ endpoint ∈ endpoints, answers endpoint (probeOf endpoint) = .ok then 200 else 503 := by
  have hall : (checksOf answers endpoints).all (fun check => check.2 == "ok") = true ↔
      ∀ endpoint ∈ endpoints, answers endpoint (probeOf endpoint) = .ok := by
    unfold checksOf
    simp only [List.all_map, List.all_eq_true, Function.comp_apply, beq_iff_eq,
      ProbeResult.shown_eq_ok]
  have degraded : ("degraded" : String) ≠ "ok" := by decide
  unfold HealthResponse.statusCode healthResponse
  dsimp only
  by_cases h : (checksOf answers endpoints).all (fun check => check.2 == "ok") = true
  · rw [if_pos h, if_pos rfl, if_pos (hall.mp h)]
  · rw [if_neg h, if_neg degraded, if_neg (mt hall.mpr h)]

theorem lookup_insertStatus (upstreams : StrMap String) (check : String × String)
    (name : String) :
    (insertStatus upstreams check).lookup name =
      if name = check.1 then some check.2 else upstreams.lookup name := by
  unfold insertStatus
  by_cases hname : name = check.1
  · rw [if_pos hname, hname, AList.lookup_insert]
  · rw [if_neg hname, AList.lookup_insert_ne hname]

/-- **The map shows the last endpoint of a name**, whatever the others are like. -/
theorem healthResponse_upstreams (checks : List (String × String)) (name : String) :
    (healthResponse checks).upstreams.lookup name =
      (checks.filter fun check => check.1 == name).getLast?.map Prod.snd := by
  unfold healthResponse
  dsimp only
  induction checks using List.reverseRecOn with
  | nil => rfl
  | append_singleton checks check ih =>
    rw [List.foldl_concat, lookup_insertStatus, List.filter_append, ih]
    by_cases hname : name = check.1
    · simp [hname]
    · have hbeq : (check.1 == name) = false := beq_false_of_ne (Ne.symm hname)
      simp [hname, hbeq]

/-! ## Every run -/

/-- What a response tells of the endpoints when they answer like this. -/
structure Tells (answers : Endpoint → Probe → ProbeResult) (endpoints : List Endpoint)
    (response : HealthResponse) : Prop where
  statusCode : response.statusCode =
    if ∀ endpoint ∈ endpoints, answers endpoint (probeOf endpoint) = .ok then 200 else 503
  upstreams : ∀ name, response.upstreams.lookup name =
    ((endpoints.filter fun endpoint => endpoint.name == name).getLast?.map fun endpoint =>
      (answers endpoint (probeOf endpoint)).shown)

theorem tells (answers : Endpoint → Probe → ProbeResult) (endpoints : List Endpoint) :
    Tells answers endpoints (healthResponse (checksOf answers endpoints)) where
  statusCode := healthResponse_statusCode answers endpoints
  upstreams name := by
    rw [healthResponse_upstreams]
    unfold checksOf
    rw [List.filter_map, List.getLast?_map, Option.map_map]
    rfl

/-- **Whoever asks, and whenever**, is told how the endpoints answered in one round, less than five
seconds ago and the latest there was; and no round starts within five seconds of the end of
another. -/
theorem health_timely {values : List ProviderSection}
    {moments : List (KeptValue HealthResponse × KeptEvent HealthResponse)}
    {s : KeptValue HealthResponse} (run : (health values).Run moments s) :
    (∀ answer ∈ s.answers, ∃ round ∈ s.rounds, KeptValue.From cacheTtl s.rounds answer round ∧
        ∃ answers, Tells answers (upstreamEndpoints values) answer.value) ∧
      ∀ round ∈ s.rounds, ∀ other ∈ s.rounds,
        other.finished < round.started → other.finished + cacheTtl ≤ round.started := by
  have pos : 0 < cacheTtl := by decide
  have timely := KeptValue.Timely.of_run pos run
  refine ⟨fun answer hanswer => ?_, fun round hround => ?_⟩
  · obtain ⟨_, round, hround, hfrom⟩ := timely.answers answer hanswer
    obtain ⟨answers, hvalue⟩ := (timely.rounds round hround).2.2
    refine ⟨round, hround, hfrom, answers, ?_⟩
    rw [← hfrom.1, hvalue]
    exact tells answers _
  · exact timely.apart round.started (Or.inr ⟨round, hround, rfl⟩)

/-- A section of two endpoints. -/
def twoEndpoints : ProviderSection where
  name := "main"
  endpointOpenai := some "http://a"
  endpointAnthropic := some "http://b"
  endpointInteractions := none
  apiKey := none
  maxTokens := none
  maxOutputTokens := none
  maxCompletionTokens := none
  modelNames := []
  dropFields := .all []
  proxy := none
  proxyLimit := none
  controlCleanAll := none
  controlExtendLifetime := none

def firstFails (endpoint : Endpoint) (_ : Probe) : ProbeResult :=
  if endpoint.url = "http://a" then .unreachable else .ok

def hidden : HealthResponse :=
  healthResponse (checksOf firstFails (upstreamEndpoints [twoEndpoints]))

/-- The first endpoint fails, the second is shown, and told again. -/
theorem health_timely_hidden :
    ∃ moments s, (health [twoEndpoints]).Run moments s ∧
      s.answers = [⟨7, hidden⟩, ⟨0, hidden⟩] ∧ hidden.statusCode = 503 ∧
      hidden.upstreams.lookup "main" = some "ok" ∧
      ∀ answer ∈ s.answers, ∃ round ∈ s.rounds, KeptValue.From cacheTtl s.rounds answer round := by
  have old (value : HealthResponse) : ¬ KeptValue.Young cacheTtl KeptValue.start value :=
    fun ⟨_, hkept, _⟩ => nomatch hkept
  have r1 := System.Run.init.step (S := health [twoEndpoints]) (KeptValue.Step.begins old)
  have r2 := r1.step (KeptValue.Step.finishes (List.mem_cons_self ..) ⟨firstFails, rfl⟩)
  have r3 := r2.step (KeptValue.Step.passes 7)
  have r4 := r3.step (KeptValue.Step.hit ⟨0, rfl, by decide⟩)
  refine ⟨_, _, r4, rfl, rfl, rfl, fun answer hanswer => ?_⟩
  obtain ⟨round, hround, hfrom, _⟩ := (health_timely r4).1 answer hanswer
  exact ⟨round, hround, hfrom⟩

end InfSplitter.Server
