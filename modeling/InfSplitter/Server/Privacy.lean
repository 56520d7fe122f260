import InfSplitter.Server.Passthrough

/-!
# What the diagnostics are not told

The two sides of a request that is passed through are what comes of it for the client and what the
diagnostics get. Both are compared here for two requests that differ in something secret.

Credentials are in the headers of the client and in the key of the route. With others in their place
the handlers record the same and answer the same (`secrets_not_recorded`). The messages are in the
dumps, which is what these are for, but the statistics of two requests are the same if the sizes of
their texts are (`texts_not_in_statistics`).
-/

set_option autoImplicit false

namespace InfSplitter.Server

open Diagnostics Egress Lib

/-! ## Calls that record the same -/

/-- **A guard cannot tell calls that do the same apart.** -/
theorem lifetime_congr {calls calls' : List GuardCall}
    (h : List.Forall₂ (fun call call' => ∀ guard, GuardCall.run guard call =
      GuardCall.run guard call') calls calls')
    (request : GuardedRequest) (ts : String) (durationMs : UInt64) :
    lifetime request calls ts durationMs = lifetime request calls' ts durationMs := by
  have hrun : ∀ guard, runCalls guard calls = runCalls guard calls' := by
    induction h with
    | nil => exact fun _ => rfl
    | cons hcall _ ih =>
      intro guard
      show runCalls (GuardCall.run guard _) _ = runCalls (GuardCall.run guard _) _
      rw [hcall guard, ih]
  unfold lifetime
  rw [hrun]

theorem run_ingressDump {headers headers' : HeaderMap} (ts : String) (body : List UInt8)
    (h : headerPairsWithMasking headers = headerPairsWithMasking headers')
    (guard : RequestDiagnostics) :
    GuardCall.run guard (.ingressDump ts body headers) =
      GuardCall.run guard (.ingressDump ts body headers') := by
  show guard.ingressDump ts body headers = guard.ingressDump ts body headers'
  unfold RequestDiagnostics.ingressDump
  rw [h]

theorem run_egressDump {headers headers' : HeaderMap} (ts : String) (body : List UInt8)
    (h : headerPairsWithMasking headers = headerPairsWithMasking headers')
    (guard : RequestDiagnostics) :
    GuardCall.run guard (.egressDump ts body headers) =
      GuardCall.run guard (.egressDump ts body headers') := by
  show guard.egressDump ts body headers = guard.egressDump ts body headers'
  unfold RequestDiagnostics.egressDump
  rw [h]

/-! ## Credentials -/

/-- The same request, but for the values of sensitive headers and the key. -/
structure SameButSecrets (r r' : Passed) : Prop where
  body : r'.body = r.body
  endpoint : r'.endpoint = r.endpoint
  route : r'.route = { r.route with apiKey := r'.route.apiKey }
  headers : Alike r.headers r'.headers
  keys : AlikeKeys r.route.apiKey r'.route.apiKey

section
variable {σ : Type} {p : Passthrough} {h : Handlers} {r r' : Passed} {t : Readings}

theorem exchange_congr (hargs : p.args r t = p.args r' t) (request : GuardedRequest)
    (upstream : Read (UpstreamResponse σ)) :
    p.exchange h r t request upstream = p.exchange h r' t request upstream := by
  unfold Passthrough.exchange Passthrough.relayUpstream
  simp only [hargs]

theorem args_congr (hbody : r.body.length = r'.body.length) (hendpoint : r.endpoint = r'.endpoint) :
    p.args r t = p.args r' t := by
  funext durationMs streaming
  unfold Passthrough.args
  rw [hbody, hendpoint]

theorem run_self (calls : List GuardCall) :
    List.Forall₂ (fun call call' => ∀ guard, GuardCall.run guard call =
      GuardCall.run guard call') calls calls :=
  List.forall₂_same.mpr fun _ _ _ => rfl

theorem calls_alike (hsame : SameButSecrets r r') (request : GuardedRequest) (value : Json)
    (upstream : Read (UpstreamResponse σ)) :
    List.Forall₂ (fun call call' => ∀ guard, GuardCall.run guard call =
        GuardCall.run guard call') (p.calls h r t request value upstream).1
        (p.calls h r' t request value upstream).1 ∧
      (p.calls h r t request value upstream).2 = (p.calls h r' t request value upstream).2 := by
  have hingress := run_ingressDump t.ingress r.body (headerPairsWithMasking_alike hsame.headers)
  have hcaps : caps r'.route = caps r.route := by
    rw [hsame.route]
    rfl
  have hexchange : p.exchange h r' t request upstream = p.exchange h r t request upstream :=
    exchange_congr (args_congr (by rw [hsame.body]) hsame.endpoint) request upstream
  unfold Passthrough.calls
  dsimp only
  rw [hsame.body, hcaps, hexchange]
  cases applyEgressTransforms value (modelOf value) (caps r.route) with
  | none => exact ⟨.cons hingress (run_self _), rfl⟩
  | some sent =>
    refine ⟨List.rel_append (List.rel_append (.cons hingress (run_self _)) ?_) (run_self _), rfl⟩
    split
    · refine .cons (run_egressDump _ _ (headerPairsWithMasking_alike ?_)) .nil
      exact forwardRequestHeadersMap_alike hsame.keys hsame.headers p.protocol
    · exact .nil

/-- **No secret is recorded.** For another key, and other values of the sensitive headers, a handler
records the same and answers the same. -/
theorem secrets_not_recorded (hsame : SameButSecrets r r') (requestId : String)
    (upstream : Read (UpstreamResponse σ)) :
    p.handle h r t requestId upstream = p.handle h r' t requestId upstream := by
  cases hvalue : h.fromSlice r.body with
  | error e =>
    unfold Passthrough.handle
    rw [hsame.body, hvalue]
  | ok value =>
    have hvalue' : h.fromSlice r'.body = .ok value := by rw [hsame.body, hvalue]
    have hguarded : guardedRequest r' requestId value = guardedRequest r requestId value := by
      unfold guardedRequest
      rw [hsame.route]
    obtain ⟨hcalls, houtcome⟩ := calls_alike (p := p) (h := h) (t := t) hsame
      (guardedRequest r requestId value) value upstream
    rw [handle_ok hvalue, handle_ok hvalue', hguarded, houtcome,
      lifetime_congr hcalls]

end

/-- A request with credentials, to a route with a key. -/
def withSecrets (key authorization : String) (body : List UInt8) : Passed :=
  { plainPassed body with
    headers := EntryMap.insert .empty (.fromText "Authorization") (.fromStatic authorization)
    route := { plainRoute with apiKey := some key } }

theorem secrets_not_recorded_others :
    fromOpenai.handle plainHandlers (withSecrets "key" "Bearer a" plainBody.toVec) plainReadings
        "0-0" (.read plainUpstream) =
      fromOpenai.handle plainHandlers (withSecrets "other" "Bearer b" plainBody.toVec)
        plainReadings "0-0" (.read plainUpstream) := by
  have hkeys : AlikeKeys (some "key") (some "other") := .some (by decide)
  have hvalues : AlikeValue (.fromText "Authorization") (.fromStatic "Bearer a")
      (.fromStatic "Bearer b") := ⟨by decide, fun h => absurd h (by decide)⟩
  have hsame (body : List UInt8) : SameButSecrets (withSecrets "key" "Bearer a" body)
      (withSecrets "other" "Bearer b" body) :=
    ⟨rfl, rfl, rfl, EntryMap.Rel.insert EntryMap.rel_empty hvalues, hkeys⟩
  exact secrets_not_recorded (hsame plainBody.toVec) "0-0" _

/-! ## Messages -/

/-- What the statistics depend on: a guard without its dumps. -/
def strip (guard : RequestDiagnostics) : RequestDiagnostics :=
  { guard with
    diagnostics := { guard.diagnostics with dumps := [] }
    ingressDumpPending := none
    egressDumpsPending := []
    responseDumpPending := none
    ingressResponseDumpPending := none }

/-- Without its dumps a guard goes on as it would with them. -/
theorem strip_run (call : GuardCall) (guard : RequestDiagnostics) :
    strip (GuardCall.run guard call) = strip (GuardCall.run (strip guard) call) := by
  cases hc : call.finishing with
  | none =>
    cases call with
    | finish | finishWithError | finishWithUpstreamError | abortUpstream | abortInternal
    | abortBadRequest => cases hc
    | _ => rfl
  | some f =>
    rw [run_of_finishing hc, run_of_finishing hc]
    unfold RequestDiagnostics.finishAs
    have hprepared : (call.prepare guard).finished = guard.finished := rfl
    have hstripped : (call.prepare (strip guard)).finished = guard.finished := rfl
    rw [hprepared, hstripped]
    cases guard.finished <;> rfl

/-- Two calls that differ in a dump, and not in its size if that is looked at. -/
inductive SameStatistics : GuardCall → GuardCall → Prop
  | refl (call : GuardCall) : SameStatistics call call
  | ingressDump {body body' : List UInt8} (hlength : body.length = body'.length) (ts : String)
    (headers : HeaderMap) :
    SameStatistics (.ingressDump ts body headers) (.ingressDump ts body' headers)
  | egressDump (ts : String) (body body' : List UInt8) (headers : HeaderMap) :
    SameStatistics (.egressDump ts body headers) (.egressDump ts body' headers)

theorem strip_runCalls {calls calls' : List GuardCall}
    (h : List.Forall₂ SameStatistics calls calls') {guard guard' : RequestDiagnostics}
    (hguard : strip guard = strip guard') :
    strip (runCalls guard calls) = strip (runCalls guard' calls') := by
  induction h generalizing guard guard' with
  | nil => exact hguard
  | @cons call call' rest rest' hcall _ ih =>
    show strip (runCalls (GuardCall.run guard call) rest) =
      strip (runCalls (GuardCall.run guard' call') rest')
    apply ih
    rw [strip_run call guard, strip_run call' guard', hguard]
    cases hcall with
    | refl => rfl
    | ingressDump hlength ts headers =>
      show strip (RequestDiagnostics.ingressDump _ _ _ _) =
        strip (RequestDiagnostics.ingressDump _ _ _ _)
      unfold strip RequestDiagnostics.ingressDump
      rw [hlength]
    | egressDump => rfl

/-- **The statistics of calls that differ in dumps only are the same.** -/
theorem stats_lifetime_congr {calls calls' : List GuardCall}
    (h : List.Forall₂ SameStatistics calls calls') (request : GuardedRequest) (ts : String)
    (durationMs : UInt64) :
    (lifetime request calls ts durationMs).stats =
      (lifetime request calls' ts durationMs).stats := by
  have hdrop (guard : RequestDiagnostics) :
      (guard.drop ts durationMs).diagnostics.stats =
        ((strip guard).drop ts durationMs).diagnostics.stats := by
    have hstripped : (strip guard).finished = guard.finished := rfl
    unfold RequestDiagnostics.drop
    rw [hstripped]
    cases guard.finished <;> rfl
  unfold lifetime
  rw [hdrop, hdrop (runCalls _ calls'), strip_runCalls h rfl]

/-- The same request with another body of the same length. -/
structure SameButBody (r r' : Passed) : Prop where
  length : r.body.length = r'.body.length
  endpoint : r.endpoint = r'.endpoint
  route : r.route = r'.route
  headers : r.headers = r'.headers

section
variable {σ : Type} {p : Passthrough} {h : Handlers} {r r' : Passed} {t : Readings}
  {value value' : Json}

theorem modelOf_maskBody (value : Json) : modelOf (maskBody value) = modelOf value := by
  unfold modelOf
  cases value with
  | obj members =>
    unfold maskBody
    rw [get_maskMembers, bind_asStr_map id (maskField "model") fun _ => rfl, Option.map_id]
    rfl
  | _ => rfl

theorem calls_sameStatistics (hsame : SameButBody r r') (hmask : maskBody value = maskBody value')
    (request : GuardedRequest) (upstream : Read (UpstreamResponse σ)) :
    List.Forall₂ SameStatistics (p.calls h r t request value upstream).1
        (p.calls h r' t request value' upstream).1 ∧
      (p.calls h r t request value upstream).2 = (p.calls h r' t request value' upstream).2 := by
  have hmodel : modelOf value = modelOf value' := by
    rw [← modelOf_maskBody value, hmask, modelOf_maskBody]
  obtain ⟨hdetail, htransforms⟩ := details_of_maskBody_eq hmask (modelOf value') (caps r'.route)
  have hexchange : p.exchange h r' t request upstream = p.exchange h r t request upstream :=
    (exchange_congr (args_congr hsame.length hsame.endpoint) request upstream).symm
  have hself (calls : List GuardCall) : List.Forall₂ SameStatistics calls calls :=
    List.forall₂_same.mpr fun call _ => .refl call
  have hsaid {set : Json → GuardCall} {value value' : Json}
      (hdetail : messagesDetailFromValue value = messagesDetailFromValue value') :
      Passthrough.detail h set value = Passthrough.detail h set value' := by
    unfold Passthrough.detail
    rw [hdetail]
  unfold Passthrough.calls
  dsimp only
  rw [hmodel, hsame.route, hsame.headers, hexchange, hsaid hdetail]
  cases hsent : applyEgressTransforms value (modelOf value') (caps r'.route) with
  | none =>
    cases hsent' : applyEgressTransforms value' (modelOf value') (caps r'.route) with
    | none => exact ⟨.cons (.ingressDump hsame.length _ _) (hself _), rfl⟩
    | some sent' =>
      rw [hsent, hsent'] at htransforms
      cases htransforms
  | some sent =>
    cases hsent' : applyEgressTransforms value' (modelOf value') (caps r'.route) with
    | none =>
      rw [hsent, hsent'] at htransforms
      cases htransforms
    | some sent' =>
      rw [hsent, hsent'] at htransforms
      dsimp only
      rw [hsaid (Option.some.inj htransforms)]
      refine ⟨List.rel_append (List.rel_append
        (.cons (.ingressDump hsame.length _ _) (hself _)) ?_) (hself _), rfl⟩
      split
      · exact .cons (.egressDump _ _ _ _) .nil
      · exact .nil

/-- **The statistics do not tell what is said.** Of two requests whose bodies are of one length, and
the same where they are not masked, the events are the same, and so are the answers. -/
theorem texts_not_in_statistics (hsame : SameButBody r r')
    (hvalue : h.fromSlice r.body = .ok value) (hvalue' : h.fromSlice r'.body = .ok value')
    (hmask : maskBody value = maskBody value') (requestId : String)
    (upstream : Read (UpstreamResponse σ)) :
    ∃ handling handling', p.handle h r t requestId upstream = .ok handling ∧
      p.handle h r' t requestId upstream = .ok handling' ∧
      handling.recorded.stats = handling'.recorded.stats ∧
      handling.outcome = handling'.outcome := by
  have hguarded : guardedRequest r requestId value = guardedRequest r' requestId value' := by
    unfold guardedRequest
    rw [hsame.route, ← modelOf_maskBody value, hmask, modelOf_maskBody]
  obtain ⟨hcalls, houtcome⟩ := calls_sameStatistics (p := p) (h := h) (t := t) hsame hmask
    (guardedRequest r' requestId value') upstream
  refine ⟨_, _, handle_ok hvalue, handle_ok hvalue', ?_, ?_⟩
  · rw [hguarded]
    exact stats_lifetime_congr hcalls _ _ _
  · rw [hguarded]
    exact houtcome

end

def saying (text : String) : Json :=
  .obj [("model", .str "m"),
    ("messages", .arr [.obj [("role", .str "user"), ("content", .str text)]])]

theorem saying_numeric (text : String) : Json.Numeric (saying text) := by
  refine .obj (List.forall_mem_cons.mpr ⟨.str "m", List.forall_mem_singleton.mpr ?_⟩)
  refine .arr (List.forall_mem_singleton.mpr (.obj ?_))
  exact List.forall_mem_cons.mpr ⟨.str "user", List.forall_mem_singleton.mpr (.str text)⟩

theorem texts_not_in_statistics_saying :
    ∃ handling handling',
      fromOpenai.handle plainHandlers (plainPassed (saying "yes").toVec) plainReadings "0-0"
          (.read plainUpstream) = .ok handling ∧
        fromOpenai.handle plainHandlers (plainPassed (saying "not").toVec) plainReadings "0-0"
          (.read plainUpstream) = .ok handling' ∧
        handling.recorded.stats = handling'.recorded.stats ∧
        handling.outcome = handling'.outcome := by
  have hlength : (saying "yes").toVec.length = (saying "not").toVec.length := by
    rw [Json.length_toVec, Json.length_toVec]
    decide +kernel
  have hmask : maskBody (saying "yes") = maskBody (saying "not") := by
    have htext : maskText "yes" = maskText "not" := by decide
    simp [saying, maskBody, maskMembers, maskField, maskMessages, maskMessage, maskContent, htext]
  have hsame (body body' : List UInt8) (hlength : body.length = body'.length) :
      SameButBody (plainPassed body) (plainPassed body') := ⟨hlength, rfl, rfl, rfl⟩
  have hvalue (body : List UInt8) (value : Json) (h : readSlice body = .ok value) :
      plainHandlers.fromSlice (plainPassed body).body = .ok value := h
  exact texts_not_in_statistics (hsame _ _ hlength)
    (hvalue _ _ (readSlice_toVec (saying_numeric "yes")))
    (hvalue _ _ (readSlice_toVec (saying_numeric "not"))) hmask "0-0" _

end InfSplitter.Server
