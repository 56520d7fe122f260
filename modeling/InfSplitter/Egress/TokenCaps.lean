import InfSplitter.Egress.Passthrough

/-!
# The token limits of a translated request

An Anthropic request that goes to an OpenAI upstream is translated first. Then the caps of the route
are put into the translated request, and since newer models refuse `max_tokens`, it is left out
wherever there is a `max_completion_tokens`.

One of the two fields is left if there was one or the route has a cap, and it respects the cap and
what the request had in that field (`effective_limit`). What the other field had does not matter: a
`max_completion_tokens` takes its place, be it larger or only there because of the cap.
-/

set_option autoImplicit false

namespace InfSplitter.Egress

/-! ## The code -/

/-- The fields of a request to an OpenAI upstream that have to do with limits. -/
structure ChatCompletionRequest where
  maxTokens : Option UInt32
  maxCompletionTokens : Option UInt32
  extra : List (String × Json)

/-- A typed field, clamped or set. -/
def capLimit (limit field : Option UInt32) : Option UInt32 :=
  match limit with
  | none => field
  | some limit =>
    match field with
    | some existing => if existing > limit then some limit else some existing
    | none => some limit

/-- The same for the field that only `extra` has. -/
def capExtra (limit : Option UInt32) (extra : List (String × Json)) : List (String × Json) :=
  match limit with
  | none => extra
  | some limit =>
    match (extra.lookup "max_output_tokens").bind asU64 with
    | some existing =>
      if existing > limit.toNat then
        setMember extra "max_output_tokens" (.num (toString limit.toNat))
      else extra
    | none => setMember extra "max_output_tokens" (.num (toString limit.toNat))

def capOpenaiMaxTokens (req : ChatCompletionRequest) (route : RouteTarget) :
    ChatCompletionRequest :=
  { maxTokens := capLimit route.maxTokens req.maxTokens
    maxCompletionTokens := capLimit route.maxCompletionTokens req.maxCompletionTokens
    extra := capExtra route.maxOutputTokens req.extra }

/-- The step `handle_sync_manual` and `handle_stream_manual` have in common: a `max_tokens` of the
route that is alone also holds for `max_completion_tokens`. -/
def transferLimit (req : ChatCompletionRequest) (route : RouteTarget) : ChatCompletionRequest :=
  match route.maxTokens, route.maxCompletionTokens, req.maxCompletionTokens with
  | some limit, none, some existing =>
    if existing > limit then { req with maxCompletionTokens := some limit } else req
  | _, _, _ => req

def sanitizeOpenaiEgress (req : ChatCompletionRequest) : ChatCompletionRequest :=
  { req with
    extra := (req.extra.filter (·.1 ≠ "context_management")).filter (·.1 ≠ "output_config")
    maxTokens := if req.maxCompletionTokens.isSome then none else req.maxTokens }

/-- What happens to the limits on the way out. -/
def limitEgress (req : ChatCompletionRequest) (route : RouteTarget) : ChatCompletionRequest :=
  sanitizeOpenaiEgress (transferLimit (capOpenaiMaxTokens req route) route)

/-! ## What is asked of it -/

/-- The limit the upstream is given. -/
def ChatCompletionRequest.limit (req : ChatCompletionRequest) : Option UInt32 :=
  req.maxCompletionTokens.or req.maxTokens

/-- The cap of the route for the field that is left. -/
def RouteTarget.capFor (route : RouteTarget) (req : ChatCompletionRequest) : Option UInt32 :=
  if req.maxCompletionTokens.isSome then route.maxCompletionTokens.or route.maxTokens
  else route.maxTokens

/-- Neither field is there if none was sent and none is capped, and exactly one otherwise. -/
def OneIsLeft (route : RouteTarget) (before after : ChatCompletionRequest) : Prop :=
  (after.maxTokens.isSome && after.maxCompletionTokens.isSome) = false ∧
    (after.limit.isSome ↔ before.limit.isSome ∨ route.maxTokens.isSome ∨
      route.maxCompletionTokens.isSome)

def WithinCap (route : RouteTarget) (after : ChatCompletionRequest) : Prop :=
  ∀ limit ∈ after.limit, ∀ cap ∈ route.capFor after, limit ≤ cap

def WithinCarried (before after : ChatCompletionRequest) : Prop :=
  ∀ limit ∈ after.limit, (∀ own ∈ before.maxCompletionTokens, limit ≤ own) ∧
    ∀ own ∈ before.maxTokens, limit ≤ own

/-- `max_tokens` binds the limit if it is the field that is left, or if it was no smaller than the
field that displaces it. -/
def WithinCarriedOrDisplaced (before after : ChatCompletionRequest) : Prop :=
  ∀ limit ∈ after.limit, (∀ own ∈ before.maxCompletionTokens, limit ≤ own) ∧
    ∀ own ∈ before.maxTokens,
      (after.maxTokens.isSome ∨ ∃ completion ∈ before.maxCompletionTokens, completion ≤ own) →
      limit ≤ own

/-! ## One field -/

section
variable {cap field : Option UInt32} {limit : UInt32}

theorem capLimit_isSome : (capLimit cap field).isSome = (field.isSome || cap.isSome) := by
  unfold capLimit
  cases cap with
  | none => simp
  | some cap =>
    cases field with
    | none => rfl
    | some existing =>
      dsimp only
      split <;> rfl

theorem le_cap (h : limit ∈ capLimit cap field) : ∀ c ∈ cap, limit ≤ c := by
  rintro c rfl
  unfold capLimit at h
  cases field with
  | none =>
    cases h
    exact UInt32.le_refl _
  | some existing =>
    dsimp only at h
    split at h
    · cases h
      exact UInt32.le_refl _
    · next hle =>
      cases h
      exact UInt32.not_lt.mp hle

theorem le_own (h : limit ∈ capLimit cap field) : ∀ own ∈ field, limit ≤ own := by
  rintro own rfl
  unfold capLimit at h
  cases cap with
  | none =>
    cases h
    exact UInt32.le_refl _
  | some cap =>
    dsimp only at h
    split at h
    · next hlt =>
      cases h
      exact UInt32.le_of_lt hlt
    · cases h
      exact UInt32.le_refl _

end

/-! ## The whole way -/

section
variable {req : ChatCompletionRequest} {route : RouteTarget}

/-- The transfer is one more cap on `max_completion_tokens`, if there is one. -/
theorem transferLimit_eq (req : ChatCompletionRequest) (route : RouteTarget) :
    (transferLimit (capOpenaiMaxTokens req route) route).maxTokens =
        capLimit route.maxTokens req.maxTokens ∧
      (transferLimit (capOpenaiMaxTokens req route) route).maxCompletionTokens =
        if route.maxCompletionTokens = none ∧ req.maxCompletionTokens.isSome then
          capLimit route.maxTokens req.maxCompletionTokens
        else capLimit route.maxCompletionTokens req.maxCompletionTokens := by
  unfold transferLimit capOpenaiMaxTokens
  obtain ⟨own, completion, extra⟩ := req
  obtain ⟨cap, output, completionCap, drop⟩ := route
  cases cap <;> cases completionCap <;> cases completion <;> simp [capLimit]
  split <;> simp

theorem limitEgress_maxCompletionTokens (req : ChatCompletionRequest) (route : RouteTarget) :
    (limitEgress req route).maxCompletionTokens =
      if route.maxCompletionTokens = none ∧ req.maxCompletionTokens.isSome then
        capLimit route.maxTokens req.maxCompletionTokens
      else capLimit route.maxCompletionTokens req.maxCompletionTokens :=
  (transferLimit_eq req route).2

theorem maxCompletionTokens_isSome (req : ChatCompletionRequest) (route : RouteTarget) :
    (limitEgress req route).maxCompletionTokens.isSome =
      (req.maxCompletionTokens.isSome || route.maxCompletionTokens.isSome) := by
  rw [limitEgress_maxCompletionTokens]
  split
  · next h => simp [capLimit_isSome, h.1, h.2]
  · exact capLimit_isSome

theorem limitEgress_maxTokens (req : ChatCompletionRequest) (route : RouteTarget) :
    (limitEgress req route).maxTokens =
      if req.maxCompletionTokens.isSome || route.maxCompletionTokens.isSome then none
      else capLimit route.maxTokens req.maxTokens := by
  rw [← maxCompletionTokens_isSome, ← (transferLimit_eq req route).1]
  rfl

/-- **What `max_completion_tokens` goes out with.** -/
theorem maxCompletionTokens_le {limit : UInt32}
    (h : limit ∈ (limitEgress req route).maxCompletionTokens) :
    (∀ cap ∈ route.maxCompletionTokens.or route.maxTokens, limit ≤ cap) ∧
      ∀ own ∈ req.maxCompletionTokens, limit ≤ own := by
  rw [limitEgress_maxCompletionTokens] at h
  split at h
  · next hcond =>
    rw [hcond.1, Option.none_or]
    exact ⟨le_cap h, le_own h⟩
  · next hcond =>
    refine ⟨fun cap hcap => ?_, le_own h⟩
    cases hroute : route.maxCompletionTokens with
    | some own =>
      rw [hroute] at h hcap
      exact le_cap h cap hcap
    | none =>
      -- without a cap of its own the field is only there if it was sent
      have hnone : req.maxCompletionTokens = none := by
        simpa [hroute] using hcond
      rw [hroute, hnone] at h
      cases h

/-- **What `max_tokens` goes out with**, and that it is then alone. -/
theorem maxTokens_le {limit : UInt32} (h : limit ∈ (limitEgress req route).maxTokens) :
    req.maxCompletionTokens = none ∧ (limitEgress req route).maxCompletionTokens = none ∧
      (∀ cap ∈ route.maxTokens, limit ≤ cap) ∧ ∀ own ∈ req.maxTokens, limit ≤ own := by
  rw [limitEgress_maxTokens] at h
  split at h
  · cases h
  · next hcond =>
    have hnone := maxCompletionTokens_isSome req route
    rw [Bool.not_eq_true] at hcond
    rw [hcond, Option.isSome_eq_false_iff, Option.isNone_iff_eq_none] at hnone
    rw [Bool.or_eq_false_iff, Option.isSome_eq_false_iff, Option.isNone_iff_eq_none] at hcond
    exact ⟨hcond.1, hnone, le_cap h, le_own h⟩

/-- **The limit on the way out**: one field is left if there is any reason for one, within the cap
of the route and within what the request had in its place. -/
theorem effective_limit (req : ChatCompletionRequest) (route : RouteTarget) :
    OneIsLeft route req (limitEgress req route) ∧ WithinCap route (limitEgress req route) ∧
      WithinCarriedOrDisplaced req (limitEgress req route) := by
  have hcompletion := maxCompletionTokens_isSome req route
  have htokens := limitEgress_maxTokens req route
  refine ⟨⟨?_, ?_⟩, ?_, ?_⟩
  · rw [hcompletion, htokens]
    split <;> simp_all
  · simp only [ChatCompletionRequest.limit, Option.isSome_or, hcompletion, htokens]
    split
    · simp_all
      tauto
    · simp_all [capLimit_isSome]
  · intro limit hlimit cap hcap
    unfold RouteTarget.capFor at hcap
    rcases Option.or_eq_some_iff.mp hlimit with hc | ⟨hnone, ht⟩
    · rw [if_pos (by rw [hc]; rfl)] at hcap
      exact (maxCompletionTokens_le hc).1 cap hcap
    · rw [if_neg (by rw [hnone]; simp)] at hcap
      exact (maxTokens_le ht).2.2.1 cap hcap
  · intro limit hlimit
    rcases Option.or_eq_some_iff.mp hlimit with hc | ⟨hnone, ht⟩
    · refine ⟨(maxCompletionTokens_le hc).2, fun own hown hreason => ?_⟩
      rcases hreason with hleft | ⟨completion, hcompl, hle⟩
      · obtain ⟨left, hleft⟩ := Option.isSome_iff_exists.mp hleft
        rw [(maxTokens_le hleft).2.1] at hc
        cases hc
      · exact UInt32.le_trans ((maxCompletionTokens_le hc).2 completion hcompl) hle
    · obtain ⟨hnosent, _, _, hown⟩ := maxTokens_le ht
      refine ⟨fun own hsent => ?_, fun own hown' _ => hown own hown'⟩
      rw [hnosent] at hsent
      cases hsent

end

/-- A request with both fields, the larger of which is left. -/
theorem limit_above_carried :
    ¬ ∀ (req : ChatCompletionRequest) (route : RouteTarget),
      OneIsLeft route req (limitEgress req route) ∧ WithinCap route (limitEgress req route) ∧
        WithinCarried req (limitEgress req route) := by
  intro hall
  have h := (hall { maxTokens := some 10, maxCompletionTokens := some 100, extra := [] }
    { maxTokens := none, maxOutputTokens := none, maxCompletionTokens := none
      dropFields := .all [] }).2.2 100 rfl
  exact absurd (h.2 10 rfl) (by decide)

end InfSplitter.Egress
