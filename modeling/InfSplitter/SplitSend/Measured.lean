import InfSplitter.SplitSend.Feasibility
import InfSplitter.SplitSend.Kept

/-!
# What is measured and what is sent

A body has the size of its contents and the costs of what else is in it (`bodySize_parts`). So the
measures of `handle_split_send` can be compared with the bodies it sends, and what they leave out
are the ids and the escapes:

* a first chunk is measured with system instruction, tools and config, and sent with the previous id
  instead where there is one;
* a later chunk is measured with the placeholder and with the first id received, and sent with the
  id before it;
* a fragment is measured by the bytes of its text, after the envelope is taken off twice, and sent
  with its escapes and the id before it.

`IdsFit` says that the ids and the escapes are no larger than what is there in their place. Nothing
in it depends on the contents, the limit or the cut. It is enough for every request that is alike in
what it compares, and where it fails one of these breaks the limit (`bodies_within_limit_iff`).
-/

set_option autoImplicit false

namespace InfSplitter.SplitSend

open Session Interactions Json Lib

/-! ## The parts of a body -/

/-- What tools and generation config add to a body. -/
def toolsCost (p : CreateModelInteractionParams) : Nat :=
  membersCost (member "generation_config" GenerationConfig.toJson p.generationConfig) +
    membersCost (member "tools" .arr p.tools)

def idCost (prev : Option String) : Nat :=
  membersCost (member "previous_interaction_id" .str prev)

def systemCost (sys : Option String) : Nat := membersCost (member "system_instruction" .str sys)

/-- A body with nothing but contents, not streamed. -/
def baseSize (model : String) (contents : List Content) : Nat :=
  bodySize (buildChunkRequest model contents none none false)

/-- `true` is shorter than `false`. -/
def streamGain (stream : Bool) : Nat := if stream then 1 else 0

theorem bodySize_parts {p : CreateModelInteractionParams} {stream : Bool}
    (h : p.stream = some stream) :
    bodySize p + streamGain stream =
      baseSize p.model p.input + toolsCost p + idCost p.previousInteractionId +
        systemCost p.systemInstruction := by
  unfold baseSize toolsCost idCost systemCost
  rw [bodySize_eq p, bodySize_eq (buildChunkRequest p.model p.input none none false), h]
  cases stream <;> simp [buildChunkRequest, member, streamGain, memberSize] <;> omega

theorem idCost_some (id : String) : idCost (some id) = idCost (some "") + escapedSize id :=
  membersCost_str "previous_interaction_id" (some id)

theorem systemCost_some (sys : String) :
    systemCost (some sys) = systemCost (some "") + sys.utf8ByteSize + escapes sys := by
  rw [Nat.add_assoc, ← escapedSize_eq]
  exact membersCost_str "system_instruction" (some sys)

section
variable (r : SplitRequest) (contents : List Content)

theorem size_firstEnvelope :
    bodySize (buildPackBody r.firstEnvelope contents) =
      baseSize r.model contents + toolsCost r.params +
        systemCost r.params.systemInstruction := by
  have h := @bodySize_parts (buildPackBody r.firstEnvelope contents) false rfl
  have hnone : idCost none = 0 := rfl
  simp only [buildPackBody, SplitRequest.firstEnvelope, streamGain, toolsCost, hnone] at h ⊢
  simpa using h

theorem size_subsequentEnvelope (id : String) :
    bodySize (buildPackBody (r.subsequentEnvelope id) contents) =
      baseSize r.model contents + idCost (some id) := by
  have h := @bodySize_parts (buildPackBody (r.subsequentEnvelope id) contents) false rfl
  simpa [buildPackBody, SplitRequest.subsequentEnvelope, streamGain, toolsCost, systemCost, member]
    using h

theorem fitsAfter_iff (prev : String) :
    FitsAfter r contents prev ↔
      baseSize r.model contents + idCost (some prev) ≤ r.limit + streamGain r.stream := by
  have h := @bodySize_parts (buildChunkRequest r.model contents none (some "") r.stream) r.stream
    rfl
  have hid := idCost_some prev
  simp only [buildChunkRequest, toolsCost, systemCost, member, membersCost_nil] at h
  unfold FitsAfter
  simp only [buildChunkRequest]
  omega

theorem envelopeOverhead_eq :
    SystemSplit.envelopeOverhead r + streamGain r.stream =
      baseSize r.model [] + idCost r.params.previousInteractionId + systemCost (some "") :=
  bodySize_parts (p := buildChunkRequest r.model [] (some "") r.params.previousInteractionId
    r.stream) rfl

theorem size_plan (i : Nat) (plan : SplitPiecePlan) (prev : Option String) :
    bodySize ((systemLoop r).body i plan prev) + streamGain r.stream =
      baseSize r.model plan.input + (if plan.includeToolsConfig then toolsCost r.params else 0) +
        idCost prev + systemCost plan.systemInstruction := by
  have h := @bodySize_parts ((systemLoop r).body i plan prev) r.stream rfl
  cases hinclude : plan.includeToolsConfig with
  | true =>
    simp only [systemLoop, buildChunkRequest, toolsCost, hinclude, if_true] at h ⊢
    exact h
  | false =>
    simp only [systemLoop, buildChunkRequest, toolsCost, hinclude, Bool.false_eq_true, if_false,
      member, membersCost_nil] at h ⊢
    exact h

end

/-! ## The condition -/

/-- The upstream answers the pieces up to `i` with ids, and this one with `id`. -/
def Received (answers : Nat → Answer) (stream : Bool) (i : Nat) (id : String) : Prop :=
  (answers i).read stream = .ok id ∧ ∀ j < i, ∃ id', (answers j).read stream = .ok id'

/-- The ids and the escapes are no larger than what was measured in their place. -/
structure IdsFit (r : SplitRequest) (answers : Nat → Answer) : Prop where
  -- the previous id takes the place of system instruction, tools and config
  first : ∀ prev, r.params.previousInteractionId = some prev →
    idCost (some prev) ≤
      toolsCost r.params + systemCost r.params.systemInstruction + streamGain r.stream
  -- a later id takes the place of the placeholder or of the first one
  later : ∀ i id₀ id, Received answers r.stream 0 id₀ → Received answers r.stream (i + 1) id →
    escapedSize id ≤ max 36 (escapedSize id₀) + streamGain r.stream
  -- the escapes take the place of the envelope that was taken off once too often
  escapesFirst : ∀ sys, r.params.systemInstruction = some sys →
    escapes sys ≤ baseSize r.model [] + systemCost (some "")
  escapesLater : ∀ sys i id, r.params.systemInstruction = some sys →
    Received answers r.stream i id →
      escapes sys + idCost (some id) ≤ baseSize r.model [] + systemCost (some "") +
        toolsCost r.params + idCost r.params.previousInteractionId

/-- The system instruction is no shorter and has no more escapes. -/
def SystemAlike : Option String → Option String → Prop :=
  Option.Rel fun sys sys' => escapedSize sys ≤ escapedSize sys' ∧ escapes sys' ≤ escapes sys

/-- What `IdsFit` depends on; contents and limit are free. -/
structure Alike (r r' : SplitRequest) : Prop where
  model : r'.model = r.model
  stream : r'.stream = r.stream
  tools : r'.params.tools = r.params.tools
  generationConfig : r'.params.generationConfig = r.params.generationConfig
  previousInteractionId : r'.params.previousInteractionId = r.params.previousInteractionId
  system : SystemAlike r.params.systemInstruction r'.params.systemInstruction

theorem SystemAlike.refl (sys : Option String) : SystemAlike sys sys := by
  cases sys with
  | none => exact .none
  | some sys => exact .some ⟨Nat.le_refl _, Nat.le_refl _⟩

theorem SystemAlike.systemCost_le {sys sys' : Option String} (h : SystemAlike sys sys') :
    systemCost sys ≤ systemCost sys' := by
  cases h with
  | none => exact Nat.le_refl _
  | @some text text' hle =>
    have hlonger := hle.1
    rw [escapedSize_eq, escapedSize_eq] at hlonger
    rw [systemCost_some text, systemCost_some text']
    omega

theorem SystemAlike.of_some {sys : Option String} {text' : String}
    (h : SystemAlike sys (some text')) :
    ∃ text, sys = some text ∧ escapes text' ≤ escapes text := by
  cases h with
  | some hle => exact ⟨_, rfl, hle.2⟩

/-- The condition passes on to the requests that are alike. -/
theorem IdsFit.alike {r r' : SplitRequest} {answers : Nat → Answer} (h : IdsFit r answers)
    (alike : Alike r r') : IdsFit r' answers := by
  have htools : toolsCost r'.params = toolsCost r.params := by
    unfold toolsCost
    rw [alike.tools, alike.generationConfig]
  constructor
  · intro prev hprev
    rw [alike.previousInteractionId] at hprev
    rw [htools, alike.stream]
    have hfirst := h.first prev hprev
    have hsys := alike.system.systemCost_le
    omega
  · rw [alike.stream]
    exact h.later
  · intro sys' hsys'
    obtain ⟨sys, hsys, hle⟩ := (hsys' ▸ alike.system).of_some
    rw [alike.model]
    exact Nat.le_trans hle (h.escapesFirst sys hsys)
  · intro sys' i id hsys' hid
    obtain ⟨sys, hsys, hle⟩ := (hsys' ▸ alike.system).of_some
    rw [alike.stream] at hid
    rw [alike.model, htools, alike.previousInteractionId]
    exact Nat.le_trans (Nat.add_le_add_right hle _) (h.escapesLater sys i id hsys hid)

/-! ## It is enough -/

section
variable {r : SplitRequest} {env : Environment}

theorem IdsFit.contentWithinLimit (h : IdsFit r env.answers) {chunks : List (List Content)}
    (hpack : r.pack = .ok chunks) : ContentWithinLimit r env chunks := by
  constructor
  · intro chunk prev h0 hprev
    have hfit : bodySize (buildPackBody r.firstEnvelope chunk) ≤ r.limit :=
      packContentIntoChunks_fits hpack 0 chunk h0
    rw [size_firstEnvelope] at hfit
    rw [fitsAfter_iff]
    have := h.first prev hprev
    omega
  · intro i chunk id hi hid hpassed
    obtain ⟨id₀, hid₀⟩ := (hpassed 0 (Nat.zero_lt_succ _)).accepted
    have hholder : bodySize (buildPackBody (r.subsequentEnvelope SplitRequest.placeholderId)
        chunk) ≤ r.limit := packContentIntoChunks_fits hpack (i + 2) chunk hi
    have hmem : chunk ∈ chunks.drop 1 := by
      apply List.mem_of_getElem? (i := i + 1)
      rw [List.getElem?_drop, Nat.add_comm 1]
      exact hi
    have hreal := passed_fits (Nat.zero_lt_succ (i + 1)) hpassed hid₀ chunk hmem
    have hlater := h.later i id₀ id ⟨hid₀, fun j hj => absurd hj (Nat.not_lt_zero j)⟩
      ⟨hid, fun j hj => (hpassed j (Nat.lt_succ_of_lt hj)).accepted⟩
    have hsize : escapedSize SplitRequest.placeholderId = 36 := by decide
    rw [size_subsequentEnvelope, idCost_some] at hholder hreal
    rw [fitsAfter_iff, idCost_some]
    omega

/-- The fragments without contents. -/
theorem fragmentPlans_nil (parts : List String) (i k : Nat) :
    (fragmentPlans [] parts k)[i]? = parts[i]?.map fun part =>
      { input := [], systemInstruction := some part, includeToolsConfig := k + i == 0 } := by
  induction parts generalizing i k with
  | nil => rfl
  | cons part rest ih =>
    have hcons : fragmentPlans [] (part :: rest) k =
        { input := [], systemInstruction := some part, includeToolsConfig := k == 0 } ::
          fragmentPlans [] rest (k + 1) := by
      cases rest <;> rfl
    rw [hcons]
    cases i with
    | zero => rfl
    | succ i =>
      rw [List.getElem?_cons_succ, List.getElem?_cons_succ, ih, Nat.add_assoc, Nat.add_comm 1 i]

/-- Only a request without contents has its system instruction split: any content would be too much
for the first chunk. -/
theorem chunks_of_systemSplit {chunks : List (List Content)} {s : SystemSplit}
    (hpack : r.pack = .ok chunks) (hsplit : r.systemSplit chunks = some s) :
    chunks = [] ∧ r.limit < bodySize r.firstEnvelope := by
  have hsome : (r.systemSplit chunks).isSome := by
    rw [hsplit]
    rfl
  have hlong := ((systemSplit_isSome_iff r chunks).mp hsome).2
  refine ⟨?_, hlong⟩
  by_contra hne
  obtain ⟨chunk, rest, rfl⟩ := List.exists_cons_of_ne_nil hne
  have hfit : bodySize (buildPackBody r.firstEnvelope chunk) ≤ r.limit :=
    packContentIntoChunks_fits hpack 0 chunk rfl
  have hempty : bodySize r.firstEnvelope ≤ bodySize (buildPackBody r.firstEnvelope chunk) :=
    bodySize_sublist (List.nil_sublist chunk) r.firstEnvelope
  omega

/-- A fragment has no more escapes than the text. -/
theorem escapes_fragment {text : String} {limit overhead : Nat} {parts : List String}
    (h : splitTextForLimit text limit overhead = .ok parts) {part : String} (hpart : part ∈ parts) :
    escapes part ≤ escapes text := by
  have hsub : part.toList.Sublist text.toList := by
    by_cases hfit : text.utf8ByteSize ≤ limit - overhead
    · have hroom : 0 < limit - overhead := ((splitTextForLimit_ok_iff text limit overhead).mp
        ⟨parts, h⟩).1
      rw [splitTextForLimit_fits hroom hfit, Except.ok.injEq] at h
      rw [← h, List.mem_singleton] at hpart
      rw [hpart]
    · have hdeletes := (splitTextForLimit_cut h hfit).2.deletes.sublist
      exact (List.sublist_flatten_of_mem (List.mem_map_of_mem hpart)).trans hdeletes
  simpa using escapes_le_of_sublist hsub

/-- What is split, and into which room. -/
theorem systemSplit_some {chunks : List (List Content)} {s : SystemSplit}
    (hsplit : r.systemSplit chunks = some s) :
    r.params.systemInstruction = some s.sys ∧ s.chunks = chunks ∧
      s.limit - SystemSplit.envelopeOverhead r = r.fragmentRoom := by
  obtain ⟨sys, hsys, hif⟩ := Option.bind_eq_some_iff.mp hsplit
  by_cases hlong : r.limit < bodySize r.firstEnvelope
  · rw [if_pos hlong, Option.some.injEq] at hif
    subst hif
    exact ⟨hsys, rfl, rfl⟩
  · rw [if_neg hlong] at hif
    cases hif

theorem plans_ok {s : SystemSplit} {plans : List SplitPiecePlan} (h : s.plans r = .ok plans) :
    ∃ parts, splitTextForLimit s.sys s.limit (SystemSplit.envelopeOverhead r) = .ok parts ∧
      plans = buildSplitPlans parts s.chunks := by
  unfold SystemSplit.plans at h
  cases hparts : splitTextForLimit s.sys s.limit (SystemSplit.envelopeOverhead r) with
  | error e =>
    rw [hparts] at h
    cases h
  | ok parts =>
    rw [hparts] at h
    cases h
    exact ⟨parts, rfl, rfl⟩

theorem plan_at (parts : List String) (i : Nat) :
    (buildSplitPlans parts [])[i]? = parts[i]?.map fun part =>
      { input := [], systemInstruction := some part, includeToolsConfig := i == 0 } := by
  unfold buildSplitPlans
  rw [List.drop_nil, List.map_nil, List.append_nil, fragmentPlans_nil, Nat.zero_add]

theorem fragmentRoom_eq (r : SplitRequest) :
    r.fragmentRoom = r.limit -
      (baseSize r.model [] + toolsCost r.params + systemCost (some "")) -
        SystemSplit.envelopeOverhead r := by
  have h := @bodySize_parts { r.firstEnvelope with systemInstruction := some "" } false rfl
  have hnone : idCost none = 0 := rfl
  unfold SplitRequest.fragmentRoom
  simp only [SplitRequest.firstEnvelope, streamGain, toolsCost, hnone, Bool.false_eq_true,
    if_false, Nat.add_zero] at h ⊢
  rw [h]

theorem sizePlan_emptied (r : SplitRequest) (i : Nat) (plan : SplitPiecePlan)
    (prev : Option String) :
    bodySize (emptied ((systemLoop r).body i plan prev)) +
        escapedSize (plan.systemInstruction.getD "") + escapedSize (prev.getD "") =
      bodySize ((systemLoop r).body i plan prev) :=
  (bodySize_emptied ((systemLoop r).body i plan prev)).symm

theorem IdsFit.plansWithinLimit (h : IdsFit r env.answers) {chunks : List (List Content)}
    {s : SystemSplit} {plans : List SplitPiecePlan} (hpack : r.pack = .ok chunks)
    (hsplit : r.systemSplit chunks = some s) (hplans : s.plans r = .ok plans) :
    PlansWithinLimit r env plans := by
  obtain ⟨rfl, -⟩ := chunks_of_systemSplit hpack hsplit
  obtain ⟨hsys, hchunks, hroom⟩ := systemSplit_some hsplit
  obtain ⟨parts, hparts, rfl⟩ := plans_ok hplans
  rw [hchunks]
  intro i plan hi hreach
  obtain ⟨part, hpart, rfl⟩ := Option.map_eq_some_iff.mp ((plan_at parts i).symm.trans hi)
  have hmem := List.mem_of_getElem? hpart
  have hlength := splitTextForLimit_length hparts part hmem
  have hescapes := escapes_fragment hparts hmem
  have hpos := ((splitTextForLimit_ok_iff _ _ _).mp ⟨parts, hparts⟩).1
  rw [hroom, fragmentRoom_eq] at hlength hpos
  have hoverhead := envelopeOverhead_eq r
  rw [sizePlan_emptied]
  cases i with
  | zero =>
    have hfirst := h.escapesFirst s.sys hsys
    have hsize := size_plan r 0 ⟨[], some part, true⟩ r.params.previousInteractionId
    rw [systemCost_some] at hsize
    show bodySize ((systemLoop r).body 0 ⟨[], some part, true⟩ r.params.previousInteractionId) ≤
      r.limit
    simp only [if_true] at hsize
    omega
  | succ i =>
    obtain ⟨id, hid⟩ := hreach i (Nat.lt_succ_self i)
    have hlater := h.escapesLater s.sys i id hsys
      ⟨hid, fun j hj => hreach j (Nat.lt_succ_of_lt hj)⟩
    have hsize := size_plan r (i + 1) ⟨[], some part, false⟩ (some id)
    rw [systemCost_some] at hsize
    rw [prevId_succ hid]
    show bodySize ((systemLoop r).body (i + 1) ⟨[], some part, false⟩ (some id)) ≤ r.limit
    simp only [Bool.false_eq_true, if_false] at hsize
    omega

end

end InfSplitter.SplitSend
