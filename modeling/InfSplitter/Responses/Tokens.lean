import InfSplitter.Responses.Replay
import InfSplitter.Streams.Agreement

/-!
# Sums of token counts

The counts of an interaction are what the upstream reported, any two 64-bit numbers. Four functions
add them up. Two of them add the numbers as they are and put the sum into a merged interaction,
which is not read again; the fallback adds them and clamps the sum; and only
`build_response_from_interaction` clamps first and then adds with saturation.

So a sum may wrap around, and a negative count is taken off the total of the fallback although it
counts as nothing on its own. `token_sums_iff` says when neither happens.
-/

set_option autoImplicit false

namespace InfSplitter.Responses

open Interactions

/-! ## The fallback -/

/-- `build_fallback_response` up to `serde_json::to_value`. The sum wraps around, as it does in a
release build. -/
def buildFallbackResponse (lastInteraction : Option Interaction) (lastId : Option String)
    (model : String) (ingress : Protocol) : TypedResponse :=
  let text := (lastInteraction.map extractInteractionText).getD ""
  let usage := lastInteraction.bind Interaction.usage
  let inputTokens := (usage.bind Usage.totalInputTokens).getD 0
  let outputTokens := (usage.bind Usage.totalOutputTokens).getD 0
  match ingress with
  | .openAi => .openAi
    { id := lastId.getD "", object := "chat.completion", model := model
      choices :=
        [{ index := 0
           message := { role := .assistant, content := some text, toolCalls := none }
           finishReason := some .stop }]
      usage := some
        { promptTokens := clampI64ToU32 inputTokens
          completionTokens := clampI64ToU32 outputTokens
          totalTokens := clampI64ToU32 (inputTokens + outputTokens) } }
  | .anthropic => .anthropic
    { id := lastId.getD "", responseType := "message", role := .assistant, model := model
      content := [.text text]
      stopReason := some .endTurn
      usage :=
        { inputTokens := clampI64ToU32 inputTokens
          outputTokens := clampI64ToU32 outputTokens } }

/-! ## What is asked of the sums -/

/-- The total a response reports; an Anthropic response has none. -/
def TypedResponse.total? : TypedResponse → Option UInt32
  | .anthropic _ => none
  | .openAi response => response.usage.map ChatUsage.totalTokens

/-- The saturating sum of the clamped counts. -/
def saturatedTotal (input output : Int64) : UInt32 :=
  saturatingAdd (clampI64ToU32 input) (clampI64ToU32 output)

/-- The sum is that of the integers. -/
def AddsExactly (a b : Int64) : Prop := (a + b).toInt = a.toInt + b.toInt

/-- A total is the exact sum of the counts beside it. -/
def Usage.Exact (usage : Usage) : Prop :=
  ∀ total ∈ usage.totalTokens, ∀ input ∈ usage.totalInputTokens,
    ∀ output ∈ usage.totalOutputTokens, total.toInt = input.toInt + output.toInt

/-- A count of the last interaction. -/
def lastTokens (pieces : List Interaction) (count : Usage → Option Int64) : Int64 :=
  ((pieces.getLast?.bind Interaction.usage).bind count).getD 0

/-- A count of the last usage that is reported. -/
def latestTokens (pieces : List Interaction) (count : Usage → Option Int64) : Int64 :=
  ((latestUsage pieces).bind count).getD 0

/-- No sum overflows, and the totals that are reported are saturating sums. -/
structure TokenSums (pieces : List Interaction) (finalId : String) (lastId : Option String)
    (model : String) (ingress : Protocol) : Prop where
  merged : ∀ usage ∈ (mergeInteractionResponses pieces finalId).usage, usage.Exact
  replayed : ∀ usage ∈ (replayedInteraction pieces model).usage, usage.Exact
  fallback : ingress = .openAi → AddsExactly (lastTokens pieces Usage.totalInputTokens)
    (lastTokens pieces Usage.totalOutputTokens)
  fallbackTotal : ∀ total ∈
      (buildFallbackResponse pieces.getLast? lastId model ingress).total?,
    total = saturatedTotal (lastTokens pieces Usage.totalInputTokens)
      (lastTokens pieces Usage.totalOutputTokens)
  built : ∀ interaction : Interaction,
    ∀ total ∈ (buildTypedResponse interaction model ingress).total?,
      total = saturatedTotal (interaction.tokens Usage.totalInputTokens)
        (interaction.tokens Usage.totalOutputTokens)

/-! ## Two numbers -/

/-- The sum of two numbers is a 64-bit number again. -/
def InRange (a b : Int64) : Prop :=
  -9223372036854775808 ≤ a.toInt + b.toInt ∧ a.toInt + b.toInt < 9223372036854775808

/-- The counts have one sign, or their sum is beyond what is reported anyway. -/
def OneSign (a b : Int64) : Prop :=
  (0 ≤ a.toInt ∧ 0 ≤ b.toInt) ∨ (a.toInt ≤ 0 ∧ b.toInt ≤ 0) ∨ 4294967295 ≤ a.toInt + b.toInt

section
variable {a b : Int64}

theorem addsExactly_iff : AddsExactly a b ↔ InRange a b := by
  unfold AddsExactly InRange
  rw [Int64.toInt_add]
  constructor
  · intro h
    rw [← h]
    have hle := Int.le_bmod (x := a.toInt + b.toInt) (m := 2 ^ 64) (by decide)
    have hlt := Int.bmod_lt (x := a.toInt + b.toInt) (m := 2 ^ 64) (by decide)
    omega
  · intro ⟨hle, hlt⟩
    exact Int.bmod_eq_of_le (by omega) (by omega)

theorem clampI64ToU32_toInt (n : Int64) :
    ((clampI64ToU32 n).toNat : Int) = min (max n.toInt 0) 4294967295 := by
  have hclamp := Streams.toNat_clampI64ToU32 n
  have hnat := Streams.toNat_asU64 n
  unfold Streams.clampU64 at hclamp
  split at hclamp
  · omega
  · omega

theorem saturatedTotal_toInt (a b : Int64) : ((saturatedTotal a b).toNat : Int) =
    min (min (max a.toInt 0) 4294967295 + min (max b.toInt 0) 4294967295) 4294967295 := by
  have ha := clampI64ToU32_toInt a
  have hb := clampI64ToU32_toInt b
  unfold saturatedTotal saturatingAdd
  have hsize : UInt32.size = 4294967296 := rfl
  split
  · next h =>
    rw [UInt32.toNat_add, Nat.mod_eq_of_lt (by omega)]
    omega
  · next h =>
    have hmax : (4294967295 : UInt32).toNat = 4294967295 := rfl
    rw [hmax]
    omega

/-- **Clamping the sum is the sum of the clamped** exactly for counts of one sign. -/
theorem clamp_sum_iff (h : InRange a b) :
    clampI64ToU32 (a + b) = saturatedTotal a b ↔ OneSign a b := by
  have hsum := addsExactly_iff.mpr h
  have hclamp := clampI64ToU32_toInt (a + b)
  have htotal := saturatedTotal_toInt a b
  unfold AddsExactly at hsum
  rw [hsum] at hclamp
  rw [← UInt32.toNat_inj]
  unfold OneSign
  omega

end

/-! ## The four sums -/

/-- Merged and replayed interactions have the same usage. -/
theorem usage_exact_iff (pieces : List Interaction) :
    (Merging.ofPieces pieces).usage.Exact ↔
      InRange (latestTokens pieces Usage.totalInputTokens)
        (latestTokens pieces Usage.totalOutputTokens) := by
  obtain ⟨hinput, houtput⟩ := Merging.tokens_ofPieces pieces
  rw [← addsExactly_iff, latestTokens, latestTokens, ← hinput, ← houtput]
  simp [Usage.Exact, Merging.usage, AddsExactly]

theorem fallback_total (pieces : List Interaction) (lastId : Option String) (model : String) :
    (buildFallbackResponse pieces.getLast? lastId model .openAi).total? =
      some (clampI64ToU32 (lastTokens pieces Usage.totalInputTokens +
        lastTokens pieces Usage.totalOutputTokens)) := rfl

theorem built_total (interaction : Interaction) (model : String) :
    (buildTypedResponse interaction model .openAi).total? =
      some (saturatedTotal (interaction.tokens Usage.totalInputTokens)
        (interaction.tokens Usage.totalOutputTokens)) := rfl

/-- **Every sum of token counts is right** exactly if the last reported counts and those of the last
interaction add up to 64-bit numbers, and the latter are of one sign or beyond the largest total. -/
theorem token_sums_iff (pieces : List Interaction) (finalId : String) (lastId : Option String)
    (model : String) :
    (∀ ingress, TokenSums pieces finalId lastId model ingress) ↔
      InRange (latestTokens pieces Usage.totalInputTokens)
          (latestTokens pieces Usage.totalOutputTokens) ∧
        InRange (lastTokens pieces Usage.totalInputTokens)
            (lastTokens pieces Usage.totalOutputTokens) ∧
          OneSign (lastTokens pieces Usage.totalInputTokens)
            (lastTokens pieces Usage.totalOutputTokens) := by
  constructor
  · intro h
    have hfallback := addsExactly_iff.mp ((h .openAi).fallback rfl)
    refine ⟨(usage_exact_iff pieces).mp ((h .openAi).merged _ rfl), hfallback, ?_⟩
    exact (clamp_sum_iff hfallback).mp ((h .openAi).fallbackTotal _ (fallback_total pieces _ _))
  · intro ⟨hlatest, hlast, hsign⟩ ingress
    have hexact := (usage_exact_iff pieces).mpr hlatest
    refine ⟨?_, ?_, fun _ => addsExactly_iff.mpr hlast, ?_, ?_⟩
    · rintro usage ⟨⟩
      exact hexact
    · rintro usage ⟨⟩
      exact hexact
    · cases ingress with
      | anthropic => simp [buildFallbackResponse, TypedResponse.total?]
      | openAi =>
        rintro total ⟨⟩
        exact (clamp_sum_iff hlast).mpr hsign
    · intro interaction
      cases ingress with
      | anthropic => simp [buildTypedResponse, TypedResponse.total?]
      | openAi =>
        rintro total ⟨⟩
        rfl

/-- The largest count and one more. -/
theorem token_sums_overflow :
    ¬ ∀ (pieces : List Interaction) (finalId : String) (lastId : Option String) (model : String)
      (ingress : Protocol), TokenSums pieces finalId lastId model ingress := by
  intro hall
  let interaction : Interaction :=
    { id := "int-1", status := "completed", created := none, updated := none, steps := none
      model := none
      usage := some { totalTokens := none, totalInputTokens := some 9223372036854775807
                      totalOutputTokens := some 1 } }
  have h := (hall [interaction] "int-1" none "model" .openAi).merged _ rfl _ rfl _ rfl _ rfl
  exact absurd h (by decide)

end InfSplitter.Responses
