import InfSplitter.Responses.Interaction
import Mathlib.Data.List.Induction

/-!
# Merging the answers of a split request

`merge_interaction_responses` concatenates the steps of all pieces and takes the status from the
last piece and the token counts from the last piece that reports any. The client is then shown what
`build_response_from_interaction` makes of the result.

What it is shown is the whole of the steps only if these are all calls or contain no call: as soon
as there are calls to show, the text is left out, and where the last status is not `requires_action`
the calls are (`merge_loses_nothing_iff`).
-/

set_option autoImplicit false

namespace InfSplitter.Responses

open Interactions

/-! ## The merge -/

/-- The variables of the loop over the pieces. -/
structure Merging where
  allSteps : List Step
  totalInputTokens : Int64
  totalOutputTokens : Int64
  model : Option String

namespace Merging

def empty : Merging :=
  { allSteps := [], totalInputTokens := 0, totalOutputTokens := 0, model := none }

/-- One round of the loop. -/
def add (m : Merging) (interaction : Interaction) : Merging :=
  { allSteps :=
      match interaction.steps with
      | some steps => m.allSteps ++ steps
      | none => m.allSteps
    totalInputTokens :=
      match interaction.usage with
      | some usage => usage.totalInputTokens.getD 0
      | none => m.totalInputTokens
    totalOutputTokens :=
      match interaction.usage with
      | some usage => usage.totalOutputTokens.getD 0
      | none => m.totalOutputTokens
    model := interaction.model }

def ofPieces (pieces : List Interaction) : Merging := pieces.foldl add empty

/-- The usage of the merged interaction. The sum wraps around, as it does in a release build. -/
def usage (m : Merging) : Usage :=
  { totalTokens := some (m.totalInputTokens + m.totalOutputTokens)
    totalInputTokens := some m.totalInputTokens
    totalOutputTokens := some m.totalOutputTokens }

end Merging

def mergeInteractionResponses (pieces : List Interaction) (finalId : String) : Interaction :=
  let m := Merging.ofPieces pieces
  { id := finalId
    status := (pieces.getLast?.map Interaction.status).getD "completed"
    created := pieces.head?.bind Interaction.created
    updated := pieces.getLast?.bind Interaction.updated
    steps := if m.allSteps.isEmpty then none else some m.allSteps
    model := m.model
    usage := some m.usage }

/-- The last usage any of the pieces reports. -/
def latestUsage (pieces : List Interaction) : Option Usage :=
  (pieces.filterMap Interaction.usage).getLast?

namespace Merging

theorem foldl_allSteps (pieces : List Interaction) (m : Merging) :
    (pieces.foldl add m).allSteps = m.allSteps ++ pieces.flatMap Interaction.stepList := by
  induction pieces generalizing m with
  | nil => simp
  | cons piece rest ih =>
    have hadd : (m.add piece).allSteps = m.allSteps ++ piece.stepList := by
      unfold add Interaction.stepList
      cases piece.steps <;> simp
    rw [List.foldl_cons, ih, hadd, List.flatMap_cons, List.append_assoc]

theorem allSteps_ofPieces (pieces : List Interaction) :
    (ofPieces pieces).allSteps = pieces.flatMap Interaction.stepList :=
  foldl_allSteps pieces empty

/-- A loop variable that keeps a token count holds the count of the last usage. -/
theorem tokens_ofPieces (pieces : List Interaction) :
    (ofPieces pieces).totalInputTokens =
        ((latestUsage pieces).bind Usage.totalInputTokens).getD 0 ∧
      (ofPieces pieces).totalOutputTokens =
        ((latestUsage pieces).bind Usage.totalOutputTokens).getD 0 := by
  induction pieces using List.reverseRecOn with
  | nil => exact ⟨rfl, rfl⟩
  | append_singleton rest piece ih =>
    have hfold : ofPieces (rest ++ [piece]) = (ofPieces rest).add piece := by
      simp [ofPieces]
    have hlatest : latestUsage (rest ++ [piece]) = piece.usage.or (latestUsage rest) := by
      unfold latestUsage
      cases hu : piece.usage <;> simp [hu]
    rw [hfold, hlatest]
    unfold add
    cases piece.usage with
    | none => exact ih
    | some usage => exact ⟨rfl, rfl⟩

end Merging

theorem stepList_merge (pieces : List Interaction) (finalId : String) :
    (mergeInteractionResponses pieces finalId).stepList =
      pieces.flatMap Interaction.stepList := by
  rw [← Merging.allSteps_ofPieces]
  show (if (Merging.ofPieces pieces).allSteps.isEmpty then none
    else some (Merging.ofPieces pieces).allSteps).getD [] = _
  cases (Merging.ofPieces pieces).allSteps <;> rfl

/-! ## What the client is shown -/

/-- A character of text, or a call. How a text is cut into blocks does not show. -/
abbrev Shown := Char ⊕ Call

def shownText (text : String) : List Shown := text.toList.map Sum.inl

def Step.shown (step : Step) : List Shown :=
  match step.call? with
  | some call => [Sum.inr call]
  | none => shownText (step.text?.getD "")

def ContentBlock.shown : ContentBlock → List Shown
  | .text t => shownText t
  | .toolUse id name input => [Sum.inr (id, name, input)]

/-- The response shows all that is in the steps: an Anthropic response in their order, an OpenAI
response with the text and the calls apart. -/
def ShowsAll (steps : List Step) : TypedResponse → Prop
  | .anthropic response => response.content.flatMap ContentBlock.shown = steps.flatMap Step.shown
  | .openAi response =>
    ∃ choice, response.choices = [choice] ∧
      choice.message.content.getD "" = String.join (steps.filterMap Step.text?) ∧
      choice.message.toolCalls.getD [] = (steps.filterMap Step.call?).map ToolCall.ofCall

def HasCalls (steps : List Step) : Prop := ∃ step ∈ steps, step.call?.isSome = true

instance (steps : List Step) : Decidable (HasCalls steps) :=
  inferInstanceAs (Decidable (∃ step ∈ steps, _))

/-- The interaction waits for the client to make the calls in it. -/
def AwaitsCalls (interaction : Interaction) : Prop :=
  interaction.status = "requires_action" ∧ HasCalls interaction.stepList

instance (interaction : Interaction) : Decidable (AwaitsCalls interaction) :=
  inferInstanceAs (Decidable (_ ∧ _))

/-- No step has any text. -/
def Silent (steps : List Step) : Prop := ∀ step ∈ steps, step.text?.getD "" = ""

theorem calls_eq_nil_iff {steps : List Step} :
    steps.filterMap Step.call? = [] ↔ ¬ HasCalls steps := by
  rw [List.filterMap_eq_nil_iff]
  unfold HasCalls
  simp

theorem extractInteractionToolCalls_eq (interaction : Interaction) :
    extractInteractionToolCalls interaction =
      if AwaitsCalls interaction then some (interaction.stepList.filterMap Step.call?)
      else none := by
  unfold extractInteractionToolCalls AwaitsCalls
  by_cases hs : interaction.status = "requires_action"
  · by_cases hc : HasCalls interaction.stepList
    · have hne := mt calls_eq_nil_iff.mp (not_not_intro hc)
      simp [hs, hc, hne]
    · have hnil := calls_eq_nil_iff.mpr hc
      simp [hs, hc, hnil]
  · simp [hs]

theorem shownText_append (a b : String) : shownText (a ++ b) = shownText a ++ shownText b := by
  unfold shownText
  rw [String.toList_append, List.map_append]

theorem shownText_eq_nil_iff {text : String} : shownText text = [] ↔ text = "" := by
  unfold shownText
  rw [List.map_eq_nil_iff, String.toList_eq_nil_iff]

/-- The text that is extracted shows all steps that are no calls. -/
theorem shownText_join {steps : List Step} (h : ¬ HasCalls steps) :
    shownText (String.join (steps.filterMap Step.text?)) = steps.flatMap Step.shown := by
  induction steps with
  | nil => rfl
  | cons step rest ih =>
    have hstep : step.call? = none := by
      by_contra hne
      exact h ⟨step, List.mem_cons_self .., Option.isSome_iff_ne_none.mpr hne⟩
    have hrest : ¬ HasCalls rest := fun ⟨s, hs, hc⟩ => h ⟨s, List.mem_cons_of_mem _ hs, hc⟩
    rw [List.flatMap_cons, ← ih hrest]
    unfold Step.shown
    rw [hstep]
    cases ht : step.text? with
    | none => simp [ht, shownText]
    | some text => simp [ht, shownText_append]

theorem ofCall_shown (call : Call) : (ContentBlock.ofCall call).shown = [Sum.inr call] := rfl

theorem calls_shown (calls : List Call) :
    (calls.map ContentBlock.ofCall).flatMap ContentBlock.shown = calls.map Sum.inr := by
  induction calls with
  | nil => rfl
  | cons call rest ih => rw [List.map_cons, List.flatMap_cons, ih, ofCall_shown]; rfl

theorem text?_of_call {step : Step} {call : Call} (h : step.call? = some call) :
    step.text? = none := by
  cases step with
  | functionCallStep id name arguments => rfl
  | modelOutputStep content => exact absurd h (by simp [Step.call?])
  | other type => rfl

theorem Silent.calls_shown {steps : List Step} (h : Silent steps) :
    (steps.filterMap Step.call?).map Sum.inr = steps.flatMap Step.shown := by
  induction steps with
  | nil => rfl
  | cons step rest ih =>
    have hrest := ih fun s hs => h s (List.mem_cons_of_mem _ hs)
    have hstep := h step (List.mem_cons_self ..)
    rw [List.flatMap_cons, ← hrest]
    unfold Step.shown
    cases hc : step.call? with
    | some call => simp [hc]
    | none => simp [hc, shownText_eq_nil_iff.mpr hstep]

/-- The calls show all steps if and only if none of them has any text. -/
theorem calls_show_all_iff {steps : List Step} :
    ((steps.filterMap Step.call?).map ContentBlock.ofCall).flatMap ContentBlock.shown =
      steps.flatMap Step.shown ↔ Silent steps := by
  rw [Responses.calls_shown]
  constructor
  · intro h step hstep
    by_contra hne
    obtain ⟨c, hc⟩ := List.exists_mem_of_ne_nil _ (mt shownText_eq_nil_iff.mp hne)
    have hshown : step.shown = shownText (step.text?.getD "") := by
      unfold Step.shown
      cases hcall : step.call? with
      | some call => exact absurd (by rw [text?_of_call hcall]; rfl) hne
      | none => rfl
    have hmem : c ∈ steps.flatMap Step.shown :=
      List.mem_flatMap.mpr ⟨step, hstep, hshown ▸ hc⟩
    -- a character among calls
    rw [← h] at hmem
    obtain ⟨call, _, hcall⟩ := List.mem_map.mp hmem
    obtain ⟨char, _, hchar⟩ := List.mem_map.mp hc
    rw [← hchar] at hcall
    exact absurd hcall (by simp)
  · exact Silent.calls_shown

/-- The text shows all steps if and only if none of them is a call. -/
theorem text_shows_all_iff {steps : List Step} :
    [ContentBlock.text (String.join (steps.filterMap Step.text?))].flatMap ContentBlock.shown =
      steps.flatMap Step.shown ↔ ¬ HasCalls steps := by
  rw [List.flatMap_singleton]
  constructor
  · intro h ⟨step, hstep, hcall⟩
    obtain ⟨call, hcall⟩ := Option.isSome_iff_exists.mp hcall
    have hmem : Sum.inr call ∈ steps.flatMap Step.shown := by
      refine List.mem_flatMap.mpr ⟨step, hstep, ?_⟩
      unfold Step.shown
      rw [hcall]
      exact List.mem_singleton_self _
    -- a call among characters
    rw [← h] at hmem
    obtain ⟨char, _, hchar⟩ := List.mem_map.mp hmem
    exact absurd hchar (by simp)
  · exact shownText_join

theorem join_eq_empty_iff {steps : List Step} :
    String.join (steps.filterMap Step.text?) = "" ↔ Silent steps := by
  unfold Silent
  induction steps with
  | nil => simp
  | cons step rest ih =>
    rw [List.forall_mem_cons, ← ih]
    cases ht : step.text? with
    | none => simp [ht]
    | some text => simp [ht, String.append_eq_empty_iff]

/-! ## Nothing is lost -/

/-- All steps are calls the client is asked to make, or there are no calls. -/
def KeepsAll (interaction : Interaction) : Prop :=
  ¬ HasCalls interaction.stepList ∨
    interaction.status = "requires_action" ∧ Silent interaction.stepList

/-- A response shows all of its interaction exactly under `KeepsAll`. -/
theorem showsAll_iff (interaction : Interaction) (model : String) (ingress : Protocol) :
    ShowsAll interaction.stepList (buildTypedResponse interaction model ingress) ↔
      KeepsAll interaction := by
  by_cases ha : AwaitsCalls interaction
  · have hcalls := (extractInteractionToolCalls_eq interaction).trans (if_pos ha)
    have hkeeps : KeepsAll interaction ↔ Silent interaction.stepList :=
      ⟨fun h => h.elim (fun hn => absurd ha.2 hn) fun hs => hs.2, fun h => Or.inr ⟨ha.1, h⟩⟩
    rw [hkeeps]
    unfold buildTypedResponse
    simp only [hcalls]
    cases ingress with
    | anthropic => exact calls_show_all_iff
    | openAi =>
      rw [← join_eq_empty_iff]
      constructor
      · intro ⟨choice, hchoice, htext, _⟩
        rw [← List.singleton_inj.mp hchoice] at htext
        exact htext.symm
      · intro hempty
        exact ⟨_, rfl, hempty.symm, rfl⟩
  · have hcalls := (extractInteractionToolCalls_eq interaction).trans (if_neg ha)
    have hkeeps : KeepsAll interaction ↔ ¬ HasCalls interaction.stepList :=
      ⟨fun h => h.elim id fun hs hc => ha ⟨hs.1, hc⟩, Or.inl⟩
    rw [hkeeps]
    unfold buildTypedResponse
    simp only [hcalls]
    cases ingress with
    | anthropic => exact text_shows_all_iff
    | openAi =>
      rw [← calls_eq_nil_iff]
      constructor
      · intro ⟨choice, hchoice, _, htool⟩
        rw [← List.singleton_inj.mp hchoice] at htool
        exact List.map_eq_nil_iff.mp htool.symm
      · intro hnil
        refine ⟨_, rfl, rfl, ?_⟩
        rw [hnil]
        rfl

theorem status_merge_iff {pieces : List Interaction} {finalId : String} :
    (mergeInteractionResponses pieces finalId).status = "requires_action" ↔
      ∃ last, pieces.getLast? = some last ∧ last.status = "requires_action" := by
  show (pieces.getLast?.map Interaction.status).getD "completed" = "requires_action" ↔ _
  cases pieces.getLast? <;> simp

theorem keepsAll_merge (pieces : List Interaction) (finalId : String) :
    KeepsAll (mergeInteractionResponses pieces finalId) ↔
      ¬ HasCalls (pieces.flatMap Interaction.stepList) ∨
        (∃ last, pieces.getLast? = some last ∧ last.status = "requires_action") ∧
          Silent (pieces.flatMap Interaction.stepList) := by
  unfold KeepsAll
  rw [stepList_merge, status_merge_iff]

/-- **Response translation loses nothing** exactly if no piece has a call, or the last piece waits
for calls and no piece has any text. -/
theorem merge_loses_nothing_iff (pieces : List Interaction) (finalId model : String)
    (ingress : Protocol) :
    ShowsAll (pieces.flatMap Interaction.stepList)
        (buildTypedResponse (mergeInteractionResponses pieces finalId) model ingress) ↔
      ¬ HasCalls (pieces.flatMap Interaction.stepList) ∨
        (∃ last, pieces.getLast? = some last ∧ last.status = "requires_action") ∧
          Silent (pieces.flatMap Interaction.stepList) := by
  rw [← stepList_merge pieces finalId, showsAll_iff, stepList_merge]
  exact keepsAll_merge pieces finalId

/-- A piece that answers with text, and one that answers with a call. -/
def textThenCall : List Interaction :=
  [{ id := "int-1", status := "completed", created := none, updated := none,
     steps := some [.modelOutputStep (some [.textContent "Let me look."])], model := none,
     usage := none },
   { id := "int-2", status := "requires_action", created := none, updated := none,
     steps := some [.functionCallStep "call-1" "get_weather" none], model := none,
     usage := none }]

/-- The text of the first piece is lost. -/
theorem merge_sometimes_loses :
    ¬ ∀ pieces finalId model ingress, ShowsAll (pieces.flatMap Interaction.stepList)
      (buildTypedResponse (mergeInteractionResponses pieces finalId) model ingress) := by
  intro h
  have hshown : [Sum.inr ("call-1", "get_weather", Json.null)] =
      shownText "Let me look." ++ [Sum.inr ("call-1", "get_weather", Json.null)] :=
    h textThenCall "int-2" "m" .anthropic
  exact absurd (congrArg List.length hshown) (by decide)

end InfSplitter.Responses
