import InfSplitter.Control.Scan
import InfSplitter.Lib.Text
import Mathlib.Data.List.TakeWhile

/-!
# Which messages the scan takes out

A message asks for something if its text has the clean-all constant twice in a row, or for some
timestamp the extend-lifetime constant with that timestamp twice in a row. Everything the scan takes
out asks for something (`asks_of_isControl`).

The other way round the scan looks at one place only. A timestamp is read behind the first
occurrence of what stands before the placeholder, so a message that has the constant with a
timestamp twice in a row stays in the list if something else stands at that first occurrence.
`FirstOccurrenceReads` is what the code needs, and it is exactly what it needs
(`strips_exactly_iff`).
-/

set_option autoImplicit false

namespace InfSplitter.Control

open Interactions Lib

/-! ## What a message asks for -/

/-- The constant with the timestamp in it, twice in a row. -/
def Instantiated (constant text : String) (timestamp : UInt64) : Prop :=
  twice (replaceAll placeholder (toString timestamp.toNat).toList constant.toList) <:+: text.toList

def HasCleanAll (constants : Constants) (text : String) : Prop :=
  ∃ constant ∈ constants.controlCleanAll, twice constant.toList <:+: text.toList

def HasExtendLifetime (constants : Constants) (text : String) (timestamp : UInt64) : Prop :=
  ∃ constant ∈ constants.controlExtendLifetime, Instantiated constant text timestamp

def Asks (constants : Constants) (msg : Json) : Prop :=
  ∃ text, messageText msg = some text ∧
    (HasCleanAll constants text ∨ ∃ timestamp, HasExtendLifetime constants text timestamp)

/-- At the first occurrence of the beginning of the constant stand the timestamp, in as many digits
as there are, and the end of the constant. -/
def FirstReads (constant text : String) (timestamp : UInt64) : Prop :=
  ∃ start suffix before digits after,
    splitAll placeholder constant.toList = [start, suffix] ∧
    text.toList = before ++ start ++ (digits ++ (suffix ++ after)) ∧
    (∀ earlier, earlier ++ start <+: text.toList → before.length ≤ earlier.length) ∧
    (∀ c ∈ digits, c.isDigit = true) ∧ (∀ c ∈ (suffix ++ after).head?, c.isDigit = false) ∧
    parseDigits digits = some timestamp

/-- If the text has the constant with a timestamp twice in a row, then the first occurrence of its
beginning is followed by such a timestamp. -/
def FirstOccurrenceReads (constants : Constants) (msg : Json) : Prop :=
  ∀ text, messageText msg = some text → HasCleanAll constants text ∨
    ∀ constant ∈ constants.controlExtendLifetime,
      (∃ timestamp, Instantiated constant text timestamp) →
        ∃ timestamp, FirstReads constant text timestamp ∧ Instantiated constant text timestamp

open Classical in
/-- The messages that ask for something are taken out, and no others; what is acted on is asked
for. -/
structure StripsExactly (hashStr : String → UInt64) (constants : Constants) (messages : List Json)
    (processed : List UInt64) : Prop where
  cleaned : (scanControlMessages hashStr constants messages processed).cleaned =
    messages.filter fun msg => ¬ Asks constants msg
  stripped : (scanControlMessages hashStr constants messages processed).stripped =
    messages.countP fun msg => Asks constants msg
  timestamp : ∀ ts, (scanControlMessages hashStr constants messages processed).action =
      some (.extendLifetime ts) →
    ∃ msg ∈ messages, ∃ text, messageText msg = some text ∧ HasExtendLifetime constants text ts

section
variable {constants : Constants}

/-! ## What is read at the first occurrence -/

theorem matchExtendLifetime_iff {constant text : String} {timestamp : UInt64} :
    matchExtendLifetime text.toList constant.toList = some timestamp ↔
      FirstReads constant text timestamp := by
  unfold matchExtendLifetime
  constructor
  · intro h
    split at h
    · next start suffix hsplit =>
      obtain ⟨⟨before, rest⟩, hcut, hdigits⟩ := Option.bind_eq_some_iff.mp h
      dsimp only at hdigits
      split at hdigits
      · next hsuffix =>
        obtain ⟨after, hafter⟩ := hsuffix
        obtain ⟨htext, hfirst⟩ := cutAt_eq_some_iff.mp hcut
        rw [drop_takeWhile] at hafter
        refine ⟨start, suffix, before, rest.takeWhile Char.isDigit, after, hsplit, ?_, hfirst,
          fun c hc => List.mem_takeWhile_imp hc, fun c hc => ?_, hdigits⟩
        · rw [hafter, List.takeWhile_append_dropWhile, htext]
        · have hhead := List.head?_dropWhile_not Char.isDigit rest
          rw [← hafter, Option.mem_def.mp hc] at hhead
          simpa using hhead
      · exact absurd hdigits (by simp)
    · exact absurd h (by simp)
  · rintro ⟨start, suffix, before, digits, after, hsplit, htext, hfirst, hdigits, hafter, hparse⟩
    rw [hsplit]
    dsimp only
    rw [cutAt_eq_some_iff.mpr ⟨htext, hfirst⟩, Option.bind_some]
    dsimp only
    rw [takeWhile_append_of_all hdigits hafter, List.drop_left,
      if_pos (List.prefix_append _ _), hparse]

theorem extendLifetimeIn_isSome_iff {constant text : String} :
    (extendLifetimeIn constant text).isSome ↔
      ∃ timestamp, FirstReads constant text timestamp ∧ Instantiated constant text timestamp := by
  unfold extendLifetimeIn Instantiated
  cases h : matchExtendLifetime text.toList constant.toList with
  | none =>
    refine iff_of_false (by simp) ?_
    rintro ⟨timestamp, hreads, _⟩
    rw [matchExtendLifetime_iff.mpr hreads] at h
    cases h
  | some first =>
    have hunique : ∀ timestamp, FirstReads constant text timestamp ↔ timestamp = first := by
      intro timestamp
      rw [← matchExtendLifetime_iff, h, Option.some.injEq, eq_comm]
    simp only [hunique, exists_eq_left, Option.bind_some]
    split <;> simp_all

/-! ## One message -/

theorem cleanAllIn_isSome_iff {text : String} :
    (constants.controlCleanAll.bind fun constant => cleanAllIn constant text).isSome ↔
      HasCleanAll constants text := by
  unfold HasCleanAll cleanAllIn
  cases constants.controlCleanAll with
  | none => simp
  | some constant =>
    simp only [Option.bind_some, Option.mem_def, Option.some.injEq, exists_eq_left']
    split <;> simp_all

theorem isControl_iff {msg : Json} :
    isControl constants msg = true ↔ ∃ text, messageText msg = some text ∧
      (HasCleanAll constants text ∨ ∃ constant ∈ constants.controlExtendLifetime,
        ∃ timestamp, FirstReads constant text timestamp ∧
          Instantiated constant text timestamp) := by
  unfold isControl controlOf
  cases messageText msg with
  | none => simp
  | some text =>
    simp only [Option.bind_some, Option.isSome_map, Option.isSome_or, Bool.or_eq_true,
      Option.some.injEq, exists_eq_left', cleanAllIn_isSome_iff]
    refine or_congr Iff.rfl ?_
    cases constants.controlExtendLifetime with
    | none => simp
    | some constant =>
      simp only [Option.bind_some, Option.mem_def, Option.some.injEq, exists_eq_left']
      exact extendLifetimeIn_isSome_iff

/-- **What is taken out asks for something.** -/
theorem asks_of_isControl {msg : Json} (h : isControl constants msg = true) :
    Asks constants msg := by
  obtain ⟨text, htext, hask⟩ := isControl_iff.mp h
  refine ⟨text, htext, hask.imp_right ?_⟩
  rintro ⟨constant, hconstant, timestamp, _, hin⟩
  exact ⟨timestamp, constant, hconstant, hin⟩

theorem isControl_of_asks_iff {msg : Json} :
    (Asks constants msg → isControl constants msg = true) ↔
      FirstOccurrenceReads constants msg := by
  constructor
  · intro h text htext
    by_cases hclean : HasCleanAll constants text
    · exact Or.inl hclean
    · refine Or.inr fun constant hconstant ⟨timestamp, hin⟩ => ?_
      have hcontrol := h ⟨text, htext, Or.inr ⟨timestamp, constant, hconstant, hin⟩⟩
      obtain ⟨text', htext', hask⟩ := isControl_iff.mp hcontrol
      rw [htext, Option.some.injEq] at htext'
      subst htext'
      obtain ⟨constant', hconstant', hreads⟩ := hask.resolve_left hclean
      rw [Option.mem_unique hconstant hconstant']
      exact hreads
  · rintro h ⟨text, htext, hask⟩
    refine isControl_iff.mpr ⟨text, htext, ?_⟩
    rcases h text htext with hclean | hreads
    · exact Or.inl hclean
    · refine hask.imp_right ?_
      rintro ⟨timestamp, constant, hconstant, hin⟩
      exact ⟨constant, hconstant, hreads constant hconstant ⟨timestamp, hin⟩⟩

theorem hasExtendLifetime_of_controlOf {msg : Json} {text : String} {ts : UInt64}
    (h : controlOf constants msg = some (text, .extendLifetime ts)) :
    messageText msg = some text ∧ HasExtendLifetime constants text ts := by
  obtain ⟨text', htext, hmap⟩ := Option.bind_eq_some_iff.mp h
  obtain ⟨action, haction, heq⟩ := Option.map_eq_some_iff.mp hmap
  cases heq
  refine ⟨htext, ?_⟩
  rcases Option.or_eq_some_iff.mp haction with hclean | ⟨_, hextend⟩
  · obtain ⟨constant, _, hin⟩ := Option.bind_eq_some_iff.mp hclean
    unfold cleanAllIn at hin
    split at hin <;> cases hin
  · obtain ⟨constant, hconstant, hin⟩ := Option.bind_eq_some_iff.mp hextend
    obtain ⟨first, _, hfirst⟩ := Option.bind_eq_some_iff.mp hin
    dsimp only at hfirst
    split at hfirst
    · next htwice =>
      cases hfirst
      exact ⟨constant, hconstant, htwice⟩
    · cases hfirst

/-! ## The list -/

section
variable {hashStr : String → UInt64} (messages : List Json) (processed : List UInt64)

/-- An action is that of a message. -/
theorem controlOf_of_action {action : ControlAction}
    (h : (scanControlMessages hashStr constants messages processed).action = some action) :
    ∃ msg ∈ messages, ∃ text, controlOf constants msg = some (text, action) := by
  induction messages using List.reverseRecOn with
  | nil => cases h
  | append_singleton messages msg ih =>
    rw [scan_concat, Scan.step] at h
    have hold : (scanControlMessages hashStr constants messages processed).action = some action →
        ∃ msg' ∈ messages ++ [msg], ∃ text, controlOf constants msg' = some (text, action) := by
      intro h
      obtain ⟨msg', hmem, hctl⟩ := ih h
      exact ⟨msg', List.mem_append_left _ hmem, hctl⟩
    cases hc : controlOf constants msg with
    | none =>
      rw [hc] at h
      exact hold h
    | some c =>
      rw [hc] at h
      dsimp only at h
      split at h
      · exact hold h
      · cases h
        exact ⟨msg, by simp, c.1, hc⟩

/-- **Exactly the messages that ask for something are taken out** if and only if in each of them the
first occurrence can be read. -/
theorem strips_exactly_iff :
    StripsExactly hashStr constants messages processed ↔
      ∀ msg ∈ messages, FirstOccurrenceReads constants msg := by
  obtain ⟨hcleaned, hstripped⟩ := @scan_kept hashStr constants messages processed
  simp only [← isControl_of_asks_iff]
  constructor
  · intro h msg hmsg hask
    by_contra hcontrol
    have hleft : msg ∈ messages.filter fun msg => !isControl constants msg :=
      List.mem_filter.mpr ⟨hmsg, by simpa using hcontrol⟩
    rw [← hcleaned, h.cleaned, List.mem_filter] at hleft
    exact absurd hask (by simpa using hleft.2)
  · intro h
    have hsame : ∀ msg ∈ messages, (isControl constants msg = true ↔ Asks constants msg) :=
      fun msg hmsg => ⟨asks_of_isControl, h msg hmsg⟩
    refine ⟨?_, ?_, ?_⟩
    · rw [hcleaned]
      refine List.filter_congr fun msg hmsg => ?_
      rw [Bool.eq_iff_iff]
      simp [← hsame msg hmsg]
    · rw [hstripped]
      refine List.countP_congr fun msg hmsg => ?_
      simp [hsame msg hmsg]
    · intro ts haction
      obtain ⟨msg, hmsg, text, hctl⟩ := controlOf_of_action messages processed haction
      exact ⟨msg, hmsg, text, hasExtendLifetime_of_controlOf hctl⟩

end

end

/-- The beginning of the constant stands once more in front, with no timestamp behind it. -/
theorem strips_too_little :
    ¬ ∀ (hashStr : String → UInt64) (cleanAll extend : String) (start suffix : List Char)
      (messages : List Json) (processed : List UInt64), cleanAll ≠ "" →
      splitAll placeholder extend.toList = [start, suffix] →
      StripsExactly hashStr
        { controlCleanAll := some cleanAll, controlExtendLifetime := some extend }
        messages processed := by
  intro hall
  let constants : Constants :=
    { controlCleanAll := some "CLEAN", controlExtendLifetime := some "EXTEND<unix_utc>END" }
  let msg : Json := .obj [("content", .str "EXTEND it: EXTEND7ENDEXTEND7END")]
  have h := (hall (fun _ => 0) "CLEAN" "EXTEND<unix_utc>END" "EXTEND".toList "END".toList [msg] []
    (by decide) (by decide +kernel)).cleaned
  have hask : Asks constants msg := by
    refine ⟨"EXTEND it: EXTEND7ENDEXTEND7END", rfl, Or.inr ⟨7, _, rfl, ?_⟩⟩
    unfold Instantiated
    decide +kernel
  have hleft : (scanControlMessages (fun _ => 0) constants [msg] []).cleaned.length = 1 := by
    decide +kernel
  rw [h, List.filter_eq_nil_iff.mpr (by simpa using hask)] at hleft
  cases hleft

end InfSplitter.Control
