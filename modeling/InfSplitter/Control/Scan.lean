import InfSplitter.Interactions.Messages
import InfSplitter.Lib.FirstSeen
import InfSplitter.Lib.Replace
import Mathlib.Data.List.Infix

/-!
# Control messages

A message is a control message if its text has one of the two constants of its section twice in a
row. `scan_control_messages` takes the control messages out of the list of a request, and the last
of them whose text has not been met before says what is to be done. What has been met is a set of
hashes that the caller passes in.

So the scan is a reader of keys seen for the first time, where the key of a control message is the
hash of its text (`mem_processedHashes`, `scan_action_iff`). The hash is that of the standard
library and stays a parameter.
-/

set_option autoImplicit false

namespace InfSplitter.Control

open Interactions Lib

inductive ControlAction
  | cleanAll
  | extendLifetime (timestamp : UInt64)
deriving DecidableEq, Repr

/-! ## What a message says -/

/-- The text of a message that is a string or has a content; of blocks, their texts. -/
def messageText (msg : Json) : Option String :=
  match msg.asStr with
  | some s => some s
  | none =>
    match msg.get "content" with
    | none => none
    | some content =>
      match content.asStr with
      | some s => some s
      | none =>
        match content.asArray with
        | some blocks =>
          if blockTexts blocks = [] then none else some (" ".intercalate (blockTexts blocks))
        | none => none

/-- `str::parse::<u64>` on ASCII digits. -/
def parseDigits (digits : List Char) : Option UInt64 :=
  let value := digits.foldl (fun n c => 10 * n + (c.toNat - 48)) 0
  if digits = [] ∨ 18446744073709551616 ≤ value then none else some (UInt64.ofNat value)

def placeholder : List Char := "<unix_utc>".toList

def matchExtendLifetime (text constant : List Char) : Option UInt64 :=
  match splitAll placeholder constant with
  | [start, suffix] =>
    (cutAt start text).bind fun found =>
      let digits := found.2.takeWhile Char.isDigit
      if suffix <+: found.2.drop digits.length then parseDigits digits else none
  | _ => none

def twice (text : List Char) : List Char := text ++ text

def cleanAllIn (constant : String) (text : String) : Option ControlAction :=
  if twice constant.toList <:+: text.toList then some .cleanAll else none

def extendLifetimeIn (constant : String) (text : String) : Option ControlAction :=
  (matchExtendLifetime text.toList constant.toList).bind fun ts =>
    let single := replaceAll placeholder (toString ts.toNat).toList constant.toList
    if twice single <:+: text.toList then some (.extendLifetime ts) else none

/-- The constants a section has. -/
structure Constants where
  controlCleanAll : Option String
  controlExtendLifetime : Option String
deriving DecidableEq, Repr

/-- The text of a control message and what it asks for. Clean-all is looked for first. -/
def controlOf (constants : Constants) (msg : Json) : Option (String × ControlAction) :=
  (messageText msg).bind fun text =>
    ((constants.controlCleanAll.bind fun constant => cleanAllIn constant text).or
      (constants.controlExtendLifetime.bind fun constant => extendLifetimeIn constant text)).map
        fun action => (text, action)

/-! ## The scan -/

/-- The variables of the loop. -/
structure Scan where
  cleaned : List Json
  stripped : Nat
  action : Option ControlAction
  processedHashes : List UInt64

section
variable (hashStr : String → UInt64) (constants : Constants)

def Scan.step (s : Scan) (msg : Json) : Scan :=
  match controlOf constants msg with
  | some (text, action) =>
    if hashStr text ∈ s.processedHashes then { s with stripped := s.stripped + 1 }
    else
      { s with
        stripped := s.stripped + 1
        action := some action
        processedHashes := hashStr text :: s.processedHashes }
  | none => { s with cleaned := s.cleaned ++ [msg] }

def scanControlMessages (messages : List Json) (processedHashes : List UInt64) : Scan :=
  messages.foldl (Scan.step hashStr constants)
    { cleaned := [], stripped := 0, action := none, processedHashes }

/-- How a handler goes on with the messages of a request. -/
inductive Handled
  -- `handle_control_action`: a response of the proxy itself
  | control (action : ControlAction)
  | forwarded (messages : List Json)

/-- The control part of both handlers. The set of hashes is made for the request. -/
def handleControl (messages : List Json) : Handled :=
  let result := scanControlMessages hashStr constants messages []
  match result.action with
  | some action => .control action
  | none => .forwarded (if result.stripped > 0 then result.cleaned else messages)

/-! ## What the scan does -/

/-- The hash of a control message. -/
def controlKey (msg : Json) : Option UInt64 := (controlOf constants msg).map fun c => hashStr c.1

def isControl (msg : Json) : Bool := (controlOf constants msg).isSome

/-- The scan sets its action at message `i`. -/
def Sets (messages : List Json) (i : Nat) : Prop :=
  ∃ text action, messages[i]?.bind (controlOf constants) = some (text, action) ∧
    hashStr text ∉ (scanControlMessages hashStr constants (messages.take i) []).processedHashes

/-- The action of message `i` is the one that is taken: no later message replaces it. -/
def Triggers (messages : List Json) (i : Nat) : Prop :=
  Sets hashStr constants messages i ∧ ∀ j, i < j → ¬ Sets hashStr constants messages j

end

section
variable {hashStr : String → UInt64} {constants : Constants}

theorem scan_concat (messages : List Json) (msg : Json) (processed : List UInt64) :
    scanControlMessages hashStr constants (messages ++ [msg]) processed =
      (scanControlMessages hashStr constants messages processed).step hashStr constants msg :=
  List.foldl_concat ..

/-- **What is left, and what is stripped.** What has been met before does not matter for it. -/
theorem scan_kept (messages : List Json) (processed : List UInt64) :
    (scanControlMessages hashStr constants messages processed).cleaned =
        messages.filter (fun msg => !isControl constants msg) ∧
      (scanControlMessages hashStr constants messages processed).stripped =
        messages.countP (isControl constants) := by
  induction messages using List.reverseRecOn with
  | nil => exact ⟨rfl, rfl⟩
  | append_singleton messages msg ih =>
    rw [scan_concat, Scan.step, List.filter_append, List.countP_append, ← ih.1, ← ih.2]
    cases hc : controlOf constants msg with
    | none => simp [isControl, hc]
    | some c =>
      dsimp only
      split <;> simp [isControl, hc]

/-- **What is remembered.** -/
theorem mem_processedHashes (messages : List Json) (h : UInt64) :
    h ∈ (scanControlMessages hashStr constants messages []).processedHashes ↔
      h ∈ keysOf (controlKey hashStr constants) messages := by
  induction messages using List.reverseRecOn with
  | nil => exact Iff.rfl
  | append_singleton messages msg ih =>
    rw [scan_concat, Scan.step, keysOf_append]
    cases hc : controlOf constants msg with
    | none =>
      have hkey : keysOf (controlKey hashStr constants) [msg] = [] := by
        simp [keysOf, controlKey, hc]
      simp [hkey, ih]
    | some c =>
      have hkey : keysOf (controlKey hashStr constants) [msg] = [hashStr c.1] := by
        simp [keysOf, controlKey, hc]
      rw [hkey, List.mem_append, List.mem_singleton]
      dsimp only
      split
      · next hseen =>
        rw [ih]
        refine ⟨Or.inl, fun hh => hh.elim id fun heq => ?_⟩
        subst heq
        exact ih.mp hseen
      · rw [List.mem_cons, ih]
        exact or_comm

/-- The scan sets its action at the messages that are new. -/
theorem sets_iff_isNew (messages : List Json) (i : Nat) :
    Sets hashStr constants messages i ↔ IsNew (controlKey hashStr constants) messages i := by
  unfold Sets IsNew
  constructor
  · intro ⟨text, action, hmsg, hnew⟩
    obtain ⟨msg, hi, hc⟩ := Option.bind_eq_some_iff.mp hmsg
    refine ⟨hashStr text, ?_, fun h => hnew ((mem_processedHashes _ _).mpr h)⟩
    rw [hi]
    simp [controlKey, hc]
  · intro ⟨k, hmsg, hnew⟩
    obtain ⟨msg, hi, hkey⟩ := Option.bind_eq_some_iff.mp hmsg
    obtain ⟨⟨text, action⟩, hc, rfl⟩ := Option.map_eq_some_iff.mp hkey
    refine ⟨text, action, ?_, fun h => hnew ((mem_processedHashes _ _).mp h)⟩
    rw [hi]
    exact hc

theorem triggers_iff_isLastNew (messages : List Json) (i : Nat) :
    Triggers hashStr constants messages i ↔
      IsLastNew (controlKey hashStr constants) messages i := by
  unfold Triggers IsLastNew
  simp only [sets_iff_isNew]

/-- **The action of a request** is that of the message that triggers it. -/
theorem scan_action_iff (messages : List Json) (action : ControlAction) :
    (scanControlMessages hashStr constants messages []).action = some action ↔
      ∃ i text, Triggers hashStr constants messages i ∧
        messages[i]?.bind (controlOf constants) = some (text, action) := by
  simp only [triggers_iff_isLastNew]
  induction messages using List.reverseRecOn with
  | nil => simp [scanControlMessages]
  | append_singleton messages msg ih =>
    by_cases hnew : Brings (controlKey hashStr constants) messages [msg]
    · -- the last message sets the action
      obtain ⟨b, hb, k, hk, hfresh⟩ := hnew
      rw [List.mem_singleton.mp hb] at hk
      obtain ⟨⟨text, own⟩, hc, rfl⟩ := Option.map_eq_some_iff.mp hk
      have hset : IsLastNew (controlKey hashStr constants) (messages ++ [msg]) messages.length := by
        refine ⟨(isNew_length_iff messages msg []).mpr ⟨_, hk, hfresh⟩, fun j hj hnew => ?_⟩
        have hlt := hnew.lt
        rw [List.length_append, List.length_singleton] at hlt
        omega
      have hunseen : hashStr text ∉
          (scanControlMessages hashStr constants messages []).processedHashes :=
        fun h => hfresh ((mem_processedHashes _ _).mp h)
      rw [scan_concat, Scan.step, hc]
      simp only [hunseen, if_false, Option.some.injEq]
      constructor
      · intro heq
        refine ⟨messages.length, text, hset, ?_⟩
        rw [← heq]
        simp [hc]
      · intro ⟨i, text', hi, hmsg⟩
        rw [hi.unique hset] at hmsg
        simp only [List.getElem?_concat_length, Option.bind_some, hc, Option.some.injEq,
          Prod.mk.injEq] at hmsg
        exact hmsg.2
    · -- neither the action nor the last new message changes
      have hsame : (scanControlMessages hashStr constants (messages ++ [msg]) []).action =
          (scanControlMessages hashStr constants messages []).action := by
        rw [scan_concat, Scan.step]
        cases hc : controlOf constants msg with
        | none => rfl
        | some c =>
          have hseen : hashStr c.1 ∈
              (scanControlMessages hashStr constants messages []).processedHashes := by
            by_contra hunseen
            refine hnew ⟨msg, List.mem_singleton_self _, hashStr c.1, ?_, fun h => ?_⟩
            · simp [controlKey, hc]
            · exact hunseen ((mem_processedHashes _ _).mpr h)
          simp only [hseen, if_true]
      rw [hsame, ih]
      simp only [isLastNew_append hnew]
      refine exists_congr fun i => exists_congr fun text => and_congr_right fun hi => ?_
      rw [List.getElem?_append_left hi.1.lt]

end

end InfSplitter.Control
