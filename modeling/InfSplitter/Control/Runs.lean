import InfSplitter.Control.Scan

/-!
# Control messages over a run of requests

A client of a stateless protocol sends everything again: request `k` has the messages of the first
`k + 1` parts of the conversation. What a control message asks for should happen in one of these
requests, and the requests that follow should go on to the upstream without it.

The set of hashes lives as long as one request, so what has been met before is met again. The
message that triggers the action of a request stays the same in the next one unless that brings a
control message of its own (`triggers_again_iff`), and this decides the whole run
(`acts_once_iff`).
-/

set_option autoImplicit false

namespace InfSplitter.Control

open Lib

/-- The messages of request `k`. -/
def history (parts : List (List Json)) (k : Nat) : List Json := (parts.take (k + 1)).flatten

section
variable (hashStr : String → UInt64) (constants : Constants)

/-- No message triggers the action of two requests, and a request whose own part has no control
message is forwarded without those of the earlier parts. -/
structure ActsOnce (parts : List (List Json)) : Prop where
  once : ∀ i k k', k < parts.length → k' < parts.length →
    Triggers hashStr constants (history parts k) i →
    Triggers hashStr constants (history parts k') i → k = k'
  forwarded : ∀ k part, parts[k]? = some part → (∀ msg ∈ part, isControl constants msg = false) →
    handleControl hashStr constants (history parts k) =
      .forwarded ((history parts k).filter fun msg => !isControl constants msg)

/-- After the first control message, every request brings one whose hash is new. -/
def KeepsBringing (parts : List (List Json)) : Prop :=
  ∀ k part, parts[k + 1]? = some part →
    (∃ msg ∈ history parts k, isControl constants msg = true) →
    Brings (controlKey hashStr constants) (history parts k) part

end

section
variable {hashStr : String → UInt64} {constants : Constants} {parts : List (List Json)}

/-! ## One request -/

theorem handleControl_eq (messages : List Json) :
    handleControl hashStr constants messages =
      ((scanControlMessages hashStr constants messages []).action.map Handled.control).getD
        (.forwarded (if (scanControlMessages hashStr constants messages []).stripped > 0 then
          (scanControlMessages hashStr constants messages []).cleaned else messages)) := by
  simp only [handleControl]
  cases (scanControlMessages hashStr constants messages []).action <;> rfl

theorem handleControl_control_iff (messages : List Json) (action : ControlAction) :
    handleControl hashStr constants messages = .control action ↔
      ∃ i text, Triggers hashStr constants messages i ∧
        messages[i]?.bind (controlOf constants) = some (text, action) := by
  rw [← scan_action_iff, handleControl_eq]
  cases (scanControlMessages hashStr constants messages []).action with
  | none => simp
  | some own => simp

theorem keysOf_eq_nil_iff (messages : List Json) :
    keysOf (controlKey hashStr constants) messages = [] ↔
      ∀ msg ∈ messages, isControl constants msg = false := by
  unfold keysOf
  rw [List.filterMap_eq_nil_iff]
  refine forall₂_congr fun msg _ => ?_
  simp [controlKey, isControl]

/-- **A request is forwarded** exactly if none of its messages is a control message. -/
theorem handleControl_forwarded_iff (messages : List Json) :
    handleControl hashStr constants messages =
        .forwarded (messages.filter fun msg => !isControl constants msg) ↔
      ∀ msg ∈ messages, isControl constants msg = false := by
  rw [← show keysOf (controlKey hashStr constants) messages = [] ↔ _ from
    keysOf_eq_nil_iff messages]
  constructor
  · intro h
    by_contra hkeys
    obtain ⟨i, hi⟩ := exists_isLastNew hkeys
    have htriggers := (triggers_iff_isLastNew messages i).mpr hi
    obtain ⟨⟨text, action, hmsg, _⟩, _⟩ := htriggers
    have hcontrol := (handleControl_control_iff messages action).mpr
      ⟨i, text, (triggers_iff_isLastNew messages i).mpr hi, hmsg⟩
    rw [hcontrol] at h
    exact Handled.noConfusion h
  · intro hkeys
    have haction : (scanControlMessages hashStr constants messages []).action = none := by
      by_contra hsome
      obtain ⟨action, haction⟩ := Option.ne_none_iff_exists'.mp hsome
      obtain ⟨i, _, htriggers, _⟩ := (scan_action_iff messages action).mp haction
      obtain ⟨k, _, hk⟩ := ((sets_iff_isNew messages i).mp htriggers.1)
      obtain ⟨⟨text, action', hmsg, _⟩, _⟩ := htriggers
      obtain ⟨msg, hi, hc⟩ := Option.bind_eq_some_iff.mp hmsg
      have hmem : hashStr text ∈ keysOf (controlKey hashStr constants) messages :=
        mem_keysOf.mpr ⟨msg, List.mem_of_getElem? hi, by simp [controlKey, hc]⟩
      rw [hkeys] at hmem
      exact absurd hmem List.not_mem_nil
    have hcleaned : messages.filter (fun msg => !isControl constants msg) = messages := by
      rw [List.filter_eq_self]
      intro msg hmsg
      rw [(keysOf_eq_nil_iff messages).mp hkeys msg hmsg, Bool.not_false]
    have hspec : (scanControlMessages hashStr constants messages []).cleaned =
        messages.filter fun msg => !isControl constants msg := (scan_kept messages []).1
    rw [handleControl_eq, haction, Option.map_none, Option.getD_none, hspec, hcleaned, ite_self]

/-! ## The next request -/

theorem history_succ {k : Nat} {part : List Json} (h : parts[k + 1]? = some part) :
    history parts (k + 1) = history parts k ++ part := by
  unfold history
  rw [List.take_add_one, h]
  simp

theorem history_prefix (parts : List (List Json)) {k k' : Nat} (h : k ≤ k') :
    history parts k <+: history parts k' := by
  unfold history
  have htake : parts.take (k + 1) <+: parts.take (k' + 1) :=
    List.take_prefix_take_left (by omega)
  obtain ⟨rest, hrest⟩ := htake
  rw [← hrest, List.flatten_append]
  exact List.prefix_append _ _

/-- **The same message triggers the next request** exactly if that brings no new hash. -/
theorem triggers_again_iff {messages part : List Json} {i : Nat}
    (h : Triggers hashStr constants messages i) :
    Triggers hashStr constants (messages ++ part) i ↔
      ¬ Brings (controlKey hashStr constants) messages part := by
  rw [triggers_iff_isLastNew] at h ⊢
  constructor
  · intro hnext hbrings
    obtain ⟨j, hj, hnew⟩ := exists_isNew_iff.mpr hbrings
    have hlt := h.1.lt
    exact hnext.2 j (by omega) hnew
  · intro hbrings
    exact (isLastNew_append hbrings i).mpr h

theorem exists_triggers (hashStr : String → UInt64) {messages : List Json}
    (h : ∃ msg ∈ messages, isControl constants msg = true) :
    ∃ i, Triggers hashStr constants messages i := by
  have hkeys : keysOf (controlKey hashStr constants) messages ≠ [] := by
    intro hnil
    obtain ⟨msg, hmsg, hc⟩ := h
    rw [(keysOf_eq_nil_iff messages).mp hnil msg hmsg] at hc
    exact Bool.noConfusion hc
  obtain ⟨i, hi⟩ := exists_isLastNew hkeys
  exact ⟨i, (triggers_iff_isLastNew messages i).mpr hi⟩

/-- The action of a later request comes from a later message. -/
theorem KeepsBringing.later {k k' i : Nat} (hkeeps : KeepsBringing hashStr constants parts)
    (hlt : k < k') (hk' : k' < parts.length) (h : Triggers hashStr constants (history parts k) i) :
    ¬ Triggers hashStr constants (history parts k') i := by
  obtain ⟨m, rfl⟩ := Nat.exists_eq_succ_of_ne_zero (by omega : k' ≠ 0)
  have hpart : parts[m + 1]? = some parts[m + 1] := List.getElem?_eq_getElem hk'
  obtain ⟨rest, hrest⟩ := history_prefix parts (by omega : k ≤ m)
  have hi := (triggers_iff_isLastNew _ _).mp h
  have hcontrol : ∃ msg ∈ history parts m, isControl constants msg = true := by
    obtain ⟨⟨text, action, hmsg, _⟩, _⟩ := h
    obtain ⟨msg, hget, hc⟩ := Option.bind_eq_some_iff.mp hmsg
    refine ⟨msg, ?_, by simp [isControl, hc]⟩
    rw [← hrest]
    exact List.mem_append_left _ (List.mem_of_getElem? hget)
  obtain ⟨j, hj, hnew⟩ := exists_isNew_iff.mpr (hkeeps m _ hpart hcontrol)
  intro hlater
  rw [triggers_iff_isLastNew, history_succ hpart] at hlater
  refine hlater.2 j ?_ hnew
  have hle : (history parts k).length ≤ (history parts m).length := by
    rw [← hrest, List.length_append]
    omega
  have := hi.1.lt
  omega

/-- **A run in which control messages act once** is one in which every request after the first
control message brings another one that is new. -/
theorem acts_once_iff (hashStr : String → UInt64) (constants : Constants)
    (parts : List (List Json)) :
    ActsOnce hashStr constants parts ↔ KeepsBringing hashStr constants parts := by
  constructor
  · intro h k part hpart hcontrol
    have hk : k + 1 < parts.length := (List.getElem?_eq_some_iff.mp hpart).1
    obtain ⟨i, hi⟩ := exists_triggers hashStr hcontrol
    by_contra hbrings
    have hagain : Triggers hashStr constants (history parts (k + 1)) i := by
      rw [history_succ hpart]
      exact (triggers_again_iff hi).mpr hbrings
    exact absurd (h.once i k (k + 1) (by omega) hk hi hagain) (by omega)
  · intro hkeeps
    constructor
    · intro i k k' hk hk' h h'
      rcases Nat.lt_trichotomy k k' with hlt | heq | hlt
      · exact absurd h' (hkeeps.later hlt hk' h)
      · exact heq
      · exact absurd h (hkeeps.later hlt hk h')
    · intro k part hpart hplain
      rw [handleControl_forwarded_iff]
      cases k with
      | zero =>
        have hhistory : history parts 0 = part := by
          unfold history
          rw [List.take_add_one, hpart]
          simp
        rw [hhistory]
        exact hplain
      | succ k =>
        rw [history_succ hpart]
        intro msg hmsg
        rcases List.mem_append.mp hmsg with hold | hnew
        · by_contra hc
          rw [Bool.not_eq_false] at hc
          obtain ⟨own, hown, key, hkey, _⟩ := hkeeps k part hpart ⟨msg, hold, hc⟩
          have hcontrol : isControl constants own = true := by
            obtain ⟨c, hc, _⟩ := Option.map_eq_some_iff.mp hkey
            simp [isControl, hc]
          rw [hplain own hown] at hcontrol
          exact Bool.noConfusion hcontrol
        · exact hplain msg hnew

end

/-! ## A conversation that goes on -/

def userMessage (text : String) : Json := .obj [("content", .str text), ("role", .str "user")]

/-- Clean-all, and then a message of another kind. -/
theorem acts_more_than_once :
    ¬ ∀ (hashStr : String → UInt64) (constants : Constants) (parts : List (List Json)),
      ActsOnce hashStr constants parts := by
  intro hall
  let constants : Constants :=
    { controlCleanAll := some "--- clean all ---", controlExtendLifetime := none }
  let control := userMessage "--- clean all ------ clean all ---"
  let hashStr : String → UInt64 := fun s => UInt64.ofNat s.length
  have honce := (hall hashStr constants [[control], [userMessage "Hello"]]).forwarded 1
    [userMessage "Hello"] rfl (by decide +kernel)
  have hcontrol := (handleControl_forwarded_iff _).mp honce control
    (by simp [history])
  exact absurd hcontrol (by decide +kernel)

end InfSplitter.Control
