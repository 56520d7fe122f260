import InfSplitter.Streams.Sse

/-!
# The data lines of a stream

What is read of a stream are the payloads of its lines. A line break ends a line wherever the text
is cut into events (`payloads_break`), so the payloads of the events are those of the text they were
cut from (`payloads_events`), and a `\r` in front of the break does not matter (`payload?_return`).
-/

set_option autoImplicit false

namespace InfSplitter.Streams

open Lib

theorem lineBreak_ne_nil : ['\n'] ≠ [] := List.cons_ne_nil _ _

/-! ## One line -/

theorem trim_return (text : List Char) : trim (text ++ ['\r']) = trim text := by
  unfold trim
  rw [List.dropWhile_append]
  split
  · next h =>
    rw [List.isEmpty_iff.mp h]
    rfl
  · rw [List.reverse_append]
    rfl

theorem stripPrefix_return {start line : List Char} (h : '\r' ∉ start) :
    stripPrefix start (line ++ ['\r']) = (stripPrefix start line).map (· ++ ['\r']) := by
  unfold stripPrefix
  by_cases hp : start <+: line
  · rw [if_pos hp, if_pos (hp.trans (List.prefix_append _ _)), Option.map_some,
      List.drop_append_of_le_length hp.length_le]
  · rw [if_neg hp, if_neg, Option.map_none]
    intro hlong
    rcases List.prefix_concat_iff.mp hlong with heq | hshort
    · exact h (heq ▸ by simp)
    · exact hp hshort

/-- **A `\r` at the end of a line is not read.** -/
theorem payload?_return (line : List Char) : payload? (line ++ ['\r']) = payload? line := by
  unfold payload?
  rw [stripPrefix_return (by decide), stripPrefix_return (by decide)]
  cases stripPrefix "data: ".toList line with
  | some data => simp only [Option.map_some, Option.some_or, Option.bind_some, trim_return]
  | none =>
    cases stripPrefix "data:".toList line with
    | none => rfl
    | some data =>
      simp only [Option.map_none, Option.map_some, Option.none_or, Option.bind_some, trim_return]

theorem payload?_nil : payload? [] = none := rfl

/-! ## A text -/

/-- All lines, with nothing left out. -/
def rawLines (text : List Char) : List (List Char) := splitAll ['\n'] text

theorem payload?_lineEnd (line : List Char) :
    payload? (if line.getLast? = some '\r' then line.dropLast else line) = payload? line := by
  split
  · next h =>
    obtain ⟨start, rfl⟩ := List.getLast?_eq_some_iff.mp h
    rw [List.dropLast_concat, payload?_return]
  · rfl

theorem payloads_eq (text : List Char) : payloads text = (rawLines text).filterMap payload? := by
  unfold payloads lines rawLines splitAll
  rw [List.filterMap_append, List.filterMap_append, List.filterMap_map]
  congr 1
  · exact List.filterMap_congr fun line _ => payload?_lineEnd line
  · split
    · next h =>
      rw [h]
      rfl
    · rfl

theorem rawLines_break (before rest : List Char) :
    rawLines (before ++ '\n' :: rest) = rawLines before ++ rawLines rest := by
  have hpending := cutAt_pending lineBreak_ne_nil before
  have hcut : cutAt ['\n'] ((frames ['\n'] before).2 ++ '\n' :: rest) =
      some ((frames ['\n'] before).2, rest) := by
    refine cutAt_eq_some_iff.mpr ⟨by simp, fun earlier hearlier => ?_⟩
    by_contra hlt
    have hin : earlier ++ ['\n'] <+: (frames ['\n'] before).2 :=
      List.prefix_of_prefix_length_le hearlier (List.prefix_append _ _)
        (by rw [List.length_append, List.length_singleton]; omega)
    exact (cutAt_eq_none_iff lineBreak_ne_nil).mp hpending
      ((List.suffix_append _ _).isInfix.trans hin.isInfix)
  unfold rawLines splitAll
  rw [frames_append lineBreak_ne_nil, frames_of_some lineBreak_ne_nil hcut]
  simp

theorem payloads_break (before rest : List Char) :
    payloads (before ++ '\n' :: rest) = payloads before ++ payloads rest := by
  rw [payloads_eq, payloads_eq, payloads_eq, rawLines_break, List.filterMap_append]

theorem payloads_empty : payloads [] = [] := rfl

/-- **The payloads of events** are those of the text they were cut from. -/
theorem payloads_events (events : List (List Char)) (rest : List Char) :
    payloads (events.flatMap (· ++ eventEnd) ++ rest) =
      events.flatMap payloads ++ payloads rest := by
  induction events with
  | nil => rfl
  | cons event events ih =>
    rw [List.flatMap_cons, List.flatMap_cons, List.append_assoc, List.append_assoc,
      List.append_assoc]
    have hend : event ++ (eventEnd ++ (events.flatMap (· ++ eventEnd) ++ rest)) =
        event ++ '\n' :: ([] ++ '\n' :: (events.flatMap (· ++ eventEnd) ++ rest)) := rfl
    rw [hend, payloads_break, payloads_break, payloads_empty, List.nil_append, ih]

/-- What is left of a text behind an event end, if it has no event end itself. -/
theorem short_of_suffix {text rest : List Char} (hend : eventEnd <:+ text) (hrest : rest <:+ text)
    (hfree : ¬ eventEnd <:+: rest) : rest = [] ∨ rest = ['\n'] := by
  by_cases hlen : eventEnd.length ≤ rest.length
  · exact absurd (List.suffix_of_suffix_length_le hend hrest hlen).isInfix hfree
  · have hin := List.suffix_of_suffix_length_le hrest hend (by omega)
    have hcases : ∀ l, l <:+ eventEnd → l = eventEnd ∨ l = ['\n'] ∨ l = [] := by
      simp [eventEnd, List.suffix_cons_iff]
    rcases hcases rest hin with rfl | hone | hnil
    · exact absurd (Nat.le_refl _) hlen
    · exact Or.inr hone
    · exact Or.inl hnil

theorem payloads_short {rest : List Char} (h : rest = [] ∨ rest = ['\n']) : payloads rest = [] := by
  rcases h with rfl | rfl <;> rfl

/-- A text that ends with an event has no data line outside its events. -/
theorem payloads_whole {text : List Char} (h : eventEnd <:+ text) :
    (frames eventEnd text).1.flatMap payloads = payloads text := by
  have hflat := frames_flatten eventEnd_ne_nil text
  have hfree := (cutAt_eq_none_iff eventEnd_ne_nil).mp (cutAt_pending eventEnd_ne_nil text)
  have hevents := payloads_events (frames eventEnd text).1 (frames eventEnd text).2
  rw [hflat, payloads_short (short_of_suffix h ⟨_, hflat⟩ hfree), List.append_nil] at hevents
  exact hevents.symm

theorem payloads_splitAll (text : List Char) :
    (splitAll eventEnd text).flatMap payloads = payloads text := by
  have h := payloads_events (frames eventEnd text).1 (frames eventEnd text).2
  rw [frames_flatten eventEnd_ne_nil] at h
  rw [h, splitAll, List.flatMap_append]
  simp

end InfSplitter.Streams
