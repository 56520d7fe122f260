import InfSplitter.Diagnostics.Guard
import InfSplitter.Streams.Lines

/-!
# The dump of a stream

The bytes of a streamed response are kept up to a limit (`capture_chunks`), and at the end their
events are written to the dump as one array. The last event may be incomplete: what stands behind
the last empty line is dropped, and what is left has the data lines of all events that are complete
(`dumpedEvents_eq`).

All of this is behind a check that the bytes are text. A limit that falls inside a character makes
them none, and then no event is written (`dump_iff`).
-/

set_option autoImplicit false

namespace InfSplitter.Diagnostics

open Lib Streams

/-! ## The code -/

/-- `serde_json` on values. -/
structure JsonValues (ν : Type) where
  /-- `serde_json::from_str::<Value>` -/
  fromStr : List Char → Option ν
  /-- `serde_json::to_string` of a list of values -/
  toString : List ν → Option String

def MAX_STREAMING_DUMP_BYTES : Nat := 1048576

/-- What the loop of `handle_stream_response` keeps of a chunk. -/
def capture (dumpBuffer chunk : List UInt8) : List UInt8 :=
  if dumpBuffer.length < MAX_STREAMING_DUMP_BYTES then
    dumpBuffer ++ chunk.take (min chunk.length (MAX_STREAMING_DUMP_BYTES - dumpBuffer.length))
  else dumpBuffer

/-- The text up to the last event end, `rfind` with what it finds. -/
def completePart (text : List Char) : Option (List Char) :=
  (cutAt eventEnd.reverse text.reverse).map fun found => found.2.reverse ++ eventEnd

section
variable {ν : Type} (json : JsonValues ν)

def dumpedEvents (text : List Char) : List ν :=
  ((splitAll eventEnd text).flatMap payloads).filterMap json.fromStr

def arrayText (values : List ν) : DumpBody := .utf8 ((json.toString values).getD "[]")

def parseSseBufferToJsonArray (buf : List UInt8) : DumpBody :=
  match fromUtf8 buf with
  | none => dumpBodyFromBytes buf
  | some text =>
    if text = [] then .utf8 "[]"
    else
      match completePart text with
      | none => dumpBodyFromBytes buf
      | some complete => arrayText json (dumpedEvents json complete)

end

/-! ## What is kept -/

theorem capture_eq (dumpBuffer chunk : List UInt8)
    (h : dumpBuffer.length ≤ MAX_STREAMING_DUMP_BYTES) :
    capture dumpBuffer chunk = (dumpBuffer ++ chunk).take MAX_STREAMING_DUMP_BYTES := by
  unfold capture
  rw [List.take_append, List.take_of_length_le h]
  split
  · rw [Nat.min_comm, ← List.take_eq_take_min]
  · have hzero : MAX_STREAMING_DUMP_BYTES - dumpBuffer.length = 0 := by omega
    rw [hzero, List.take_zero, List.append_nil]

/-- What is kept of a cut buffer and a chunk is what is kept of all of it. -/
theorem capture_take (bytes chunk : List UInt8) :
    capture (bytes.take MAX_STREAMING_DUMP_BYTES) chunk =
      (bytes ++ chunk).take MAX_STREAMING_DUMP_BYTES := by
  rw [capture_eq _ _ (by simp), List.take_append, List.take_append, List.take_take, Nat.min_self]
  congr 1
  rw [List.length_take]
  by_cases h : bytes.length ≤ MAX_STREAMING_DUMP_BYTES
  · rw [Nat.min_eq_right h]
  · rw [Nat.min_eq_left (by omega), Nat.sub_self, Nat.sub_eq_zero_of_le (by omega)]

/-- **The dump buffer is the stream, cut at the limit.** -/
theorem capture_chunks (chunks : List (List UInt8)) :
    chunks.foldl capture [] = chunks.flatten.take MAX_STREAMING_DUMP_BYTES := by
  induction chunks using List.reverseRecOn with
  | nil => simp
  | append_singleton chunks chunk ih =>
    rw [List.foldl_concat, ih, capture_take, List.flatten_concat]

/-! ## What is complete -/

/-- The events that end within so many bytes. -/
def eventsWithin : Nat → List (List Char) → List (List Char)
  | _, [] => []
  | n, event :: rest =>
    if (encodeUtf8 (event ++ eventEnd)).length ≤ n then
      event :: eventsWithin (n - (encodeUtf8 (event ++ eventEnd)).length) rest
    else []

/-- The events of a stream that are complete in its first bytes. -/
def completeEvents (text : List Char) (n : Nat) : List (List Char) :=
  eventsWithin n (frames eventEnd text).1

/-- The first so many bytes end where a character ends. -/
def CharBoundary (text : List Char) (n : Nat) : Prop :=
  ∃ before, before <+: text ∧ (encodeUtf8 text).take n = encodeUtf8 before

theorem prefix_of_encode_prefix {a b : List Char} (h : encodeUtf8 a <+: encodeUtf8 b) :
    a <+: b := by
  induction a generalizing b with
  | nil => exact List.nil_prefix
  | cons c a ih =>
    obtain ⟨rest, hrest⟩ := h
    have htake := takeChar_encode c (encodeUtf8 a ++ rest)
    rw [← List.append_assoc] at htake
    have hcons : encodeUtf8 (c :: a) = String.utf8EncodeChar c ++ encodeUtf8 a := rfl
    rw [← hcons, hrest] at htake
    cases b with
    | nil =>
      obtain ⟨x, xs, hx⟩ := List.exists_cons_of_ne_nil (utf8EncodeChar_ne_nil c)
      rw [hcons, hx] at hrest
      cases hrest
    | cons d b =>
      have hd : encodeUtf8 (d :: b) = String.utf8EncodeChar d ++ encodeUtf8 b := rfl
      rw [hd, takeChar_encode, Option.some.injEq, Prod.mk.injEq] at htake
      rw [htake.1, List.cons_prefix_cons]
      exact ⟨rfl, ih ⟨rest, htake.2.symm⟩⟩

theorem charBoundary_iff (text : List Char) (n : Nat) :
    CharBoundary text n ↔ (fromUtf8 ((encodeUtf8 text).take n)).isSome := by
  rw [Option.isSome_iff_exists]
  constructor
  · intro ⟨before, _, htake⟩
    exact ⟨before, fromUtf8_eq_some_iff.mpr htake⟩
  · intro ⟨before, hfrom⟩
    have htake := fromUtf8_eq_some_iff.mp hfrom
    exact ⟨before, prefix_of_encode_prefix (htake ▸ List.take_prefix _ _), htake⟩

theorem eventsWithin_append (events rest : List (List Char)) {n : Nat}
    (h : (encodeUtf8 (events.flatMap (· ++ eventEnd))).length ≤ n) :
    eventsWithin n (events ++ rest) = events ++
      eventsWithin (n - (encodeUtf8 (events.flatMap (· ++ eventEnd))).length) rest := by
  induction events generalizing n with
  | nil => rfl
  | cons event events ih =>
    rw [List.flatMap_cons, encodeUtf8_append, List.length_append] at h ⊢
    rw [List.cons_append, eventsWithin, if_pos (by omega), ih (by omega), Nat.sub_sub,
      List.cons_append]

/-- **The complete events of a cut stream** are the events of what is left of it. -/
theorem completeEvents_eq {text before : List Char} {n : Nat} (hbefore : before <+: text)
    (htake : (encodeUtf8 text).take n = encodeUtf8 before) :
    completeEvents text n = (frames eventEnd before).1 := by
  obtain ⟨after, rfl⟩ := hbefore
  have hflat := frames_flatten eventEnd_ne_nil before
  have hbytes := congrArg List.length htake
  rw [encodeUtf8_append, List.length_take, List.length_append] at hbytes
  have hwhole : (encodeUtf8 ((frames eventEnd before).1.flatMap (· ++ eventEnd))).length +
      (encodeUtf8 (frames eventEnd before).2).length = (encodeUtf8 before).length := by
    rw [← List.length_append, ← encodeUtf8_append, hflat]
  unfold completeEvents
  rw [frames_append eventEnd_ne_nil, eventsWithin_append _ _ (by omega)]
  -- the next event would end in what is pending
  cases hcut : cutAt eventEnd ((frames eventEnd before).2 ++ after) with
  | none =>
    rw [frames_of_none hcut]
    simp [eventsWithin]
  | some p =>
    rw [frames_of_some eventEnd_ne_nil hcut, eventsWithin, if_neg, List.append_nil]
    intro hle
    have hin : encodeUtf8 (p.1 ++ eventEnd) <+: encodeUtf8 (frames eventEnd before).2 := by
      by_cases hn : n ≤ (encodeUtf8 before).length
      · have hone : encodeUtf8 (p.1 ++ eventEnd) <+:
            encodeUtf8 ((frames eventEnd before).2 ++ after) := by
          rw [eq_of_cutAt hcut, encodeUtf8_append (p.1 ++ eventEnd)]
          exact List.prefix_append _ _
        have hother : encodeUtf8 (frames eventEnd before).2 <+:
            encodeUtf8 ((frames eventEnd before).2 ++ after) := by
          rw [encodeUtf8_append]
          exact List.prefix_append _ _
        exact List.prefix_of_prefix_length_le hone hother (by omega)
      · have hnil : after = [] := by
          have hzero : (encodeUtf8 after).length = 0 := by omega
          cases after with
          | nil => rfl
          | cons c after =>
            rw [length_encode_cons] at hzero
            have := c.utf8Size_pos
            omega
        rw [hnil, List.append_nil] at hcut
        rw [cutAt_pending eventEnd_ne_nil] at hcut
        cases hcut
    have hin' := prefix_of_encode_prefix hin
    exact (cutAt_eq_none_iff eventEnd_ne_nil).mp (cutAt_pending eventEnd_ne_nil before)
      ((List.suffix_append _ _).isInfix.trans hin'.isInfix)

/-! ## What is written -/

theorem completePart_eq_none_iff (text : List Char) :
    completePart text = none ↔ (frames eventEnd text).1 = [] := by
  have hreverse : eventEnd.reverse = eventEnd := rfl
  unfold completePart
  rw [Option.map_eq_none_iff, cutAt_eq_none_iff (by decide), List.reverse_infix]
  cases hcut : cutAt eventEnd text with
  | none => simpa [frames_of_none hcut] using (cutAt_eq_none_iff eventEnd_ne_nil).mp hcut
  | some p =>
    rw [frames_of_some eventEnd_ne_nil hcut, eq_of_cutAt hcut]
    simp only [reduceCtorEq, iff_false, not_not]
    exact ⟨p.1, p.2, rfl⟩

/-- What stands behind the last event end has none in it, not even one that begins earlier. -/
theorem of_completePart {text complete : List Char} (h : completePart text = some complete) :
    complete <+: text ∧ eventEnd <:+ complete ∧ ∀ longer, longer <+: text → eventEnd <:+ longer →
      longer.length ≤ complete.length := by
  obtain ⟨⟨behind, front⟩, hcut, rfl⟩ := Option.map_eq_some_iff.mp h
  obtain ⟨htext, hfirst⟩ := cutAt_eq_some_iff.mp hcut
  have htext' : text = front.reverse ++ eventEnd ++ behind.reverse := by
    have := congrArg List.reverse htext
    simpa using this
  refine ⟨⟨behind.reverse, htext'.symm⟩, List.suffix_append _ _, fun longer hlonger hend => ?_⟩
  obtain ⟨rest, hrest⟩ := hlonger
  obtain ⟨start, rfl⟩ := hend
  have hearlier := hfirst rest.reverse ⟨start.reverse, by rw [← hrest]; simp⟩
  have hlen := congrArg List.length (htext'.symm.trans hrest.symm)
  simp only [List.length_append, List.length_reverse] at hlen hearlier ⊢
  omega

/-- **What is kept has the data lines of all complete events.** -/
theorem dumpedEvents_eq {ν : Type} (json : JsonValues ν) {text complete : List Char}
    (h : completePart text = some complete) :
    dumpedEvents json complete =
      ((frames eventEnd text).1.flatMap payloads).filterMap json.fromStr := by
  obtain ⟨hin, hends, hlast⟩ := of_completePart h
  have hflat := frames_flatten eventEnd_ne_nil text
  have hne : (frames eventEnd text).1 ≠ [] := fun hnil => by
    rw [(completePart_eq_none_iff text).mpr hnil] at h
    cases h
  unfold dumpedEvents
  rw [payloads_splitAll]
  congr 1
  -- the complete events, and then at most one more line break
  obtain ⟨found, last, hfound⟩ := List.eq_nil_or_concat' _ |>.resolve_left hne
  have hend : eventEnd <:+ (frames eventEnd text).1.flatMap (· ++ eventEnd) := by
    rw [hfound, List.flatMap_append, List.flatMap_singleton]
    exact (List.suffix_append last eventEnd).trans (List.suffix_append _ _)
  have hevents : (frames eventEnd text).1.flatMap (· ++ eventEnd) <+: text :=
    ⟨_, hflat⟩
  obtain ⟨more, hmore⟩ := List.prefix_of_prefix_length_le hevents hin (hlast _ hevents hend)
  have hpending : more <+: (frames eventEnd text).2 := by
    obtain ⟨after, hafter⟩ := hin
    rw [← hmore, List.append_assoc] at hafter
    exact ⟨after, List.append_cancel_left (hafter.trans hflat.symm)⟩
  have hfree := (cutAt_eq_none_iff eventEnd_ne_nil).mp (cutAt_pending eventEnd_ne_nil text)
  have hshort := short_of_suffix hends ⟨_, hmore⟩ fun h => hfree (h.trans hpending.isInfix)
  rw [← hmore, payloads_events, payloads_short hshort, List.append_nil]

/-- **A cut stream is dumped as its complete events** exactly if the cut is not inside a
character. -/
theorem dump_iff {ν : Type} (json : JsonValues ν) (text : List Char) (n : Nat)
    (h : completeEvents text n ≠ []) :
    parseSseBufferToJsonArray json ((encodeUtf8 text).take n) =
        arrayText json (((completeEvents text n).flatMap payloads).filterMap json.fromStr) ↔
      CharBoundary text n := by
  unfold parseSseBufferToJsonArray
  constructor
  · intro heq
    rw [charBoundary_iff]
    cases hfrom : fromUtf8 ((encodeUtf8 text).take n) with
    | some before => rfl
    | none =>
      rw [hfrom] at heq
      dsimp only at heq
      rw [dumpBodyFromBytes, hfrom] at heq
      cases heq
  · intro ⟨before, hbefore, htake⟩
    rw [fromUtf8_eq_some_iff.mpr htake]
    dsimp only
    rw [completeEvents_eq hbefore htake] at h ⊢
    have hne : before ≠ [] := by
      rintro rfl
      exact h rfl
    rw [if_neg hne]
    cases hcomplete : completePart before with
    | none => exact absurd ((completePart_eq_none_iff before).mp hcomplete) h
    | some complete =>
      dsimp only
      rw [dumpedEvents_eq json hcomplete]

/-! ## Cuts of one stream -/

/-- Values that are digits. -/
def digitValues : JsonValues Char where
  fromStr
    | [c] => if c.isDigit then some c else none
    | _ => none
  toString values := some (String.ofList (['['] ++ [','].intercalate (values.map ([·])) ++ [']']))

def accented : List Char := "data: 1\n\ndata: \"é\"\n\n".toList

theorem dump_iff_accented :
    parseSseBufferToJsonArray digitValues ((encodeUtf8 accented).take 16) =
        arrayText digitValues
          (((completeEvents accented 16).flatMap payloads).filterMap digitValues.fromStr) ↔
      CharBoundary accented 16 :=
  dump_iff digitValues accented 16 (by decide +kernel)

/-- One byte more, and the complete event is lost. -/
theorem dump_loses_events :
    ¬ ∀ (json : JsonValues Char) (text : List Char) (n : Nat), completeEvents text n ≠ [] →
      parseSseBufferToJsonArray json ((encodeUtf8 text).take n) =
        arrayText json (((completeEvents text n).flatMap payloads).filterMap json.fromStr) := by
  intro hall
  have h := hall digitValues accented 17 (by decide +kernel)
  revert h
  decide +kernel

end InfSplitter.Diagnostics
