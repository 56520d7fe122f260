import InfSplitter.Streams.Buffered
import Mathlib.Data.List.Induction

/-!
# The ids in a merged stream

A client that is answered by several pieces is shown one interaction, the last. So in the buffered
bytes the id of every other piece is replaced by the final one, one id after another and as raw
bytes, wherever they stand.

A piece is a list of fields between quotes, and a field is an id of a piece or anything else. An id
that is written as it is has no quote, so a replacement acts on the fields one by one
(`replaceAll_intercalate`), and it does what it is for exactly if it finds the id in no field but
its own (`written_step_iff`). Whether it does depends on the order: an id is looked for in the ids
behind it, and in the final id where that has taken an earlier one's place.
-/

set_option autoImplicit false

namespace InfSplitter.Streams

open Interactions Lib

/-! ## Pieces with places for ids -/

def quote : UInt8 := 34

/-- What stands between two quotes. -/
inductive Field
  | text (bytes : List UInt8) (unquoted : quote ∉ bytes)
  | id (name : String)

/-- The bytes of a field with the ids renamed. -/
def Field.bytes (rename : String → String) : Field → List UInt8
  | .text bytes _ => bytes
  | .id name => bytesOf (Json.escape (rename name))

def Field.text? : Field → Option (List UInt8)
  | .text bytes _ => some bytes
  | .id _ => none

def Field.name? : Field → Option String
  | .text _ _ => none
  | .id name => some name

def textsOf (fields : List Field) : List (List UInt8) := fields.filterMap Field.text?

def namesOf (fields : List Field) : List String := fields.filterMap Field.name?

def written (rename : String → String) (fields : List Field) : List UInt8 :=
  [quote].intercalate (fields.map (Field.bytes rename))

/-- The renaming when the ids of `done` are replaced. -/
def renamed (done : List String) (finalId id : String) : String :=
  if id ∈ done then finalId else id

/-- The ids that are replaced, in this order. -/
def intermediate (allIntIds : List String) (finalId : String) : List String :=
  allIntIds.filter (· ≠ finalId)

/-- A JSON string has the id as it is. -/
def Plain (id : String) : Prop := ∀ c ∈ id.toList, Json.escapeChar c = String.ofList [c]

/-- No replacement finds an id anywhere but in the places of that id. -/
structure Apart (allIntIds : List String) (finalId : String) (pieces : List (List Field)) :
    Prop where
  plain : ∀ id ∈ intermediate allIntIds finalId, Plain id
  plainFinal : intermediate allIntIds finalId ≠ [] → Plain finalId
  order : (intermediate allIntIds finalId).Pairwise fun id later => ¬ bytesOf id <:+: bytesOf later
  final : ∀ id ∈ intermediate allIntIds finalId, ¬ bytesOf id <:+: bytesOf finalId
  texts : ∀ id ∈ intermediate allIntIds finalId, ∀ piece ∈ pieces, ∀ bytes ∈ textsOf piece,
    ¬ bytesOf id <:+: bytes

/-- The client is sent what it would be sent if the pieces had had the final id from the start, and
no other id of a piece occurs there. -/
def OnlyFinalVisible (buffer : MemSseBuffer) (allIntIds : List String) (finalId : String)
    (pieces : List (List Field)) : Prop :=
  (∀ (τ χ : Type) (lib : External τ χ) (ingress : Protocol) (model : String),
    captureAndTranslateSse lib ingress model buffer allIntIds finalId =
      translateBufferedSseToClient lib ingress model (pieces.flatMap (written fun _ => finalId))) ∧
  ∀ id ∈ intermediate allIntIds finalId, ∀ piece ∈ pieces,
    ¬ bytesOf id <:+: written (fun _ => finalId) piece

/-- After each id, the places of the ids so far have the final id, and nothing else has changed. -/
def EachStepExact (buffer : MemSseBuffer) (allIntIds : List String) (finalId : String)
    (pieces : List (List Field)) : Prop :=
  ∀ done rest, intermediate allIntIds finalId = done ++ rest →
    (done.foldlM (fun buffer id => MemSseBuffer.substituteId buffer id finalId) buffer).map
        (fun replaced => replaced.pieces.map Prod.snd) =
      some (pieces.map (written (renamed done finalId)))

theorem mem_textsOf {bytes : List UInt8} {unquoted : quote ∉ bytes} {fields : List Field}
    (h : Field.text bytes unquoted ∈ fields) : bytes ∈ textsOf fields :=
  List.mem_filterMap.mpr ⟨_, h, rfl⟩

theorem mem_namesOf {name : String} {fields : List Field} :
    name ∈ namesOf fields ↔ Field.id name ∈ fields := by
  unfold namesOf
  rw [List.mem_filterMap]
  constructor
  · intro ⟨field, hfield, hname⟩
    cases field with
    | text bytes unquoted => exact absurd hname (by simp [Field.name?])
    | id other => exact Option.some.inj hname ▸ hfield
  · intro h
    exact ⟨_, h, rfl⟩

/-! ## Plain ids -/

theorem escape_plain {id : String} (h : Plain id) : Json.escape id = id := by
  have hchars : id.toList.map Json.escapeChar = id.toList.map fun c => String.ofList [c] :=
    List.map_congr_left h
  unfold Json.escape
  rw [hchars, ← String.toList_inj, String.toList_join, List.flatMap_map]
  simp

theorem quote_not_mem {id : String} (h : Plain id) : quote ∉ bytesOf id := by
  intro hmem
  obtain ⟨c, hc, hb⟩ := List.mem_flatMap.mp hmem
  have hquote : String.utf8EncodeChar c = String.utf8EncodeChar '"' :=
    utf8EncodeChar_of_narrow_mem hb (by decide)
  have hplain := h c hc
  rw [utf8EncodeChar_injective hquote] at hplain
  exact absurd hplain (by decide)

theorem Field.quote_not_mem {rename : String → String} {field : Field}
    (h : ∀ id, field = .id id → Plain (rename id)) : quote ∉ field.bytes rename := by
  cases field with
  | text bytes unquoted => exact unquoted
  | id name =>
    rw [Field.bytes, escape_plain (h name rfl)]
    exact Streams.quote_not_mem (h name rfl)

/-! ## One id -/

/-- The id is not found in the field, or the field is its own. -/
def Field.Spared (id : String) (done : List String) (finalId : String) : Field → Prop
  | .text bytes _ => ¬ bytesOf id <:+: bytes
  | .id other => other = id ∨ ¬ bytesOf id <:+: bytesOf (renamed done finalId other)

section
variable {id finalId : String} {done : List String} {fields : List Field}

theorem renamed_mem {other : String} (h : other ∈ done) : renamed done finalId other = finalId :=
  if_pos h

theorem renamed_not_mem {other : String} (h : other ∉ done) : renamed done finalId other = other :=
  if_neg h

theorem renamed_concat {other : String} (h : other ≠ id) :
    renamed (done ++ [id]) finalId other = renamed done finalId other := by
  simp [renamed, h]

theorem plain_renamed (done : List String) {other : String} (hplain : Plain other)
    (hfinal : Plain finalId) : Plain (renamed done finalId other) := by
  unfold renamed
  split
  · exact hfinal
  · exact hplain

theorem Field.replaced_iff {field : Field} (hid : id ≠ "") (hne : id ≠ finalId)
    (hnew : id ∉ done) (hplain : ∀ other, field = .id other → Plain other)
    (hfinal : Plain finalId) :
    replaceAll (bytesOf id) (bytesOf finalId) (field.bytes (renamed done finalId)) =
        field.bytes (renamed (done ++ [id]) finalId) ↔ field.Spared id done finalId := by
  have hword : bytesOf id ≠ [] := mt (bytesOf_eq_nil_iff id).mp hid
  have hword' : bytesOf id ≠ bytesOf finalId := mt bytesOf_inj.mp hne
  cases field with
  | text bytes unquoted => exact replaceAll_eq_self_iff hword hword'
  | id other =>
    have hother := plain_renamed done (hplain other rfl) hfinal
    rw [Field.bytes, Field.bytes, escape_plain hother]
    by_cases heq : other = id
    · subst heq
      rw [renamed_not_mem hnew, renamed_mem (by simp), escape_plain hfinal, replaceAll_word hword]
      simp [Field.Spared]
    · rw [renamed_concat heq, escape_plain hother, replaceAll_eq_self_iff hword hword']
      simp [Field.Spared, heq]

/-- **One replacement is exact** if and only if it spares every field but those of its id. -/
theorem written_step_iff (hid : id ≠ "") (hne : id ≠ finalId) (hnew : id ∉ done)
    (hplain : ∀ other, Field.id other ∈ fields → Plain other) (hplainId : Plain id)
    (hfinal : Plain finalId) :
    replaceAll (bytesOf id) (bytesOf finalId) (written (renamed done finalId) fields) =
        written (renamed (done ++ [id]) finalId) fields ↔
      ∀ field ∈ fields, field.Spared id done finalId := by
  have hword : bytesOf id ≠ [] := mt (bytesOf_eq_nil_iff id).mp hid
  have hquote : ∀ ids, ∀ field ∈ fields, quote ∉ field.bytes (renamed ids finalId) :=
    fun ids field hfield => Field.quote_not_mem fun other hother =>
      plain_renamed _ (hplain other (hother ▸ hfield)) hfinal
  have hfields : replaceAll (bytesOf id) (bytesOf finalId) (written (renamed done finalId) fields) =
        written (renamed (done ++ [id]) finalId) fields ↔
      ∀ field ∈ fields, replaceAll (bytesOf id) (bytesOf finalId)
        (field.bytes (renamed done finalId)) = field.bytes (renamed (done ++ [id]) finalId) := by
    unfold written
    rw [replaceAll_intercalate (quote_not_mem hplainId) hword, List.map_map, ← List.map_inj_left]
    refine ⟨fun heq => intercalate_inj ?_ ?_ (by simp) heq, fun heq => congrArg _ heq⟩
    · intro bytes hbytes
      obtain ⟨field, hfield, rfl⟩ := List.mem_map.mp hbytes
      intro hmem
      rcases mem_replaceAll hword hmem with hmem | hmem
      · exact quote_not_mem hfinal hmem
      · exact hquote done field hfield hmem
    · intro bytes hbytes
      obtain ⟨field, hfield, rfl⟩ := List.mem_map.mp hbytes
      exact hquote _ field hfield
  rw [hfields]
  apply forall₂_congr
  intro field hfield
  exact Field.replaced_iff hid hne hnew (fun other hother => hplain other (hother ▸ hfield)) hfinal

end

/-! ## All ids, one after another -/

theorem pairwise_of_splits {α : Type} {R : α → α → Prop} {l : List α}
    (h : ∀ before a after, l = before ++ a :: after → ∀ b ∈ after, R a b) : l.Pairwise R := by
  induction l with
  | nil => exact List.Pairwise.nil
  | cons a l ih =>
    refine List.Pairwise.cons (h [] a l rfl) (ih fun before b after heq => ?_)
    exact h (a :: before) b after (by rw [heq, List.cons_append])

section
variable {allIntIds : List String} {finalId : String} {pieces : List (List Field)}
  {buffer : MemSseBuffer}

theorem mem_intermediate {id : String} :
    id ∈ intermediate allIntIds finalId ↔ id ∈ allIntIds ∧ id ≠ finalId := by
  simp [intermediate]

/-- What the buffer has after some of the ids. -/
theorem substituted_data (hnonempty : ∀ id ∈ allIntIds, id ≠ "") {done rest : List String}
    (hdone : intermediate allIntIds finalId = done ++ rest) :
    (done.foldlM (fun buffer id => MemSseBuffer.substituteId buffer id finalId) buffer).map
        (fun replaced => replaced.pieces.map Prod.snd) =
      some ((buffer.pieces.map Prod.snd).map fun data => done.foldl
        (fun data id => replaceAll (bytesOf id) (bytesOf finalId) data) data) := by
  have hids : ∀ id ∈ done, id ≠ "" := by
    intro id hid
    have hmem : id ∈ intermediate allIntIds finalId := by
      rw [hdone]
      exact List.mem_append_left _ hid
    exact hnonempty id (mem_intermediate.mp hmem).1
  rw [foldlM_substituteId, if_pos (Or.inr hids), List.map_map]
  rfl

/-- Exact replacements are what the fields are spared from. -/
theorem eachStepExact_iff_spared (hwritten : buffer.pieces.map Prod.snd = pieces.map (written id))
    (hnames : ∀ piece ∈ pieces, ∀ id ∈ namesOf piece, id ∈ allIntIds)
    (hnonempty : ∀ id ∈ allIntIds, id ≠ "") (hdistinct : allIntIds.Nodup)
    (hplain : ∀ id ∈ intermediate allIntIds finalId, Plain id)
    (hplainFinal : intermediate allIntIds finalId ≠ [] → Plain finalId) :
    EachStepExact buffer allIntIds finalId pieces ↔
      ∀ done id rest, intermediate allIntIds finalId = done ++ id :: rest →
        ∀ piece ∈ pieces, ∀ field ∈ piece, field.Spared id done finalId := by
  let run (done : List String) (data : List UInt8) : List UInt8 :=
    done.foldl (fun data id => replaceAll (bytesOf id) (bytesOf finalId) data) data
  have hconcat : ∀ done id data, run (done ++ [id]) data =
      replaceAll (bytesOf id) (bytesOf finalId) (run done data) :=
    fun _ _ _ => List.foldl_concat ..
  have hexact : EachStepExact buffer allIntIds finalId pieces ↔
      ∀ done rest, intermediate allIntIds finalId = done ++ rest →
        ∀ piece ∈ pieces, run done (written id piece) = written (renamed done finalId) piece := by
    refine forall₂_congr fun done rest => forall_congr' fun hdone => ?_
    rw [substituted_data hnonempty hdone, hwritten, List.map_map, Option.some.injEq,
      List.map_inj_left]
    rfl
  have hstep : ∀ done id rest, intermediate allIntIds finalId = done ++ id :: rest →
      ∀ piece ∈ pieces,
        (replaceAll (bytesOf id) (bytesOf finalId) (written (renamed done finalId) piece) =
            written (renamed (done ++ [id]) finalId) piece ↔
          ∀ field ∈ piece, field.Spared id done finalId) := by
    intro done id rest hsplit piece hpiece
    have hid : id ∈ intermediate allIntIds finalId := by simp [hsplit]
    have hfinal := hplainFinal (List.ne_nil_of_mem hid)
    have hnodup : (done ++ id :: rest).Nodup := hsplit ▸ hdistinct.filter _
    refine written_step_iff (hnonempty id (mem_intermediate.mp hid).1) (mem_intermediate.mp hid).2
      (fun hmem => (List.nodup_append.mp hnodup).2.2 id hmem id List.mem_cons_self rfl) ?_
      (hplain id hid) hfinal
    intro other hother
    by_cases heq : other = finalId
    · exact heq ▸ hfinal
    · exact hplain other
        (mem_intermediate.mpr ⟨hnames piece hpiece other (mem_namesOf.mpr hother), heq⟩)
  rw [hexact]
  constructor
  · intro h done id rest hsplit piece hpiece
    have hnow := h done (id :: rest) hsplit piece hpiece
    have hnext := h (done ++ [id]) rest (by rw [hsplit, List.append_assoc]; rfl) piece hpiece
    rw [hconcat, hnow] at hnext
    exact (hstep done id rest hsplit piece hpiece).mp hnext
  · intro h done
    induction done using List.reverseRecOn with
    | nil =>
      intro rest _ piece _
      have hnone : renamed [] finalId = id := by
        funext name
        exact renamed_not_mem List.not_mem_nil
      rw [hnone]
      rfl
    | append_singleton done id ih =>
      intro rest hsplit piece hpiece
      rw [List.append_assoc, List.singleton_append] at hsplit
      rw [hconcat, ih (id :: rest) hsplit piece hpiece]
      exact (hstep done id rest hsplit piece hpiece).mpr (h done id rest hsplit piece hpiece)

theorem spared_of_apart (h : Apart allIntIds finalId pieces)
    (hnames : ∀ piece ∈ pieces, ∀ id ∈ namesOf piece, id ∈ allIntIds)
    {done rest : List String} {id : String}
    (hsplit : intermediate allIntIds finalId = done ++ id :: rest) :
    ∀ piece ∈ pieces, ∀ field ∈ piece, field.Spared id done finalId := by
  intro piece hpiece field hfield
  have hid : id ∈ intermediate allIntIds finalId := by simp [hsplit]
  cases field with
  | text bytes unquoted => exact h.texts id hid piece hpiece bytes (mem_textsOf hfield)
  | id other =>
    rw [Field.Spared]
    by_cases hreplaced : other ∈ done ∨ other = finalId
    · have hnow : renamed done finalId other = finalId := by
        unfold renamed
        rcases hreplaced with hmem | rfl
        · exact if_pos hmem
        · exact ite_self _
      rw [hnow]
      exact Or.inr (h.final id hid)
    · rw [not_or] at hreplaced
      have hother : other ∈ intermediate allIntIds finalId :=
        mem_intermediate.mpr ⟨hnames piece hpiece other (mem_namesOf.mpr hfield), hreplaced.2⟩
      rw [hsplit, List.mem_append, List.mem_cons] at hother
      rcases hother with hmem | heq | hmem
      · exact absurd hmem hreplaced.1
      · exact Or.inl heq
      · have horder := h.order
        rw [hsplit, List.pairwise_append, List.pairwise_cons] at horder
        rw [renamed_not_mem hreplaced.1]
        exact Or.inr (horder.2.1.1 other hmem)

theorem apart_of_spared (hdistinct : allIntIds.Nodup) (hfinal : finalId ∈ allIntIds)
    (hplain : ∀ id ∈ allIntIds, Plain id)
    (hplaces : ∀ id ∈ allIntIds, ∃ piece ∈ pieces, id ∈ namesOf piece)
    (h : ∀ done id rest, intermediate allIntIds finalId = done ++ id :: rest →
      ∀ piece ∈ pieces, ∀ field ∈ piece, field.Spared id done finalId) :
    Apart allIntIds finalId pieces where
  plain id hid := hplain id (mem_intermediate.mp hid).1
  plainFinal _ := hplain finalId hfinal
  order := by
    apply pairwise_of_splits
    intro done id rest hsplit later hlater
    have hmem : later ∈ intermediate allIntIds finalId := by simp [hsplit, hlater]
    have hnodup : (done ++ id :: rest).Nodup := hsplit ▸ hdistinct.filter _
    rw [List.nodup_append, List.nodup_cons] at hnodup
    obtain ⟨piece, hpiece, hfield⟩ := hplaces later (mem_intermediate.mp hmem).1
    have hspared := h done id rest hsplit piece hpiece _ (mem_namesOf.mp hfield)
    have hnew : later ∉ done := fun hdone =>
      hnodup.2.2 later hdone later (List.mem_cons_of_mem _ hlater) rfl
    rw [Field.Spared, renamed_not_mem hnew] at hspared
    exact hspared.resolve_left fun heq => hnodup.2.1.1 (heq ▸ hlater)
  final id hid := by
    obtain ⟨done, rest, hsplit⟩ := List.append_of_mem hid
    obtain ⟨piece, hpiece, hfield⟩ := hplaces finalId hfinal
    have hspared := h done id rest hsplit piece hpiece _ (mem_namesOf.mp hfield)
    have hnow : renamed done finalId finalId = finalId := ite_self _
    rw [Field.Spared, hnow] at hspared
    exact hspared.resolve_left (mem_intermediate.mp hid).2.symm
  texts id hid piece hpiece bytes hbytes := by
    obtain ⟨done, rest, hsplit⟩ := List.append_of_mem hid
    obtain ⟨field, hfield, htext⟩ := List.mem_filterMap.mp hbytes
    have hspared := h done id rest hsplit piece hpiece field hfield
    cases field with
    | text bytes' unquoted => exact Option.some.inj htext ▸ hspared
    | id other => exact absurd htext (by simp [Field.text?])

/-- With every other id replaced, all places have the final id. -/
theorem written_all (hnames : ∀ piece ∈ pieces, ∀ id ∈ namesOf piece, id ∈ allIntIds) :
    pieces.map (written (renamed (intermediate allIntIds finalId) finalId)) =
      pieces.map (written fun _ => finalId) := by
  apply List.map_congr_left
  intro piece hpiece
  unfold written
  apply congrArg [quote].intercalate
  apply List.map_congr_left
  intro field hfield
  cases field with
  | text bytes unquoted => rfl
  | id other =>
    have hother : renamed (intermediate allIntIds finalId) finalId other = finalId := by
      by_cases heq : other = finalId
      · rw [heq]
        exact ite_self _
      · exact renamed_mem
          (mem_intermediate.mpr ⟨hnames piece hpiece other (mem_namesOf.mpr hfield), heq⟩)
    rw [Field.bytes, Field.bytes, hother]

theorem not_exposed (h : Apart allIntIds finalId pieces) (hnonempty : ∀ id ∈ allIntIds, id ≠ "")
    {id : String} (hid : id ∈ intermediate allIntIds finalId) :
    ∀ piece ∈ pieces, ¬ bytesOf id <:+: written (fun _ => finalId) piece := by
  intro piece hpiece
  have hall := mem_intermediate.mp hid
  have hfinal := h.plainFinal (List.ne_nil_of_mem hid)
  have hword : bytesOf id ≠ [] := mt (bytesOf_eq_nil_iff id).mp (hnonempty id hall.1)
  have hsame : replaceAll (bytesOf id) (bytesOf finalId) (written (fun _ => finalId) piece) =
      written (fun _ => finalId) piece := by
    unfold written
    rw [replaceAll_intercalate (quote_not_mem (h.plain id hid)) hword, List.map_map]
    apply congrArg [quote].intercalate
    apply List.map_congr_left
    intro field hfield
    cases field with
    | text bytes unquoted =>
      exact replaceAll_of_absent hword (h.texts id hid piece hpiece bytes (mem_textsOf hfield))
    | id other =>
      rw [Function.comp_apply, Field.bytes, escape_plain hfinal]
      exact replaceAll_of_absent hword (h.final id hid)
  exact (replaceAll_eq_self_iff hword (mt bytesOf_inj.mp hall.2)).mp hsame

/-- **Ids that are apart leave only the final one.** And they are apart exactly if each of the
replacements finds its id in the places of that id and nowhere else. -/
theorem only_final_visible_iff
    (hwritten : buffer.pieces.map Prod.snd = pieces.map (written id))
    (hnames : ∀ piece ∈ pieces, ∀ id ∈ namesOf piece, id ∈ allIntIds)
    (hnonempty : ∀ id ∈ allIntIds, id ≠ "") (hdistinct : allIntIds.Nodup)
    (hfinal : finalId ∈ allIntIds) :
    (Apart allIntIds finalId pieces → OnlyFinalVisible buffer allIntIds finalId pieces) ∧
      ((∀ id ∈ allIntIds, Plain id) →
        (∀ id ∈ allIntIds, ∃ piece ∈ pieces, id ∈ namesOf piece) →
        (EachStepExact buffer allIntIds finalId pieces ↔ Apart allIntIds finalId pieces)) := by
  refine ⟨fun h => ⟨?_, fun id hid => not_exposed h hnonempty hid⟩, fun hplain hplaces => ?_⟩
  · intro τ χ lib ingress model
    have hsteps := (eachStepExact_iff_spared hwritten hnames hnonempty hdistinct h.plain
      h.plainFinal).mpr fun done id rest hsplit => spared_of_apart h hnames hsplit
    have hall := hsteps (intermediate allIntIds finalId) [] (List.append_nil _).symm
    rw [written_all hnames] at hall
    obtain ⟨replaced, hreplaced, hdata⟩ := Option.map_eq_some_iff.mp hall
    unfold captureAndTranslateSse
    have hfold : (allIntIds.filter (· ≠ finalId)).foldlM
        (fun buffer id => MemSseBuffer.substituteId buffer id finalId) buffer = some replaced :=
      hreplaced
    rw [hfold]
    show translateBufferedSseToClient lib ingress model replaced.drain = _
    rw [MemSseBuffer.drain_eq, hdata, List.flatMap_def]
  · have hspared := eachStepExact_iff_spared hwritten hnames hnonempty hdistinct
      (fun id hid => hplain id (mem_intermediate.mp hid).1) fun _ => hplain finalId hfinal
    rw [hspared]
    constructor
    · intro h
      exact apart_of_spared hdistinct hfinal hplain hplaces h
    · intro h done id rest hsplit
      exact spared_of_apart h hnames hsplit

end

/-! ## Pieces of a created and a completed event -/

def Field.ofText (text : String) : Field :=
  .text ((bytesOf text).filter (· ≠ quote)) (by simp)

def eventFields (type status id : String) : List Field :=
  [.ofText "event_type", .ofText ":", .ofText ("interaction." ++ type), .ofText ",",
    .ofText "interaction", .ofText ":\x7b", .ofText "id", .ofText ":", .id id, .ofText ",",
    .ofText "status", .ofText ":", .ofText status]

def pieceFields (id : String) : List Field :=
  .ofText "data: \x7b" :: eventFields "created" "in_progress" id ++
    .ofText "\x7d\x7d\n\ndata: \x7b" :: eventFields "completed" "completed" id ++
    [.ofText "\x7d\x7d\n\n"]

/-- The pieces as they are buffered. -/
def bufferedPieces (ids : List String) : MemSseBuffer :=
  bufferOf (ids.mapIdx fun i id => (i, written (fun name => name) (pieceFields id))) (by
    have hfst : (ids.mapIdx fun i id => (i, written (fun name => name) (pieceFields id))).map
        Prod.fst = List.range ids.length := by
      apply List.ext_getElem <;> simp
    rw [hfst]
    exact List.pairwise_lt_range)

theorem bufferedPieces_data (ids : List String) :
    (bufferedPieces ids).pieces.map Prod.snd = (ids.map pieceFields).map (written id) := by
  apply List.ext_getElem
  · simp [bufferedPieces, bufferOf]
  · intro i h h'
    simp [bufferedPieces, bufferOf]
    rfl

theorem plain_of_forall {id : String} (h : id.toList.all fun c =>
    Json.escapeChar c = String.ofList [c]) : Plain id := by
  intro c hc
  exact of_decide_eq_true (List.all_eq_true.mp h c hc)

theorem apart_two :
    Apart ["int-1", "int-2"] "int-2" [pieceFields "int-1", pieceFields "int-2"] where
  plain := by
    intro id hid
    rw [show intermediate ["int-1", "int-2"] "int-2" = ["int-1"] from rfl] at hid
    rw [List.mem_singleton.mp hid]
    exact plain_of_forall rfl
  plainFinal _ := plain_of_forall rfl
  order := List.pairwise_singleton _ _
  final := by decide +kernel
  texts := by decide +kernel

theorem only_final_visible_iff_two :
    OnlyFinalVisible (bufferedPieces ["int-1", "int-2"]) ["int-1", "int-2"] "int-2"
        [pieceFields "int-1", pieceFields "int-2"] ∧
      EachStepExact (bufferedPieces ["int-1", "int-2"]) ["int-1", "int-2"] "int-2"
        [pieceFields "int-1", pieceFields "int-2"] := by
  have hboth := only_final_visible_iff (bufferedPieces_data ["int-1", "int-2"])
    (by decide : ∀ piece ∈ [pieceFields "int-1", pieceFields "int-2"],
      ∀ id ∈ namesOf piece, id ∈ ["int-1", "int-2"])
    (by decide) (by decide) (by decide : "int-2" ∈ ["int-1", "int-2"])
  refine ⟨hboth.1 apart_two, (hboth.2 ?_ (by decide)).mpr apart_two⟩
  intro id hid
  rcases List.mem_pair.mp hid with rfl | rfl
  · exact plain_of_forall rfl
  · exact plain_of_forall rfl

def pieceTexts (id : String) : List (List Char) :=
  [interactionText "created" id "in_progress", interactionText "completed" id "completed"]

def pieceEvents (id : String) : List InteractionSseEvent :=
  [.interactionCreatedEvent (bareInteraction id "in_progress"),
    .interactionCompletedEvent (bareInteraction id "completed")]

/-- `serde_json::from_str` on the texts of two ids. -/
def twoIdsExternal : External Unit Unit where
  fromStr data := (pieceEvents "int-10" ++ pieceEvents "int-100")[
    (pieceTexts "int-10" ++ pieceTexts "int-100").idxOf data]?
  usageOf := crateUsage
  eventToString _ := none
  chunkToString _ := none
  newReverseStreamTranslator _ _ := ()
  processEvent _ _ := ((), [])

theorem parse_pieceTexts {id : String} (h : id = "int-10" ∨ id = "int-100") :
    (frames eventEnd (streamText (pieceTexts id))).2 = [] ∧
      parseEvents twoIdsExternal (streamText (pieceTexts id)) = pieceEvents id := by
  have hpayloads : ∀ id ∈ ["int-10", "int-100"],
      (frames eventEnd (streamText (pieceTexts id))).2 = [] ∧
        (splitAll eventEnd (streamText (pieceTexts id))).flatMap payloads = pieceTexts id := by
    decide +kernel
  have hindexes : (pieceTexts "int-10").map
        (pieceTexts "int-10" ++ pieceTexts "int-100").idxOf = [0, 1] ∧
      (pieceTexts "int-100").map
        (pieceTexts "int-10" ++ pieceTexts "int-100").idxOf = [2, 3] := by
    decide +kernel
  have hparse : ∀ id ∈ ["int-10", "int-100"],
      parseEvents twoIdsExternal (streamText (pieceTexts id)) =
        ((pieceTexts id).map (pieceTexts "int-10" ++ pieceTexts "int-100").idxOf).filterMap
          fun i => (pieceEvents "int-10" ++ pieceEvents "int-100")[i]? := by
    intro id hid
    unfold parseEvents
    rw [(hpayloads id hid).2, List.filterMap_map]
    rfl
  refine ⟨(hpayloads id (by simpa using h)).1, ?_⟩
  rw [hparse id (by simpa using h)]
  rcases h with rfl | rfl
  · rw [hindexes.1]
    rfl
  · rw [hindexes.2]
    rfl

/-- What a client is sent for pieces that have these two ids. -/
theorem translated_pieceTexts {ids : List String}
    (h : ∀ id ∈ ids, id = "int-10" ∨ id = "int-100") {bytes : List UInt8}
    (hbytes : bytes = encodeUtf8 (ids.flatMap fun id => streamText (pieceTexts id))) :
    translateBufferedSseToClient twoIdsExternal .anthropic "model" bytes =
      match translateEvents twoIdsExternal .anthropic "model" (ids.flatMap pieceEvents) with
      | none => .error .panicked
      | some sent => .ok sent := by
  have hparse : ∀ ids : List String, (∀ id ∈ ids, id = "int-10" ∨ id = "int-100") →
      parseEvents twoIdsExternal (ids.flatMap fun id => streamText (pieceTexts id)) =
        ids.flatMap pieceEvents := by
    intro ids h
    induction ids with
    | nil => rfl
    | cons id ids ih =>
      rw [List.forall_mem_cons] at h
      rw [List.flatMap_cons, List.flatMap_cons, parseEvents_append (parse_pieceTexts h.1).1,
        (parse_pieceTexts h.1).2, ih h.2]
  have hdecoded : fromUtf8 bytes = some (ids.flatMap fun id => streamText (pieceTexts id)) :=
    fromUtf8_eq_some_iff.mpr hbytes
  unfold translateBufferedSseToClient
  rw [hdecoded]
  simp only [hparse ids h]
  cases translateEvents twoIdsExternal .anthropic "model" (ids.flatMap pieceEvents) <;> rfl

/-- The second id is a part of the final one. -/
theorem only_final_not_always_visible :
    ¬ ∀ (buffer : MemSseBuffer) (allIntIds : List String) (finalId : String)
        (pieces : List (List Field)), buffer.pieces.map Prod.snd = pieces.map (written id) →
      (∀ piece ∈ pieces, ∀ id ∈ namesOf piece, id ∈ allIntIds) →
      (∀ id ∈ allIntIds, id ≠ "") → allIntIds.Nodup → finalId ∈ allIntIds →
      OnlyFinalVisible buffer allIntIds finalId pieces := by
  intro hall
  let ids := ["int-0", "int-1", "int-10"]
  have hvisible := hall (bufferedPieces ids) ids "int-10" (ids.map pieceFields)
    (bufferedPieces_data ids) (by decide) (by decide) (by decide) (by decide)
  have hsame := hvisible.1 Unit Unit twoIdsExternal .anthropic "model"
  have hideal : (ids.map pieceFields).flatMap (written fun _ => "int-10") =
      encodeUtf8 (["int-10", "int-10", "int-10"].flatMap fun id => streamText (pieceTexts id)) := by
    decide +kernel
  have hreplaced : ((bufferedPieces ids).pieces.map fun p => ["int-0", "int-1"].foldl
        (fun data id => replaceAll (bytesOf id) (bytesOf "int-10") data) p.2).flatten =
      encodeUtf8 (["int-100", "int-10", "int-100"].flatMap fun id => streamText (pieceTexts id)) := by
    decide +kernel
  have hfold := foldlM_substituteId "int-10" ["int-0", "int-1"] (bufferedPieces ids)
  rw [if_pos (Or.inr (by decide))] at hfold
  obtain ⟨replaced, hsubstituted, hdata⟩ := Option.map_eq_some_iff.mp hfold
  have hcapture : captureAndTranslateSse twoIdsExternal .anthropic "model" (bufferedPieces ids) ids
      "int-10" = translateBufferedSseToClient twoIdsExternal .anthropic "model" replaced.drain := by
    unfold captureAndTranslateSse
    rw [show ids.filter (· ≠ "int-10") = ["int-0", "int-1"] from rfl, hsubstituted]
  have hdrain : replaced.drain = encodeUtf8
      (["int-100", "int-10", "int-100"].flatMap fun id => streamText (pieceTexts id)) := by
    rw [MemSseBuffer.drain_eq, hdata, hreplaced]
  rw [hcapture, translated_pieceTexts (by decide) hdrain, translated_pieceTexts (by decide) hideal]
    at hsame
  have hsent := Except.ok.inj hsame
  have hfirst := Sent.event.inj (List.cons.inj hsent).1
  exact absurd (StreamEvent.messageStart.inj hfirst).1 (by decide)

end InfSplitter.Streams
