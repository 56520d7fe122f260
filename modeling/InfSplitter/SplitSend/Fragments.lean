import InfSplitter.Lib.Frames
import InfSplitter.SplitSend.Packing

/-!
# Which texts can be cut

`split_by_best_delimiter` cuts a text at the coarsest delimiter that occurs in it and cuts the parts
that are too long again at the finer ones. Parts that fit are joined, so all that can go wrong is a
part that does not fit and cannot be cut: a word, or a run of delimiters, of which nothing is left
when it is cut.

A run that is too long is kept in one piece. But the last piece of a part is cut once more when it
is too long, and then the run is gone. What is left of a text is therefore told by three things
(`Remains`): whether something that fits was kept, how many runs that do not fit come after it, and
whether anything else does not fit. `remains` reads that off the text part by part, and
`kinds_splitByBestDelimiter` says that it is what the pieces show.
-/

set_option autoImplicit false

namespace InfSplitter.SplitSend

open Lib

/-! ## Parts -/

theorem splitChars_eq {delim : List Char} (hd : delim ≠ []) (text : List Char) (skip : Nat)
    (part : List Char) :
    splitChars delim text skip part =
      (part ++ (splitAll delim (text.drop skip)).headD []) ::
        (splitAll delim (text.drop skip)).tail := by
  induction text generalizing skip part with
  | nil =>
    rw [List.drop_nil, splitAll_of_none (cutAt_nil hd), splitChars]
    simp
  | cons c cs ih =>
    cases skip with
    | succ skip =>
      rw [splitChars, ih]
      rfl
    | zero =>
      rw [splitChars, List.drop_zero]
      by_cases hp : delim <+: c :: cs
      · have hcut : cutAt delim (c :: cs) = some ([], (c :: cs).drop delim.length) := by
          rw [cutAt, if_pos hp]
        have hlen : delim.length = delim.length - 1 + 1 :=
          (Nat.succ_pred (by simpa using hd)).symm
        have hne : splitAll delim (cs.drop (delim.length - 1)) ≠ [] := by
          unfold splitAll
          simp
        rw [if_pos (List.isPrefixOf_iff_prefix.mpr hp), ih, splitAll_of_some hd hcut, hlen,
          List.drop_succ_cons]
        cases hs : splitAll delim (cs.drop (delim.length - 1)) with
        | nil => exact absurd hs hne
        | cons p ps => simp [hs]
      · rw [if_neg (fun h => hp (List.isPrefixOf_iff_prefix.mp h)), ih, List.drop_zero]
        cases hc : cutAt delim cs with
        | none =>
          have hcut : cutAt delim (c :: cs) = none := by
            rw [cutAt, if_neg hp, hc, Option.map_none]
          rw [splitAll_of_none hc, splitAll_of_none hcut]
          simp
        | some p =>
          have hcut : cutAt delim (c :: cs) = some (c :: p.1, p.2) := by
            rw [cutAt, if_neg hp, hc, Option.map_some]
          rw [splitAll_of_some hd hc, splitAll_of_some hd hcut]
          simp

theorem splitStr_eq {delim : String} (hd : delim ≠ "") (text : String) :
    splitStr text delim = (splitAll delim.toList text.toList).map String.ofList := by
  have hne : splitAll delim.toList text.toList ≠ [] := by
    unfold splitAll
    simp
  unfold splitStr
  rw [splitChars_eq (by simpa using hd), List.drop_zero, List.nil_append]
  cases hs : splitAll delim.toList text.toList with
  | nil => exact absurd hs hne
  | cons p ps => rfl

theorem splitStr_ne_nil {delim : String} (hd : delim ≠ "") (text : String) :
    splitStr text delim ≠ [] := by
  rw [splitStr_eq hd]
  simp [splitAll]

/-- The parts with the delimiter between them are the text. -/
theorem intercalate_splitStr {delim : String} (hd : delim ≠ "") (text : String) :
    delim.toList.intercalate ((splitStr text delim).map String.toList) = text.toList := by
  have hne : delim.toList ≠ [] := by simpa using hd
  rw [splitStr_eq hd, List.map_map]
  simpa [Function.comp_def] using intercalate_splitAll hne text.toList

/-- The piece is a stretch of the text. -/
def Within (piece text : String) : Prop := piece.toList <:+: text.toList

theorem Within.trans {piece part text : String} (h : Within piece part) (h' : Within part text) :
    Within piece text := List.IsInfix.trans h h'

theorem of_mem_splitStr {delim text part : String} (hd : delim ≠ "")
    (h : part ∈ splitStr text delim) : ¬ Within delim part ∧ Within part text := by
  rw [splitStr_eq hd] at h
  obtain ⟨cs, hcs, rfl⟩ := List.mem_map.mp h
  unfold Within
  rw [String.toList_ofList]
  exact of_mem_splitAll (by simpa using hd) hcs

theorem length_splitStr_eq_one_iff {delim : String} (hd : delim ≠ "") (text : String) :
    (splitStr text delim).length = 1 ↔ ¬ Within delim text := by
  rw [splitStr_eq hd, List.length_map]
  exact length_splitAll_eq_one_iff (by simpa using hd)

theorem splitByBestDelimiter_of_not_within {delim text : String} (hd : delim ≠ "")
    (h : ¬ Within delim text) (room : Nat) (rest : List String) :
    splitByBestDelimiter room (delim :: rest) text = splitByBestDelimiter room rest text := by
  rw [splitByBestDelimiter]
  exact if_pos ((length_splitStr_eq_one_iff hd text).mpr h)

/-! ## What is left of a text -/

/-- What is left when a text is cut: something that does not fit and stays, or pieces that fit, if
any, and after them the pieces that are too long and come to nothing when they are cut again. -/
inductive Remains
  | tooLong
  | left (kept : Bool) (loose : Nat)
deriving DecidableEq, Repr

namespace Remains

def nothing : Remains := left false 0

/-- Pieces that all fit, and at least one. -/
def fitting : Remains := left true 0

/-- A piece that fits behind a loose one makes that one stay. -/
def append : Remains → Remains → Remains
  | left kept loose, left false loose' => left kept (loose + loose')
  | left _ loose, left true loose' => if loose = 0 then left true loose' else tooLong
  | _, _ => tooLong

instance : Append Remains := ⟨append⟩

/-- What a part that is too long contributes, when this is left of it: the part itself, if nothing
is, and otherwise all but the last loose end. -/
def ofLong : Remains → Remains
  | tooLong => tooLong
  | left false 0 => left false 1
  | left kept loose => left kept (loose - 1)

def concat (l : List Remains) : Remains := l.foldr (· ++ ·) nothing

@[simp] theorem tooLong_append (x : Remains) : tooLong ++ x = tooLong := by
  cases x <;> rfl

@[simp] theorem append_tooLong (x : Remains) : x ++ tooLong = tooLong := by
  cases x <;> rfl

@[simp] theorem append_nothing (x : Remains) : x ++ nothing = x := by
  cases x <;> rfl

@[simp] theorem nothing_append (x : Remains) : nothing ++ x = x := by
  cases x with
  | tooLong => rfl
  | left kept loose =>
    cases kept with
    | true => rfl
    | false =>
      show left false (0 + loose) = _
      rw [Nat.zero_add]

theorem left_append_left (kept kept' : Bool) (loose loose' : Nat) :
    left kept loose ++ left kept' loose' =
      if kept' then if loose = 0 then left true loose' else tooLong
      else left kept (loose + loose') := by
  cases kept' <;> rfl

theorem append_assoc (x y z : Remains) : x ++ y ++ z = x ++ (y ++ z) := by
  cases x with
  | tooLong => simp
  | left kept loose =>
    cases y with
    | tooLong => simp
    | left kept' loose' =>
      cases z with
      | tooLong => simp
      | left kept'' loose'' =>
        cases kept' <;> cases kept'' <;> by_cases h : loose = 0 <;> by_cases h' : loose' = 0 <;>
          simp [left_append_left, h, h', Nat.add_assoc]

@[simp] theorem concat_cons (x : Remains) (l : List Remains) : concat (x :: l) = x ++ concat l :=
  rfl

theorem concat_append (l l' : List Remains) : concat (l ++ l') = concat l ++ concat l' := by
  induction l with
  | nil => exact (nothing_append _).symm
  | cons x l ih => rw [List.cons_append, concat_cons, concat_cons, ih, append_assoc]

end Remains

/-- What is left of a text that is too long. -/
def remains (room : Nat) : List String → String → Remains
  | [], _ => .tooLong
  | delim :: rest, text =>
    let parts := splitStr text delim
    if parts.length = 1 then remains room rest text
    else
      .concat (parts.map fun part =>
        if part = "" then .nothing
        else if part.utf8ByteSize ≤ room then .fitting
        else (remains room rest part).ofLong)

/-! ## What the pieces show -/

section
variable {finer finer' : String → List String} {room : Nat} {delim : String}

/-- What one piece shows, where `finer` cuts it again. -/
def kind (finer : String → List String) (room : Nat) (piece : String) : Remains :=
  if piece.utf8ByteSize ≤ room then .fitting
  else if finer piece = [] then .left false 1
  else .tooLong

def kinds (finer : String → List String) (room : Nat) (pieces : List String) : Remains :=
  .concat (pieces.map (kind finer room))

theorem kinds_append (l l' : List String) :
    kinds finer room (l ++ l') = kinds finer room l ++ kinds finer room l' := by
  unfold kinds
  rw [List.map_append, Remains.concat_append]

theorem kinds_singleton (piece : String) :
    kinds finer room [piece] = kind finer room piece := Remains.append_nothing _

theorem kinds_congr {pieces : List String}
    (h : ∀ piece ∈ pieces, room < piece.utf8ByteSize → finer piece = finer' piece) :
    kinds finer room pieces = kinds finer' room pieces := by
  unfold kinds
  refine congrArg _ (List.map_congr_left fun piece hpiece => ?_)
  unfold kind
  by_cases hfit : piece.utf8ByteSize ≤ room
  · rw [if_pos hfit, if_pos hfit]
  · rw [h piece hpiece (Nat.lt_of_not_le hfit)]

theorem kinds_eq_nothing_iff (pieces : List String) :
    kinds finer room pieces = .nothing ↔ pieces = [] := by
  refine ⟨fun h => ?_, fun h => h ▸ rfl⟩
  cases pieces with
  | nil => rfl
  | cons piece rest =>
    rw [kinds, List.map_cons, Remains.concat_cons] at h
    change kind finer room piece ++ kinds finer room rest = _ at h
    unfold kind at h
    cases hr : kinds finer room rest with
    | tooLong => simp [hr, Remains.nothing] at h
    | left kept loose =>
      rw [hr] at h
      split_ifs at h <;> cases kept <;>
        simp [Remains.left_append_left, Remains.nothing, Remains.fitting] at h

/-- The pieces are good exactly if there are some and all of them fit. -/
theorem kinds_eq_fitting_iff (pieces : List String) :
    kinds finer room pieces = .fitting ↔
      pieces ≠ [] ∧ ∀ piece ∈ pieces, piece.utf8ByteSize ≤ room := by
  induction pieces with
  | nil => simp [kinds, Remains.concat, Remains.nothing, Remains.fitting]
  | cons piece rest ih =>
    have hstep : kinds finer room (piece :: rest) = .fitting ↔
        piece.utf8ByteSize ≤ room ∧
          (kinds finer room rest = .nothing ∨ kinds finer room rest = .fitting) := by
      rw [kinds, List.map_cons, Remains.concat_cons]
      change kind finer room piece ++ kinds finer room rest = _ ↔ _
      unfold kind
      cases kinds finer room rest with
      | tooLong => simp [Remains.nothing, Remains.fitting]
      | left kept loose =>
        split_ifs <;> cases kept <;>
          simp_all [Remains.left_append_left, Remains.nothing, Remains.fitting]
    rw [hstep, kinds_eq_nothing_iff, ih]
    cases rest with
    | nil => simp
    | cons p ps => simp

/-! ## The loop over the parts -/

/-- The current piece is finished. -/
def flush (finer : String → List String) (room : Nat) (result : List String) (current : String) :
    List String :=
  if current.isEmpty then result
  else if room < current.utf8ByteSize then result ++ finer current
  else result ++ [current]

theorem joinParts_nil (result : List String) (current : String) :
    joinParts finer room delim [] result current = flush finer room result current := rfl

/-- The piece with the next part. -/
def candidate (delim current part : String) : String :=
  if current.isEmpty then part else current ++ delim ++ part

theorem joinParts_fit {part : String} {rest result : List String} {current : String}
    (h : (candidate delim current part).utf8ByteSize ≤ room) :
    joinParts finer room delim (part :: rest) result current =
      joinParts finer room delim rest result (candidate delim current part) := by
  rw [joinParts]
  exact if_pos h

theorem joinParts_next {part : String} {rest result : List String} {current : String}
    (h : ¬ (candidate delim current part).utf8ByteSize ≤ room) (hp : part.utf8ByteSize ≤ room) :
    joinParts finer room delim (part :: rest) result current =
      joinParts finer room delim rest (flush finer room result current) part := by
  rw [joinParts]
  exact (if_neg h).trans (if_pos hp)

theorem joinParts_long {part : String} {rest result : List String} {current : String}
    (hp : room < part.utf8ByteSize) :
    joinParts finer room delim (part :: rest) result current =
      match (finer part).getLast? with
      | none =>
        joinParts finer room delim rest (flush finer room result current ++ [part]) ""
      | some last =>
        joinParts finer room delim rest
          (flush finer room result current ++ (finer part).dropLast) last := by
  have h : ¬ (candidate delim current part).utf8ByteSize ≤ room := by
    unfold candidate
    split_ifs
    · omega
    · rw [String.utf8ByteSize_append]
      omega
  rw [joinParts]
  exact (if_neg h).trans (if_neg (Nat.not_le.mpr hp))

/-- A piece that is too long is of the kind `P`, and cutting it again makes nothing of it or leaves
it as it is. -/
def Spent (finer : String → List String) (room : Nat) (P : String → Prop) (piece : String) :
    Prop :=
  piece ≠ "" ∧ (room < piece.utf8ByteSize → P piece ∧ (finer piece = [] ∨ finer piece = [piece]))

section
variable {P : String → Prop} {parts result : List String} {current : String}

theorem spent_of_fits {piece : String} (hne : piece ≠ "") (h : piece.utf8ByteSize ≤ room) :
    Spent finer room P piece := ⟨hne, fun hlong => absurd h (Nat.not_le.mpr hlong)⟩

theorem flush_spent (hresult : ∀ piece ∈ result, Spent finer room P piece)
    (hcurrent : current ≠ "" → Spent finer room P current) :
    ∀ piece ∈ flush finer room result current, Spent finer room P piece := by
  unfold flush
  by_cases hne : current = ""
  · rw [if_pos (by simp [hne])]
    exact hresult
  rw [if_neg (by simpa using hne)]
  have hset := hcurrent hne
  by_cases hlong : room < current.utf8ByteSize
  · rw [if_pos hlong]
    intro piece hpiece
    rcases List.mem_append.mp hpiece with h | h
    · exact hresult piece h
    · rcases (hset.2 hlong).2 with hfiner | hfiner <;> rw [hfiner] at h
      · exact absurd h (by simp)
      · rw [List.mem_singleton.mp h]
        exact hset
  · rw [if_neg hlong]
    intro piece hpiece
    rcases List.mem_append.mp hpiece with h | h
    · exact hresult piece h
    · rw [List.mem_singleton.mp h]
      exact hset

theorem joinParts_spent
    (hparts : ∀ part ∈ parts, room < part.utf8ByteSize →
      P part ∧ ∀ piece ∈ finer part, Spent finer room P piece)
    (hresult : ∀ piece ∈ result, Spent finer room P piece)
    (hcurrent : current ≠ "" → Spent finer room P current) :
    ∀ piece ∈ joinParts finer room delim parts result current, Spent finer room P piece := by
  induction parts generalizing result current with
  | nil =>
    rw [joinParts_nil]
    exact flush_spent hresult hcurrent
  | cons part rest ih =>
    have hrest : ∀ part ∈ rest, room < part.utf8ByteSize →
        P part ∧ ∀ piece ∈ finer part, Spent finer room P piece :=
      fun p hp => hparts p (List.mem_cons_of_mem part hp)
    have hflush := flush_spent hresult hcurrent
    by_cases hp : part.utf8ByteSize ≤ room
    · by_cases hc : (candidate delim current part).utf8ByteSize ≤ room
      · rw [joinParts_fit hc]
        exact ih hrest hresult fun hne => spent_of_fits hne hc
      · rw [joinParts_next hc hp]
        exact ih hrest hflush fun hne => spent_of_fits hne hp
    · have hlong := Nat.lt_of_not_le hp
      obtain ⟨hP, hfiner⟩ := hparts part List.mem_cons_self hlong
      rw [joinParts_long hlong]
      cases hlast : (finer part).getLast? with
      | none =>
        have hnil := List.getLast?_eq_none_iff.mp hlast
        refine ih hrest (fun piece hpiece => ?_) fun hne => absurd rfl hne
        rcases List.mem_append.mp hpiece with h | h
        · exact hflush piece h
        · rw [List.mem_singleton.mp h]
          refine ⟨?_, fun _ => ⟨hP, Or.inl hnil⟩⟩
          intro hempty
          rw [hempty] at hlong
          exact absurd hlong (by simp)
      | some last =>
        refine ih hrest (fun piece hpiece => ?_) fun _ => hfiner last (List.mem_of_getLast? hlast)
        rcases List.mem_append.mp hpiece with h | h
        · exact hflush piece h
        · exact hfiner piece (List.dropLast_subset _ h)

/-! ## Counting the loose ends -/

/-- What the current piece shows once it is finished. -/
def pending (finer : String → List String) (room : Nat) (current : String) : Remains :=
  if current = "" then .nothing
  else if current.utf8ByteSize ≤ room then .fitting
  else if finer current = [] then .nothing
  else .tooLong

/-- What a part contributes. -/
def share (finer : String → List String) (room : Nat) (part : String) : Remains :=
  if part = "" then .nothing
  else if part.utf8ByteSize ≤ room then .fitting
  else (kinds finer room (finer part)).ofLong

theorem pending_empty : pending finer room "" = .nothing := if_pos rfl

theorem pending_eq_share {part : String} (h : part.utf8ByteSize ≤ room) :
    pending finer room part = share finer room part := by
  unfold pending share
  rw [if_pos h, if_pos h]

theorem pending_candidate {part : String}
    (h : (candidate delim current part).utf8ByteSize ≤ room) :
    pending finer room (candidate delim current part) =
      pending finer room current ++ share finer room part := by
  by_cases hne : current = ""
  · have hcand : candidate delim current part = part := if_pos (by simp [hne])
    rw [hcand] at h ⊢
    rw [pending_eq_share h, pending, if_pos hne, Remains.nothing_append]
  · have hcand : candidate delim current part = current ++ delim ++ part :=
      if_neg (by simpa using hne)
    rw [hcand] at h ⊢
    have hlen := h
    rw [String.utf8ByteSize_append, String.utf8ByteSize_append] at hlen
    have hcurrent : pending finer room current = .fitting := by
      unfold pending
      rw [if_neg hne, if_pos (by omega)]
    have hwhole : pending finer room (current ++ delim ++ part) = .fitting := by
      unfold pending
      rw [if_neg (by simp [hne]), if_pos h]
    rw [hcurrent, hwhole]
    unfold share
    split_ifs
    · rfl
    · rfl
    · omega

theorem kinds_flush (hcurrent : current ≠ "" → Spent finer room P current) :
    kinds finer room (flush finer room result current) =
      kinds finer room result ++ pending finer room current := by
  unfold flush pending
  by_cases hne : current = ""
  · rw [if_pos (by simp [hne]), if_pos hne, Remains.append_nothing]
  rw [if_neg (by simpa using hne), if_neg hne]
  by_cases hfit : current.utf8ByteSize ≤ room
  · rw [if_neg (Nat.not_lt.mpr hfit), if_pos hfit, kinds_append, kinds_singleton, kind,
      if_pos hfit]
  · have hlong := Nat.lt_of_not_le hfit
    rw [if_pos hlong, if_neg hfit, kinds_append]
    rcases ((hcurrent hne).2 hlong).2 with hfiner | hfiner
    · rw [if_pos hfiner, hfiner]
      rfl
    · have hcut : finer current ≠ [] := by simp [hfiner]
      rw [if_neg hcut, hfiner, kinds_singleton, kind, if_neg hfit, if_neg hcut]

/-- Of a part that is cut again the last piece is still pending, and that is where a loose end is
lost. -/
theorem kinds_init {init : List String} {last : String} (hlast : last ≠ "") :
    (kinds finer room (init ++ [last])).ofLong =
      kinds finer room init ++ pending finer room last := by
  rw [kinds_append, kinds_singleton]
  unfold kind pending
  rw [if_neg hlast]
  cases kinds finer room init with
  | tooLong => simp [Remains.ofLong]
  | left kept loose =>
    split_ifs
    · cases loose <;> simp [Remains.fitting, Remains.left_append_left, Remains.ofLong]
    · cases kept <;> simp [Remains.left_append_left, Remains.ofLong]
    · simp [Remains.ofLong]

theorem kinds_joinParts
    (hparts : ∀ part ∈ parts, room < part.utf8ByteSize →
      P part ∧ ∀ piece ∈ finer part, Spent finer room P piece)
    (hcurrent : current ≠ "" → Spent finer room P current) :
    kinds finer room (joinParts finer room delim parts result current) =
      kinds finer room result ++ pending finer room current ++
        .concat (parts.map (share finer room)) := by
  induction parts generalizing result current with
  | nil =>
    rw [joinParts_nil, kinds_flush hcurrent]
    exact (Remains.append_nothing _).symm
  | cons part rest ih =>
    have hrest : ∀ part ∈ rest, room < part.utf8ByteSize →
        P part ∧ ∀ piece ∈ finer part, Spent finer room P piece :=
      fun p hp => hparts p (List.mem_cons_of_mem part hp)
    rw [List.map_cons, Remains.concat_cons]
    by_cases hp : part.utf8ByteSize ≤ room
    · by_cases hc : (candidate delim current part).utf8ByteSize ≤ room
      · rw [joinParts_fit hc, ih hrest fun hne => spent_of_fits hne hc, pending_candidate hc]
        simp only [Remains.append_assoc]
      · rw [joinParts_next hc hp, ih hrest fun hne => spent_of_fits hne hp,
          kinds_flush hcurrent, pending_eq_share hp]
        simp only [Remains.append_assoc]
    · have hlong := Nat.lt_of_not_le hp
      have hne : part ≠ "" := by
        rintro rfl
        exact absurd hlong (by simp)
      have hshare : share finer room part = (kinds finer room (finer part)).ofLong := by
        unfold share
        rw [if_neg hne, if_neg hp]
      obtain ⟨hP, hfiner⟩ := hparts part List.mem_cons_self hlong
      rw [joinParts_long hlong, hshare]
      cases hlast : (finer part).getLast? with
      | none =>
        have hnil := List.getLast?_eq_none_iff.mp hlast
        have hkind : kind finer room part = .left false 1 := by
          unfold kind
          rw [if_neg hp, if_pos hnil]
        simp only
        rw [ih hrest fun hne => absurd rfl hne, kinds_append, kinds_flush hcurrent,
          kinds_singleton, hkind, hnil, pending_empty, Remains.append_nothing]
        simp only [Remains.append_assoc]
        rfl
      | some last =>
        have hset := hfiner last (List.mem_of_getLast? hlast)
        obtain ⟨init, hinit⟩ := List.getLast?_eq_some_iff.mp hlast
        simp only
        rw [ih hrest fun _ => hset, kinds_append, kinds_flush hcurrent, hinit,
          List.dropLast_concat, kinds_init hset.1]
        simp only [Remains.append_assoc]

end

end

/-! ## All delimiters -/

section
variable {room : Nat} {ds : List String}

/-- Every piece that is too long is a stretch of the text. Cut again it comes to nothing or stays
as it is. -/
theorem splitByBestDelimiter_spent (hds : ∀ delim ∈ ds, delim ≠ "") {text : String}
    (hne : text ≠ "") :
    ∀ piece ∈ splitByBestDelimiter room ds text,
      Spent (splitByBestDelimiter room ds) room (Within · text) piece := by
  induction ds generalizing text with
  | nil =>
    intro piece hpiece
    rw [List.mem_singleton.mp hpiece]
    exact ⟨hne, fun _ => ⟨List.infix_refl _, Or.inr rfl⟩⟩
  | cons delim rest ih =>
    have hd := hds delim List.mem_cons_self
    have hrest : ∀ delim ∈ rest, delim ≠ "" := fun d h => hds d (List.mem_cons_of_mem delim h)
    -- what has no `delim` in it is cut at the other delimiters
    have hlift : ∀ piece, Spent (splitByBestDelimiter room rest) room
        (fun p => ¬ Within delim p ∧ Within p text) piece →
        Spent (splitByBestDelimiter room (delim :: rest)) room (Within · text) piece := by
      intro piece hset
      refine ⟨hset.1, fun hlong => ?_⟩
      obtain ⟨⟨hfree, hin⟩, hcut⟩ := hset.2 hlong
      rw [splitByBestDelimiter_of_not_within hd hfree]
      exact ⟨hin, hcut⟩
    have hsub : ∀ part, ¬ Within delim part → Within part text → part ≠ "" →
        ∀ piece ∈ splitByBestDelimiter room rest part,
          Spent (splitByBestDelimiter room rest) room
            (fun p => ¬ Within delim p ∧ Within p text) piece := by
      intro part hfree hin hne piece hpiece
      have hset := ih hrest hne piece hpiece
      refine ⟨hset.1, fun hlong => ?_⟩
      obtain ⟨hwithin, hcut⟩ := hset.2 hlong
      exact ⟨⟨fun h => hfree (h.trans hwithin), hwithin.trans hin⟩, hcut⟩
    intro piece hpiece
    apply hlift
    by_cases hfree : Within delim text
    · rw [splitByBestDelimiter] at hpiece
      have hparts : ¬ (splitStr text delim).length = 1 := fun h =>
        (length_splitStr_eq_one_iff hd text).mp h hfree
      simp only [if_neg hparts] at hpiece
      refine joinParts_spent (fun part hpart hlong => ?_) (fun _ h => absurd h (by simp))
        (fun h => absurd rfl h) piece hpiece
      have hfree := of_mem_splitStr hd hpart
      refine ⟨hfree, hsub part hfree.1 hfree.2 ?_⟩
      rintro rfl
      exact absurd hlong (by simp)
    · rw [splitByBestDelimiter_of_not_within hd hfree] at hpiece
      exact hsub text hfree (List.infix_refl _) hne piece hpiece

/-- **What is left of a text is what the pieces of it show.** -/
theorem kinds_splitByBestDelimiter (hds : ∀ delim ∈ ds, delim ≠ "") {text : String}
    (hlong : room < text.utf8ByteSize) :
    kinds (splitByBestDelimiter room ds) room (splitByBestDelimiter room ds text) =
      remains room ds text := by
  induction ds generalizing text with
  | nil =>
    show kinds _ room [text] = _
    rw [kinds_singleton, kind, if_neg (Nat.not_le.mpr hlong)]
    exact if_neg (List.cons_ne_nil text [])
  | cons delim rest ih =>
    have hd := hds delim List.mem_cons_self
    have hrest : ∀ delim ∈ rest, delim ≠ "" := fun d h => hds d (List.mem_cons_of_mem delim h)
    have hne : text ≠ "" := by
      rintro rfl
      exact absurd hlong (by simp)
    rw [remains]
    by_cases hin : Within delim text
    · have hparts : ¬ (splitStr text delim).length = 1 := fun h =>
        (length_splitStr_eq_one_iff hd text).mp h hin
      have hspent : ∀ part ∈ splitStr text delim, room < part.utf8ByteSize →
          ¬ Within delim part ∧ ∀ piece ∈ splitByBestDelimiter room rest part,
            Spent (splitByBestDelimiter room rest) room (fun p => ¬ Within delim p) piece := by
        intro part hpart hlong
        have hfree := (of_mem_splitStr hd hpart).1
        refine ⟨hfree, fun piece hpiece => ?_⟩
        have hne : part ≠ "" := by
          rintro rfl
          exact absurd hlong (by simp)
        have hset := splitByBestDelimiter_spent hrest hne piece hpiece
        refine ⟨hset.1, fun hlong => ?_⟩
        obtain ⟨hwithin, hcut⟩ := hset.2 hlong
        exact ⟨fun h => hfree (h.trans hwithin), hcut⟩
      have hcut : splitByBestDelimiter room (delim :: rest) text =
          joinParts (splitByBestDelimiter room rest) room delim (splitStr text delim) [] "" := by
        rw [splitByBestDelimiter]
        exact if_neg hparts
      have hcoarse : ∀ piece ∈ joinParts (splitByBestDelimiter room rest) room delim
          (splitStr text delim) [] "", room < piece.utf8ByteSize →
          splitByBestDelimiter room (delim :: rest) piece =
            splitByBestDelimiter room rest piece := by
        intro piece hpiece hlong
        have hset := joinParts_spent hspent (fun _ h => absurd h (by simp))
          (fun h => absurd rfl h) piece hpiece
        exact splitByBestDelimiter_of_not_within hd (hset.2 hlong).1 room rest
      simp only [if_neg hparts]
      rw [hcut, kinds_congr hcoarse, kinds_joinParts hspent fun h => absurd rfl h]
      show Remains.nothing ++ Remains.nothing ++ _ = _
      rw [Remains.append_nothing, Remains.nothing_append]
      refine congrArg _ (List.map_congr_left fun part _ => ?_)
      unfold share
      by_cases hempty : part = ""
      · rw [if_pos hempty, if_pos hempty]
      by_cases hfit : part.utf8ByteSize ≤ room
      · rw [if_neg hempty, if_neg hempty, if_pos hfit, if_pos hfit]
      · rw [if_neg hempty, if_neg hempty, if_neg hfit, if_neg hfit,
          ih hrest (Nat.lt_of_not_le hfit)]
    · have hcut := splitByBestDelimiter_of_not_within hd hin room rest
      simp only [if_pos ((length_splitStr_eq_one_iff hd text).mpr hin)]
      rw [hcut, ← ih hrest hlong]
      apply kinds_congr
      intro piece hpiece hlong
      have hwithin := ((splitByBestDelimiter_spent hrest hne piece hpiece).2 hlong).1
      exact splitByBestDelimiter_of_not_within hd (fun h => hin (h.trans hwithin)) room rest

end

/-- The text fits into the room that is left, or can be cut so that nothing is left that does
not. -/
def Cuttable (room : Nat) (text : String) : Prop :=
  0 < room ∧ (text.utf8ByteSize ≤ room ∨ remains room delimiters text = .fitting)

instance (room : Nat) (text : String) : Decidable (Cuttable room text) :=
  inferInstanceAs (Decidable (_ ∧ _))

/-- **A text is cut exactly if there is room, and it fits or comes out even.** -/
theorem splitTextForLimit_ok_iff (text : String) (limit overhead : Nat) :
    (∃ parts, splitTextForLimit text limit overhead = .ok parts) ↔
      Cuttable (limit - overhead) text := by
  have hds : ∀ delim ∈ delimiters, delim ≠ "" := by decide
  unfold splitTextForLimit Cuttable
  simp only
  by_cases hroom : limit - overhead = 0
  · simp [hroom]
  rw [if_neg hroom, and_iff_right (Nat.pos_of_ne_zero hroom)]
  by_cases hfit : text.utf8ByteSize ≤ limit - overhead
  · simp [hfit]
  rw [if_neg hfit, or_iff_right hfit, ← kinds_splitByBestDelimiter hds (Nat.lt_of_not_le hfit),
    kinds_eq_fitting_iff]
  generalize splitByBestDelimiter (limit - overhead) delimiters text = pieces
  by_cases hbad : pieces.isEmpty ∨ pieces.any fun c => limit - overhead < c.utf8ByteSize
  · rw [if_pos hbad]
    refine iff_of_false (fun ⟨_, h⟩ => by simp at h) fun ⟨hne, hall⟩ => ?_
    rcases hbad with hempty | hany
    · exact hne (List.isEmpty_iff.mp hempty)
    · obtain ⟨piece, hpiece, hlong⟩ := List.any_eq_true.mp hany
      exact absurd (hall piece hpiece) (Nat.not_le.mpr (by simpa using hlong))
  · rw [if_neg hbad]
    refine iff_of_true ⟨pieces, rfl⟩ ⟨fun h => hbad (Or.inl (by simp [h])), ?_⟩
    intro piece hpiece
    by_contra hlong
    exact hbad (Or.inr (List.any_eq_true.mpr ⟨piece, hpiece, by simpa using hlong⟩))

end InfSplitter.SplitSend
