import InfSplitter.SplitSend.Measured

/-!
# Requests that leave no room

For each thing `IdsFit` asks for there is a request, alike in all it compares, that is sent over the
limit if it is not the case. Its contents, or the words of its system instruction, are made up so
that each piece is as large as its measure allows: a single content that takes the whole limit, many
contents of which no two fit together, many words of which each fills the room for a fragment.

So `IdsFit` is the exact condition for the requests that are alike.
-/

set_option autoImplicit false

namespace InfSplitter.SplitSend

open Session Interactions Json Lib

/-- An upstream with these answers, and no batch in flight. -/
def answering (answers : Nat → Answer) : Environment := { answersWith "" with answers := answers }

/-- A text without escapes. -/
def plainText (n : Nat) : String := String.ofList (List.replicate n 'x')

/-- Whatever is sent for a request that is alike, of any contents and under any limit, is within its
limit. -/
def AlikeWithinLimit (r : SplitRequest) (answers : Nat → Answer) : Prop :=
  ∀ r' env store, Alike r r' → r'.dropFields = [] → env.answers = answers →
    ∀ body ∈ (handleSplitSend r' env (Sending.ofStore store)).1.sent,
      body.toVec.length ≤ r'.limit

theorem AlikeWithinLimit.withinLimit {r r' : SplitRequest} {answers : Nat → Answer}
    (h : AlikeWithinLimit r answers) (alike : Alike r r') (hdf : r'.dropFields = []) :
    WithinLimit r' (answering answers) :=
  (sent_within_limit_iff hdf (answering answers) StoreV2.new).mp (h r' _ _ alike hdf rfl)

/-! ## Contents -/

theorem size_content (text : String) :
    (Content.toJson ⟨text⟩).size = (Content.toJson ⟨""⟩).size + escapedSize text := by
  have hempty : escapedSize "" = 0 := rfl
  simp only [Content.toJson, size_obj, List.map_cons, List.map_nil, List.sum_cons, List.sum_nil,
    List.length_cons, memberSize, size_str, hempty]
  omega

theorem baseSize_eq (model : String) (contents : List Content) :
    baseSize model contents = baseSize model [] +
      ((contents.map Content.toJson).map Json.size).sum + (contents.length - 1) := by
  unfold baseSize
  rw [bodySize_eq, bodySize_eq]
  simp [buildChunkRequest, memberSize, size_arr]
  omega

theorem baseSize_single (model : String) (n : Nat) :
    baseSize model [⟨plainText n⟩] = baseSize model [⟨""⟩] + n := by
  rw [baseSize_eq, baseSize_eq model [⟨""⟩]]
  simp only [List.map_cons, List.map_nil, List.sum_cons, List.sum_nil, List.length_cons,
    List.length_nil, size_content (plainText n)]
  rw [show escapedSize (plainText n) = n from escapedSize_replicate n]
  omega

theorem baseSize_pair (model : String) (c : Content) (n : Nat) :
    baseSize model [c] + n < baseSize model [c, ⟨plainText n⟩] := by
  rw [baseSize_eq, baseSize_eq model [c, _]]
  simp only [List.map_cons, List.map_nil, List.sum_cons, List.sum_nil, List.length_cons,
    List.length_nil, size_content (plainText n)]
  rw [show escapedSize (plainText n) = n from escapedSize_replicate n]
  omega

section
variable {r r' : SplitRequest} {answers : Nat → Answer}

theorem AlikeWithinLimit.contentWithinLimit (h : AlikeWithinLimit r answers) (alike : Alike r r')
    (hdf : r'.dropFields = []) {chunks : List (List Content)} (hne : chunks ≠ [])
    (hpack : r'.pack = .ok chunks) : ContentWithinLimit r' (answering answers) chunks := by
  have hwithin := h.withinLimit alike hdf chunks hpack
  cases hsplit : r'.systemSplit chunks with
  | some s => exact absurd (chunks_of_systemSplit hpack hsplit).1 hne
  | none =>
    rw [hsplit] at hwithin
    exact hwithin rfl

/-- One empty content under a limit that it just meets. -/
def single (r : SplitRequest) : SplitRequest :=
  { r with
    contents := [⟨""⟩], limit := bodySize (buildPackBody r.firstEnvelope [⟨""⟩])
    dropFields := [] }

theorem pack_single (r : SplitRequest) : (single r).pack = .ok [[⟨""⟩]] := by
  rw [pack_ok_iff_fill]
  have hfits : fitsUnder (single r).firstEnvelope (single r).limit ([] ++ [⟨""⟩]) = true :=
    fitsUnder_iff.mpr (Nat.le_refl _)
  exact fill_fits hfits

theorem AlikeWithinLimit.first (h : AlikeWithinLimit r answers) {prev : String}
    (hprev : r.params.previousInteractionId = some prev) :
    idCost (some prev) ≤
      toolsCost r.params + systemCost r.params.systemInstruction + streamGain r.stream := by
  have alike : Alike r (single r) := ⟨rfl, rfl, rfl, rfl, rfl, SystemAlike.refl _⟩
  have hwithin := h.contentWithinLimit alike rfl (List.cons_ne_nil _ _) (pack_single r)
  have hfits := (fitsAfter_iff _ _ _).mp (hwithin.first [⟨""⟩] prev rfl hprev)
  have hlimit := size_firstEnvelope r [⟨""⟩]
  simp only [single] at hfits
  omega

/-- The size of a content of which the limit leaves no two together, when the ids take up `ids`. -/
def laterSize (r : SplitRequest) (ids : Nat) : Nat :=
  bodySize (buildPackBody r.firstEnvelope [⟨""⟩]) + ids

/-- A first content and `n` others, each of which takes the whole limit: the first one under the
first envelope and the others after an id of `ids` bytes. -/
def crowded (r : SplitRequest) (ids n : Nat) : SplitRequest :=
  { r with
    contents :=
      ⟨plainText (baseSize r.model [⟨""⟩] + idCost (some "") + ids + ids)⟩ ::
        List.replicate n ⟨plainText (laterSize r ids)⟩
    limit := baseSize r.model [⟨plainText (laterSize r ids)⟩] + idCost (some "") + ids
    dropFields := [] }

theorem pack_crowded (r : SplitRequest) {ids : Nat} (hids : 36 ≤ ids) (n : Nat) :
    (crowded r ids n).pack = .ok
      ([⟨plainText (baseSize r.model [⟨""⟩] + idCost (some "") + ids + ids)⟩] ::
        List.replicate n [⟨plainText (laterSize r ids)⟩]) := by
  have hlimit : (crowded r ids n).limit =
      baseSize r.model [⟨""⟩] + laterSize r ids + idCost (some "") + ids := by
    show baseSize r.model [⟨plainText (laterSize r ids)⟩] + idCost (some "") + ids = _
    rw [baseSize_single]
  have hholder : escapedSize SplitRequest.placeholderId = 36 := by decide
  have hfirst := size_firstEnvelope r
  have hlater : ∀ contents, bodySize (buildPackBody
      ((crowded r ids n).subsequentEnvelope SplitRequest.placeholderId) contents) =
        baseSize r.model contents + idCost (some "") + 36 := by
    intro contents
    rw [size_subsequentEnvelope, idCost_some, hholder, Nat.add_assoc]
    rfl
  have hsize : laterSize r ids =
      baseSize r.model [⟨""⟩] + toolsCost r.params + systemCost r.params.systemInstruction +
        ids := by
    unfold laterSize
    rw [hfirst]
  rw [pack_ok_iff_fill]
  show fill _ _ [] (_ :: List.replicate n _) = _
  have hfits : fitsUnder (crowded r ids n).firstEnvelope (crowded r ids n).limit
      ([] ++ [⟨plainText (baseSize r.model [⟨""⟩] + idCost (some "") + ids + ids)⟩]) = true := by
    rw [fitsUnder_iff, hlimit]
    show bodySize (buildPackBody r.firstEnvelope [_]) ≤ _
    rw [hfirst, baseSize_single]
    omega
  rw [fill_fits hfits, List.nil_append, fill_each, List.map_replicate]
  · intro c hc
    rw [List.eq_of_mem_replicate hc, fitsUnder_eq_false, hlimit]
    show _ < bodySize (buildPackBody r.firstEnvelope [_, _])
    have hpair := baseSize_pair r.model
      ⟨plainText (baseSize r.model [⟨""⟩] + idCost (some "") + ids + ids)⟩ (laterSize r ids)
    rw [baseSize_single] at hpair
    rw [hfirst]
    omega
  · intro c hc
    rw [List.eq_of_mem_replicate hc, fitsUnder_iff, hlimit, hlater, baseSize_single]
    omega
  · intro c hc c' hc'
    rw [List.eq_of_mem_replicate hc, List.eq_of_mem_replicate hc', fitsUnder_eq_false, hlimit,
      hlater]
    have hpair := baseSize_pair r.model ⟨plainText (laterSize r ids)⟩ (laterSize r ids)
    rw [baseSize_single] at hpair
    omega

theorem AlikeWithinLimit.later (h : AlikeWithinLimit r answers) {i : Nat} {id₀ id : String}
    (hid₀ : Received answers r.stream 0 id₀) (hid : Received answers r.stream (i + 1) id) :
    escapedSize id ≤ max 36 (escapedSize id₀) + streamGain r.stream := by
  have alike : Alike r (crowded r (max 36 (escapedSize id₀)) (i + 2)) :=
    ⟨rfl, rfl, rfl, rfl, rfl, SystemAlike.refl _⟩
  have hwithin := h.contentWithinLimit alike rfl (List.cons_ne_nil _ _)
    (pack_crowded r (Nat.le_max_left 36 (escapedSize id₀)) (i + 2))
  have hfits := hwithin.later i _ id (by
    rw [List.getElem?_cons_succ, List.getElem?_replicate, if_pos (Nat.lt_succ_self (i + 1))])
    hid.1 ?_
  · rw [fitsAfter_iff, idCost_some] at hfits
    simp only [crowded] at hfits
    omega
  · intro j hj
    obtain ⟨id', hid'⟩ : ∃ id', (answers j).read r.stream = .ok id' := by
      rcases Nat.lt_or_ge j (i + 1) with hlt | hge
      · exact hid.2 j hlt
      · exact ⟨id, by rw [show j = i + 1 by omega]; exact hid.1⟩
    refine ⟨id', hid', ?_⟩
    cases j with
    | succ j => rfl
    | zero =>
      have hfirst : id' = id₀ := by
        have := hid'.symm.trans hid₀.1
        rwa [Except.ok.injEq] at this
      show firstTooLarge _ _ (List.replicate (i + 2) _) 1 = none
      rw [firstTooLarge_eq_none, hfirst]
      intro chunk hchunk
      rw [List.eq_of_mem_replicate hchunk, size_subsequentEnvelope, idCost_some]
      show _ ≤ baseSize r.model [⟨plainText (laterSize r (max 36 (escapedSize id₀)))⟩] +
        idCost (some "") + max 36 (escapedSize id₀)
      simp only [crowded]
      omega

end

/-! ## Words -/

/-- A word of `room` bytes, of which `quotes` are escaped. -/
def word (room quotes : Nat) : String :=
  String.ofList (List.replicate quotes '"') ++ plainText (room - quotes)

theorem utf8ByteSize_ofList_replicate {c : Char} (hc : c.utf8Size = 1) (n : Nat) :
    (String.ofList (List.replicate n c)).utf8ByteSize = n := by
  induction n with
  | zero => rfl
  | succ n ih =>
    rw [List.replicate_succ', String.ofList_append, String.utf8ByteSize_append, ih]
    exact congrArg (n + ·) (String.utf8ByteSize_singleton.trans hc)

theorem escapes_plainText (n : Nat) : escapes (plainText n) = 0 := by
  unfold escapes plainText
  rw [escapedSize_replicate, utf8ByteSize_ofList_replicate rfl, Nat.sub_self]

theorem escapes_quotes (n : Nat) : escapes (String.ofList (List.replicate n '"')) = n := by
  induction n with
  | zero => rfl
  | succ n ih =>
    rw [List.replicate_succ', String.ofList_append, escapes_append, ih]
    rfl

section
variable {room quotes : Nat}

theorem utf8ByteSize_word (h : quotes ≤ room) : (word room quotes).utf8ByteSize = room := by
  unfold word plainText
  rw [String.utf8ByteSize_append, utf8ByteSize_ofList_replicate rfl,
    utf8ByteSize_ofList_replicate rfl]
  omega

theorem escapes_word : escapes (word room quotes) = quotes := by
  unfold word
  rw [escapes_append, escapes_quotes, escapes_plainText, Nat.add_zero]

theorem mem_word {c : Char} (h : c ∈ (word room quotes).toList) : c = '"' ∨ c = 'x' := by
  unfold word plainText at h
  rw [String.toList_append, String.toList_ofList, String.toList_ofList, List.mem_append] at h
  exact h.imp List.eq_of_mem_replicate List.eq_of_mem_replicate

/-- The word with the quotes at place `i`, plain ones before it and `n` of them behind. -/
def wordsWith (room quotes i n : Nat) : List String :=
  List.replicate i (word room 0) ++ word room quotes :: List.replicate n (word room 0)

theorem of_mem_wordsWith {i n : Nat} {w : String} (h : w ∈ wordsWith room quotes i n) :
    w = word room 0 ∨ w = word room quotes := by
  unfold wordsWith at h
  rw [List.mem_append, List.mem_cons] at h
  rcases h with h | h | h
  · exact Or.inl (List.eq_of_mem_replicate h)
  · exact Or.inr h
  · exact Or.inl (List.eq_of_mem_replicate h)

theorem wordsWith_at (i n : Nat) : (wordsWith room quotes i n)[i]? = some (word room quotes) := by
  unfold wordsWith
  rw [List.getElem?_append_right (Nat.le_of_eq List.length_replicate), List.length_replicate,
    Nat.sub_self, List.getElem?_cons_zero]

theorem length_wordsWith (i n : Nat) : (wordsWith room quotes i n).length = i + n + 1 := by
  unfold wordsWith
  rw [List.length_append, List.length_cons, List.length_replicate, List.length_replicate]
  omega

theorem escapes_intercalate (words : List String) :
    escapes (" ".intercalate words) = (words.map escapes).sum := by
  induction words with
  | nil => rfl
  | cons w rest ih =>
    by_cases hne : rest = []
    · subst hne
      simp
    · have hspace : escapes " " = 0 := rfl
      rw [String.intercalate_cons_of_ne_nil hne, escapes_append, escapes_append, ih, hspace]
      simp

theorem escapes_wordsWith (i n : Nat) :
    escapes (" ".intercalate (wordsWith room quotes i n)) = quotes := by
  rw [escapes_intercalate]
  unfold wordsWith
  simp [escapes_word]

end

section
variable {words : List String} {room : Nat}

/-- Words that fill the room stay apart. -/
theorem joinParts_words {finer : String → List String} {current : String} {result : List String}
    (hroom : 0 < room) (hwords : ∀ w ∈ words, w.utf8ByteSize = room)
    (hcurrent : current.utf8ByteSize = room) :
    joinParts finer room " " words result current = result ++ current :: words := by
  have hne : ∀ w : String, w.utf8ByteSize = room → ¬ w.isEmpty := by
    intro w hw hempty
    rw [String.isEmpty_iff.mp hempty] at hw
    exact absurd hw (Nat.ne_of_lt hroom)
  have hflush : flush finer room result current = result ++ [current] := by
    unfold flush
    rw [if_neg (hne current hcurrent), if_neg (by omega)]
  induction words generalizing result current with
  | nil => exact hflush
  | cons w rest ih =>
    obtain ⟨hw, hrest⟩ := List.forall_mem_cons.mp hwords
    have hlong : ¬ (candidate " " current w).utf8ByteSize ≤ room := by
      unfold candidate
      rw [if_neg (hne current hcurrent), String.utf8ByteSize_append, String.utf8ByteSize_append]
      omega
    rw [joinParts_next hlong (Nat.le_of_eq hw), hflush, ih hrest hw, List.append_assoc]
    · rfl
    · unfold flush
      rw [if_neg (hne w hw), if_neg (by omega)]

theorem sum_size_words (hwords : ∀ w ∈ words, w.utf8ByteSize = room) :
    (words.map String.utf8ByteSize).sum = words.length * room := by
  rw [List.map_congr_left hwords, List.map_const', List.sum_replicate_nat]

theorem mem_intercalate {c : Char} (hplain : ∀ w ∈ words, ∀ c ∈ w.toList, c = '"' ∨ c = 'x')
    (h : c ∈ (" ".intercalate words).toList) : c = '"' ∨ c = 'x' ∨ c = ' ' := by
  induction words with
  | nil => simp at h
  | cons w rest ih =>
    obtain ⟨hw, hrest⟩ := List.forall_mem_cons.mp hplain
    by_cases hne : rest = []
    · subst hne
      rw [String.intercalate_singleton] at h
      exact (hw c h).imp_right Or.inl
    · rw [String.intercalate_cons_of_ne_nil hne, String.toList_append, String.toList_append,
        List.mem_append, List.mem_append] at h
      rcases h with (h | h) | h
      · exact (hw c h).imp_right Or.inl
      · exact Or.inr (Or.inr (List.mem_singleton.mp h))
      · exact ih hrest h

theorem splitStr_words (hplain : ∀ w ∈ words, ∀ c ∈ w.toList, c = '"' ∨ c = 'x')
    (hne : words ≠ []) : splitStr (" ".intercalate words) " " = words := by
  have hblank : ∀ w ∈ words.map String.toList, ' ' ∉ w := by
    intro l hl hmem
    obtain ⟨w, hw, rfl⟩ := List.mem_map.mp hl
    rcases hplain w hw ' ' hmem with h | h
    · exact absurd h (by decide)
    · exact absurd h (by decide)
  have hparts : ∀ part ∈ (splitStr (" ".intercalate words) " ").map String.toList,
      ' ' ∉ part := by
    intro l hl hmem
    obtain ⟨part, hpart, rfl⟩ := List.mem_map.mp hl
    obtain ⟨before, behind, hpieces⟩ := List.append_of_mem hmem
    refine (of_mem_splitStr (by decide) hpart).1 ⟨before, behind, ?_⟩
    rw [hpieces, List.append_assoc]
    rfl
  have hjoin := intercalate_splitStr (by decide : " " ≠ "") (" ".intercalate words)
  rw [String.toList_intercalate] at hjoin
  have hlists : (splitStr (" ".intercalate words) " ").map String.toList =
      words.map String.toList := by
    rw [← List.splitOn_intercalate ' ' hparts (by simp [splitStr_ne_nil]),
      ← List.splitOn_intercalate ' ' hblank (by simpa using hne)]
    exact congrArg (List.splitOn ' ') hjoin
  exact (List.map_injective_iff.mpr fun _ _ h => String.toList_injective h) hlists

/-- **A text of such words is cut into its words.** -/
theorem splitTextForLimit_words {limit overhead : Nat} (hroom : 0 < limit - overhead)
    (hwords : ∀ w ∈ words, w.utf8ByteSize = limit - overhead)
    (hplain : ∀ w ∈ words, ∀ c ∈ w.toList, c = '"' ∨ c = 'x') (htwo : 2 ≤ words.length) :
    splitTextForLimit (" ".intercalate words) limit overhead = .ok words := by
  generalize hr : limit - overhead = room at hroom hwords
  have hne : words ≠ [] := by
    rintro rfl
    exact absurd htwo (by decide)
  have hlong : ¬ (" ".intercalate words).utf8ByteSize ≤ room := by
    have hmul := Nat.mul_le_mul_right room htwo
    rw [utf8ByteSize_intercalate, sum_size_words hwords]
    omega
  -- of the delimiters only the blank occurs
  have habsent : ∀ delim ∈ delimiters, delim ≠ " " → ¬ Within delim (" ".intercalate words) := by
    have hother : ∀ delim ∈ delimiters, delim ≠ " " →
        delim.toList.any fun c => c != '"' && c != 'x' && c != ' ' := by decide
    intro delim hdelim hblank hwithin
    have hany := hother delim hdelim hblank
    simp only [List.any_eq_true, Bool.and_eq_true, bne_iff_ne] at hany
    obtain ⟨c, hc, ⟨h1, h2⟩, h3⟩ := hany
    rcases mem_intercalate hplain (hwithin.subset hc) with h | h | h
    · exact h1 h
    · exact h2 h
    · exact h3 h
  have hparts := splitStr_words hplain hne
  have hcut : splitByBestDelimiter room delimiters (" ".intercalate words) = words := by
    have hdecimate : ∀ delim ∈ delimiters, delim ≠ " " → ∀ rest,
        splitByBestDelimiter room (delim :: rest) (" ".intercalate words) =
          splitByBestDelimiter room rest (" ".intercalate words) := fun delim hdelim hblank rest =>
      splitByBestDelimiter_of_not_within (by
        rintro rfl
        exact absurd hdelim (by decide)) (habsent delim hdelim hblank) room rest
    unfold delimiters
    rw [hdecimate _ (by decide) (by decide), hdecimate _ (by decide) (by decide),
      hdecimate _ (by decide) (by decide), hdecimate _ (by decide) (by decide),
      hdecimate _ (by decide) (by decide), hdecimate _ (by decide) (by decide),
      hdecimate _ (by decide) (by decide), splitByBestDelimiter, hparts,
      if_neg (by omega)]
    obtain ⟨w, rest, rfl⟩ := List.exists_cons_of_ne_nil hne
    obtain ⟨hw, hrest⟩ := List.forall_mem_cons.mp hwords
    have hfits : (candidate " " "" w).utf8ByteSize ≤ room := Nat.le_of_eq hw
    rw [joinParts_fit hfits]
    exact joinParts_words hroom hrest hw
  unfold splitTextForLimit
  simp only [hr, hcut]
  rw [if_neg (Nat.pos_iff_ne_zero.mp hroom), if_neg hlong, if_neg]
  rintro (hempty | hany)
  · exact hne (List.isEmpty_iff.mp hempty)
  · obtain ⟨w, hw, hlt⟩ := List.any_eq_true.mp hany
    exact absurd (of_decide_eq_true hlt) (Nat.not_lt.mpr (Nat.le_of_eq (hwords w hw)))

end

/-! ## System instructions -/

/-- What is taken off the limit of a request before its fragments are cut. -/
def takenOff (r : SplitRequest) : Nat :=
  baseSize r.model [] + toolsCost r.params + systemCost (some "") + SystemSplit.envelopeOverhead r

/-- A request without contents whose system instruction is `words`, where the room for a fragment
is `room`. -/
def wordy (r : SplitRequest) (room : Nat) (words : List String) : SplitRequest :=
  { r with
    params := { r.params with systemInstruction := some (" ".intercalate words) }
    contents := [], limit := room + takenOff r, dropFields := [] }

theorem fragmentRoom_wordy (r : SplitRequest) (room : Nat) (words : List String) :
    (wordy r room words).fragmentRoom = room := by
  have htaken : takenOff r = baseSize r.model [] + toolsCost r.params + systemCost (some "") +
    SystemSplit.envelopeOverhead r := rfl
  rw [fragmentRoom_eq]
  show room + takenOff r - (baseSize r.model [] + toolsCost r.params + systemCost (some "")) -
    SystemSplit.envelopeOverhead r = room
  omega

section
variable {r : SplitRequest} {answers : Nat → Answer} {room quotes i n : Nat}

theorem AlikeWithinLimit.plansWithinLimit (h : AlikeWithinLimit r answers) {words : List String}
    (alike : Alike r (wordy r room words)) (hroom : 0 < room)
    (hwords : ∀ w ∈ words, w.utf8ByteSize = room)
    (hplain : ∀ w ∈ words, ∀ c ∈ w.toList, c = '"' ∨ c = 'x') (htwo : 2 ≤ words.length)
    (hlong : room + takenOff r < (" ".intercalate words).utf8ByteSize) :
    PlansWithinLimit (wordy r room words) (answering answers) (buildSplitPlans words []) := by
  have hpack : (wordy r room words).pack = .ok [] := rfl
  have hwithin := h.withinLimit alike rfl [] hpack
  have hover : (wordy r room words).limit < bodySize (wordy r room words).firstEnvelope := by
    have hsize : bodySize (wordy r room words).firstEnvelope = baseSize r.model [] +
        toolsCost r.params + systemCost (some (" ".intercalate words)) :=
      size_firstEnvelope (wordy r room words) []
    rw [hsize, systemCost_some]
    show room + takenOff r < _
    omega
  obtain ⟨s, hs⟩ := Option.isSome_iff_exists.mp
    ((systemSplit_isSome_iff (wordy r room words) []).mpr ⟨rfl, hover⟩)
  rw [hs] at hwithin
  obtain ⟨hsys, hchunks, hfragment⟩ := systemSplit_some hs
  rw [fragmentRoom_wordy] at hfragment
  apply hwithin
  unfold SystemSplit.plans
  rw [← Option.some.inj hsys, hchunks, splitTextForLimit_words (by omega) (by simpa [hfragment])
    hplain htwo]
  rfl

/-- The words for the piece at `i`: as many that even the whole text does not fit. -/
def wordsFor (r : SplitRequest) (sys : String) (i : Nat) : List String :=
  wordsWith (escapes sys + 1) (escapes sys) i
    (escapes sys + 1 + takenOff r + escapedSize sys + 1)

theorem size_wordsFor (r : SplitRequest) (sys : String) (i : Nat) :
    escapes sys + 1 + takenOff r + escapedSize sys <
      (" ".intercalate (wordsFor r sys i)).utf8ByteSize := by
  have hblank : " ".utf8ByteSize = 1 := rfl
  rw [utf8ByteSize_intercalate, hblank]
  unfold wordsFor
  rw [length_wordsWith]
  omega

/-- The piece at `i` of such a request is as large as the limit allows, but for its escapes and the
id it is sent after. -/
theorem AlikeWithinLimit.piece (h : AlikeWithinLimit r answers) {sys : String}
    (hsys : r.params.systemInstruction = some sys) (i : Nat)
    (hreach : ∀ j < i, ∃ id, (answers j).read r.stream = .ok id) :
    bodySize ((systemLoop r).body i ⟨[], some (word (escapes sys + 1) (escapes sys)), i == 0⟩
        (prevId r (answering answers) i)) ≤
      escapes sys + 1 + takenOff r := by
  have hle : escapes sys ≤ escapes sys + 1 := Nat.le_succ _
  have hsize := size_wordsFor r sys i
  have alike : Alike r (wordy r (escapes sys + 1) (wordsFor r sys i)) := by
    refine ⟨rfl, rfl, rfl, rfl, rfl, ?_⟩
    rw [hsys]
    refine .some ⟨?_, Nat.le_of_eq (escapes_wordsWith i _)⟩
    rw [escapedSize_eq (" ".intercalate _)]
    omega
  have hwithin := h.plansWithinLimit alike (Nat.zero_lt_succ _) ?_ ?_ ?_ (by omega)
  · have hpiece := hwithin i ⟨[], some (word (escapes sys + 1) (escapes sys)), i == 0⟩ (by
      rw [plan_at]
      unfold wordsFor
      rw [wordsWith_at]
      rfl) hreach
    rw [sizePlan_emptied] at hpiece
    exact hpiece
  · intro w hw
    rcases of_mem_wordsWith hw with rfl | rfl
    · exact utf8ByteSize_word (Nat.zero_le _)
    · exact utf8ByteSize_word hle
  · intro w hw c hc
    rcases of_mem_wordsWith hw with rfl | rfl
    · exact mem_word hc
    · exact mem_word hc
  · unfold wordsFor
    rw [length_wordsWith]
    omega

theorem AlikeWithinLimit.escapesFirst (h : AlikeWithinLimit r answers) {sys : String}
    (hsys : r.params.systemInstruction = some sys) :
    escapes sys ≤ baseSize r.model [] + systemCost (some "") := by
  have hpiece := h.piece hsys 0 fun j hj => absurd hj (Nat.not_lt_zero j)
  have hsize := size_plan r 0 ⟨[], some (word (escapes sys + 1) (escapes sys)), true⟩
    r.params.previousInteractionId
  have hword : (word (escapes sys + 1) (escapes sys)).utf8ByteSize = escapes sys + 1 :=
    utf8ByteSize_word (Nat.le_succ (escapes sys))
  have hover := envelopeOverhead_eq r
  rw [systemCost_some, escapes_word] at hsize
  simp only [if_true] at hsize
  change bodySize ((systemLoop r).body 0 ⟨[], some (word (escapes sys + 1) (escapes sys)), true⟩
    r.params.previousInteractionId) ≤ _ at hpiece
  unfold takenOff at hpiece
  omega

theorem AlikeWithinLimit.escapesLater (h : AlikeWithinLimit r answers) {sys id : String}
    (hsys : r.params.systemInstruction = some sys) (hid : Received answers r.stream i id) :
    escapes sys + idCost (some id) ≤ baseSize r.model [] + systemCost (some "") +
      toolsCost r.params + idCost r.params.previousInteractionId := by
  have hpiece := h.piece hsys (i + 1) (by
    intro j hj
    rcases Nat.eq_or_lt_of_le (Nat.le_of_lt_succ hj) with rfl | hlt
    · exact ⟨id, hid.1⟩
    · exact hid.2 j hlt)
  have hsize := size_plan r (i + 1) ⟨[], some (word (escapes sys + 1) (escapes sys)), false⟩
    (some id)
  have hword : (word (escapes sys + 1) (escapes sys)).utf8ByteSize = escapes sys + 1 :=
    utf8ByteSize_word (Nat.le_succ (escapes sys))
  have hover := envelopeOverhead_eq r
  rw [systemCost_some, escapes_word] at hsize
  simp only [Bool.false_eq_true, if_false] at hsize
  rw [prevId_succ (show (answering answers).accepted r.stream i = .ok id from hid.1)] at hpiece
  change bodySize ((systemLoop r).body (i + 1)
    ⟨[], some (word (escapes sys + 1) (escapes sys)), false⟩ (some id)) ≤ _ at hpiece
  unfold takenOff at hpiece
  omega

end

/-! ## The equivalence -/

end InfSplitter.SplitSend
