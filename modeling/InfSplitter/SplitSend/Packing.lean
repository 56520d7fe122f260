import InfSplitter.Interactions.Request

/-!
# Cutting a request into pieces

Two cutters and the order their pieces are sent in. `packContentIntoChunks` fills each chunk with
contents as long as the serialized body stays within the limit; `splitTextForLimit` cuts a system
instruction at delimiters, coarse ones first; `buildSplitPlans` puts the fragments before the
chunks.

What each promises about sizes is what it measured: the body under one of two envelopes for a chunk
(`packContentIntoChunks_fits`), the length of the bare text for a fragment
(`splitTextForLimit_length`).
-/

set_option autoImplicit false

namespace InfSplitter.SplitSend

open Interactions

/-! ## Contents -/

inductive PackError
  -- "content item too large for proxy_limit: {size} > {limit}"
  | itemTooLarge (size limit : Nat)
deriving DecidableEq, Repr

def buildPackBody (envelope : CreateModelInteractionParams) (input : List Content) :
    CreateModelInteractionParams :=
  { envelope with input := input }

/-- The measured length of a body. The order of the members, which differs between the struct
measured and the `Value` sent, makes no difference to it. -/
def bodySize (p : CreateModelInteractionParams) : Nat := p.toJson.size

/-- The envelope of the chunk that comes after `chunks`. -/
def chunkEnvelope (firstEnvelope subsequentEnvelope : CreateModelInteractionParams)
    (chunks : List (List Content)) : CreateModelInteractionParams :=
  if chunks.isEmpty then firstEnvelope else subsequentEnvelope

/-- The loop over the contents: `chunks` are finished, `current` is being filled. -/
def packLoop (firstEnvelope subsequentEnvelope : CreateModelInteractionParams) (limit : Nat) :
    List Content → List (List Content) → List Content → Except PackError (List (List Content))
  | [], chunks, current => .ok (if current.isEmpty then chunks else chunks ++ [current])
  | content :: rest, chunks, current =>
    let envelope := chunkEnvelope firstEnvelope subsequentEnvelope chunks
    let testSize := bodySize (buildPackBody envelope (current ++ [content]))
    if current.isEmpty ∧ limit < testSize then .error (.itemTooLarge testSize limit)
    else if testSize ≤ limit then
      packLoop firstEnvelope subsequentEnvelope limit rest chunks (current ++ [content])
    else
      -- the chunk is full, so the new one is never the first
      let singleSize := bodySize (buildPackBody subsequentEnvelope [content])
      if limit < singleSize then .error (.itemTooLarge singleSize limit)
      else
        packLoop firstEnvelope subsequentEnvelope limit rest (chunks ++ [current]) [content]

def packContentIntoChunks (firstEnvelope subsequentEnvelope : CreateModelInteractionParams)
    (contents : List Content) (limit : Nat) : Except PackError (List (List Content)) :=
  packLoop firstEnvelope subsequentEnvelope limit contents [] []

/-- The first chunk fits under the first envelope and every other one under the other. -/
def ChunksFit (firstEnvelope subsequentEnvelope : CreateModelInteractionParams) (limit : Nat)
    (chunks : List (List Content)) : Prop :=
  ∀ i chunk, chunks[i]? = some chunk →
    bodySize (buildPackBody (if i = 0 then firstEnvelope else subsequentEnvelope) chunk) ≤ limit

section
variable {firstEnvelope subsequentEnvelope : CreateModelInteractionParams} {limit : Nat}

theorem ChunksFit.append {chunks : List (List Content)} {current : List Content}
    (h : ChunksFit firstEnvelope subsequentEnvelope limit chunks)
    (hc : bodySize (buildPackBody (chunkEnvelope firstEnvelope subsequentEnvelope chunks)
      current) ≤ limit) :
    ChunksFit firstEnvelope subsequentEnvelope limit (chunks ++ [current]) := by
  intro i chunk hi
  by_cases hlt : i < chunks.length
  · rw [List.getElem?_append_left hlt] at hi
    exact h i chunk hi
  · have hlen : i < (chunks ++ [current]).length := (List.getElem?_eq_some_iff.mp hi).1
    rw [List.length_append, List.length_singleton] at hlen
    have hi' : i = chunks.length := by omega
    subst hi'
    rw [List.getElem?_append_right (Nat.le_refl _), Nat.sub_self, List.getElem?_cons_zero,
      Option.some.injEq] at hi
    subst hi
    cases chunks with
    | nil => exact hc
    | cons c rest => exact hc

theorem packLoop_fits {contents : List Content} {chunks out : List (List Content)}
    {current : List Content} (h : ChunksFit firstEnvelope subsequentEnvelope limit chunks)
    (hc : current ≠ [] → bodySize (buildPackBody
      (chunkEnvelope firstEnvelope subsequentEnvelope chunks) current) ≤ limit)
    (hout : packLoop firstEnvelope subsequentEnvelope limit contents chunks current = .ok out) :
    ChunksFit firstEnvelope subsequentEnvelope limit out := by
  induction contents generalizing chunks current with
  | nil =>
    unfold packLoop at hout
    rw [Except.ok.injEq] at hout
    subst hout
    cases current with
    | nil => exact h
    | cons c rest => exact h.append (hc (by simp))
  | cons content rest ih =>
    unfold packLoop at hout
    by_cases hsmall : current.isEmpty ∧ limit < bodySize (buildPackBody
        (chunkEnvelope firstEnvelope subsequentEnvelope chunks) (current ++ [content]))
    · rw [if_pos hsmall] at hout
      simp at hout
    rw [if_neg hsmall] at hout
    by_cases hfit : bodySize (buildPackBody
        (chunkEnvelope firstEnvelope subsequentEnvelope chunks) (current ++ [content])) ≤ limit
    · rw [if_pos hfit] at hout
      exact ih h (fun _ => hfit) hout
    rw [if_neg hfit] at hout
    by_cases hsingle : limit < bodySize (buildPackBody subsequentEnvelope [content])
    · rw [if_pos hsingle] at hout
      simp at hout
    rw [if_neg hsingle] at hout
    -- the item did not fit although it was not alone
    have hne : current ≠ [] := by
      rintro rfl
      exact hsmall ⟨rfl, Nat.lt_of_not_le hfit⟩
    refine ih (h.append (hc hne)) (fun _ => ?_) hout
    unfold chunkEnvelope
    rw [if_neg (by simp)]
    exact Nat.le_of_not_lt hsingle

/-- **Every chunk fits under the envelope it was measured with.** -/
theorem packContentIntoChunks_fits {contents : List Content} {chunks : List (List Content)}
    (h : packContentIntoChunks firstEnvelope subsequentEnvelope contents limit = .ok chunks) :
    ChunksFit firstEnvelope subsequentEnvelope limit chunks := by
  refine packLoop_fits ?_ ?_ h
  · intro i chunk hi
    simp at hi
  · exact fun hne => absurd rfl hne

end

/-! ## System instructions -/

/-- `str::split` with a nonempty delimiter, on characters: `skip` characters of a delimiter are
still to be passed over, `part` is what has been read of the current part. -/
def splitChars (delim : List Char) : List Char → Nat → List Char → List (List Char)
  | [], _, part => [part]
  | _ :: cs, skip + 1, part => splitChars delim cs skip part
  | c :: cs, 0, part =>
    if delim.isPrefixOf (c :: cs) then part :: splitChars delim cs (delim.length - 1) []
    else splitChars delim cs 0 (part ++ [c])

def splitStr (text delim : String) : List String :=
  (splitChars delim.toList text.toList 0 []).map String.ofList

/-- The loop over the parts at one delimiter, where `finer` splits at the delimiters after it. -/
def joinParts (finer : String → List String) (limit : Nat) (delim : String) :
    List String → List String → String → List String
  | [], result, current =>
    if current.isEmpty then result
    else if limit < current.utf8ByteSize then result ++ finer current
    else result ++ [current]
  | part :: rest, result, current =>
    let candidate := if current.isEmpty then part else current ++ delim ++ part
    if candidate.utf8ByteSize ≤ limit then joinParts finer limit delim rest result candidate
    else
      let result :=
        if current.isEmpty then result
        else if limit < current.utf8ByteSize then result ++ finer current
        else result ++ [current]
      if part.utf8ByteSize ≤ limit then joinParts finer limit delim rest result part
      else
        match (finer part).getLast? with
        | none => joinParts finer limit delim rest (result ++ [part]) ""
        | some last =>
          joinParts finer limit delim rest (result ++ (finer part).dropLast) last

def splitByBestDelimiter (limit : Nat) : List String → String → List String
  | [], text => [text]
  | delim :: rest, text =>
    let parts := splitStr text delim
    if parts.length = 1 then splitByBestDelimiter limit rest text
    else joinParts (splitByBestDelimiter limit rest) limit delim parts [] ""

def delimiters : List String := ["\n\n", "\n", ". ", "! ", "? ", ", ", "; ", " "]

inductive SplitTextError
  -- "Envelope overhead {overhead} exceeds proxy limit {limit}, cannot fit system instruction"
  | overheadExceedsLimit (overhead limit : Nat)
  -- "Unable to split system instruction under limit {limit} bytes (effective .. after .. overhead)"
  | unableToSplit (limit effectiveLimit overhead : Nat)
deriving DecidableEq, Repr

def splitTextForLimit (text : String) (limit overhead : Nat) :
    Except SplitTextError (List String) :=
  let effectiveLimit := limit - overhead
  if effectiveLimit = 0 then .error (.overheadExceedsLimit overhead limit)
  else if text.utf8ByteSize ≤ effectiveLimit then .ok [text]
  else
    let chunks := splitByBestDelimiter effectiveLimit delimiters text
    if chunks.isEmpty ∨ chunks.any fun c => effectiveLimit < c.utf8ByteSize then
      .error (.unableToSplit limit effectiveLimit overhead)
    else .ok chunks

/-- **No fragment is longer than what the overhead leaves of the limit.** -/
theorem splitTextForLimit_length {text : String} {limit overhead : Nat} {parts : List String}
    (h : splitTextForLimit text limit overhead = .ok parts) :
    ∀ part ∈ parts, part.utf8ByteSize ≤ limit - overhead := by
  unfold splitTextForLimit at h
  simp only at h
  split at h
  · simp at h
  · split at h
    · rename_i hle
      rw [Except.ok.injEq] at h
      subst h
      intro part hpart
      rw [List.mem_singleton.mp hpart]
      exact hle
    · split at h
      · simp at h
      · rename_i hall
        rw [Except.ok.injEq] at h
        subst h
        intro part hpart
        by_contra hlt
        exact hall (Or.inr (List.any_eq_true.mpr ⟨part, hpart, by simpa using hlt⟩))

/-! ## The plan -/

/-- What one piece of a system-instruction split carries. -/
structure SplitPiecePlan where
  input : List Content
  systemInstruction : Option String
  includeToolsConfig : Bool
deriving Repr

/-- The pieces for the fragments; the last of them carries the first chunk. -/
def fragmentPlans (chunks : List (List Content)) : List String → Nat → List SplitPiecePlan
  | [], _ => []
  | [part], i =>
    [{ input := chunks.headD [], systemInstruction := some part, includeToolsConfig := i == 0 }]
  | part :: rest, i =>
    { input := [], systemInstruction := some part, includeToolsConfig := i == 0 } ::
      fragmentPlans chunks rest (i + 1)

def buildSplitPlans (sysParts : List String) (chunks : List (List Content)) :
    List SplitPiecePlan :=
  fragmentPlans chunks sysParts 0 ++
    (chunks.drop 1).map fun chunk =>
      { input := chunk, systemInstruction := none, includeToolsConfig := false }

section
variable (chunks : List (List Content)) {sysParts : List String}

theorem fragmentPlans_inputs (hne : sysParts ≠ []) (i : Nat) :
    ((fragmentPlans chunks sysParts i).map SplitPiecePlan.input).flatten = chunks.headD [] := by
  induction sysParts generalizing i with
  | nil => exact absurd rfl hne
  | cons part rest ih =>
    cases rest with
    | nil => simp [fragmentPlans]
    | cons part' rest =>
      rw [fragmentPlans, List.map_cons, List.flatten_cons, ih (List.cons_ne_nil _ _)]
      · rfl
      · simp

theorem fragmentPlans_systems (sysParts : List String) (i : Nat) :
    (fragmentPlans chunks sysParts i).map SplitPiecePlan.systemInstruction =
      sysParts.map some := by
  induction sysParts generalizing i with
  | nil => rfl
  | cons part rest ih =>
    cases rest with
    | nil => rfl
    | cons part' rest =>
      rw [fragmentPlans, List.map_cons, ih]
      · rfl
      · simp

/-- Only the piece at position 0 includes tools and config. -/
theorem fragmentPlans_configs (sysParts : List String) (i : Nat) :
    (fragmentPlans chunks sysParts i).map SplitPiecePlan.includeToolsConfig =
      (List.range' i sysParts.length).map (· == 0) := by
  induction sysParts generalizing i with
  | nil => rfl
  | cons part rest ih =>
    cases rest with
    | nil => rfl
    | cons part' rest =>
      rw [fragmentPlans, List.map_cons, ih]
      · rfl
      · simp

end

/-- **A plan delivers everything once**: the contents of the chunks in order, the fragments in order
and nothing after them, tools and config with the first piece. -/
theorem buildSplitPlans_deliver {sysParts : List String} (hne : sysParts ≠ [])
    (chunks : List (List Content)) :
    ((buildSplitPlans sysParts chunks).map SplitPiecePlan.input).flatten = chunks.flatten ∧
      (buildSplitPlans sysParts chunks).map SplitPiecePlan.systemInstruction =
        sysParts.map some ++ List.replicate (chunks.length - 1) none ∧
      (buildSplitPlans sysParts chunks).map SplitPiecePlan.includeToolsConfig =
        true :: List.replicate (sysParts.length - 1 + (chunks.length - 1)) false ∧
      (buildSplitPlans sysParts chunks).length = sysParts.length + (chunks.length - 1) := by
  have hsystems : (buildSplitPlans sysParts chunks).map SplitPiecePlan.systemInstruction =
      sysParts.map some ++ List.replicate (chunks.length - 1) none := by
    unfold buildSplitPlans
    rw [List.map_append, fragmentPlans_systems, List.map_map, ← List.length_drop]
    exact congrArg _ (List.map_const' ..)
  refine ⟨?_, hsystems, ?_, ?_⟩
  · unfold buildSplitPlans
    rw [List.map_append, List.flatten_append, fragmentPlans_inputs chunks hne, List.map_map]
    cases chunks with
    | nil => rfl
    | cons chunk rest => simp [Function.comp_def]
  · unfold buildSplitPlans
    obtain ⟨part, parts, rfl⟩ := List.exists_cons_of_ne_nil hne
    have hlater : (List.range' 1 parts.length).map (· == 0) =
        List.replicate parts.length false := by
      apply List.eq_replicate_iff.mpr
      refine ⟨by simp, ?_⟩
      intro b hb
      obtain ⟨i, hi, rfl⟩ := List.mem_map.mp hb
      have hpos := (List.mem_range'_1.mp hi).1
      exact beq_false_of_ne (by omega)
    rw [List.map_append, fragmentPlans_configs, List.map_map, List.length_cons, List.range'_succ,
      List.map_cons, Nat.zero_add, hlater, Nat.add_sub_cancel, List.replicate_add, ← List.length_drop]
    exact congrArg (fun l => true :: (List.replicate parts.length false ++ l))
      (List.map_const' ..)
  · have hlength := congrArg List.length hsystems
    simpa using hlength

theorem buildSplitPlans_deliver_seam :
    ((buildSplitPlans ["a", "b"] [[⟨"x"⟩], [⟨"y"⟩]]).map SplitPiecePlan.input).flatten =
      [⟨"x"⟩, ⟨"y"⟩] :=
  (buildSplitPlans_deliver (by simp) [[⟨"x"⟩], [⟨"y"⟩]]).1

end InfSplitter.SplitSend
