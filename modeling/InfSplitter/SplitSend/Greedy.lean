import InfSplitter.Lib.Cuts
import InfSplitter.SplitSend.Limit

/-!
# The packing is as good as any

`pack_content_into_chunks` never looks back: it fills a chunk, and starts the next one with the
content that was too much. `packLoop_toOption` says that this is the greedy loop of `Lib.Cuts`, with
the size of a body as the test and another envelope after the first chunk. Since contents only make
a body longer, the results about that loop apply: the packing fails only where no partition fits,
and no partition that fits has fewer chunks.
-/

set_option autoImplicit false

namespace InfSplitter.SplitSend

open Interactions Lib

/-- What a packing has to be: the contents in order, in nonempty chunks that fit. -/
structure ValidPartition (firstEnvelope subsequentEnvelope : CreateModelInteractionParams)
    (limit : Nat) (contents : List Content) (chunks : List (List Content)) : Prop where
  contents : chunks.flatten = contents
  nonempty : ∀ chunk ∈ chunks, chunk ≠ []
  fits : ChunksFit firstEnvelope subsequentEnvelope limit chunks

/-- No chunk can take the first content of the next one without exceeding the limit. -/
def NoRoomLeft (firstEnvelope subsequentEnvelope : CreateModelInteractionParams) (limit : Nat)
    (chunks : List (List Content)) : Prop :=
  ∀ i chunk next rest, chunks[i]? = some chunk → chunks[i + 1]? = some (next :: rest) →
    limit < bodySize (buildPackBody (if i = 0 then firstEnvelope else subsequentEnvelope)
      (chunk ++ [next]))

/-- The test of a chunk. -/
def fitsUnder (envelope : CreateModelInteractionParams) (limit : Nat) (chunk : List Content) :
    Bool :=
  bodySize (buildPackBody envelope chunk) ≤ limit

@[simp] theorem fitsUnder_iff {envelope : CreateModelInteractionParams} {limit : Nat}
    {chunk : List Content} : fitsUnder envelope limit chunk = true ↔
      bodySize (buildPackBody envelope chunk) ≤ limit := decide_eq_true_iff

theorem fitsUnder_eq_false {envelope : CreateModelInteractionParams} {limit : Nat}
    {chunk : List Content} : fitsUnder envelope limit chunk = false ↔
      limit < bodySize (buildPackBody envelope chunk) := by
  unfold fitsUnder
  rw [decide_eq_false_iff_not, Nat.not_le]

/-- Contents only make a body longer. -/
theorem closed_fitsUnder (envelope : CreateModelInteractionParams) (limit : Nat) :
    Closed (fitsUnder envelope limit) := by
  intro l l' hpiece h
  rw [fitsUnder_iff] at h ⊢
  exact Nat.le_trans (bodySize_sublist hpiece.sublist envelope) h

section
variable {firstEnvelope subsequentEnvelope : CreateModelInteractionParams} {limit : Nat}

theorem cuts_iff {chunks : List (List Content)} :
    Cuts (fitsUnder subsequentEnvelope limit) (fitsUnder firstEnvelope limit) chunks ↔
      (∀ chunk ∈ chunks, chunk ≠ []) ∧
        ChunksFit firstEnvelope subsequentEnvelope limit chunks := by
  induction chunks generalizing firstEnvelope with
  | nil => exact iff_of_true trivial ⟨by simp, fun i chunk hi => by simp at hi⟩
  | cons chunk rest ih =>
    unfold Cuts
    rw [ih, fitsUnder_iff, List.forall_mem_cons]
    unfold ChunksFit
    rw [forall_getElem?_cons]
    simp only [if_true, Nat.succ_ne_zero, if_false, ite_self]
    constructor
    · exact fun ⟨hne, hchunk, hnes, hrest⟩ => ⟨⟨hne, hnes⟩, hchunk, hrest⟩
    · exact fun ⟨⟨hne, hnes⟩, hchunk, hrest⟩ => ⟨hne, hchunk, hnes, hrest⟩

theorem noRoomLeft_of_full {chunks : List (List Content)}
    (h : Full (fitsUnder subsequentEnvelope limit) (fitsUnder firstEnvelope limit) chunks) :
    NoRoomLeft firstEnvelope subsequentEnvelope limit chunks := by
  induction chunks generalizing firstEnvelope with
  | nil =>
    intro i chunk next rest hi
    simp at hi
  | cons chunk others ih =>
    intro i c next rest hi hnext
    cases others with
    | nil => simp at hnext
    | cons c' others =>
      obtain ⟨hfull, hothers⟩ := h
      cases i with
      | zero =>
        cases hi
        cases hnext
        rw [if_pos rfl]
        exact fitsUnder_eq_false.mp (hfull next rfl)
      | succ i =>
        rw [if_neg (Nat.succ_ne_zero i)]
        simpa using ih hothers i c next rest hi hnext

/-! ## The loop -/

theorem chunkEnvelope_append (chunks : List (List Content)) (chunk : List Content) :
    chunkEnvelope firstEnvelope subsequentEnvelope (chunks ++ [chunk]) = subsequentEnvelope := by
  unfold chunkEnvelope
  rw [if_neg (by simp)]

/-- **The loop over the contents is the greedy loop**, up to the sizes its error reports. -/
theorem packLoop_toOption (contents current : List Content) (chunks : List (List Content)) :
    (packLoop firstEnvelope subsequentEnvelope limit contents chunks current).toOption =
      (fill (fitsUnder subsequentEnvelope limit)
        (fitsUnder (chunkEnvelope firstEnvelope subsequentEnvelope chunks) limit)
        current contents).map (chunks ++ ·) := by
  induction contents generalizing chunks current with
  | nil =>
    unfold packLoop fill
    by_cases hnil : current = []
    · simp [hnil, Except.toOption]
    · simp [hnil, Except.toOption]
  | cons content rest ih =>
    unfold packLoop
    simp only
    cases hfits : fitsUnder (chunkEnvelope firstEnvelope subsequentEnvelope chunks) limit
        (current ++ [content]) with
    | true =>
      have hle := fitsUnder_iff.mp hfits
      rw [fill_fits hfits, if_neg (fun h => absurd hle (Nat.not_le.mpr h.2)), if_pos hle, ih]
    | false =>
      have hlt := fitsUnder_eq_false.mp hfits
      by_cases hnil : current = []
      · subst hnil
        rw [fill_alone hfits, if_pos ⟨rfl, hlt⟩]
        rfl
      · rw [if_neg (by simp [hnil]), if_neg (Nat.not_le.mpr hlt)]
        cases hnext : fitsUnder subsequentEnvelope limit [content] with
        | true =>
          rw [fill_next hnil hfits hnext, if_neg (Nat.not_lt.mpr (fitsUnder_iff.mp hnext)), ih,
            chunkEnvelope_append, Option.map_map]
          congr 1
          funext l
          simp
        | false =>
          rw [fill_stuck hfits hnext, if_pos (fitsUnder_eq_false.mp hnext)]
          rfl

theorem packContentIntoChunks_toOption (contents : List Content) :
    (packContentIntoChunks firstEnvelope subsequentEnvelope contents limit).toOption =
      fill (fitsUnder subsequentEnvelope limit) (fitsUnder firstEnvelope limit) [] contents := by
  unfold packContentIntoChunks
  rw [packLoop_toOption]
  exact Option.map_id'

theorem packContentIntoChunks_ok_iff {contents : List Content} {chunks : List (List Content)} :
    packContentIntoChunks firstEnvelope subsequentEnvelope contents limit = .ok chunks ↔
      fill (fitsUnder subsequentEnvelope limit) (fitsUnder firstEnvelope limit) [] contents =
        some chunks := by
  rw [← packContentIntoChunks_toOption]
  cases packContentIntoChunks firstEnvelope subsequentEnvelope contents limit with
  | error e => simp [Except.toOption]
  | ok out => simp [Except.toOption]

end

/-- **The packing is valid, leaves no room, has the fewest chunks, and fails only where no partition
is valid.** -/
theorem packContentIntoChunks_greedy
    (firstEnvelope subsequentEnvelope : CreateModelInteractionParams) (contents : List Content)
    (limit : Nat) :
    (∀ chunks,
      packContentIntoChunks firstEnvelope subsequentEnvelope contents limit = .ok chunks →
        ValidPartition firstEnvelope subsequentEnvelope limit contents chunks ∧
        NoRoomLeft firstEnvelope subsequentEnvelope limit chunks ∧
        ∀ other, ValidPartition firstEnvelope subsequentEnvelope limit contents other →
          chunks.length ≤ other.length) ∧
    ((∃ e, packContentIntoChunks firstEnvelope subsequentEnvelope contents limit = .error e) ↔
      ¬ ∃ chunks, ValidPartition firstEnvelope subsequentEnvelope limit contents chunks) := by
  have best : ∀ other, ValidPartition firstEnvelope subsequentEnvelope limit contents other →
      ∃ chunks,
        packContentIntoChunks firstEnvelope subsequentEnvelope contents limit = .ok chunks ∧
        chunks.length ≤ other.length := by
    intro other h
    have hflat : other.flatten = [] ++ contents := h.contents
    obtain ⟨chunks, hchunks, hle⟩ := fill_best (closed_fitsUnder _ _) (closed_fitsUnder _ _)
      (cuts_iff.mpr ⟨h.nonempty, h.fits⟩) hflat
    exact ⟨chunks, packContentIntoChunks_ok_iff.mpr hchunks, hle⟩
  have valid : ∀ chunks,
      packContentIntoChunks firstEnvelope subsequentEnvelope contents limit = .ok chunks →
        ValidPartition firstEnvelope subsequentEnvelope limit contents chunks := by
    intro chunks h
    obtain ⟨hcuts, hflat⟩ := fill_cuts (fun hne => absurd rfl hne)
      (packContentIntoChunks_ok_iff.mp h)
    obtain ⟨hne, hfit⟩ := cuts_iff.mp hcuts
    exact ⟨hflat, hne, hfit⟩
  refine ⟨?_, ?_⟩
  · intro chunks h
    refine ⟨valid chunks h, noRoomLeft_of_full (fill_full (packContentIntoChunks_ok_iff.mp h)), ?_⟩
    intro other hother
    obtain ⟨chunks', h', hle⟩ := best other hother
    rw [h, Except.ok.injEq] at h'
    rwa [h']
  · constructor
    · intro ⟨e, he⟩ ⟨other, hother⟩
      obtain ⟨chunks, h, _⟩ := best other hother
      rw [he] at h
      cases h
    · intro hno
      cases h : packContentIntoChunks firstEnvelope subsequentEnvelope contents limit with
      | error e => exact ⟨e, rfl⟩
      | ok chunks => exact absurd ⟨chunks, valid chunks h⟩ hno

end InfSplitter.SplitSend
