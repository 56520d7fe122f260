import Mathlib.Data.List.Induction
import Mathlib.Data.List.Nodup

/-!
# Maps with several values under a key

`ValueMap` is what can be relied on of a map that keeps all values of a key in their order: an
insert takes the place of all of them, and an iteration gives all of them, in an order of the keys
that is not said. What a loop of inserts leaves is the last value of each key (`getAll_insertAll`).

`EntryMap` is such a map: a list of entries, in which no key is there twice. Two of them with the
same keys may be related value by value (`Rel`), and the operations keep that.
-/

set_option autoImplicit false

namespace InfSplitter.Lib

/-- The operations of such a map and their laws. -/
structure ValueMap (κ α M : Type) [DecidableEq κ] where
  empty : M
  insert : M → κ → α → M
  /-- the first value -/
  get : M → κ → Option α
  getAll : M → κ → List α
  iter : M → List (κ × α)
  getAll_empty : ∀ k, getAll empty k = []
  getAll_insert : ∀ m k v k', getAll (insert m k v) k' = if k' = k then [v] else getAll m k'
  get_eq : ∀ m k, get m k = (getAll m k).head?
  getAll_iter : ∀ m k, ((iter m).filter fun e => e.1 = k).map Prod.snd = getAll m k

namespace ValueMap

variable {κ α M : Type} [DecidableEq κ] (map : ValueMap κ α M)

/-- The same values under every key. -/
def Same (m m' : M) : Prop := ∀ k, map.getAll m k = map.getAll m' k

def insertAll (m : M) (kvs : List (κ × α)) : M := kvs.foldl (fun m kv => map.insert m kv.1 kv.2) m

/-- The last of the values alone, or what was there before. -/
def lastOf (values before : List α) : List α :=
  match values.getLast? with
  | some v => [v]
  | none => before

@[simp] theorem lastOf_nil (before : List α) : lastOf [] before = before := rfl

@[simp] theorem lastOf_singleton (v : α) (before : List α) : lastOf [v] before = [v] := rfl

@[simp] theorem lastOf_concat (values before : List α) (v : α) :
    lastOf (values ++ [v]) before = [v] := by
  simp [lastOf]

/-- The last value alone is all the values of a key that has one at most. -/
theorem lastOf_eq_self_iff (values : List α) : lastOf values [] = values ↔ values.length ≤ 1 := by
  cases values using List.reverseRecOn with
  | nil => simp
  | append_singleton values v =>
    rw [lastOf_concat]
    cases values <;> simp

/-- **A loop of inserts leaves the last value of each key.** -/
theorem getAll_insertAll (m : M) (kvs : List (κ × α)) (k : κ) :
    map.getAll (map.insertAll m kvs) k =
      lastOf ((kvs.filter fun e => e.1 = k).map Prod.snd) (map.getAll m k) := by
  induction kvs using List.reverseRecOn with
  | nil => rfl
  | append_singleton kvs kv ih =>
    rw [insertAll, List.foldl_concat, map.getAll_insert, List.filter_append]
    by_cases hk : k = kv.1
    · simp [hk]
    · have hne : kv.1 ≠ k := fun h => hk h.symm
      simpa [insertAll, hk, hne] using ih

/-- The values under a key of the part of an iteration that passes a test of its keys. -/
theorem filter_iter (m : M) (p : κ → Bool) (k : κ) :
    (((map.iter m).filter fun e => p e.1).filter fun e => e.1 = k).map Prod.snd =
      if p k then map.getAll m k else [] := by
  rw [← map.getAll_iter, List.filter_filter]
  by_cases hp : p k = true
  · rw [if_pos hp]
    congr 1
    refine List.filter_congr fun e _ => ?_
    by_cases hk : e.1 = k <;> simp [hk, hp]
  · rw [if_neg hp]
    have hnone : ∀ e ∈ map.iter m, ¬ (decide (e.1 = k) && p e.1) = true := by
      intro e _ he
      simp only [Bool.and_eq_true, decide_eq_true_eq] at he
      exact hp (he.1 ▸ he.2)
    rw [List.filter_eq_nil_iff.mpr hnone]
    rfl

/-- **Going through a map and inserting what passes a test** leaves the last value of each key. -/
theorem getAll_foldl_iter (m out : M) (p : κ → Bool) (k : κ) :
    map.getAll ((map.iter m).foldl
      (fun out e => if p e.1 then map.insert out e.1 e.2 else out) out) k =
        if p k then lastOf (map.getAll m k) (map.getAll out k) else map.getAll out k := by
  rw [← List.foldl_filter (p := fun e : κ × α => p e.1)
    (f := fun out e => map.insert out e.1 e.2)]
  refine (map.getAll_insertAll out _ k).trans ?_
  rw [filter_iter]
  split <;> rfl

end ValueMap

/-! ## A list of entries -/

/-- The keys with their values, the first one and the further ones. -/
structure EntryMap (κ α : Type) where
  entries : List (κ × α × List α)
  nodup : (entries.map Prod.fst).Nodup

namespace EntryMap

section
variable {κ α : Type} [DecidableEq κ]

def valuesOf (k : κ) : List (κ × α × List α) → List α
  | [] => []
  | e :: rest => if e.1 = k then e.2.1 :: e.2.2 else valuesOf k rest

/-- The values of a key are changed where they are, or a new entry is put behind the others. -/
def changeEntry (k : κ) (change : List α → α × List α) :
    List (κ × α × List α) → List (κ × α × List α)
  | [] => [(k, change [])]
  | e :: rest =>
    if e.1 = k then (k, change (e.2.1 :: e.2.2)) :: rest else e :: changeEntry k change rest

variable {k : κ} {change : List α → α × List α}

theorem changeEntry_keys (entries : List (κ × α × List α)) :
    (changeEntry k change entries).map Prod.fst =
      if k ∈ entries.map Prod.fst then entries.map Prod.fst else entries.map Prod.fst ++ [k] := by
  induction entries with
  | nil => rfl
  | cons e rest ih =>
    by_cases hk : e.1 = k
    · simp [changeEntry, hk]
    · have hne : ¬ k = e.1 := fun h => hk h.symm
      rw [changeEntry, if_neg hk, List.map_cons, ih]
      by_cases hmem : k ∈ rest.map Prod.fst <;> simp [hmem, hne]

theorem changeEntry_nodup {entries : List (κ × α × List α)}
    (h : (entries.map Prod.fst).Nodup) : ((changeEntry k change entries).map Prod.fst).Nodup := by
  rw [changeEntry_keys]
  split
  · exact h
  · next hmem =>
    rw [← List.concat_eq_append]
    exact h.concat hmem

theorem valuesOf_changeEntry (entries : List (κ × α × List α)) (k' : κ) :
    valuesOf k' (changeEntry k change entries) =
      if k' = k then (change (valuesOf k entries)).1 :: (change (valuesOf k entries)).2
      else valuesOf k' entries := by
  induction entries with
  | nil => by_cases hk : k = k' <;> simp [changeEntry, valuesOf, hk, eq_comm]
  | cons e rest ih =>
    by_cases he : e.1 = k
    · subst he
      by_cases hk : e.1 = k'
      · simp [changeEntry, valuesOf, hk]
      · simp [changeEntry, valuesOf, hk, Ne.symm hk]
    · rw [changeEntry, if_neg he, valuesOf, valuesOf, valuesOf, ih, if_neg he]
      by_cases hk : k' = k
      · subst hk
        simp [he]
      · simp [hk]

theorem valuesOf_eq_nil {entries : List (κ × α × List α)} (h : k ∉ entries.map Prod.fst) :
    valuesOf k entries = [] := by
  induction entries with
  | nil => rfl
  | cons e rest ih =>
    rw [List.map_cons, List.mem_cons, not_or] at h
    rw [valuesOf, if_neg fun he => h.1 he.symm, ih h.2]

/-- All the values of the keys, those of one key behind one another. -/
def pairs (entries : List (κ × α × List α)) : List (κ × α) :=
  entries.flatMap fun e => (e.2.1 :: e.2.2).map (e.1, ·)

theorem filter_pairs {entries : List (κ × α × List α)} (h : (entries.map Prod.fst).Nodup) (k : κ) :
    ((pairs entries).filter fun e => e.1 = k).map Prod.snd = valuesOf k entries := by
  induction entries with
  | nil => rfl
  | cons e rest ih =>
    rw [List.map_cons, List.nodup_cons] at h
    rw [pairs, List.flatMap_cons, List.filter_append, List.map_append, ← pairs, ih h.2, valuesOf]
    by_cases hk : e.1 = k
    · subst hk
      rw [if_pos rfl, valuesOf_eq_nil h.1, List.append_nil]
      simp [List.filter_map, Function.comp_def]
    · rw [if_neg hk]
      simp [List.filter_map, Function.comp_def, hk]

end

variable {κ α : Type} [DecidableEq κ]

def empty : EntryMap κ α := ⟨[], by simp⟩

def change (m : EntryMap κ α) (k : κ) (f : List α → α × List α) : EntryMap κ α :=
  ⟨changeEntry k f m.entries, changeEntry_nodup m.nodup⟩

/-- One value in the place of all that the key has. -/
def insert (m : EntryMap κ α) (k : κ) (v : α) : EntryMap κ α := m.change k fun _ => (v, [])

/-- One more value. -/
def append (m : EntryMap κ α) (k : κ) (v : α) : EntryMap κ α :=
  m.change k fun
    | [] => (v, [])
    | first :: rest => (first, rest ++ [v])

/-- It is a map with several values under a key. -/
def valueMap : ValueMap κ α (EntryMap κ α) where
  empty := empty
  insert := insert
  get m k := (valuesOf k m.entries).head?
  getAll m k := valuesOf k m.entries
  iter m := pairs m.entries
  getAll_empty _ := rfl
  getAll_insert m _ _ k' := valuesOf_changeEntry m.entries k'
  get_eq _ _ := rfl
  getAll_iter m k := filter_pairs m.nodup k

/-- One more value is behind the others. -/
theorem getAll_append (m : EntryMap κ α) (k : κ) (v : α) (k' : κ) :
    valueMap.getAll (m.append k v) k' =
      if k' = k then valueMap.getAll m k ++ [v] else valueMap.getAll m k' := by
  have h : valueMap.getAll (m.append k v) k' = _ := valuesOf_changeEntry m.entries k'
  rw [h]
  split
  · simp only [valueMap]
    cases valuesOf k m.entries <;> rfl
  · rfl

/-! ## Related values -/

section
variable {r : κ → α → α → Prop} {m m' : EntryMap κ α} {k : κ} {v v' : α}

def RelEntry (r : κ → α → α → Prop) (e e' : κ × α × List α) : Prop :=
  e.1 = e'.1 ∧ List.Forall₂ (r e.1) (e.2.1 :: e.2.2) (e'.2.1 :: e'.2.2)

/-- The same keys in the same order, with related values. -/
def Rel (r : κ → α → α → Prop) (m m' : EntryMap κ α) : Prop :=
  List.Forall₂ (RelEntry r) m.entries m'.entries

theorem rel_empty {κ α : Type} [DecidableEq κ] {r : κ → α → α → Prop} :
    Rel r (valueMap.empty : EntryMap κ α) valueMap.empty := .nil

theorem Rel.insert (h : Rel r m m') (hv : r k v v') : Rel r (m.insert k v) (m'.insert k v') := by
  obtain ⟨entries, nodup⟩ := m
  obtain ⟨entries', nodup'⟩ := m'
  show List.Forall₂ (RelEntry r) (changeEntry k (fun _ => (v, [])) entries)
    (changeEntry k (fun _ => (v', [])) entries')
  replace h : List.Forall₂ (RelEntry r) entries entries' := h
  clear nodup nodup'
  have hnew : RelEntry r (k, v, []) (k, v', []) := ⟨rfl, .cons hv .nil⟩
  induction h with
  | nil => exact .cons hnew .nil
  | @cons e e' rest rest' he hrest ih =>
    rw [changeEntry, changeEntry, ← he.1]
    split
    · exact .cons hnew hrest
    · exact .cons he ih

theorem Rel.iter (h : Rel r m m') :
    List.Forall₂ (fun p p' => p.1 = p'.1 ∧ r p.1 p.2 p'.2) (valueMap.iter m)
      (valueMap.iter m') := by
  refine List.rel_flatMap h fun e e' he => ?_
  obtain ⟨hkey, hvalues⟩ := he
  rw [← hkey]
  exact List.forall₂_map_left_iff.mpr (List.forall₂_map_right_iff.mpr
    (hvalues.imp fun _ _ hr => ⟨rfl, hr⟩))

theorem Rel.get (h : Rel r m m') (k : κ) :
    Option.Rel (r k) (valueMap.get m k) (valueMap.get m' k) := by
  obtain ⟨entries, nodup⟩ := m
  obtain ⟨entries', nodup'⟩ := m'
  show Option.Rel (r k) (valuesOf k entries).head? (valuesOf k entries').head?
  replace h : List.Forall₂ (RelEntry r) entries entries' := h
  clear nodup nodup'
  induction h with
  | nil => exact .none
  | @cons e e' rest rest' he hrest ih =>
    obtain ⟨hkey, hvalues⟩ := he
    rw [valuesOf, valuesOf, ← hkey]
    split
    · next hk =>
      subst hk
      cases hvalues with
      | cons hv => exact .some hv
    · exact ih

/-- **A loop over related maps, of inserts into related maps.** -/
theorem Rel.foldl {out out' : EntryMap κ α} (h : Rel r m m') (hout : Rel r out out')
    (p : κ → Bool) :
    Rel r
      ((valueMap.iter m).foldl (fun out e => if p e.1 then valueMap.insert out e.1 e.2 else out) out)
      ((valueMap.iter m').foldl (fun out e => if p e.1 then valueMap.insert out e.1 e.2 else out)
        out') := by
  have hiter := h.iter
  generalize valueMap.iter m = kvs at hiter ⊢
  generalize valueMap.iter m' = kvs' at hiter ⊢
  revert hout
  induction hiter generalizing out out' with
  | nil => exact id
  | cons he _ ih =>
    intro hout
    obtain ⟨hkey, hr⟩ := he
    rw [List.foldl_cons, List.foldl_cons, ← hkey]
    apply ih
    split
    · exact Rel.insert hout hr
    · exact hout

end

end EntryMap

end InfSplitter.Lib
