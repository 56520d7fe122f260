import Mathlib.Data.List.AList

/-!
# Multi-valued association maps

A map from keys to lists, grown one value at a time: `entry(k).or_default().push(v)` on a
`HashMap<K, Vec<V>>`. A key that was never pushed to reads as the empty list, so `get` is total and
the two ways a key can hold nothing (absent, or present with an empty list) are not told apart.

What a batch of pushes does is `get_pushAll`: it appends, under each key and in order, exactly the
values pushed there. `get_foldl_erase` is its counterpart for a batch of removals.
-/

set_option autoImplicit false

namespace InfSplitter.Lib

/-- A batch of removals from any association map. -/
theorem lookup_foldl_erase {κ V : Type} [DecidableEq κ] (m : AList fun _ : κ => V) (ks : List κ)
    (k : κ) :
    (ks.foldl (fun m k => m.erase k) m).lookup k = if k ∈ ks then none else m.lookup k := by
  induction ks generalizing m with
  | nil => rfl
  | cons k' rest ih =>
    rw [List.foldl_cons, ih]
    by_cases hrest : k ∈ rest
    · rw [if_pos hrest, if_pos (List.mem_cons_of_mem _ hrest)]
    · by_cases hk : k = k'
      · subst hk
        rw [if_neg hrest, if_pos List.mem_cons_self, AList.lookup_erase]
      · rw [if_neg hrest, if_neg (by simp [hk, hrest]), AList.lookup_erase_ne hk]

/-- A map whose every key holds a list of values. -/
abbrev MultiMap (κ α : Type) := AList fun _ : κ => List α

namespace MultiMap

variable {κ α : Type} [DecidableEq κ]

/-- The values under `k`, the empty list when `k` is absent. -/
def get (m : MultiMap κ α) (k : κ) : List α := (m.lookup k).getD []

/-- Append one value under `k`, creating the entry if it is missing. -/
def push (m : MultiMap κ α) (k : κ) (v : α) : MultiMap κ α := m.insert k (m.get k ++ [v])

/-- Push every pair of a list, in order. -/
def pushAll (m : MultiMap κ α) (kvs : List (κ × α)) : MultiMap κ α :=
  kvs.foldl (fun m kv => m.push kv.1 kv.2) m

@[simp] theorem get_empty (k : κ) : (∅ : MultiMap κ α).get k = [] := by
  simp [get]

@[simp] theorem get_push_self (m : MultiMap κ α) (k : κ) (v : α) :
    (m.push k v).get k = m.get k ++ [v] := by
  simp [get, push]

theorem get_push_ne (m : MultiMap κ α) {k k' : κ} (v : α) (h : k' ≠ k) :
    (m.push k v).get k' = m.get k' := by
  simp [get, push, AList.lookup_insert_ne h]

@[simp] theorem pushAll_nil (m : MultiMap κ α) : m.pushAll [] = m := rfl

@[simp] theorem pushAll_cons (m : MultiMap κ α) (kv : κ × α) (kvs : List (κ × α)) :
    m.pushAll (kv :: kvs) = (m.push kv.1 kv.2).pushAll kvs := rfl

/-- **A batch of pushes appends under each key exactly the values pushed there, in order.** -/
theorem get_pushAll (m : MultiMap κ α) (kvs : List (κ × α)) (k : κ) :
    (m.pushAll kvs).get k = m.get k ++ (kvs.filter fun kv => kv.1 = k).map Prod.snd := by
  induction kvs generalizing m with
  | nil => simp
  | cons kv rest ih =>
    rw [pushAll_cons, ih]
    by_cases hk : kv.1 = k
    · subst hk
      simp
    · rw [get_push_ne _ _ (Ne.symm hk)]
      simp [hk]

theorem mem_get_pushAll {m : MultiMap κ α} {kvs : List (κ × α)} {k : κ} {v : α} :
    v ∈ (m.pushAll kvs).get k ↔ v ∈ m.get k ∨ (k, v) ∈ kvs := by
  rw [get_pushAll, List.mem_append, List.mem_map]
  refine or_congr Iff.rfl ⟨?_, fun h => ⟨(k, v), by simpa using h, rfl⟩⟩
  rintro ⟨⟨k', v'⟩, hmem, rfl⟩
  obtain ⟨hin, hk⟩ := List.mem_filter.mp hmem
  have hk' : k' = k := by simpa using hk
  exact hk' ▸ hin

@[simp] theorem pushAll_append (m : MultiMap κ α) (kvs kvs' : List (κ × α)) :
    m.pushAll (kvs ++ kvs') = (m.pushAll kvs).pushAll kvs' := List.foldl_append

theorem get_foldl_erase (m : MultiMap κ α) (ks : List κ) (k : κ) :
    get (ks.foldl (fun m k => m.erase k) m) k = if k ∈ ks then [] else m.get k := by
  rw [get, lookup_foldl_erase]
  split <;> rfl

end MultiMap

end InfSplitter.Lib
