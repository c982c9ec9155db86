import Mathlib.Algebra.BigOperators.Group.List.Basic
import Mathlib.Algebra.GroupWithZero.Nat
import Mathlib.Data.List.Perm.Basic
import Std.Data.ExtTreeMap

/-!
# Sums over ordered maps

`sumOf f m` adds a weight over the entries of an ordered map. Inserting and erasing change the sum
by the weight of the entry that is written and of the entry that was there.
-/

namespace TreeMap

open Std

variable {α β : Type} [Ord α] [TransOrd α] [LawfulEqOrd α]

/-- The sum of a weight over the entries of a map. -/
def sumOf (f : α → β → Nat) (m : ExtTreeMap α β) : Nat :=
  (m.toList.map fun entry => f entry.1 entry.2).sum

/-- The weight of the entry of a key, if there is one. -/
def weightAt (f : α → β → Nat) (m : ExtTreeMap α β) (k : α) : Nat :=
  m[k]?.elim 0 (f k)

omit [LawfulEqOrd α] in
theorem nodup_toList (m : ExtTreeMap α β) : m.toList.Nodup :=
  m.distinct_keys_toList.imp fun h heq => h (by simp [heq])

@[simp] theorem getElem?_insert' (m : ExtTreeMap α β) (k a : α) (v : β) [DecidableEq α] :
    (m.insert k v)[a]? = if k = a then some v else m[a]? := by
  simp [ExtTreeMap.getElem?_insert]

@[simp] theorem getElem?_erase' (m : ExtTreeMap α β) (k a : α) [DecidableEq α] :
    (m.erase k)[a]? = if k = a then none else m[a]? := by
  simp [ExtTreeMap.getElem?_erase]

/-- Keys that are erased in turn are gone, and the others stay. -/
theorem getElem?_foldl_erase [DecidableEq α] (keys : List α) (m : ExtTreeMap α β) (a : α) :
    (keys.foldl ExtTreeMap.erase m)[a]? = if a ∈ keys then none else m[a]? := by
  induction keys generalizing m with
  | nil => simp
  | cons k keys ih =>
    rw [List.foldl_cons, ih, getElem?_erase']
    by_cases h : k = a
    · simp [h]
    · simp [h, Ne.symm h]

/-- The entries of a map with one key set are that entry and the entries of the other keys. -/
theorem toList_insert_perm (m : ExtTreeMap α β) (k : α) (v : β) :
    (m.insert k v).toList.Perm ((k, v) :: (m.erase k).toList) := by
  classical
  have hnot : (k, v) ∉ (m.erase k).toList := by
    simp [ExtTreeMap.mem_toList_iff_getElem?_eq_some]
  refine (List.perm_ext_iff_of_nodup (nodup_toList _)
    (List.nodup_cons.mpr ⟨hnot, nodup_toList _⟩)).mpr ?_
  rintro ⟨a, b⟩
  rw [List.mem_cons, ExtTreeMap.mem_toList_iff_getElem?_eq_some,
    ExtTreeMap.mem_toList_iff_getElem?_eq_some, getElem?_insert', getElem?_erase', Prod.mk.injEq]
  by_cases h : k = a
  · simp [h, eq_comm]
  · simp [h, Ne.symm h]

variable {m : ExtTreeMap α β} {k : α} {v : β}

/-- A map that holds an entry is the map with that entry set. -/
theorem insert_getElem? (h : m[k]? = some v) : m.insert k v = m := by
  classical
  refine ExtTreeMap.ext_getElem? fun a => ?_
  rw [getElem?_insert']
  split
  · rename_i heq
    rw [← heq, h]
  · rfl

/-- Erasing a key that is not there changes nothing. -/
theorem erase_of_getElem?_eq_none (h : m[k]? = none) : m.erase k = m := by
  classical
  refine ExtTreeMap.ext_getElem? fun a => ?_
  rw [getElem?_erase']
  split
  · rename_i heq
    rw [← heq, h]
  · rfl

omit [LawfulEqOrd α] in
@[simp] theorem sumOf_empty (f : α → β → Nat) : sumOf f (∅ : ExtTreeMap α β) = 0 := by
  have h : (∅ : ExtTreeMap α β).toList = [] := List.eq_nil_of_length_eq_zero (by simp)
  simp [sumOf, h]

/-- Setting a key adds its new weight to the weights of the other keys. -/
theorem sumOf_insert_erase (f : α → β → Nat) (m : ExtTreeMap α β) (k : α) (v : β) :
    sumOf f (m.insert k v) = f k v + sumOf f (m.erase k) := by
  simpa [sumOf] using
    ((toList_insert_perm m k v).map fun entry => f entry.1 entry.2).sum_eq

/-- Erasing a key takes its weight off. -/
theorem sumOf_erase (f : α → β → Nat) (m : ExtTreeMap α β) (k : α) :
    sumOf f (m.erase k) + weightAt f m k = sumOf f m := by
  cases h : m[k]? with
  | none => simp [weightAt, h, erase_of_getElem?_eq_none h]
  | some v =>
    have := sumOf_insert_erase f m k v
    rw [insert_getElem? h] at this
    simp [weightAt, h, this, Nat.add_comm]

/-- Setting a key replaces its old weight by its new one. -/
theorem sumOf_insert (f : α → β → Nat) (m : ExtTreeMap α β) (k : α) (v : β) :
    sumOf f (m.insert k v) + weightAt f m k = f k v + sumOf f m := by
  rw [sumOf_insert_erase, Nat.add_assoc, sumOf_erase]

/-- The weight of one entry is part of the sum. -/
theorem weightAt_le_sumOf (f : α → β → Nat) (m : ExtTreeMap α β) (k : α) :
    weightAt f m k ≤ sumOf f m := by
  have := sumOf_erase f m k
  omega

/-! ## Building a map from a list -/

/-- Insert the entries of a list, one after the other. -/
def insertAll (m : ExtTreeMap α β) (entries : List (α × β)) : ExtTreeMap α β :=
  entries.foldl (fun acc entry => acc.insert entry.1 entry.2) m

/-- A key that is not in the list keeps its entry. -/
theorem getElem?_insertAll_of_notMem {entries : List (α × β)} (h : k ∉ entries.map Prod.fst) :
    (insertAll m entries)[k]? = m[k]? := by
  classical
  induction entries generalizing m with
  | nil => rfl
  | cons entry entries ih =>
    simp only [List.map_cons, List.mem_cons, not_or] at h
    rw [insertAll, List.foldl_cons, ← insertAll, ih h.2, getElem?_insert', if_neg (Ne.symm h.1)]

/-- An entry of a list without repeated keys is an entry of the map. -/
theorem getElem?_insertAll_of_mem {entries : List (α × β)}
    (hdistinct : (entries.map Prod.fst).Nodup) (h : (k, v) ∈ entries) :
    (insertAll m entries)[k]? = some v := by
  classical
  induction entries generalizing m with
  | nil => cases h
  | cons entry entries ih =>
    rw [List.map_cons, List.nodup_cons] at hdistinct
    rw [insertAll, List.foldl_cons, ← insertAll]
    rcases List.mem_cons.mp h with rfl | hmem
    · rw [getElem?_insertAll_of_notMem hdistinct.1, getElem?_insert', if_pos rfl]
    · exact ih hdistinct.2 hmem

/-- The keys of a map are listed once. -/
theorem nodup_keys_toList (m : ExtTreeMap α β) : (m.toList.map Prod.fst).Nodup := by
  refine List.pairwise_map.mpr (m.distinct_keys_toList.imp fun h heq => h ?_)
  rw [heq]
  exact compare_self

/-- A map is built from the list of its entries. -/
theorem insertAll_toList (m : ExtTreeMap α β) : insertAll ∅ m.toList = m := by
  refine ExtTreeMap.ext_getElem? fun k => ?_
  cases h : m[k]? with
  | some v =>
    exact getElem?_insertAll_of_mem (nodup_keys_toList m)
      (ExtTreeMap.mem_toList_iff_getElem?_eq_some.mpr h)
  | none =>
    rw [getElem?_insertAll_of_notMem]
    · simp
    · intro hmem
      obtain ⟨⟨_, v⟩, hentry, rfl⟩ := List.mem_map.mp hmem
      rw [ExtTreeMap.mem_toList_iff_getElem?_eq_some.mp hentry] at h
      cases h

/-! ## Order -/

/-- Maps with the same keys list them in the same order. -/
theorem keys_eq_of_mem_iff {γ : Type} {m' : ExtTreeMap α γ} (h : ∀ k, k ∈ m ↔ k ∈ m') :
    m.keys = m'.keys := by
  refine List.Perm.eq_of_pairwise (fun a b _ _ hab hba => ?_) m.ordered_keys m'.ordered_keys
    ((List.perm_ext_iff_of_nodup m.nodup_keys m'.nodup_keys).mpr fun k => ?_)
  · exact absurd hba (OrientedCmp.not_lt_of_lt hab)
  · rw [ExtTreeMap.mem_keys, ExtTreeMap.mem_keys, h]

/-- A key above all others is listed last. -/
theorem toList_insert_of_lt (h : ∀ k' ∈ m, compare k' k = .lt) :
    (m.insert k v).toList = m.toList ++ [(k, v)] := by
  have hnone : m[k]? = none := by
    rw [← Option.not_isSome_iff_eq_none, ← ExtTreeMap.mem_iff_isSome_getElem?]
    intro hmem
    have hself := h k hmem
    rw [compare_self] at hself
    cases hself
  have hperm := toList_insert_perm m k v
  rw [erase_of_getElem?_eq_none hnone] at hperm
  refine List.Perm.eq_of_pairwise (fun a b _ _ hab hba => ?_) (m.insert k v).ordered_keys_toList
    (List.pairwise_append.mpr ⟨m.ordered_keys_toList, List.pairwise_singleton _ _, ?_⟩)
    (hperm.trans (List.perm_append_singleton _ _).symm)
  · exact absurd hba (OrientedCmp.not_lt_of_lt hab)
  · rintro ⟨k', v'⟩ hmem _ hlast
    rw [List.mem_singleton.mp hlast]
    refine h k' (ExtTreeMap.mem_iff_isSome_getElem?.mpr ?_)
    rw [ExtTreeMap.mem_toList_iff_getElem?_eq_some.mp hmem]
    rfl

omit [LawfulEqOrd α] in
/-- The sum over the values of a map whose values are changed. -/
theorem sumOf_map {γ : Type} (f : α → γ → Nat) (g : α → β → γ) (m : ExtTreeMap α β) :
    sumOf f (m.map g) = sumOf (fun k v => f k (g k v)) m := by
  simp [sumOf, ExtTreeMap.toList_map, Function.comp_def]

end TreeMap
