import CartridgeRuntime.Library.TreeMap

/-!
# The difference of two maps

With respect to an old map, the entries of a new one are added, replaced or unchanged, and the keys
of the old map are kept or removed. The counts add up to the sizes of the two maps
(`added_add_replaced_add_unchanged`, `replaced_add_unchanged_add_removed`), and the maps are equal
exactly when nothing is added, replaced or removed (`eq_iff_no_difference`).
-/

namespace TreeMap

open Std

variable {α β : Type} [Ord α] [TransOrd α] [LawfulEqOrd α] [DecidableEq β]

/-- The entries of the new map whose keys the old one does not have. -/
def added (old new : ExtTreeMap α β) : Nat :=
  new.toList.countP fun entry => old[entry.1]? = none

/-- The entries of the new map that the old one has. -/
def unchanged (old new : ExtTreeMap α β) : Nat :=
  new.toList.countP fun entry => old[entry.1]? = some entry.2

/-- The entries of the new map that have another value in the old one. -/
def replaced (old new : ExtTreeMap α β) : Nat :=
  new.toList.countP fun entry => old[entry.1]? ≠ none ∧ old[entry.1]? ≠ some entry.2

/-- The keys of the old map that the new one does not have. -/
def removed (old new : ExtTreeMap α β) : Nat :=
  old.keys.countP fun key => new[key]? = none

omit [LawfulEqOrd α] in
/-- Every entry of the new map is one of the three. -/
theorem added_add_replaced_add_unchanged (old new : ExtTreeMap α β) :
    added old new + replaced old new + unchanged old new = new.size := by
  rw [← ExtTreeMap.length_toList, added, replaced, unchanged]
  induction new.toList with
  | nil => rfl
  | cons entry entries ih =>
    simp only [List.countP_cons, List.length_cons, decide_eq_true_eq, ne_eq] at ih ⊢
    by_cases hnone : old[entry.1]? = none
    · simp only [hnone, not_true_eq_false, false_and, if_true, if_false, reduceCtorEq]
      omega
    · by_cases hsome : old[entry.1]? = some entry.2
      · simp only [hsome, reduceCtorEq, not_false_eq_true, not_true_eq_false, and_false, if_true,
          if_false]
        omega
      · simp only [hnone, hsome, not_false_eq_true, and_self, if_true, if_false]
        omega

omit [DecidableEq β] in
/-- The keys of a map that another one has are the keys of the other that it has. -/
theorem filter_keys_perm (old new : ExtTreeMap α β) :
    (new.keys.filter fun key => old[key]?.isSome).Perm
      (old.keys.filter fun key => new[key]?.isSome) := by
  have hnodup : ∀ m : ExtTreeMap α β, m.keys.Nodup := fun m => by
    rw [← ExtTreeMap.map_fst_toList_eq_keys]
    exact nodup_keys_toList m
  refine (List.perm_ext_iff_of_nodup ((hnodup _).filter _) ((hnodup _).filter _)).mpr fun key => ?_
  simp only [List.mem_filter, ExtTreeMap.mem_keys, ExtTreeMap.mem_iff_isSome_getElem?]
  exact and_comm

/-- Every key of the old map has another value, the same value or none in the new map. -/
theorem replaced_add_unchanged_add_removed (old new : ExtTreeMap α β) :
    replaced old new + unchanged old new + removed old new = old.size := by
  -- The entries that are not added are those whose keys are in both maps.
  have hadded : added old new + (new.keys.filter fun key => old[key]?.isSome).length = new.size := by
    rw [added, ← List.countP_eq_length_filter, ← ExtTreeMap.map_fst_toList_eq_keys,
      List.countP_map, ← ExtTreeMap.length_toList, List.length_eq_countP_add_countP]
    congr 1
    refine List.countP_congr fun entry _ => ?_
    rw [Function.comp_apply]
    generalize old[entry.1]? = found
    cases found <;> simp
  have hremoved : removed old new + (old.keys.filter fun key => new[key]?.isSome).length
      = old.size := by
    rw [removed, ← List.countP_eq_length_filter, ← ExtTreeMap.length_keys,
      List.length_eq_countP_add_countP]
    congr 1
    refine List.countP_congr fun key _ => ?_
    generalize new[key]? = found
    cases found <;> simp
  have hall := added_add_replaced_add_unchanged old new
  have hcommon := (filter_keys_perm old new).length_eq
  omega

/-- Two maps are equal exactly when nothing is added, replaced or removed. -/
theorem eq_iff_no_difference (old new : ExtTreeMap α β) :
    old = new ↔ added old new = 0 ∧ replaced old new = 0 ∧ removed old new = 0 := by
  simp only [added, replaced, removed, List.countP_eq_zero, decide_eq_true_eq, not_and, not_not]
  constructor
  · rintro rfl
    refine ⟨fun entry hmem hnone => ?_, fun entry hmem _ => ?_, fun key hmem hnone => ?_⟩
    · rw [ExtTreeMap.mem_toList_iff_getElem?_eq_some, hnone] at hmem
      cases hmem
    · exact ExtTreeMap.mem_toList_iff_getElem?_eq_some.mp hmem
    · rw [ExtTreeMap.mem_keys, ExtTreeMap.mem_iff_isSome_getElem?, hnone] at hmem
      cases hmem
  · rintro ⟨hadded, hreplaced, hremoved⟩
    refine ExtTreeMap.ext_getElem? fun key => ?_
    cases hnew : new[key]? with
    | some value =>
      have hmem := ExtTreeMap.mem_toList_iff_getElem?_eq_some.mpr hnew
      exact hreplaced (key, value) hmem (hadded (key, value) hmem)
    | none =>
      by_contra hold
      refine hremoved key ?_ hnew
      rw [ExtTreeMap.mem_keys, ExtTreeMap.mem_iff_isSome_getElem?]
      exact Option.isSome_iff_ne_none.mpr hold

end TreeMap
