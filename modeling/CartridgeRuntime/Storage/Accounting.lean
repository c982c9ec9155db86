import CartridgeRuntime.Storage.Basic

/-!
# Accounting

The backends keep the usage of a namespace by adding and subtracting what a write changes. Here it
is shown that the sums are right: `admitValue` and `applyMutations` return the true usage of the
entries they lead to, and stay within the limits.
-/

namespace CartridgeRuntime.Storage

open Checked Std

/-- The bytes of all values. -/
def totalBytes (entries : Entries) : Nat :=
  TreeMap.sumOf (fun _ value => value.length) entries

/-- The true usage of some entries. -/
def trueUsage (entries : Entries) : StorageUsage :=
  ⟨totalBytes entries, entries.size⟩

/-- The bytes of the value of a key, or 0. -/
def valueBytes (entries : Entries) (key : String) : Nat :=
  entries[key]?.elim 0 List.length

theorem totalBytes_insert (entries : Entries) (key : String) (value : List UInt8) :
    totalBytes (entries.insert key value) + valueBytes entries key
      = value.length + totalBytes entries :=
  TreeMap.sumOf_insert _ entries key value

theorem totalBytes_erase (entries : Entries) (key : String) :
    totalBytes (entries.erase key) + valueBytes entries key = totalBytes entries :=
  TreeMap.sumOf_erase _ entries key

theorem valueBytes_le (entries : Entries) (key : String) :
    valueBytes entries key ≤ totalBytes entries :=
  TreeMap.weightAt_le_sumOf (fun (_ : String) (value : List UInt8) => value.length) entries key

variable {entries : Entries} {key : String} {limits : StorageLimits} {mutation : StorageMutation}
    {mutations : List StorageMutation}

/-- Adding an entry for a new key adds its bytes. -/
theorem totalBytes_insert_new (h : entries[key]? = none) (value : List UInt8) :
    totalBytes (entries.insert key value) = totalBytes entries + value.length := by
  have := totalBytes_insert entries key value
  simp only [valueBytes, h, Option.elim_none] at this
  omega

theorem size_insert_new (h : entries[key]? = none) (value : List UInt8) :
    (entries.insert key value).size = entries.size + 1 := by
  rw [ExtTreeMap.size_insert, ExtTreeMap.contains_eq_isSome_getElem?, h]
  rfl

theorem size_insert_old {current : List UInt8} (h : entries[key]? = some current)
    (value : List UInt8) : (entries.insert key value).size = entries.size := by
  rw [ExtTreeMap.size_insert, ExtTreeMap.contains_eq_isSome_getElem?, h]
  rfl

theorem size_erase_old {current : List UInt8} (h : entries[key]? = some current) :
    (entries.erase key).size + 1 = entries.size := by
  have herased : (entries.erase key)[key]? = none := by simp
  have hinsert := size_insert_new herased current
  rw [← hinsert]
  congr 1
  refine ExtTreeMap.ext_getElem? fun k => ?_
  by_cases hk : key = k
  · simp [← hk, h]
  · simp [hk]

/-! ## Single writes -/

/-- An admitted value leads to the bytes that `admitValue` returns, which are within the limits, and
to a number of keys that is within them unless there were too many before. -/
theorem admitValue_eq_ok {value : List UInt8} {nextBytes : Nat}
    (h : admitValue entries (totalBytes entries) key value limits = .ok nextBytes) :
    nextBytes = totalBytes (entries.insert key value) ∧ nextBytes ≤ limits.maxBytes ∧
      (entries.insert key value).size ≤ max entries.size limits.maxKeys := by
  simp only [admitValue, bind_eq_ok, exists_unit, okOr_eq_ok, rejectIf_eq_ok, Option.bind_eq_some_iff,
    checkedSub_eq_some, checkedAdd_eq_some, pure_eq_ok, Except.ok.injEq] at h
  obtain ⟨bytes, ⟨_, ⟨-, rfl⟩, -, rfl⟩, hquota, hkeys, rfl⟩ := h
  have hinsert := totalBytes_insert entries key value
  have hle := valueBytes_le entries key
  unfold valueBytes at hinsert hle
  refine ⟨by omega, by omega, ?_⟩
  cases hcurrent : entries[key]? with
  | none =>
    rw [size_insert_new hcurrent]
    simp only [hcurrent, Option.isNone_none, true_and] at hkeys
    omega
  | some current =>
    rw [size_insert_old hcurrent]
    exact le_max_left _ _

/-! ## Batches -/

/-- The mutations passed `validateMutations`. -/
structure ValidMutations (mutations : List StorageMutation) (limits : StorageLimits) : Prop where
  limits_valid : limits.Valid
  key_valid : ∀ mutation ∈ mutations, validateKey mutation.key = .ok ()
  value_le : ∀ mutation ∈ mutations, ∀ value ∈ mutation.value, value.length ≤ limits.maxValueBytes
  keys_distinct : (mutations.map StorageMutation.key).Nodup

/-- What one turn of the loop of `validateMutations` has checked. -/
theorem validateMutation_eq_ok {input next : MutationInput}
    (h : validateMutation limits input mutation = .ok next) :
    validateKey mutation.key = .ok () ∧ mutation.key ∉ input.keys ∧
      (∀ value ∈ mutation.value, value.length ≤ limits.maxValueBytes) ∧
      next.keys = mutation.key :: input.keys := by
  simp only [validateMutation, bind_eq_ok, exists_unit, rejectIf_eq_ok, pure_eq_ok,
    Except.ok.injEq] at h
  obtain ⟨hkey, hnew, bytes, -, hvalue, rfl⟩ := h
  refine ⟨hkey, hnew, fun value hmem => ?_, rfl⟩
  rw [Option.mem_def.mp hmem, Option.elim_some, rejectIf_eq_ok] at hvalue
  omega

/-- What the whole loop of `validateMutations` has checked. -/
theorem foldlM_validateMutation {input result : MutationInput}
    (h : mutations.foldlM (validateMutation limits) input = .ok result) :
    (∀ mutation ∈ mutations, validateKey mutation.key = .ok () ∧
      (∀ value ∈ mutation.value, value.length ≤ limits.maxValueBytes) ∧
      mutation.key ∉ input.keys) ∧ (mutations.map StorageMutation.key).Nodup := by
  induction mutations generalizing input with
  | nil => simp
  | cons mutation mutations ih =>
    rw [List.foldlM_cons, bind_eq_ok] at h
    obtain ⟨next, hstep, hrest⟩ := h
    obtain ⟨hkey, hnew, hvalue, hnext⟩ := validateMutation_eq_ok hstep
    obtain ⟨hall, hdistinct⟩ := ih hrest
    rw [hnext] at hall
    refine ⟨?_, ?_⟩
    · intro other hmem
      rcases List.mem_cons.mp hmem with rfl | hmem
      · exact ⟨hkey, hvalue, hnew⟩
      · obtain ⟨hkey', hvalue', hnew'⟩ := hall other hmem
        exact ⟨hkey', hvalue', fun hin => hnew' (List.mem_cons_of_mem _ hin)⟩
    · rw [List.map_cons, List.nodup_cons]
      refine ⟨fun hin => ?_, hdistinct⟩
      obtain ⟨other, hmem, heq⟩ := List.mem_map.mp hin
      exact (hall other hmem).2.2 (by simp [heq])

theorem validateMutations_eq_ok (h : validateMutations mutations limits = .ok ()) :
    ValidMutations mutations limits := by
  simp only [validateMutations, bind_eq_ok, exists_unit, validateLimits_eq_ok] at h
  obtain ⟨hlimits, -, input, hloop, -⟩ := h
  obtain ⟨hall, hdistinct⟩ := foldlM_validateMutation hloop
  exact ⟨hlimits, fun mutation hmem => (hall mutation hmem).1,
    fun mutation hmem => (hall mutation hmem).2.1, hdistinct⟩

theorem validateCompareExchange_eq_ok {expected replacement : Option (List UInt8)}
    (h : validateCompareExchange key expected replacement limits = .ok ()) :
    ValidMutations [⟨key, replacement⟩] limits := by
  simp only [validateCompareExchange, bind_eq_ok, exists_unit] at h
  obtain ⟨_, -, -, hmutations, -⟩ := h
  exact validateMutations_eq_ok hmutations

/-- A mutation that agrees with the entries changes nothing. -/
theorem applyMutation_same (h : entries[mutation.key]? = mutation.value) :
    applyMutation entries mutation = entries := by
  unfold applyMutation
  cases hvalue : mutation.value with
  | some value => exact TreeMap.insert_getElem? (h.trans hvalue)
  | none => exact TreeMap.erase_of_getElem?_eq_none (h.trans hvalue)

/-- A mutation only touches its own key. -/
theorem getElem?_applyMutation_of_ne (h : mutation.key ≠ key) :
    (applyMutation entries mutation)[key]? = entries[key]? := by
  unfold applyMutation
  cases mutation.value <;> simp [h]

/-- After a mutation its key has its value. -/
theorem getElem?_applyMutation_self (entries : Entries) (mutation : StorageMutation) :
    (applyMutation entries mutation)[mutation.key]? = mutation.value := by
  unfold applyMutation
  cases mutation.value <;> simp

/-- The totals account for the difference between two entry maps, beyond what they held before. -/
structure Balances (before after : Entries) (old new : MutationTotals) : Prop where
  bytes : totalBytes after + new.removedBytes + old.addedBytes
    = totalBytes before + new.addedBytes + old.removedBytes
  keys : after.size + new.removedKeys + old.addedKeys
    = before.size + new.addedKeys + old.removedKeys
  changed : new.changed = false → after = before ∧ old.changed = false

/-- One turn of the counting loop accounts for one mutation. -/
theorem countMutation_balances {acc : Entries} {totals next : MutationTotals}
    (h : countMutation entries limits totals mutation = .ok next)
    (hcurrent : acc[mutation.key]? = entries[mutation.key]?) :
    Balances acc (applyMutation acc mutation) totals next := by
  unfold countMutation at h
  simp only at h
  split at h
  · rename_i hsame
    cases h
    rw [applyMutation_same (hcurrent.trans hsame)]
    exact ⟨by omega, by omega, fun hchanged => ⟨rfl, hchanged⟩⟩
  · rename_i hdiffers
    simp only [bind_eq_ok, pure_eq_ok, Except.ok.injEq] at h
    obtain ⟨removed, hremoved, added, hadded, rfl⟩ := h
    rw [← hcurrent] at hremoved hdiffers
    unfold applyMutation
    cases hold : acc[mutation.key]? with
    | none =>
      cases hnew : mutation.value with
      | none => exact (hdiffers (hold.trans hnew.symm)).elim
      | some value =>
        rw [hold] at hremoved
        rw [hnew, Option.elim_some, okOr_eq_ok, checkedAdd_eq_some] at hadded
        cases hremoved
        obtain ⟨-, rfl⟩ := hadded
        have hbytes := totalBytes_insert_new hold value
        have hkeys := size_insert_new hold value
        refine ⟨by simp only; omega, ?_, fun hchanged => by cases hchanged⟩
        simp [← hcurrent, hold, hkeys]
        omega
    | some current =>
      rw [hold, Option.elim_some, okOr_eq_ok, checkedAdd_eq_some] at hremoved
      obtain ⟨-, rfl⟩ := hremoved
      have hvalue : valueBytes acc mutation.key = current.length := by simp [valueBytes, hold]
      cases hnew : mutation.value with
      | none =>
        rw [hnew] at hadded
        cases hadded
        have hbytes := totalBytes_erase acc mutation.key
        have hkeys := size_erase_old hold
        refine ⟨by simp only; omega, ?_, fun hchanged => by cases hchanged⟩
        simp [← hcurrent, hold]
        omega
      | some value =>
        rw [hnew, Option.elim_some, okOr_eq_ok, checkedAdd_eq_some] at hadded
        obtain ⟨-, rfl⟩ := hadded
        have hbytes := totalBytes_insert acc mutation.key value
        have hkeys := size_insert_old hold value
        refine ⟨by simp only; omega, ?_, fun hchanged => by cases hchanged⟩
        simp [← hcurrent, hold, hkeys]
        omega

/-- The counting loop accounts for all mutations, as long as their keys are distinct. -/
theorem foldlM_countMutation_balances {acc : Entries} {totals result : MutationTotals}
    (h : mutations.foldlM (countMutation entries limits) totals = .ok result)
    (hdistinct : (mutations.map StorageMutation.key).Nodup)
    (hcurrent : ∀ mutation ∈ mutations, acc[mutation.key]? = entries[mutation.key]?) :
    Balances acc (mutations.foldl applyMutation acc) totals result := by
  induction mutations generalizing acc totals with
  | nil =>
    cases h
    exact ⟨by simp only [List.foldl_nil]; omega, by simp only [List.foldl_nil]; omega,
      fun hchanged => ⟨rfl, hchanged⟩⟩
  | cons mutation mutations ih =>
    rw [List.foldlM_cons, bind_eq_ok] at h
    obtain ⟨next, hstep, hrest⟩ := h
    rw [List.map_cons, List.nodup_cons] at hdistinct
    have hfirst := countMutation_balances hstep (hcurrent mutation List.mem_cons_self)
    have hothers := ih hrest hdistinct.2 fun other hmem => by
      have hne : mutation.key ≠ other.key := fun heq =>
        hdistinct.1 (heq ▸ List.mem_map_of_mem hmem)
      rw [getElem?_applyMutation_of_ne hne, hcurrent other (List.mem_cons_of_mem _ hmem)]
    rw [List.foldl_cons]
    refine ⟨?_, ?_, fun hchanged => ?_⟩
    · have := hfirst.bytes
      have := hothers.bytes
      omega
    · have := hfirst.keys
      have := hothers.keys
      omega
    · obtain ⟨hsame, hnext⟩ := hothers.changed hchanged
      obtain ⟨hsame', htotals⟩ := hfirst.changed hnext
      exact ⟨hsame.trans hsame', htotals⟩

/-- A batch leads to the entries with all mutations applied, to their true usage, and to one within
the limits. -/
theorem applyMutations_eq_ok {next : Entries} {changed : Bool} {usage : StorageUsage}
    (hdistinct : (mutations.map StorageMutation.key).Nodup)
    (h : applyMutations entries (trueUsage entries) mutations limits = .ok (changed, next, usage)) :
    next = mutations.foldl applyMutation entries ∧ usage = trueUsage next ∧
      usage.bytes ≤ limits.maxBytes ∧ usage.keys ≤ limits.maxKeys := by
  simp only [applyMutations, bind_eq_ok, exists_unit, okOr_eq_ok, rejectIf_eq_ok,
    Option.bind_eq_some_iff, checkedSub_eq_some, checkedAdd_eq_some] at h
  obtain ⟨totals, hloop, bytes, ⟨_, ⟨hbytes, rfl⟩, -, rfl⟩, keys, ⟨_, ⟨hkeys, rfl⟩, -, rfl⟩,
    hmaxBytes, hmaxKeys, h⟩ := h
  obtain ⟨hbalance, hsizes, hchanged⟩ : Balances entries _ _ _ :=
    foldlM_countMutation_balances hloop hdistinct fun _ _ => rfl
  simp only [trueUsage] at hbytes hkeys hmaxBytes hmaxKeys h
  simp only [Nat.add_zero] at hbalance hsizes
  cases htotals : totals.changed with
  | true =>
    simp only [htotals, if_true, pure_eq_ok, Except.ok.injEq, Prod.mk.injEq] at h
    obtain ⟨-, rfl, rfl⟩ := h
    refine ⟨rfl, ?_, by simp only; omega, by simp only; omega⟩
    rw [trueUsage, StorageUsage.mk.injEq]
    omega
  | false =>
    obtain ⟨hsame, -⟩ := hchanged htotals
    rw [hsame] at hbalance hsizes
    simp only [htotals, Bool.false_eq_true, if_false, pure_eq_ok, Except.ok.injEq,
      Prod.mk.injEq] at h
    obtain ⟨-, rfl, rfl⟩ := h
    exact ⟨hsame.symm, rfl, by simp only; omega, by simp only; omega⟩

end CartridgeRuntime.Storage
