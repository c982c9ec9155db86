import CartridgeRuntime.Storage.Memory

/-!
# What a rejected call leaves behind

A write of the in-memory backend that fails, or a transaction that is not applied, does not change
an entry. It can still leave a namespace behind: `compare_exchange` and `apply_batch` create the
namespace before they look at the revision and the quota, and a namespace with schema 0 is seen by
the next `prepare`. `rejected_call_unobservable_iff` says exactly when nothing is left behind.
-/

namespace CartridgeRuntime.Storage

open Checked Std

/-- The call is a write: a put, a delete or a transaction. -/
def Call.IsWrite : Call → Prop
  | .put .. | .delete .. | .compareExchange .. | .applyBatch .. => True
  | _ => False

/-- The call failed, or its transaction was not applied. -/
def Rejected : Except Error Outcome → Prop
  | .error _ => True
  | .ok (.transaction result) => result.applied = false
  | .ok _ => False

/-- The call is a transaction that passes its own checks and finds no namespace. -/
def Call.OpensNamespace (storage : MemoryStorage) (name : String) : Call → Prop
  | .compareExchange _ key expected replacement limits =>
    validateCompareExchange key expected replacement limits = .ok () ∧
      validateNamespace name = .ok () ∧ storage.namespaces[name]? = none
  | .applyBatch _ mutations limits =>
    validateMutations mutations limits = .ok () ∧
      validateNamespace name = .ok () ∧ storage.namespaces[name]? = none
  | _ => False

/-! ## Operations on one namespace -/

variable {state next : Namespace} {mutations : List StorageMutation} {limits : StorageLimits}
    {result : StorageTransactionResult}

/-- A committed transaction reports that it was applied. -/
theorem Namespace.commit_applied (h : state.commit mutations limits = .ok (result, next)) :
    result.applied = true := by
  simp only [Namespace.commit, bind_eq_ok, pure_eq_ok, Except.ok.injEq, Prod.mk.injEq] at h
  obtain ⟨_, -, _, -, rfl, -⟩ := h
  rfl

/-- A `compare_exchange` that is not applied leaves its namespace as it was. -/
theorem Namespace.compareExchange_not_applied {expectedRevision : Nat} {key : String}
    {expected replacement : Option (List UInt8)}
    (h : state.compareExchange expectedRevision key expected replacement limits
      = .ok (result, next)) (hresult : result.applied = false) : next = state := by
  unfold Namespace.compareExchange at h
  split at h
  · cases h
    rfl
  · rw [Namespace.commit_applied h] at hresult
    cases hresult

/-- An `apply_batch` that is not applied leaves its namespace as it was. -/
theorem Namespace.applyBatch_not_applied {expectedRevision : Nat}
    (h : state.applyBatch expectedRevision mutations limits = .ok (result, next))
    (hresult : result.applied = false) : next = state := by
  unfold Namespace.applyBatch at h
  split at h
  · cases h
    rfl
  · rw [Namespace.commit_applied h] at hresult
    cases hresult

/-- A value within valid limits can always be put into an empty namespace. -/
theorem Namespace.put_default_ok (key : String) {value : List UInt8} (hlimits : limits.Valid)
    (hvalue : value.length ≤ limits.maxValueBytes) :
    ∃ next, ({} : Namespace).put key value limits = .ok ((), next) := by
  obtain ⟨-, hkeys, -, hbytes, hmax, -, -⟩ := hlimits
  have hsum : 0 + value.length ≤ wordMax := by
    unfold wordMax
    omega
  have hquota : ¬ 0 + value.length > limits.maxBytes := by omega
  have hroom : ¬ 0 ≥ limits.maxKeys := by omega
  have hadmission : admitValue ∅ 0 key value limits = .ok (0 + value.length) := by
    simp only [admitValue, ExtTreeMap.getElem?_empty, Option.elim_none,
      checkedSub_of_le (Nat.zero_le 0), Nat.sub_zero, Option.bind_some, checkedAdd_of_le hsum, okOr,
      ok_bind, rejectIf_of_not _ hquota, pure_eq_ok]
    rw [rejectIf_of_not]
    · rfl
    · simp [hroom]
  refine ⟨⟨0, 1, (∅ : Entries).insert key value, 0 + value.length⟩, ?_⟩
  unfold Namespace.put
  rw [if_neg (by simp), hadmission]
  rfl

/-! ## The backend -/

namespace MemoryStorage

variable {storage : MemoryStorage} {name : String} {error : Error}
    {operation : Namespace → Except Error (StorageTransactionResult × Namespace)}
    {limits : StorageLimits}

/-- The entry of a namespace that exists is put back unchanged. -/
theorem insert_getD_of_some {state : Namespace} (h : storage.namespaces[name]? = some state) :
    ({ namespaces := storage.namespaces.insert name (storage.namespaces[name]?.getD {}) } :
      MemoryStorage) = storage := by
  rw [h, Option.getD_some, TreeMap.insert_getElem? h]

/-- An operation that fails leaves the namespace entry, and nothing else, behind. -/
theorem withEntry_error {α : Type} {operation : Namespace → Except Error (α × Namespace)}
    (h : (storage.withEntry name operation).1 = .error error) :
    (storage.withEntry name operation).2
      = { namespaces := storage.namespaces.insert name (storage.namespaces[name]?.getD {}) } := by
  cases hop : operation (storage.namespaces[name]?.getD {}) with
  | ok next => simp [withEntry, hop] at h
  | error e => simp only [withEntry, hop]

/-- A transaction that is rejected leaves the namespace entry, and nothing else, behind. -/
theorem withEntry_rejected (hnot : ∀ state result next, operation state = .ok (result, next) →
      result.applied = false → next = state)
    (h : Rejected ((storage.withEntry name operation).1.map .transaction)) :
    (storage.withEntry name operation).2
      = { namespaces := storage.namespaces.insert name (storage.namespaces[name]?.getD {}) } := by
  cases hresult : (storage.withEntry name operation).1 with
  | error e => exact withEntry_error hresult
  | ok result =>
    rw [hresult] at h
    cases hop : operation (storage.namespaces[name]?.getD {}) with
    | error e => simp [withEntry, hop] at hresult
    | ok pair =>
      obtain ⟨result', next⟩ := pair
      simp only [withEntry, hop, Except.ok.injEq] at hresult ⊢
      subst hresult
      rw [hnot _ _ _ hop h]

/-- A rejected transaction leaves behind the entry of its namespace if its checks passed, and
nothing otherwise. -/
theorem transaction_rejected {checks : Except Error Unit}
    (hnot : ∀ state result next, operation state = .ok (result, next) →
      result.applied = false → next = state)
    (h : Rejected ((storage.afterChecks checks fun storage =>
      storage.withEntry name operation).1.map .transaction)) :
    (storage.afterChecks checks fun storage => storage.withEntry name operation).2
      = if checks = .ok () then
          { namespaces := storage.namespaces.insert name (storage.namespaces[name]?.getD {}) }
        else storage := by
  cases checks with
  | error e => simp [afterChecks]
  | ok u =>
    rw [if_pos rfl]
    exact withEntry_rejected hnot h

/-- A rejected transaction leaves the storage as it was, unless its checks passed and it found no
namespace. -/
theorem transaction_opens {checks : Except Error Unit}
    (hnot : ∀ state result next, operation state = .ok (result, next) →
      result.applied = false → next = state)
    (h : Rejected ((storage.afterChecks (do checks; validateNamespace name) fun storage =>
      storage.withEntry name operation).1.map .transaction)) :
    let opens := checks = .ok () ∧ validateNamespace name = .ok () ∧
      storage.namespaces[name]? = none
    let after := (storage.afterChecks (do checks; validateNamespace name) fun storage =>
      storage.withEntry name operation).2
    (¬ opens ∧ after = storage) ∨
      (opens ∧ after = { namespaces := storage.namespaces.insert name {} }) := by
  intro opens after
  have hafter : after = _ := transaction_rejected hnot h
  by_cases hchecks : (do checks; validateNamespace name) = .ok ()
  · rw [if_pos hchecks] at hafter
    simp only [bind_eq_ok, exists_unit] at hchecks
    cases hstate : storage.namespaces[name]? with
    | none =>
      rw [hstate, Option.getD_none] at hafter
      exact .inr ⟨⟨hchecks.1, hchecks.2, hstate⟩, hafter⟩
    | some state =>
      rw [insert_getD_of_some hstate] at hafter
      refine .inl ⟨fun hopens => ?_, hafter⟩
      have habsent := hopens.2.2
      rw [hstate] at habsent
      cases habsent
  · rw [if_neg hchecks] at hafter
    refine .inl ⟨fun hopens => hchecks ?_, hafter⟩
    rw [hopens.1]
    exact hopens.2.1

/-- A put that fails changes nothing: it only fails on a namespace that exists. -/
theorem put_error {key : String} {value : List UInt8}
    (h : (storage.put name key value limits).1 = .error error) :
    (storage.put name key value limits).2 = storage := by
  unfold put at h ⊢
  generalize hchecks : (do
    validateNamespace name
    validateKey key
    validateLimits limits
    rejectIf (value.length > limits.maxValueBytes)
      (.valueTooLarge value.length limits.maxValueBytes)) = checks at h ⊢
  cases checks with
  | error e => rfl
  | ok u =>
    cases u
    simp only [bind_eq_ok, exists_unit, rejectIf_eq_ok, validateLimits_eq_ok] at hchecks
    obtain ⟨-, -, hlimits, hvalue⟩ := hchecks
    simp only [afterChecks] at h ⊢
    rw [withEntry_error h]
    cases hstate : storage.namespaces[name]? with
    | some state => rw [← hstate, insert_getD_of_some hstate]
    | none =>
      -- an empty namespace takes the value, so the put cannot have failed
      obtain ⟨next, hput⟩ := Namespace.put_default_ok key hlimits
        (Nat.le_of_not_lt hvalue)
      simp [withEntry, hstate, hput] at h

/-- A delete that fails changes nothing. -/
theorem delete_error {key : String} (h : (storage.delete name key).1 = .error error) :
    (storage.delete name key).2 = storage := by
  unfold delete at h ⊢
  generalize (do validateNamespace name; validateKey key) = checks at h ⊢
  cases checks with
  | error e => rfl
  | ok u =>
    simp only [afterChecks] at h ⊢
    cases hstate : storage.namespaces[name]? with
    | none => rfl
    | some state =>
      simp only [hstate] at h ⊢
      rw [withEntry_error h, insert_getD_of_some hstate]

/-- Preparing a namespace that is not there succeeds, for every schema. -/
theorem prepare_absent (hname : validateNamespace name = .ok ())
    (hlimits : validateLimits limits = .ok ()) (habsent : storage.namespaces[name]? = none)
    (stateSchema : UInt32) : (storage.prepare name stateSchema limits).1 = .ok () := by
  have hlist : (∅ : Entries).toList = [] := List.eq_nil_of_length_eq_zero (by simp)
  simp [prepare, afterChecks, hname, hlimits, habsent, validateEntryLimits, hlist, rejectIf,
    discard, Functor.mapConst, Except.map]

/-- Preparing a namespace that was created by a transaction fails, for every schema but 0. -/
theorem prepare_default {namespaces : ExtTreeMap String Namespace}
    (hname : validateNamespace name = .ok ()) (hlimits : validateLimits limits = .ok ())
    (hstate : namespaces[name]? = some ({} : Namespace)) {stateSchema : UInt32}
    (hne : stateSchema ≠ 0) :
    (prepare ⟨namespaces⟩ name stateSchema limits).1 = .error (.schemaMismatch stateSchema 0) := by
  simp [prepare, afterChecks, hname, hlimits, hstate, hne.symm]

end MemoryStorage

/-! ## The result -/

/-- The checks of a transaction, from the definition of `OpensNamespace`. -/
theorem validateCompareExchange_limits {key : String} {expected replacement : Option (List UInt8)}
    (h : validateCompareExchange key expected replacement limits = .ok ()) :
    validateLimits limits = .ok () := by
  simp only [validateCompareExchange, validateMutations, bind_eq_ok, exists_unit] at h
  obtain ⟨_, -, -, ⟨hlimits, -⟩, -⟩ := h
  exact hlimits

theorem validateMutations_limits (h : validateMutations mutations limits = .ok ()) :
    validateLimits limits = .ok () := by
  simp only [validateMutations, bind_eq_ok, exists_unit] at h
  exact h.1

/-- A call that opens a namespace has a valid name and valid limits, and the name is free. -/
theorem Call.OpensNamespace.checks {storage : MemoryStorage} {name : String} {call : Call}
    (h : call.OpensNamespace storage name) :
    validateNamespace name = .ok () ∧
      ∃ limits, validateLimits limits = .ok () ∧ storage.namespaces[name]? = none := by
  cases call with
  | compareExchange expectedRevision key expected replacement limits =>
    exact ⟨h.2.1, limits, validateCompareExchange_limits h.1, h.2.2⟩
  | applyBatch expectedRevision mutations limits =>
    exact ⟨h.2.1, limits, validateMutations_limits h.1, h.2.2⟩
  | _ => exact h.elim

/-- A rejected write leaves the storage as it was, unless it opens a namespace; then it leaves an
empty namespace with schema 0 behind. -/
theorem rejected_call_state {storage : MemoryStorage} {name : String} {call : Call}
    (hwrite : call.IsWrite) (hrejected : Rejected (call.perform name storage).1) :
    (¬ call.OpensNamespace storage name ∧ (call.perform name storage).2 = storage) ∨
    (call.OpensNamespace storage name ∧
      (call.perform name storage).2 = { namespaces := storage.namespaces.insert name {} }) := by
  cases call with
  | put key value limits =>
    refine .inl ⟨id, ?_⟩
    cases hresult : (storage.put name key value limits).1 with
    | ok u => simp [Call.perform, StorageBackend.put, hresult, Rejected, Except.map] at hrejected
    | error e => exact MemoryStorage.put_error hresult
  | delete key =>
    refine .inl ⟨id, ?_⟩
    cases hresult : (storage.delete name key).1 with
    | ok u => simp [Call.perform, StorageBackend.delete, hresult, Rejected, Except.map] at hrejected
    | error e => exact MemoryStorage.delete_error hresult
  | compareExchange expectedRevision key expected replacement limits =>
    exact MemoryStorage.transaction_opens
      (fun _ _ _ h => Namespace.compareExchange_not_applied h) hrejected
  | applyBatch expectedRevision mutations limits =>
    exact MemoryStorage.transaction_opens
      (fun _ _ _ h => Namespace.applyBatch_not_applied h) hrejected
  | _ => exact hwrite.elim

/-- After a rejected write every sequence of later calls, on any namespaces, returns what it would
have returned without the write, exactly when the write did not open a namespace. -/
theorem rejected_call_unobservable_iff (storage : MemoryStorage) (name : String) (call : Call)
    (hwrite : call.IsWrite) (hrejected : Rejected (call.perform name storage).1) :
    (∀ later, performAll (call.perform name storage).2 later = performAll storage later) ↔
      ¬ call.OpensNamespace storage name := by
  rcases rejected_call_state hwrite hrejected with ⟨hopens, hstate⟩ | ⟨hopens, hstate⟩
  · exact iff_of_true (fun later => by rw [hstate]) hopens
  · refine iff_of_false (fun hsame => ?_) (not_not_intro hopens)
    -- preparing the namespace with schema 1 tells the two storages apart
    obtain ⟨hname, limits, hlimits, habsent⟩ := hopens.checks
    have hprepare := hsame [(name, .prepare 1 limits)]
    have hnew := MemoryStorage.prepare_absent hname hlimits habsent 1
    have hopened : (storage.namespaces.insert name {})[name]? = some ({} : Namespace) := by simp
    have hold := MemoryStorage.prepare_default hname hlimits hopened
      (show (1 : UInt32) ≠ 0 by decide)
    rw [hstate] at hprepare
    simp [performAll, Call.perform, StorageBackend.prepare, hnew, hold, Except.map] at hprepare

/-- A stale batch on a namespace that holds an entry leaves no trace. -/
theorem rejected_call_unobservable_stale_batch :
    let limits : StorageLimits := ⟨16, 2, 12⟩
    let storage := (MemoryStorage.new.put "dev.example.test" "k" [1] limits).2
    let call : Call := .applyBatch 0 [⟨"k", none⟩] limits
    Rejected (call.perform "dev.example.test" storage).1 ∧
      ∀ later, performAll (call.perform "dev.example.test" storage).2 later
        = performAll storage later := by
  intro limits storage call
  have hrejected : Rejected (call.perform "dev.example.test" storage).1 := by
    show (_ : Bool) = false
    decide
  exact ⟨hrejected, (rejected_call_unobservable_iff storage "dev.example.test" call trivial
    hrejected).mpr fun h => absurd (congrArg Option.isNone h.2.2) (by decide)⟩

/-- A stale batch on a namespace that is not there makes the next `prepare` fail, which would have
succeeded without the batch. -/
theorem rejected_batch_blocks_prepare :
    let limits : StorageLimits := ⟨16, 2, 12⟩
    let call : Call := .applyBatch 7 [⟨"k", none⟩] limits
    let rejected := call.perform "dev.example.test" MemoryStorage.new
    rejected.1 = .ok (.transaction ⟨false, 0⟩) ∧
      performAll rejected.2 [("dev.example.test", .prepare 2 limits)]
        = [.error (.schemaMismatch 2 0)] ∧
      performAll MemoryStorage.new [("dev.example.test", .prepare 2 limits)] = [.ok .done] := by
  refine ⟨rfl, rfl, rfl⟩

end CartridgeRuntime.Storage
