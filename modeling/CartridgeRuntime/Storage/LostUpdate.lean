import CartridgeRuntime.Library.Versioned
import CartridgeRuntime.Storage.MemoryRejection
import CartridgeRuntime.Storage.Recovery

/-!
# Optimistic transactions

Clients of a namespace read its revision and later ask for a transaction at that revision. Each call
holds the lock of the namespace, so the calls of all clients are one sequence. Both backends are
versioned stores: a call leaves what can be read, or publishes it under a higher revision. A state
file that no longer reads back makes the namespace unreadable. `no_lost_update` is what follows for
the transactions.
-/

namespace CartridgeRuntime.Storage

open Checked Std Encoding Versioned

/-- The revision that a transaction expects. -/
def Call.expectedRevision : Call → Option Nat
  | .compareExchange expectedRevision .. => some expectedRevision
  | .applyBatch expectedRevision .. => some expectedRevision
  | _ => none

def DirectoryCall.expectedRevision : DirectoryCall → Option Nat
  | .common call => call.expectedRevision
  | _ => none

/-- The result of a transaction that was applied. -/
def Applied (result : Except Error Outcome) : Prop :=
  ∃ revision, result = .ok (.transaction ⟨true, revision⟩)

/-! ## Runs of calls -/

section

variable {σ κ : Type}

/-- The state after a sequence of calls. -/
def stateAfterCalls (perform : σ → κ → Except Error Outcome × σ) (start : σ) (calls : List κ) : σ :=
  calls.foldl (fun state call => (perform state call).2) start

/-- Transactions of a run find the entries that their revision was published with. -/
structure NoLostUpdate (perform : σ → κ → Except Error Outcome × σ) (expected : κ → Option Nat)
    (view : σ → Option (View Nat Entries)) (start : σ) : Prop where
  /-- A transaction is applied to the entries that its revision has stood for since it was first
  published. -/
  published : ∀ calls call revision, expected call = some revision →
    Applied (perform (stateAfterCalls perform start calls) call).1 →
    ∃ entries, view (stateAfterCalls perform start calls) = some ⟨revision, entries⟩
      ∧ ∀ earlier, earlier <+: calls → ∀ first,
        view (stateAfterCalls perform start earlier) = some ⟨revision, first⟩ → first = entries
  /-- Revisions never decrease. -/
  monotone : ∀ earlier later before after,
    view (stateAfterCalls perform start earlier) = some before →
    view (stateAfterCalls perform start (earlier ++ later)) = some after →
    before.revision ≤ after.revision
  /-- A change of the entries increases the revision. -/
  strict : ∀ earlier later before after,
    view (stateAfterCalls perform start earlier) = some before →
    view (stateAfterCalls perform start (earlier ++ later)) = some after →
    before.contents ≠ after.contents → before.revision < after.revision
  /-- Of two applied transactions that expect one revision, the first changed nothing. -/
  exclusive : ∀ earlier first between second revision,
    expected first = some revision → expected second = some revision →
    Applied (perform (stateAfterCalls perform start earlier) first).1 →
    Applied (perform (stateAfterCalls perform start (earlier ++ first :: between)) second).1 →
    view (stateAfterCalls perform start (earlier ++ [first]))
      = view (stateAfterCalls perform start earlier)

variable {perform : σ → κ → Except Error Outcome × σ} {view : σ → Option (View Nat Entries)}

/-- What one call does a run does. -/
theorem advances_append
    (hstep : ∀ state call, Advances (view state) (view (perform state call).2)) (start : σ)
    (earlier later : List κ) :
    Advances (view (stateAfterCalls perform start earlier))
      (view (stateAfterCalls perform start (earlier ++ later))) := by
  unfold stateAfterCalls
  rw [List.foldl_append]
  exact Advances.of_run hstep _ later

/-- A versioned store whose transactions compare revisions loses no update. -/
theorem NoLostUpdate.of_advances {expected : κ → Option Nat}
    (hstep : ∀ state call, Advances (view state) (view (perform state call).2))
    (happlied : ∀ state call revision, expected call = some revision →
      Applied (perform state call).1 → ∃ entries, view state = some ⟨revision, entries⟩)
    (start : σ) : NoLostUpdate perform expected view start where
  published calls call revision hexpected h := by
    obtain ⟨entries, hview⟩ := happlied _ call revision hexpected h
    refine ⟨entries, hview, ?_⟩
    rintro earlier ⟨later, rfl⟩ first hfirst
    have hrun := advances_append hstep start earlier later
    rw [hfirst, hview] at hrun
    exact congrArg View.contents (hrun.eq_of_revision rfl)
  monotone earlier later before after hbefore hafter := by
    have hrun := advances_append hstep start earlier later
    rw [hbefore, hafter] at hrun
    exact hrun.revision_le
  strict earlier later before after hbefore hafter hchanged := by
    have hrun := advances_append hstep start earlier later
    rw [hbefore, hafter] at hrun
    exact hrun.revision_lt hchanged
  exclusive earlier first between second revision hfirst hsecond hfirstApplied hsecondApplied := by
    obtain ⟨entries, hbefore⟩ := happlied _ first revision hfirst hfirstApplied
    obtain ⟨entries', hafter⟩ := happlied _ second revision hsecond hsecondApplied
    have hone := advances_append hstep start earlier [first]
    have hrest := advances_append hstep start (earlier ++ [first]) between
    rw [List.append_assoc, List.singleton_append, hafter] at hrest
    rw [hbefore] at hone ⊢
    -- The revision in between lies between two equal ones.
    cases hmid : view (stateAfterCalls perform start (earlier ++ [first])) with
    | none =>
      rw [hmid] at hrest
      cases hrest
    | some middle =>
      rw [hmid] at hone hrest
      rw [hone.eq_of_revision (Nat.le_antisymm hone.revision_le hrest.revision_le)]

end

/-! ## The in-memory backend -/

/-- What can be read of a namespace. -/
def Namespace.view (state : Namespace) : View Nat Entries :=
  ⟨state.revision, state.entries⟩

def MemoryStorage.view (name : String) (storage : MemoryStorage) : Option (View Nat Entries) :=
  some (storage.namespaces[name]?.getD {}).view

section

variable {state next : Namespace}

/-- A revision is followed by a higher one. -/
theorem lt_of_nextRevision {revision after : Nat} (h : nextRevision revision = .ok after) :
    revision < after := by
  simp only [nextRevision, okOr_eq_ok, checkedAdd_eq_some] at h
  omega

variable {limits : StorageLimits} {mutations : List StorageMutation}

/-- Mutations that would change no entry count nothing. -/
theorem foldlM_countMutation_same {entries : Entries}
    (h : ∀ mutation ∈ mutations, entries[mutation.key]? = mutation.value)
    (totals : MutationTotals) :
    mutations.foldlM (countMutation entries limits) totals = .ok totals := by
  induction mutations with
  | nil => rfl
  | cons mutation mutations ih =>
    rw [List.foldlM_cons, countMutation, if_pos (h mutation List.mem_cons_self), ok_bind]
    exact ih fun other hmem => h other (List.mem_cons_of_mem _ hmem)

/-- What `applyMutations` changed: the entries stay when it reports no change, and when it reports
one then the batch has a next revision. -/
theorem applyMutations_changed {entries next : Entries} {usage after : StorageUsage}
    {changed : Bool}
    (h : applyMutations entries usage mutations limits = .ok (changed, next, after)) :
    if changed then mutationsChange entries mutations = true
    else next = entries ∧ after = usage := by
  simp only [applyMutations, bind_eq_ok, exists_unit] at h
  obtain ⟨totals, htotals, _, -, _, -, -, -, h⟩ := h
  split at h
  · rename_i hchanged
    simp only [pure_eq_ok, Except.ok.injEq, Prod.mk.injEq] at h
    obtain ⟨rfl, -, -⟩ := h
    rw [if_pos rfl]
    by_contra hsame
    have hall : ∀ mutation ∈ mutations, entries[mutation.key]? = mutation.value := by
      simpa [mutationsChange] using hsame
    cases htotals.symm.trans (foldlM_countMutation_same hall {})
    cases hchanged
  · simp only [pure_eq_ok, Except.ok.injEq, Prod.mk.injEq] at h
    obtain ⟨rfl, rfl, rfl⟩ := h
    exact ⟨rfl, rfl⟩

/-- A transaction keeps a namespace or publishes it under a higher revision. -/
theorem Namespace.commit_advances {result : StorageTransactionResult}
    (h : state.commit mutations limits = .ok (result, next)) :
    Advances (some state.view) (some next.view) := by
  simp only [Namespace.commit, bind_eq_ok] at h
  obtain ⟨revision, hrevision, ⟨changed, entries, usage⟩, hmutations, h⟩ := h
  simp only [pure_eq_ok, Except.ok.injEq, Prod.mk.injEq] at h
  obtain ⟨-, rfl⟩ := h
  have hchanged := applyMutations_changed hmutations
  cases changed with
  | true =>
    rw [revisionAfter, if_pos (by simpa using hchanged)] at hrevision
    exact .publish (lt_of_nextRevision hrevision)
  | false =>
    obtain ⟨rfl, -⟩ : entries = state.entries ∧ usage = _ := by simpa using hchanged
    exact .keep _

end

variable {α : Type} {name : String}

/-- What a call does to its namespace in memory. -/
inductive Call.Steps (call : Call) (state : Namespace) : Namespace → Prop where
  | keep : Steps call state state
  | prepare (stateSchema : UInt32) (hnew : state = {}) : Steps call state { stateSchema }
  | put {key : String} {value : List UInt8} {limits : StorageLimits} {nextBytes revision : Nat}
      (hlimits : limits ∈ call.limits) (hvalue : value.length ≤ limits.maxValueBytes)
      (hadmission : admitValue state.entries state.bytes key value limits = .ok nextBytes)
      (hrevision : nextRevision state.revision = .ok revision) :
      Steps call state { state with
        entries := state.entries.insert key value, bytes := nextBytes, revision }
  | delete {key : String} {value : List UInt8} {revision : Nat}
      (hvalue : state.entries[key]? = some value)
      (hrevision : nextRevision state.revision = .ok revision) :
      Steps call state { state with
        entries := state.entries.erase key, bytes := state.bytes - value.length, revision }
  | commit {mutations : List StorageMutation} {limits : StorageLimits} {next : Namespace}
      {result : StorageTransactionResult} (hlimits : limits ∈ call.limits)
      (hmutations : ValidMutations mutations limits)
      (hcommit : state.commit mutations limits = .ok (result, next)) : Steps call state next

/-- A step keeps the namespace or publishes it under a higher revision. -/
theorem Call.Steps.advances {call : Call} {state next : Namespace} (h : call.Steps state next) :
    Advances (some state.view) (some next.view) := by
  cases h with
  | keep => exact .keep _
  | prepare stateSchema hnew =>
    -- The new namespace is as empty as one that is not there.
    cases hnew
    exact .keep _
  | put hlimits hvalue hadmission hrevision => exact .publish (lt_of_nextRevision hrevision)
  | delete hvalue hrevision => exact .publish (lt_of_nextRevision hrevision)
  | commit hlimits hmutations hcommit => exact Namespace.commit_advances hcommit

/-- The storage after a call: as before, or with the namespace after a step of the call. -/
def Call.Leads (call : Call) (name : String) (storage after : MemoryStorage) : Prop :=
  after = storage ∨ ∃ next, call.Steps (storage.namespaces[name]?.getD {}) next
    ∧ after = { namespaces := storage.namespaces.insert name next }

section

variable {storage : MemoryStorage} {call : Call} {checks : Except Error Unit}

/-- An operation on a namespace, behind checks, leads where it leads the namespace. -/
theorem MemoryStorage.leads_withEntry {operation : Namespace → Except Error (α × Namespace)}
    (h : ∀ {state result next}, checks = .ok () → operation state = .ok (result, next) →
      call.Steps state next) :
    call.Leads name storage
      (storage.afterChecks checks fun storage => storage.withEntry name operation).2 := by
  cases checks with
  | error error => exact .inl rfl
  | ok _ =>
    right
    unfold afterChecks withEntry
    cases hoperation : operation (storage.namespaces[name]?.getD {}) with
    | error error => exact ⟨_, .keep, by simp only [hoperation]⟩
    | ok pair => exact ⟨pair.2, h rfl hoperation, by simp only [hoperation]⟩

/-- A call that only reads leaves the storage. -/
theorem MemoryStorage.leads_read {operation : MemoryStorage → Except Error α × MemoryStorage}
    (h : (operation storage).2 = storage) :
    call.Leads name storage (storage.afterChecks checks operation).2 := by
  cases checks with
  | error error => exact .inl rfl
  | ok _ => exact .inl h

/-- What a call on a namespace can do to the storage. -/
theorem MemoryStorage.perform_leads (name : String) (storage : MemoryStorage) (call : Call) :
    call.Leads name storage (call.perform name storage).2 := by
  cases call with
  | prepare stateSchema limits =>
    show Call.Leads _ name storage (storage.prepare name stateSchema limits).2
    unfold prepare
    cases (do validateNamespace name; validateLimits limits : Except Error Unit) with
    | error error => exact .inl rfl
    | ok _ =>
      cases hstate : storage.namespaces[name]? with
      | none => exact .inr ⟨{ stateSchema }, .prepare stateSchema (by rw [hstate]; rfl),
          by simp only [afterChecks, hstate]⟩
      | some state =>
        left
        simp only [afterChecks, hstate]
        split <;> rfl
  | get key => exact leads_read (α := Option (List UInt8)) rfl
  | put key value limits =>
    refine leads_withEntry (α := Unit) fun {state result next} hchecks hput => ?_
    simp only [bind_eq_ok, exists_unit] at hchecks
    obtain ⟨-, -, -, hvalue⟩ := hchecks
    unfold Namespace.put at hput
    split at hput
    · cases hput
      exact .keep
    · simp only [bind_eq_ok, pure_eq_ok, Except.ok.injEq, Prod.mk.injEq] at hput
      obtain ⟨nextBytes, hadmission, revision, hrevision, -, rfl⟩ := hput
      exact .put rfl (Nat.not_lt.mp (rejectIf_eq_ok.mp hvalue)) hadmission hrevision
  | delete key =>
    show Call.Leads _ name storage (storage.delete name key).2
    have hentry : (Call.delete key).Leads name storage (storage.afterChecks (.ok ()) fun storage =>
        storage.withEntry name fun state => state.delete key).2 := by
      refine leads_withEntry fun {state result next} _ hdelete => ?_
      unfold Namespace.delete at hdelete
      split at hdelete
      · cases hdelete
        exact .keep
      · rename_i value hvalue
        simp only [bind_eq_ok, pure_eq_ok, Except.ok.injEq, Prod.mk.injEq] at hdelete
        obtain ⟨revision, hrevision, -, rfl⟩ := hdelete
        exact .delete hvalue hrevision
    unfold delete
    cases (do validateNamespace name; validateKey key : Except Error Unit) with
    | error error => exact .inl rfl
    | ok _ =>
      unfold afterChecks at hentry ⊢
      dsimp only at hentry ⊢
      cases hstate : storage.namespaces[name]? with
      | none => exact .inl rfl
      | some _ => exact hentry
  | list keyPrefix => exact leads_read (α := List String) rfl
  | usage => exact leads_read (α := StorageUsage) rfl
  | revision => exact leads_read (α := Nat) rfl
  | compareExchange expectedRevision key expected replacement limits =>
    refine leads_withEntry (α := StorageTransactionResult) fun {state result next} hchecks hexchange => ?_
    simp only [bind_eq_ok, exists_unit] at hchecks
    unfold Namespace.compareExchange at hexchange
    split at hexchange
    · cases hexchange
      exact .keep
    · exact .commit rfl (validateCompareExchange_eq_ok hchecks.1) hexchange
  | applyBatch expectedRevision mutations limits =>
    refine leads_withEntry (α := StorageTransactionResult) fun {state result next} hchecks hbatch => ?_
    simp only [bind_eq_ok, exists_unit] at hchecks
    unfold Namespace.applyBatch at hbatch
    split at hbatch
    · cases hbatch
      exact .keep
    · exact .commit rfl (validateMutations_eq_ok hchecks.1) hbatch

end

/-- A call on a namespace leaves it or publishes it under a higher revision. -/
theorem MemoryStorage.perform_advances (name : String) (storage : MemoryStorage) (call : Call) :
    Advances (storage.view name) ((call.perform name storage).2.view name) := by
  obtain hkept | ⟨next, hsteps, hafter⟩ := storage.perform_leads name call
  · rw [hkept]
    exact .keep _
  · rw [hafter, view, view, ExtTreeMap.getElem?_insert_self, Option.getD_some]
    exact hsteps.advances

/-- A transaction that is applied is the result of its method. -/
theorem Applied.transaction {result : Except Error StorageTransactionResult}
    (h : Applied (result.map .transaction)) : ∃ revision, result = .ok ⟨true, revision⟩ := by
  obtain ⟨revision, h⟩ := h
  cases result with
  | error error => cases h
  | ok value =>
    refine ⟨revision, ?_⟩
    simpa [Except.map] using h

/-- An operation that succeeds has found its namespace behind its checks. -/
theorem MemoryStorage.withEntry_eq_ok {storage : MemoryStorage} {checks : Except Error Unit}
    {operation : Namespace → Except Error (α × Namespace)} {result : α}
    (h : (storage.afterChecks checks fun storage => storage.withEntry name operation).1
      = .ok result) :
    ∃ next, operation (storage.namespaces[name]?.getD {}) = .ok (result, next) := by
  cases checks with
  | error error => cases h
  | ok _ =>
    unfold afterChecks withEntry at h
    cases hoperation : operation (storage.namespaces[name]?.getD {}) with
    | error error =>
      simp only [hoperation] at h
      cases h
    | ok pair =>
      simp only [hoperation] at h
      cases h
      exact ⟨pair.2, rfl⟩

/-- A transaction is applied at the revision that it expects. -/
theorem MemoryStorage.view_of_applied (name : String) (storage : MemoryStorage) (call : Call)
    (revision : Nat) (hexpected : call.expectedRevision = some revision)
    (h : Applied (call.perform name storage).1) :
    ∃ entries, storage.view name = some ⟨revision, entries⟩ := by
  cases call with
  | compareExchange expectedRevision key expected replacement limits =>
    cases hexpected
    obtain ⟨after, hafter⟩ := Applied.transaction h
    obtain ⟨next, hnext⟩ := MemoryStorage.withEntry_eq_ok hafter
    unfold Namespace.compareExchange at hnext
    split at hnext
    · cases hnext
    · rename_i hcurrent
      rw [not_or, not_not] at hcurrent
      exact ⟨_, by rw [← hcurrent.1]; rfl⟩
  | applyBatch expectedRevision mutations limits =>
    cases hexpected
    obtain ⟨after, hafter⟩ := Applied.transaction h
    obtain ⟨next, hnext⟩ := MemoryStorage.withEntry_eq_ok hafter
    unfold Namespace.applyBatch at hnext
    split at hnext
    · cases hnext
    · rename_i hcurrent
      rw [not_not] at hcurrent
      exact ⟨_, by rw [← hcurrent]; rfl⟩
  | _ => cases hexpected

/-! ## The durable backend -/

section

variable [HexCodec] [Sha256] [FromJson DiskEnvelope]

/-- What can be read of a namespace: its newest generation, if every generation file is valid. -/
def DirectoryStorage.view (name : String) (storage : DirectoryStorage) :
    Option (View Nat Entries) :=
  match loadState (storage.namespaceDirectory name) name (storage.files name) with
  | .ok state => some ⟨state.generation, state.entries⟩
  | .error _ => none

theorem DirectoryStorage.view_of_load {storage : DirectoryStorage} {state : State}
    (h : loadState (storage.namespaceDirectory name) name (storage.files name) = .ok state) :
    storage.view name = some ⟨state.generation, state.entries⟩ := by
  rw [view, h]

/-- A call on a namespace leaves it, publishes it under a higher revision, or makes it
unreadable. -/
theorem DirectoryStorage.perform_advances (name : String) (storage : DirectoryStorage)
    (call : DirectoryCall) :
    Advances (storage.view name) ((call.perform name storage).2.view name) := by
  have hdirectory := call.namespaceDirectory_perform name storage
  rcases call.perform_change name storage with hkept | ⟨before, committed, hload, hchange, hcommit⟩
  · unfold view loadState
    rw [hdirectory, hkept]
    exact .keep _
  · have hgeneration := (call.wellFormed_of_change (loadState_wellFormed hload).1 hchange).2.2
    rw [view_of_load hload]
    cases hafter : loadState ((call.perform name storage).2.namespaceDirectory name) name
      ((call.perform name storage).2.files name) with
    | error error =>
      rw [view, hafter]
      exact .lose _
    | ok after =>
      -- The committed file is there, and the loaded state is at least as new.
      have hold : ∀ generation ∈ (storage.files name).cleanupPending.generations,
          generation ≤ committed.generation := fun generation hmem =>
        ((loadState_wellFormed hload).2 generation hmem).trans hgeneration
      have hnewest := commitState_newest hold hcommit
      have hle := (loadState_wellFormed hafter).2 _
        (ExtTreeMap.mem_iff_isSome_getElem?.mpr (by rw [hnewest]; rfl))
      rw [view_of_load hafter]
      exact .publish (Nat.lt_of_le_of_lt hgeneration hle)

/-- A transaction is applied at the generation that it expects. -/
theorem DirectoryStorage.view_of_applied (name : String) (storage : DirectoryStorage)
    (call : DirectoryCall) (revision : Nat) (hexpected : call.expectedRevision = some revision)
    (h : Applied (call.perform name storage).1) :
    ∃ entries, storage.view name = some ⟨revision, entries⟩ := by
  cases call with
  | restore snapshot limits => cases hexpected
  | restoreIfUnchanged expected replacement limits => cases hexpected
  | common call =>
    cases call with
    | compareExchange expectedRevision key expected replacement limits =>
      cases hexpected
      obtain ⟨after, hafter⟩ := Applied.transaction h
      obtain ⟨_, before, _, -, -, hload, hnext, -⟩ := write_eq_ok hafter
      unfold State.compareExchange at hnext
      split at hnext
      · cases hnext
      · rename_i hcurrent
        rw [not_or, not_not] at hcurrent
        exact ⟨before.entries, by rw [view_of_load hload, hcurrent.1]⟩
    | applyBatch expectedRevision mutations limits =>
      cases hexpected
      obtain ⟨after, hafter⟩ := Applied.transaction h
      obtain ⟨_, before, _, -, -, hload, hnext, -⟩ := write_eq_ok hafter
      unfold State.applyBatch at hnext
      split at hnext
      · cases hnext
      · rename_i hcurrent
        rw [not_not] at hcurrent
        exact ⟨before.entries, by rw [view_of_load hload, hcurrent]⟩
    | _ => cases hexpected

/-- No update is lost: in every sequence of calls on a namespace of either backend, a transaction
that is applied finds the entries that its expected revision was published with, revisions never
decrease and increase with every change of the entries, and of the transactions that expect one
revision and change the entries at most one is applied. -/
theorem no_lost_update (name : String) :
    (∀ start : MemoryStorage, NoLostUpdate (fun storage (call : Call) => call.perform name storage)
      Call.expectedRevision (MemoryStorage.view name) start) ∧
    (∀ start : DirectoryStorage, NoLostUpdate (fun storage call => call.perform name storage)
      DirectoryCall.expectedRevision (DirectoryStorage.view name) start) :=
  ⟨.of_advances (MemoryStorage.perform_advances name) (MemoryStorage.view_of_applied name),
    .of_advances (DirectoryStorage.perform_advances name) (DirectoryStorage.view_of_applied name)⟩

end

end CartridgeRuntime.Storage
