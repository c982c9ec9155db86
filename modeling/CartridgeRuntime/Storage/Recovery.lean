import CartridgeRuntime.Storage.RoundTrip

/-!
# Captured states and recovery

The remaining methods of the durable backend that change a namespace: a restore that checks that the
state is still the captured one, and the recovery from corrupt generation files. Recovery renames
corrupt files away, and nothing reads them again, so they are not part of the directory afterwards.

`DirectoryStorage.write_cases` says what a write can do to the generation files: nothing, or the
commit of the next state.
-/

namespace CartridgeRuntime.Storage

open Checked Std Encoding

/-- The state of a namespace at some time. -/
structure CapturedState where
  generation : Nat
  snapshot : StorageSnapshot

/-- What a recovery reports. -/
structure RecoveryReport where
  validGeneration : Option Nat
  quarantined : List String
  discardedPending : Nat
deriving DecidableEq

/-- A name that no other file of the process has. -/
def uniqueName (start : String) (processId sequence : Nat) (extension : String) : String :=
  s!"{start}-{processId}-{sequence}.{extension}"

section

variable [HexCodec] [Sha256]

/-- Replace the state by the contents of a snapshot if it is still the expected one. -/
def State.restoreIfUnchanged (state : State) (expected : CapturedState)
    (expectedEntries : Entries) (replacement : StorageSnapshot) (entries : Entries) :
    Except Error (RestorePlan × Option State) := do
  rejectIf (state.generation ≠ expected.generation
      ∨ state.schema ≠ expected.snapshot.payload.stateSchema ∨ state.entries ≠ expectedEntries)
    .stateChanged
  state.restore replacement entries

variable [FromJson DiskEnvelope]

/-- One turn of the loop of `recover`: the generation is valid or corrupt. -/
def sortGeneration (directory name : String) (sorted : List Nat × List Nat)
    (file : Nat × List UInt8) : Except Error (List Nat × List Nat) :=
  match readState (stateFilePath directory file.1) file.2 name file.1 with
  | .ok _ => .ok (sorted.1 ++ [file.1], sorted.2)
  | .error (.corrupt _) => .ok (sorted.1, sorted.2 ++ [file.1])
  | .error error => .error error

/-- Rename the corrupt generation files away, remove pending files and prune the generations. -/
def NamespaceDirectory.recover (processId sequence : Nat) (directory name : String)
    (files : NamespaceDirectory) : Except Error RecoveryReport × NamespaceDirectory :=
  match files.generations.toList.foldlM (sortGeneration directory name) ([], []) with
  | .error error => (.error error, files)
  | .ok (valid, corrupt) =>
    if valid.isEmpty ∧ ¬ corrupt.isEmpty then (.error .noRecoverableState, files)
    else
      let quarantined := corrupt.zipIdx.map fun (generation, i) =>
        uniqueName ("corrupt-" ++ stateFileName generation) processId (sequence + i) "json"
      let report : RecoveryReport := ⟨valid.max?, quarantined, files.pending.length⟩
      (.ok report, (corrupt.foldl removeGeneration files).cleanupPending.pruneGenerations)

namespace DirectoryStorage

/-- Restore a snapshot, if the state is still the captured one. -/
def restoreIfUnchanged (storage : DirectoryStorage) (name : String) (expected : CapturedState)
    (replacement : StorageSnapshot) (limits : StorageLimits) :
    Except Error RestorePlan × DirectoryStorage :=
  storage.write name (do
    let expectedEntries ← expected.snapshot.entriesFor name
    let entries ← restoreEntries name replacement limits
    pure (expectedEntries, entries)) fun entries state =>
      state.restoreIfUnchanged expected entries.1 replacement entries.2

/-- Recover a namespace. -/
def recover (processId sequence : Nat) (storage : DirectoryStorage) (name : String) :
    Except Error RecoveryReport × DirectoryStorage :=
  storage.withNamespace name fun directory files => files.recover processId sequence directory name

end DirectoryStorage

/-! ## Calls of the durable backend -/

/-- A call on a namespace of the durable backend: one of the common interface, or a restore. -/
inductive DirectoryCall where
  | common (call : Call)
  | restore (snapshot : StorageSnapshot) (limits : StorageLimits)
  | restoreIfUnchanged (expected : CapturedState) (replacement : StorageSnapshot)
      (limits : StorageLimits)

/-- Perform a call. What a restore returns is its plan, which is left out. -/
def DirectoryCall.perform (name : String) (storage : DirectoryStorage) :
    DirectoryCall → Except Error Outcome × DirectoryStorage
  | .common call => call.perform name storage
  | .restore snapshot limits =>
    (storage.restore name snapshot limits).map (·.map fun _ => .done) id
  | .restoreIfUnchanged expected replacement limits =>
    (storage.restoreIfUnchanged name expected replacement limits).map (·.map fun _ => .done) id

/-- The limits that a call names. -/
def Call.limits : Call → Option StorageLimits
  | .prepare _ limits | .put _ _ limits | .compareExchange _ _ _ _ limits
  | .applyBatch _ _ limits => some limits
  | .get _ | .delete _ | .list _ | .usage | .revision => none

/-- The limits that a call of the durable backend names. -/
def DirectoryCall.limits : DirectoryCall → Option StorageLimits
  | .common call => call.limits
  | .restore _ limits | .restoreIfUnchanged _ _ limits => some limits

/-! ## State changes -/

/-- The state that a write hands to the commit. -/
def requestedState {α β : Type} (name : String) (checks : Except Error β)
    (next : β → State → Except Error (α × Option State)) (before : State) : Option State :=
  match (do
    let value ← checks
    validateNamespace name
    next value before) with
  | .ok step => step.2
  | .error _ => none

/-- The state change of a call: the state that it commits, if it commits one. -/
def DirectoryCall.change (name : String) (before : State) : DirectoryCall → Option State
  | .common (.prepare stateSchema limits) =>
    requestedState name (validateLimits limits)
      (fun _ state => state.prepare stateSchema limits) before
  | .common (.put key value limits) =>
    requestedState name (do
      validateKey key
      validateLimits limits
      rejectIf (value.length > limits.maxValueBytes)
        (.valueTooLarge value.length limits.maxValueBytes))
      (fun _ state => state.put key value limits) before
  | .common (.delete key) =>
    requestedState name (validateKey key) (fun _ state => state.delete key) before
  | .common (.compareExchange expectedRevision key expected replacement limits) =>
    requestedState name (validateCompareExchange key expected replacement limits)
      (fun _ state => state.compareExchange expectedRevision key expected replacement limits)
      before
  | .common (.applyBatch expectedRevision mutations limits) =>
    requestedState name (validateMutations mutations limits)
      (fun _ state => state.applyBatch expectedRevision mutations limits) before
  | .common _ => none
  | .restore snapshot limits =>
    requestedState name (DirectoryStorage.restoreEntries name snapshot limits)
      (fun entries state => state.restore snapshot entries) before
  | .restoreIfUnchanged expected replacement limits =>
    requestedState name (do
      let expectedEntries ← expected.snapshot.entriesFor name
      let entries ← DirectoryStorage.restoreEntries name replacement limits
      pure (expectedEntries, entries))
      (fun entries state => state.restoreIfUnchanged expected entries.1 replacement entries.2)
      before

section

variable {α β : Type} {name : String} {checks : Except Error β}
  {next : β → State → Except Error (α × Option State)} {before state : State}
  {storage : DirectoryStorage} {call : DirectoryCall}

omit [FromJson DiskEnvelope] [HexCodec] [Sha256] in
/-- A requested state is the one that the write computes behind its checks. -/
theorem requestedState_eq_some :
    requestedState name checks next before = some state ↔
      ∃ value result, checks = .ok value ∧ validateNamespace name = .ok ()
        ∧ next value before = .ok (result, some state) := by
  unfold requestedState
  cases checks with
  | error error => simp [error_bind]
  | ok value =>
    cases validateNamespace name with
    | error error => simp [error_bind, ok_bind]
    | ok _ =>
      simp only [ok_bind]
      cases hstep : next value before with
      | error error => simp [hstep]
      | ok step =>
        obtain ⟨result, committed⟩ := step
        simp [hstep]

/-- How a call arrives at the state that it commits, from the state before. -/
inductive DirectoryCall.Changes (name : String) (before : State) (call : DirectoryCall) :
    State → Prop where
  | prepare (schema : UInt32) : Changes name before call { before with schema }
  | put {key : String} {value : List UInt8} {limits : StorageLimits} {state : State}
      (hlimits : limits ∈ call.limits) (hvalid : limits.Valid) (hkey : validateKey key = .ok ())
      (hvalue : value.length ≤ limits.maxValueBytes)
      (hput : before.put key value limits = .ok ((), some state)) : Changes name before call state
  | delete {key : String} {value : List UInt8} (hvalue : before.entries[key]? = some value) :
      Changes name before call { before with
        entries := before.entries.erase key
        usage := ⟨before.usage.bytes - value.length, (before.entries.erase key).size⟩ }
  | commit {mutations : List StorageMutation} {limits : StorageLimits} {state : State}
      {result : StorageTransactionResult} (hlimits : limits ∈ call.limits)
      (hmutations : ValidMutations mutations limits)
      (hcommit : before.commit mutations limits = .ok (result, some state)) :
      Changes name before call state
  | restore {snapshot : StorageSnapshot} {entries : Entries} {limits : StorageLimits}
      {plan : RestorePlan} {state : State} (hlimits : limits ∈ call.limits)
      (hentries : DirectoryStorage.restoreEntries name snapshot limits = .ok entries)
      (hrestore : before.restore snapshot entries = .ok (plan, some state)) :
      Changes name before call state

omit [FromJson DiskEnvelope] in
/-- A state change is one of five. -/
theorem DirectoryCall.changes_of_change (h : call.change name before = some state) :
    validateNamespace name = .ok () ∧ call.Changes name before state := by
  cases call with
  | restore snapshot limits =>
    rw [change] at h
    obtain ⟨entries, plan, hentries, hname, hnext⟩ := requestedState_eq_some.mp h
    exact ⟨hname, .restore rfl hentries hnext⟩
  | restoreIfUnchanged expected replacement limits =>
    rw [change] at h
    obtain ⟨⟨_, entries⟩, plan, hchecks, hname, hnext⟩ := requestedState_eq_some.mp h
    simp only [bind_eq_ok, pure_eq_ok, Except.ok.injEq, Prod.mk.injEq] at hchecks
    obtain ⟨_, -, _, hentries, -, rfl⟩ := hchecks
    simp only [State.restoreIfUnchanged, bind_eq_ok, exists_unit] at hnext
    exact ⟨hname, .restore rfl hentries hnext.2⟩
  | common call =>
    cases call with
    | prepare stateSchema limits =>
      rw [change] at h
      obtain ⟨_, _, -, hname, hnext⟩ := requestedState_eq_some.mp h
      unfold State.prepare at hnext
      split at hnext
      · cases hnext
        exact ⟨hname, .prepare stateSchema⟩
      · simp at hnext
    | put key value limits =>
      rw [change] at h
      obtain ⟨_, _, hchecks, hname, hnext⟩ := requestedState_eq_some.mp h
      simp only [bind_eq_ok, exists_unit, validateLimits_eq_ok] at hchecks
      obtain ⟨hkey, hvalid, hvalue⟩ := hchecks
      exact ⟨hname, .put rfl hvalid hkey (Nat.not_lt.mp (rejectIf_eq_ok.mp hvalue)) hnext⟩
    | delete key =>
      rw [change] at h
      obtain ⟨_, _, -, hname, hnext⟩ := requestedState_eq_some.mp h
      unfold State.delete at hnext
      split at hnext
      · cases hnext
      · rename_i value hvalue
        cases hnext
        exact ⟨hname, .delete hvalue⟩
    | compareExchange expectedRevision key expected replacement limits =>
      rw [change] at h
      obtain ⟨_, _, hchecks, hname, hnext⟩ := requestedState_eq_some.mp h
      unfold State.compareExchange at hnext
      split at hnext
      · cases hnext
      · exact ⟨hname, .commit rfl (validateCompareExchange_eq_ok hchecks) hnext⟩
    | applyBatch expectedRevision mutations limits =>
      rw [change] at h
      obtain ⟨_, _, hchecks, hname, hnext⟩ := requestedState_eq_some.mp h
      unfold State.applyBatch at hnext
      split at hnext
      · cases hnext
      · exact ⟨hname, .commit rfl (validateMutations_eq_ok hchecks) hnext⟩
    | get key => cases h
    | list keyPrefix => cases h
    | usage => cases h
    | revision => cases h

omit [FromJson DiskEnvelope] [HexCodec] [Sha256] in
/-- A restore never goes back to an earlier generation. -/
theorem State.generation_restore {state committed : State} {snapshot : StorageSnapshot}
    {entries : Entries} {plan : RestorePlan}
    (h : state.restore snapshot entries = .ok (plan, some committed)) :
    state.generation ≤ committed.generation := by
  simp only [State.restore, bind_eq_ok, pure_eq_ok, Except.ok.injEq, Prod.mk.injEq] at h
  obtain ⟨_, -, -, h⟩ := h
  split at h
  · cases h
    exact le_max_left _ _
  · cases h

omit [FromJson DiskEnvelope] in
/-- A state change leads to a well-formed state that follows the one before. -/
theorem DirectoryCall.wellFormed_of_change (hbefore : before.WellFormed)
    (h : call.change name before = some state) :
    validateNamespace name = .ok () ∧ state.WellFormed ∧ before.generation ≤ state.generation := by
  obtain ⟨hname, hchanges⟩ := changes_of_change h
  refine ⟨hname, ?_⟩
  cases hchanges with
  | prepare schema => exact ⟨⟨hbefore.valid, hbefore.size_le, hbefore.usage_eq⟩, le_rfl⟩
  | put hlimits hvalid hkey hvalue hput =>
    obtain ⟨hwell, rfl⟩ := State.put_next hbefore hkey hvalid hvalue hput
    exact ⟨hwell, le_rfl⟩
  | delete hvalue => exact ⟨hbefore.erase hvalue, le_rfl⟩
  | commit hlimits hmutations hcommit =>
    obtain ⟨hwell, rfl⟩ := State.commit_next hbefore hmutations hcommit
    exact ⟨hwell, le_rfl⟩
  | restore hlimits hentries hrestore =>
    obtain ⟨hdecode, hsize⟩ := restoreEntries_eq_ok hentries
    exact ⟨(State.restore_next hdecode hsize hrestore).1, State.generation_restore hrestore⟩

/-! ## What a call can do to the generation files -/

/-- What a call is: a write that requests its state change, or a read. -/
theorem DirectoryCall.perform_eq (name : String) (storage : DirectoryStorage)
    (call : DirectoryCall) :
    (∃ (α β : Type) (checks : Except Error β) (next : β → State → Except Error (α × Option State))
        (convert : α → Outcome),
      call.perform name storage = (storage.write name checks next).map (·.map convert) id
        ∧ ∀ before, call.change name before = requestedState name checks next before)
    ∨ ∃ (α : Type) (checks : Except Error Unit) (look : State → α) (convert : α → Outcome),
      call.perform name storage = (storage.read name checks look).map (·.map convert) id
        ∧ ∀ before, call.change name before = none := by
  cases call with
  | restore snapshot limits => exact .inl ⟨_, _, _, _, _, rfl, fun _ => rfl⟩
  | restoreIfUnchanged expected replacement limits =>
    exact .inl ⟨_, _, _, _, _, rfl, fun _ => rfl⟩
  | common call =>
    cases call with
    | get key => exact .inr ⟨_, _, _, _, rfl, fun _ => rfl⟩
    | list keyPrefix => exact .inr ⟨_, _, _, _, rfl, fun _ => rfl⟩
    | usage => exact .inr ⟨_, .ok (), State.usage, .usage, rfl, fun _ => rfl⟩
    | revision => exact .inr ⟨_, .ok (), State.generation, .revision, rfl, fun _ => rfl⟩
    | _ => exact .inl ⟨_, _, _, _, _, rfl, fun _ => rfl⟩

/-- A read leaves the generation files. -/
theorem DirectoryStorage.read_generations (storage : DirectoryStorage) (name : String)
    (checks : Except Error Unit) (look : State → α) :
    ((storage.read name checks look).2.files name).generations
      = (storage.files name).generations := by
  cases checks with
  | error error => rfl
  | ok _ =>
    cases hname : validateNamespace name with
    | error error => simp [read, afterChecks, withNamespace, hname]
    | ok _ =>
      have hfiles := (storage.withNamespace_of_valid hname fun directory files =>
        files.observe directory name look).2
      show ((storage.withNamespace name fun directory files =>
        files.observe directory name look).2.files name).generations = _
      rw [hfiles]
      rfl

/-- A write leaves the generation files, or commits the state that it requests. -/
theorem DirectoryStorage.write_requested (storage : DirectoryStorage) (name : String)
    (checks : Except Error β) (next : β → State → Except Error (α × Option State)) :
    ((storage.write name checks next).2.files name).generations = (storage.files name).generations
      ∨ ∃ before state, storage.Holds name before
        ∧ requestedState name checks next before = some state
        ∧ commitState (storage.files name).cleanupPending name state
          = .ok ((storage.write name checks next).2.files name) := by
  obtain hkept | ⟨value, before, result, state, hchecks, hname, hload, hnext, hcommit⟩ :=
    storage.write_cases name checks next
  · exact .inl hkept
  · exact .inr ⟨before, state, hload,
      requestedState_eq_some.mpr ⟨value, result, hchecks, hname, hnext⟩, hcommit⟩

/-- A call leaves the generation files, or commits its state change. -/
theorem DirectoryCall.perform_change (name : String) (storage : DirectoryStorage)
    (call : DirectoryCall) :
    ((call.perform name storage).2.files name).generations = (storage.files name).generations
      ∨ ∃ before state, storage.Holds name before ∧ call.change name before = some state
        ∧ commitState (storage.files name).cleanupPending name state
          = .ok ((call.perform name storage).2.files name) := by
  obtain ⟨α, β, checks, next, convert, hperform, hchange⟩ | ⟨α, checks, look, convert, hperform, -⟩ :=
    call.perform_eq name storage
  · simp only [hperform, hchange]
    exact storage.write_requested name checks next
  · rw [hperform]
    exact .inl (storage.read_generations name checks look)

/-- A write with a state change commits it. -/
theorem DirectoryStorage.write_of_requested (hload : storage.Holds name before)
    (h : requestedState name checks next before = some state)
    (hgeneration : state.generation < wordMax) :
    (∃ result, (storage.write name checks next).1 = .ok result) ∧
      commitState (storage.files name).cleanupPending name state
        = .ok ((storage.write name checks next).2.files name) := by
  obtain ⟨value, result, hchecks, hname, hnext⟩ := requestedState_eq_some.mp h
  obtain ⟨hresult, hfiles⟩ := storage.write_of_checks hname hchecks next
  obtain ⟨files, hcommit⟩ := commitState_of_lt (storage.files name).cleanupPending name hgeneration
  rw [NamespaceDirectory.update_of_loadState hload, hnext] at hresult hfiles
  simp only [ok_bind, NamespaceDirectory.commitNext, hcommit, Except.map] at hresult hfiles
  exact ⟨⟨result, hresult⟩, by rw [hcommit, hfiles]⟩

/-- A call with a state change commits it. -/
theorem DirectoryCall.perform_of_change (hload : storage.Holds name before)
    (h : call.change name before = some state) (hgeneration : state.generation < wordMax) :
    (∃ outcome, (call.perform name storage).1 = .ok outcome) ∧
      commitState (storage.files name).cleanupPending name state
        = .ok ((call.perform name storage).2.files name) := by
  obtain ⟨α, β, checks, next, convert, hperform, hchange⟩ | ⟨α, checks, look, convert, -, hnone⟩ :=
    call.perform_eq name storage
  · rw [hchange] at h
    obtain ⟨⟨result, hresult⟩, hcommit⟩ := DirectoryStorage.write_of_requested hload h hgeneration
    rw [hperform]
    exact ⟨⟨convert result, congrArg (Except.map convert) hresult⟩, hcommit⟩
  · cases (hnone before).symm.trans h

/-- A read leaves the path of the root. -/
theorem DirectoryStorage.read_root (storage : DirectoryStorage) (name : String)
    (checks : Except Error Unit) (look : State → α) :
    (storage.read name checks look).2.root = storage.root := by
  unfold read afterChecks
  split
  · exact withNamespace_root storage name _
  · rfl

/-- A call leaves the path of the root. -/
theorem DirectoryCall.root_perform (name : String) (storage : DirectoryStorage)
    (call : DirectoryCall) : (call.perform name storage).2.root = storage.root := by
  obtain ⟨α, β, checks, next, convert, hperform, -⟩ | ⟨α, checks, look, convert, hperform, -⟩ :=
    call.perform_eq name storage
  · rw [hperform]
    exact storage.write_root name checks next
  · rw [hperform]
    exact storage.read_root name checks look

/-- A call leaves the path of the namespace. -/
theorem DirectoryCall.namespaceDirectory_perform (name : String) (storage : DirectoryStorage)
    (call : DirectoryCall) :
    (call.perform name storage).2.namespaceDirectory name = storage.namespaceDirectory name := by
  rw [DirectoryStorage.namespaceDirectory, call.root_perform name storage,
    DirectoryStorage.namespaceDirectory]

end

end

end CartridgeRuntime.Storage
