import CartridgeRuntime.Library.Transition
import CartridgeRuntime.Storage.Crash

/-!
# Recorded usage over runs

A namespace keeps a count of its bytes, and three paths of the code change it: `put`, `delete` and
the totals of a batch. `Accounted` says that the recorded usage is the true one and within the
limits. Each path keeps it, so it holds of every namespace that calls under fixed limits reach
(`recorded_usage_exact`): in memory for the namespaces of the map, on disk for every generation file
that can be read, and with that for the loaded state.
-/

namespace CartridgeRuntime.Storage

open Checked Std Encoding Transition

/-- The recorded usage is that of the entries and is within the limits. -/
structure Accounted (limits : StorageLimits) (entries : Entries) (usage : StorageUsage) : Prop where
  bytes_eq : usage.bytes = (entries.toList.map (·.2.length)).sum
  keys_eq : usage.keys = entries.size
  bytes_le : usage.bytes ≤ limits.maxBytes
  keys_le : usage.keys ≤ limits.maxKeys
  value_le : ∀ {key : String} {value : List UInt8},
    entries[key]? = some value → value.length ≤ limits.maxValueBytes

namespace Accounted

variable {limits : StorageLimits} {entries : Entries} {usage : StorageUsage}

theorem usage_eq (h : Accounted limits entries usage) : usage = trueUsage entries :=
  congrArg₂ StorageUsage.mk h.bytes_eq h.keys_eq

/-- The true usage is accounted for when it is within the limits. -/
theorem of_trueUsage (hbytes : totalBytes entries ≤ limits.maxBytes)
    (hkeys : entries.size ≤ limits.maxKeys)
    (hvalue : ∀ {key : String} {value : List UInt8},
      entries[key]? = some value → value.length ≤ limits.maxValueBytes) :
    Accounted limits entries (trueUsage entries) :=
  ⟨rfl, rfl, hbytes, hkeys, hvalue⟩

theorem empty (limits : StorageLimits) : Accounted limits ∅ ⟨0, 0⟩ :=
  ⟨(TreeMap.sumOf_empty fun (_ : String) (value : List UInt8) => value.length).symm, by simp,
    Nat.zero_le _, Nat.zero_le _, by simp⟩

variable {key : String} {value : List UInt8}

/-- No value is longer than the recorded bytes. -/
theorem length_le_bytes (h : Accounted limits entries usage) (hvalue : entries[key]? = some value) :
    value.length ≤ usage.bytes := by
  have hle := valueBytes_le entries key
  rw [valueBytes, hvalue, Option.elim_some] at hle
  rw [h.usage_eq]
  exact hle

/-- An admitted value keeps the account. -/
theorem insert (h : Accounted limits entries usage) {nextBytes : Nat}
    (hvalue : value.length ≤ limits.maxValueBytes)
    (hadmission : admitValue entries usage.bytes key value limits = .ok nextBytes) :
    Accounted limits (entries.insert key value) ⟨nextBytes, (entries.insert key value).size⟩ := by
  have hkeys := h.keys_le
  rw [h.usage_eq] at hadmission hkeys
  obtain ⟨rfl, hbytes, hsize⟩ := admitValue_eq_ok hadmission
  refine of_trueUsage hbytes (hsize.trans (max_le hkeys le_rfl)) fun {other found} hfound => ?_
  rw [TreeMap.getElem?_insert'] at hfound
  split at hfound
  · cases hfound
    exact hvalue
  · exact h.value_le hfound

/-- A deletion keeps the account: its subtraction takes away bytes that were counted. -/
theorem erase (h : Accounted limits entries usage) (hvalue : entries[key]? = some value) :
    Accounted limits (entries.erase key)
      ⟨usage.bytes - value.length, (entries.erase key).size⟩ := by
  have hbytes := totalBytes_erase entries key
  have hsize := size_erase_old hvalue
  have hmaxBytes := h.bytes_le
  have hmaxKeys := h.keys_le
  rw [valueBytes, hvalue, Option.elim_some] at hbytes
  rw [h.usage_eq] at hmaxBytes hmaxKeys ⊢
  simp only [trueUsage] at hmaxBytes hmaxKeys ⊢
  have hnext : totalBytes entries - value.length = totalBytes (entries.erase key) := by omega
  rw [hnext]
  refine of_trueUsage (by omega) (by omega) fun {other found} hfound => ?_
  rw [TreeMap.getElem?_erase'] at hfound
  split at hfound
  · cases hfound
  · exact h.value_le hfound

/-- A batch keeps the account. -/
theorem applyMutations (h : Accounted limits entries usage) {mutations : List StorageMutation}
    (hmutations : ValidMutations mutations limits) {changed : Bool} {next : Entries}
    {after : StorageUsage}
    (happly : applyMutations entries usage mutations limits = .ok (changed, next, after)) :
    Accounted limits next after := by
  rw [h.usage_eq] at happly
  obtain ⟨rfl, rfl, hbytes, hkeys⟩ := applyMutations_eq_ok hmutations.keys_distinct happly
  refine of_trueUsage hbytes hkeys fun {key value} hfound => ?_
  rcases getElem?_foldl_applyMutation hfound with ⟨mutation, hmem, -, hvalue⟩ | hbefore
  · exact hmutations.value_le mutation hmem value hvalue
  · exact h.value_le hbefore

/-- The values of a map, one by one, are within a limit when its entries are. -/
theorem value_le_of_values {maxValueBytes : Nat}
    (h : ∀ value ∈ entries.toList.map (·.2), value.length ≤ maxValueBytes)
    (hvalue : entries[key]? = some value) : value.length ≤ maxValueBytes :=
  h value (List.mem_map.mpr ⟨(key, value), ExtTreeMap.mem_toList_iff_getElem?_eq_some.mpr hvalue, rfl⟩)

/-- Entries that pass `validateEntryLimits` are accounted for by what it returns. -/
theorem of_validateEntryLimits (h : validateEntryLimits entries limits = .ok usage) :
    Accounted limits entries usage := by
  simp only [validateEntryLimits, bind_eq_ok, exists_unit, rejectIf_eq_ok, pure_eq_ok,
    Except.ok.injEq] at h
  obtain ⟨-, hkeys, bytes, hloop, hbytes, rfl⟩ := h
  obtain ⟨hsum, hvalues⟩ := foldlM_countValue hloop
  rw [Nat.zero_add, List.map_map] at hsum
  exact ⟨hsum, rfl, by simp only; omega, by simp only; omega, value_le_of_values hvalues⟩

/-- Entries that pass `validateRestoreLimits` are within the limits. -/
theorem of_validateRestoreLimits (h : validateRestoreLimits entries limits = .ok ()) :
    Accounted limits entries (trueUsage entries) := by
  simp only [validateRestoreLimits, bind_eq_ok, exists_unit, rejectIf_eq_ok] at h
  obtain ⟨-, bytes, hloop, hbytes, hkeys⟩ := h
  obtain ⟨hsum, hvalues⟩ := foldlM_countValue hloop
  rw [Nat.zero_add, List.map_map] at hsum
  have htotal : bytes = totalBytes entries := hsum
  exact of_trueUsage (by omega) (by omega) (value_le_of_values hvalues)

end Accounted

/-! ## The in-memory backend -/

/-- Replace a namespace by given entries. -/
def MemoryStorage.loadNamespace (storage : MemoryStorage) (name : String) (stateSchema : UInt32)
    (revision : Nat) (entries : Entries) (limits : StorageLimits) :
    Except Error Unit × MemoryStorage :=
  match (do
    validateNamespace name
    validateEntryLimits entries limits) with
  | .ok usage =>
    let state : Namespace := { stateSchema, revision, entries, bytes := usage.bytes }
    (.ok (), { namespaces := storage.namespaces.insert name state })
  | .error error => (.error error, storage)

/-- A call on a namespace of the in-memory backend: one of the common interface, or a load. -/
inductive MemoryCall where
  | common (call : Call)
  | loadNamespace (stateSchema : UInt32) (revision : Nat) (entries : Entries)
      (limits : StorageLimits)

/-- Perform a call. -/
def MemoryCall.perform (name : String) (storage : MemoryStorage) :
    MemoryCall → Except Error Outcome × MemoryStorage
  | .common call => call.perform name storage
  | .loadNamespace stateSchema revision entries limits =>
    (storage.loadNamespace name stateSchema revision entries limits).map (·.map fun _ => .done) id

def MemoryCall.limits : MemoryCall → Option StorageLimits
  | .common call => call.limits
  | .loadNamespace _ _ _ limits => some limits

/-- The runs of the in-memory backend: calls on any namespaces, from an empty storage. -/
def memoryRuns : System MemoryStorage (String × MemoryCall) where
  start := .new
  step storage step := some (step.2.perform step.1 storage).2

/-- A namespace is accounted for. -/
def Namespace.Accounted (limits : StorageLimits) (state : Namespace) : Prop :=
  Storage.Accounted limits state.entries ⟨state.bytes, state.entries.size⟩

namespace Namespace

variable {limits : StorageLimits} {state next : Namespace}

/-- A new namespace is accounted for. -/
theorem Accounted.new (limits : StorageLimits) (stateSchema : UInt32) :
    Accounted limits { stateSchema } :=
  Storage.Accounted.empty limits

/-- A transaction keeps the account. -/
theorem Accounted.commit (h : state.Accounted limits) {mutations : List StorageMutation}
    (hmutations : ValidMutations mutations limits) {result : StorageTransactionResult}
    (hcommit : state.commit mutations limits = .ok (result, next)) : next.Accounted limits := by
  simp only [Namespace.commit, bind_eq_ok, pure_eq_ok, Except.ok.injEq, Prod.mk.injEq] at hcommit
  obtain ⟨_, -, ⟨changed, entries, usage⟩, happly, -, rfl⟩ := hcommit
  have hnext := h.applyMutations hmutations happly
  unfold Namespace.Accounted
  simp only
  rw [← hnext.keys_eq]
  exact hnext

/-- A step of a call under the limits keeps the account. -/
theorem Accounted.steps (h : state.Accounted limits) {call : Call}
    (hlimits : ∀ own ∈ call.limits, own = limits) (hsteps : call.Steps state next) :
    next.Accounted limits := by
  cases hsteps with
  | keep => exact h
  | prepare stateSchema hnew => exact .new limits stateSchema
  | put hown hvalue hadmission hrevision =>
    cases hlimits _ hown
    exact h.insert hvalue hadmission
  | delete hvalue hrevision => exact h.erase hvalue
  | commit hown hmutations hcommit =>
    cases hlimits _ hown
    exact h.commit hmutations hcommit

end Namespace

namespace MemoryStorage

variable {limits : StorageLimits} {storage : MemoryStorage}

/-- Every namespace is accounted for. -/
def Accounted (limits : StorageLimits) (storage : MemoryStorage) : Prop :=
  ∀ (name : String) (state : Namespace),
    storage.namespaces[name]? = some state → state.Accounted limits

theorem Accounted.insert (h : storage.Accounted limits) {name : String} {state : Namespace}
    (hstate : state.Accounted limits) :
    Accounted limits { namespaces := storage.namespaces.insert name state } := by
  intro other found hfound
  rw [TreeMap.getElem?_insert'] at hfound
  split at hfound
  · cases hfound
    exact hstate
  · exact h other found hfound

theorem Accounted.getD (h : storage.Accounted limits) (name : String) :
    (storage.namespaces[name]?.getD {}).Accounted limits := by
  cases hstate : storage.namespaces[name]? with
  | none => exact Namespace.Accounted.new limits 0
  | some state => exact h name state hstate

/-- A call under the limits keeps every namespace accounted for. -/
theorem Accounted.perform (h : storage.Accounted limits) (name : String) {call : MemoryCall}
    (hlimits : ∀ own ∈ call.limits, own = limits) :
    (call.perform name storage).2.Accounted limits := by
  cases call with
  | loadNamespace stateSchema revision entries own =>
    cases hlimits own rfl
    show (storage.loadNamespace name stateSchema revision entries limits).2.Accounted limits
    unfold loadNamespace
    split
    · rename_i usage hchecks
      simp only [bind_eq_ok, exists_unit] at hchecks
      have haccounted := Storage.Accounted.of_validateEntryLimits hchecks.2
      refine h.insert ?_
      unfold Namespace.Accounted
      simp only
      rw [← haccounted.keys_eq]
      exact haccounted
    · exact h
  | common call =>
    show (call.perform name storage).2.Accounted limits
    obtain hkept | ⟨next, hsteps, hafter⟩ := storage.perform_leads name call
    · rw [hkept]
      exact h
    · rw [hafter]
      exact h.insert ((h.getD name).steps hlimits hsteps)

end MemoryStorage

/-! ## The durable backend -/

/-- A state is accounted for. -/
def State.Accounted (limits : StorageLimits) (state : State) : Prop :=
  Storage.Accounted limits state.entries state.usage

section

variable [HexCodec] [Sha256]

variable {name : String}

/-- A snapshot within the limits leads to a state that is accounted for. -/
theorem State.restore_accounted {limits : StorageLimits} {state next : State}
    {snapshot : StorageSnapshot} {entries : Entries}
    (hentries : DirectoryStorage.restoreEntries name snapshot limits = .ok entries)
    {plan : RestorePlan} (hrestore : state.restore snapshot entries = .ok (plan, some next)) :
    next.Accounted limits := by
  obtain ⟨hdecode, hsize⟩ := restoreEntries_eq_ok hentries
  obtain ⟨-, rfl⟩ := State.restore_next hdecode hsize hrestore
  simp only [DirectoryStorage.restoreEntries, bind_eq_ok, exists_unit, pure_eq_ok,
    Except.ok.injEq] at hentries
  obtain ⟨_, -, hlimits, rfl⟩ := hentries
  exact Storage.Accounted.of_validateRestoreLimits hlimits

/-- A state change under the limits keeps the account. -/
theorem DirectoryCall.accounted_of_change {limits : StorageLimits} {call : DirectoryCall}
    {before state : State} (h : before.Accounted limits)
    (hlimits : ∀ own ∈ call.limits, own = limits) (hchange : call.change name before = some state) :
    state.Accounted limits := by
  obtain ⟨-, hchanges⟩ := changes_of_change hchange
  cases hchanges with
  | prepare schema => exact h
  | put hown hvalid hkey hvalue hput =>
    cases hlimits _ hown
    obtain ⟨nextBytes, hadmission, rfl⟩ := State.put_admits hput
    exact h.insert hvalue hadmission
  | delete hvalue => exact h.erase hvalue
  | commit hown hmutations hcommit =>
    cases hlimits _ hown
    obtain ⟨entries, usage, happly, rfl⟩ := State.commit_applies hcommit
    exact h.applyMutations hmutations happly
  | restore hown hentries hrestore =>
    cases hlimits _ hown
    exact State.restore_accounted hentries hrestore

variable [FromJson DiskEnvelope]

/-- The runs of the durable backend: calls on any namespaces, from an empty storage. -/
def directoryRuns (root : String) : System DirectoryStorage (String × DirectoryCall) where
  start := { root }
  step storage step := some (step.2.perform step.1 storage).2

/-- A file that was written for a state is read as that state or not at all. -/
theorem readState_of_envelope {path other : String} {generation : Nat} {state read : State}
    (h : state.WellFormed)
    (hread : readState path (encode (state.envelope other)) name generation = .ok read) :
    read = state := by
  have hidentity : name = other ∧ generation = state.generation := by
    simp only [readState, fromSlice_encode, mapError, ok_bind, bind_eq_ok, exists_unit,
      rejectIf_eq_ok, State.envelope, State.payload, not_or, not_not] at hread
    obtain ⟨-, -, ⟨-, hname, hgeneration, -⟩, -⟩ := hread
    exact ⟨hname.symm, hgeneration.symm⟩
  obtain ⟨rfl, rfl⟩ := hidentity
  rw [readState_envelope h] at hread
  split at hread
  · cases hread
    rfl
  · cases hread

namespace DirectoryStorage

/-- Every generation file that can be read holds a state that is accounted for. -/
def Accounted (limits : StorageLimits) (storage : DirectoryStorage) : Prop :=
  ∀ (name : String) (generation : Nat) (bytes : List UInt8),
    (storage.files name).generations[generation]? = some bytes →
      ∀ path state, readState path bytes name generation = .ok state → state.Accounted limits

variable {limits : StorageLimits} {storage : DirectoryStorage}

variable {name other : String} {α : Type}

/-- What is loaded is one of the files or the empty state. -/
theorem Accounted.holds (h : storage.Accounted limits) {state : State}
    (hload : storage.Holds name state) : state.Accounted limits := by
  have hstart : State.Accounted limits {} := Storage.Accounted.empty limits
  refine foldlM_invariant (fun file hmem latest next hlatest hstep => ?_) hstart hload
  simp only [loadGeneration, bind_eq_ok, pure_eq_ok, Except.ok.injEq] at hstep
  obtain ⟨read, hread, rfl⟩ := hstep
  split
  · exact h name file.1 file.2 (ExtTreeMap.mem_toList_iff_getElem?_eq_some.mp hmem) _ read hread
  · exact hlatest

omit [FromJson DiskEnvelope] in
/-- An operation on a namespace leaves the files of every other directory. -/
theorem files_withNamespace_of_ne (hne : directoryName name ≠ directoryName other)
    (operation : String → NamespaceDirectory → Except Error α × NamespaceDirectory) :
    (storage.withNamespace name operation).2.files other = storage.files other := by
  unfold withNamespace
  split
  · rfl
  · simp only [files, TreeMap.getElem?_insert', if_neg hne]

theorem files_write_of_ne {β : Type} (hne : directoryName name ≠ directoryName other)
    (checks : Except Error β) (next : β → State → Except Error (α × Option State)) :
    (storage.write name checks next).2.files other = storage.files other := by
  cases checks with
  | error error => rfl
  | ok value =>
    exact storage.files_withNamespace_of_ne hne fun directory files =>
      files.update directory name (next value)

theorem files_read_of_ne (hne : directoryName name ≠ directoryName other)
    (checks : Except Error Unit) (look : State → α) :
    (storage.read name checks look).2.files other = storage.files other := by
  cases checks with
  | error error => rfl
  | ok value =>
    exact storage.files_withNamespace_of_ne hne fun directory files =>
      files.observe directory name look

end DirectoryStorage

/-- A call leaves the files of every other directory. -/
theorem DirectoryCall.files_perform_of_ne {name other : String} {storage : DirectoryStorage}
    (hne : DirectoryStorage.directoryName name ≠ DirectoryStorage.directoryName other)
    (call : DirectoryCall) : (call.perform name storage).2.files other = storage.files other := by
  obtain ⟨α, β, checks, next, convert, hperform, -⟩ | ⟨α, checks, look, convert, hperform, -⟩ :=
    call.perform_eq name storage
  · rw [hperform]
    exact storage.files_write_of_ne hne checks next
  · rw [hperform]
    exact storage.files_read_of_ne hne checks look

/-- A call under the limits keeps every file accounted for. -/
theorem DirectoryStorage.Accounted.perform {limits : StorageLimits} {storage : DirectoryStorage}
    (h : storage.Accounted limits) (name : String) {call : DirectoryCall}
    (hlimits : ∀ own ∈ call.limits, own = limits) :
    (call.perform name storage).2.Accounted limits := by
  intro other generation bytes hfile path state hread
  by_cases hsame : directoryName name = directoryName other
  · -- Both names have one directory, whose files can be read for one of them at most.
    have hbefore : storage.files other = storage.files name := by rw [files, ← hsame, files]
    have hafter : (call.perform name storage).2.files other
        = (call.perform name storage).2.files name := by rw [files, ← hsame, files]
    rw [hafter] at hfile
    rcases call.perform_change name storage with hkept | ⟨before, committed, hload, hchange, hcommit⟩
    · rw [hkept, ← hbefore] at hfile
      exact h other generation bytes hfile path state hread
    · have hwell := call.wellFormed_of_change (loadState_wellFormed hload).1 hchange
      rcases commitState_files hcommit hfile with rfl | hold
      · have hmax : ∀ generation ∈ (storage.files name).cleanupPending.generations,
            generation ≤ committed.generation := fun generation hmem =>
          ((loadState_wellFormed hload).2 generation hmem).trans hwell.2.2
        have hnewest := commitState_newest hmax hcommit
        cases hnewest.symm.trans hfile
        rw [readState_of_envelope (hwell.2.1.withGeneration _) hread]
        have hcommitted : committed.Accounted limits :=
          call.accounted_of_change (h.holds hload) hlimits hchange
        exact hcommitted
      · have hold' : (storage.files other).generations[generation]? = some bytes := by
          rw [hbefore]
          exact hold
        exact h other generation bytes hold' path state hread
  · rw [call.files_perform_of_ne hsame] at hfile
    exact h other generation bytes hfile path state hread

/-- The recorded usage is exact: in every namespace that calls under fixed limits reach, in memory or
loaded from disk, the recorded bytes and keys are those of the entries, the bytes, the keys and each
value are within the limits, and a deletion subtracts no more than is recorded. -/
theorem recorded_usage_exact (limits : StorageLimits) (name : String) :
    (∀ storage, Reached memoryRuns (fun _ step => ∀ own ∈ step.2.limits, own = limits) storage →
      ∀ state, storage.namespaces[name]? = some state →
        Storage.Accounted limits state.entries ⟨state.bytes, state.entries.size⟩ ∧
          ∀ (key : String) (value : List UInt8),
            state.entries[key]? = some value → value.length ≤ state.bytes) ∧
    ∀ root storage,
      Reached (directoryRuns root) (fun _ step => ∀ own ∈ step.2.limits, own = limits) storage →
      ∀ state, storage.Holds name state →
        Storage.Accounted limits state.entries state.usage ∧
          ∀ (key : String) (value : List UInt8),
            state.entries[key]? = some value → value.length ≤ state.usage.bytes := by
  constructor
  · intro storage hreached state hstate
    have hall : storage.Accounted limits := by
      refine Reached.invariant (P := MemoryStorage.Accounted limits) (fun _ _ hnone => ?_)
        (fun h hallowed hstep => ?_) hreached
      · simp [memoryRuns, MemoryStorage.new] at hnone
      · cases hstep
        exact h.perform _ hallowed
    have haccounted := hall name state hstate
    exact ⟨haccounted, fun key value hvalue => haccounted.length_le_bytes hvalue⟩
  · intro root storage hreached state hload
    have hall : storage.Accounted limits := by
      refine Reached.invariant (P := DirectoryStorage.Accounted limits)
        (fun _ _ _ hnone => ?_) (fun h hallowed hstep => ?_) hreached
      · simp [directoryRuns, DirectoryStorage.files] at hnone
      · cases hstep
        exact h.perform _ hallowed
    have haccounted := hall.holds hload
    exact ⟨haccounted, fun key value hvalue => haccounted.length_le_bytes hvalue⟩

end

/-- Both backends account for the byte of a first put. -/
theorem recorded_usage_of_first_put :
    let _ := nibbleCodec
    let _ := Sha2.sha256
    let _ := strictEnvelopeReader
    let limits := smallLimits
    let entries := (∅ : Entries).insert "k" [1]
    Storage.Accounted limits entries ⟨1, entries.size⟩ ∧
      Storage.Accounted limits entries (trueUsage entries) := by
  intro _ _ _ limits entries
  have husage := recorded_usage_exact limits "a"
  constructor
  · refine (husage.1 ((MemoryCall.common (.put "k" [1] limits)).perform "a" .new).2
      (.step (a := ("a", .common (.put "k" [1] limits))) .start ?_ rfl)
      { revision := 1, entries, bytes := 1 } ?_).1
    · simp [MemoryCall.limits, Call.limits]
    · rfl
  · let storage : DirectoryStorage := { root := "/state" }
    let call := putByte "k" 1
    have hload : storage.Holds "a" {} := loadState_empty _ _
    have hchange : call.change "a" {} = some (.ofContents 0 0 entries) := rfl
    have hwell := (DirectoryCall.wellFormed_of_change State.wellFormed_default hchange).2.1
    have hnext : (call.perform "a" storage).2.Holds "a" (.ofContents 1 0 entries) := by
      unfold DirectoryStorage.Holds
      rw [DirectoryCall.namespaceDirectory_perform]
      have hle : ({} : State).generation ≤ (State.ofContents 0 0 entries).generation := le_rfl
      exact loadState_commitState validateNamespace_a hload hle hwell
        (DirectoryCall.perform_of_change hload hchange (by decide)).2 (by decide)
    refine (husage.2 "/state" _ (.step (a := ("a", call)) .start ?_ rfl) _ hnext).1
    simp [call, putByte, DirectoryCall.limits, Call.limits, limits]

end CartridgeRuntime.Storage
