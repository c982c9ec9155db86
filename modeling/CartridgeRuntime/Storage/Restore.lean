import CartridgeRuntime.Library.MapDiff
import CartridgeRuntime.Storage.SnapshotFile
import CartridgeRuntime.Storage.Usage

/-!
# Restores and their plans

A restore computes a plan from the loaded state and the snapshot, and commits the contents of the
snapshot if the plan changes anything. `RestorePlan.Describes` says what a plan means, whoever asked
for it. A restore does what its plan says exactly when the state it has to write fits into a state
file (`restore_exact_iff`); a larger state is written and cannot be read again.
-/

namespace CartridgeRuntime.Storage

open Checked Std Encoding

/-! ## Plans -/

/-- What a plan says about the state and the entries of the snapshot that it was made for. -/
structure RestorePlan.Describes (plan : RestorePlan) (current : State) (schema : UInt32)
    (revision : Nat) (entries : Entries) : Prop where
  usage : plan.snapshot = trueUsage entries
  snapshot_keys : plan.added + plan.replaced + plan.unchanged = entries.size
  current_keys : plan.replaced + plan.unchanged + plan.removed = current.entries.size
  unchanged_iff : plan.changed = false ↔
    current.entries = entries ∧ current.schema = schema ∧ revision ≤ current.generation
  kept : plan.changed = false → plan.resultRevision = current.generation
  advanced : plan.changed = true → plan.resultRevision = max current.generation revision + 1 ∧
    max current.generation revision < wordMax

variable {revision : Nat} {current : State} {schema : UInt32} {entries : Entries}

/-- The revision of a plan. -/
theorem restoredRevision_eq_ok {contentChanged : Bool} {current snapshot : Nat}
    (h : restoredRevision contentChanged current snapshot = .ok revision) :
    if contentChanged ∨ current < snapshot then
      revision = max current snapshot + 1 ∧ max current snapshot < wordMax
    else revision = current := by
  unfold restoredRevision at h
  split
  · rename_i hchanged
    rw [if_pos hchanged, nextRevision, okOr_eq_ok, checkedAdd_eq_some] at h
    omega
  · rename_i hchanged
    rw [if_neg hchanged] at h
    cases h
    rfl

/-- The contents of a snapshot are not those of the state. -/
def State.differs (current : State) (schema : UInt32) (entries : Entries) : Bool :=
  current.schema ≠ schema ∨ TreeMap.added current.entries entries ≠ 0 ∨
    TreeMap.replaced current.entries entries ≠ 0 ∨ TreeMap.removed current.entries entries ≠ 0

theorem State.differs_eq_false :
    current.differs schema entries = false ↔ current.entries = entries ∧ current.schema = schema := by
  rw [TreeMap.eq_iff_no_difference, differs, decide_eq_false_iff_not]
  simp only [not_or, not_not]
  exact and_comm

/-- What a plan is made of. -/
theorem buildRestorePlan_eq_ok {plan : RestorePlan}
    (h : buildRestorePlan current.schema current.generation current.entries schema revision entries
      = .ok plan) :
    restoredRevision (current.differs schema entries) current.generation revision
        = .ok plan.resultRevision ∧
      plan.snapshot = trueUsage entries ∧
      plan.added = TreeMap.added current.entries entries ∧
      plan.replaced = TreeMap.replaced current.entries entries ∧
      plan.removed = TreeMap.removed current.entries entries ∧
      plan.unchanged = TreeMap.unchanged current.entries entries ∧
      plan.changed
        = (decide (current.generation ≠ plan.resultRevision) || current.differs schema entries) := by
  simp only [buildRestorePlan, bind_eq_ok, pure_eq_ok, Except.ok.injEq] at h
  obtain ⟨result, hresult, currentUsage, -, usage, husage, rfl⟩ := h
  refine ⟨hresult, stateUsage_eq_ok husage, rfl, rfl, rfl, rfl, ?_⟩
  simp only [RestorePlan.changed, State.differs, Bool.decide_or, Bool.or_assoc]
  rfl

/-- Whoever asked for it, a plan describes the state and the entries. -/
theorem buildRestorePlan_describes {plan : RestorePlan}
    (h : buildRestorePlan current.schema current.generation current.entries schema revision entries
      = .ok plan) : plan.Describes current schema revision entries := by
  obtain ⟨hresult, husage, hadded, hreplaced, hremoved, hunchanged, hchanged⟩ :=
    buildRestorePlan_eq_ok h
  have hrevision := restoredRevision_eq_ok hresult
  have hdiffers := @State.differs_eq_false current schema entries
  have hsnapshot : plan.added + plan.replaced + plan.unchanged = entries.size := by
    rw [hadded, hreplaced, hunchanged, TreeMap.added_add_replaced_add_unchanged]
  have hcurrent : plan.replaced + plan.unchanged + plan.removed = current.entries.size := by
    rw [hreplaced, hunchanged, hremoved, TreeMap.replaced_add_unchanged_add_removed]
  -- The plan changes something exactly when it has a new revision.
  by_cases hnew : current.differs schema entries = true ∨ current.generation < revision
  · rw [if_pos hnew] at hrevision
    have htrue : plan.changed = true := by
      rw [hchanged, Bool.or_eq_true, decide_eq_true_eq]
      left
      omega
    refine ⟨husage, hsnapshot, hcurrent, ⟨fun hfalse => ?_, fun hequal => ?_⟩, fun hfalse => ?_,
      fun _ => hrevision⟩
    · exact nomatch htrue.symm.trans hfalse
    · have hsame := hdiffers.mpr ⟨hequal.1, hequal.2.1⟩
      rcases hnew with hnew | hnew
      · exact nomatch hsame.symm.trans hnew
      · exact absurd hequal.2.2 (by omega)
    · exact nomatch htrue.symm.trans hfalse
  · rw [if_neg hnew] at hrevision
    rw [not_or, Bool.not_eq_true, Nat.not_lt] at hnew
    have hfalse : plan.changed = false := by
      rw [hchanged, hnew.1, hrevision]
      simp
    obtain ⟨hentries, hschema⟩ := hdiffers.mp hnew.1
    refine ⟨husage, hsnapshot, hcurrent, ⟨fun _ => ⟨hentries, hschema, hnew.2⟩, fun _ => hfalse⟩,
      fun _ => hrevision, fun htrue => ?_⟩
    exact nomatch htrue.symm.trans hfalse

/-- The usage of entries whose bytes do not overflow. -/
theorem stateUsage_of_le (h : totalBytes entries ≤ wordMax) :
    stateUsage entries = .ok (trueUsage entries) := by
  have hloop : ∀ (values : List (List UInt8)) (bytes : Nat),
      bytes + (values.map List.length).sum ≤ wordMax →
      values.foldlM (fun total value => okOr (checkedAdd total value.length)
        (Error.corrupt "storage usage overflowed")) bytes
        = .ok (bytes + (values.map List.length).sum) := by
    intro values
    induction values with
    | nil => exact fun _ _ => rfl
    | cons value values ih =>
      intro bytes hle
      rw [List.map_cons, List.sum_cons] at hle ⊢
      rw [List.foldlM_cons, checkedAdd_of_le (by omega), okOr, ok_bind, ih _ (by omega),
        Nat.add_assoc]
  have hsum : ((entries.toList.map (·.2)).map List.length).sum = totalBytes entries := by
    rw [List.map_map]
    rfl
  rw [stateUsage, hloop _ 0 (by omega), hsum, Nat.zero_add]
  rfl

/-- There is a plan unless the revision overflows. -/
theorem buildRestorePlan_succeeds (hcurrent : totalBytes current.entries ≤ wordMax)
    (hentries : totalBytes entries ≤ wordMax)
    (hrevision : max current.generation revision < wordMax) :
    ∃ plan, buildRestorePlan current.schema current.generation current.entries schema revision entries
      = .ok plan := by
  have hresult : ∀ contentChanged, ∃ result,
      restoredRevision contentChanged current.generation revision = .ok result := fun contentChanged => by
    unfold restoredRevision nextRevision
    split
    · rw [checkedAdd_of_le (by omega)]
      exact ⟨_, rfl⟩
    · exact ⟨_, rfl⟩
  obtain ⟨result, hresult⟩ := hresult (current.differs schema entries)
  simp only [buildRestorePlan, stateUsage_of_le hcurrent, stateUsage_of_le hentries]
  exact ⟨_, bind_eq_ok.mpr ⟨result, hresult, rfl⟩⟩

/-- The plan of restoring a snapshot over a state. -/
def State.restorePlan (state : State) (snapshot : StorageSnapshot) (entries : Entries) :
    Except Error RestorePlan :=
  buildRestorePlan state.schema state.generation state.entries snapshot.payload.stateSchema
    snapshot.payload.stateRevision entries

/-- The state that a restore hands to the commit. -/
def State.restored (state : State) (snapshot : StorageSnapshot) (entries : Entries) : State :=
  .ofContents (max state.generation snapshot.payload.stateRevision) snapshot.payload.stateSchema
    entries

/-- A restore is its plan, with a next state if the plan changes anything. -/
theorem State.restore_eq (state : State) (snapshot : StorageSnapshot) (entries : Entries) :
    state.restore snapshot entries = (state.restorePlan snapshot entries).map fun plan =>
      (plan, if plan.changed then some (state.restored snapshot entries) else none) := by
  unfold State.restore
  cases hplan : state.restorePlan snapshot entries with
  | error error =>
    unfold State.restorePlan at hplan
    rw [hplan]
    rfl
  | ok plan =>
    have husage := (buildRestorePlan_describes hplan).usage
    unfold State.restorePlan at hplan
    rw [hplan, ok_bind, husage]
    rfl

/-! ## Restores of a namespace -/

section

variable [HexCodec] [Sha256] [FromJson DiskEnvelope]

namespace DirectoryStorage

/-- The plan of a restore, which is not carried out. -/
def planRestore (storage : DirectoryStorage) (name : String) (snapshot : StorageSnapshot)
    (limits : StorageLimits) : Except Error RestorePlan × DirectoryStorage :=
  storage.afterChecks (restoreEntries name snapshot limits) fun entries =>
    storage.withNamespace name fun directory files =>
      ((do
        let current ← loadState directory name files
        buildRestorePlan current.schema current.generation current.entries
          snapshot.payload.stateSchema snapshot.payload.stateRevision entries), files)

variable {storage : DirectoryStorage} {name : String} {snapshot : StorageSnapshot}
  {limits : StorageLimits}

omit [FromJson DiskEnvelope] in
/-- What an operation keeps of its directory, it keeps of every directory. -/
theorem withNamespace_keeps {α γ : Type} (view : NamespaceDirectory → γ)
    (storage : DirectoryStorage) (name : String)
    (operation : String → NamespaceDirectory → Except Error α × NamespaceDirectory)
    (h : view (operation (storage.namespaceDirectory name) (storage.files name)).2
      = view (storage.files name)) (other : String) :
    view ((storage.withNamespace name operation).2.files other) = view (storage.files other) := by
  by_cases hsame : directoryName name = directoryName other
  · have hfiles : ∀ storage : DirectoryStorage, storage.files other = storage.files name := fun storage => by
      rw [files, files, hsame]
    rw [hfiles, hfiles]
    cases hname : validateNamespace name with
    | error error => rw [withNamespace, hname]
    | ok _ => rw [(storage.withNamespace_of_valid hname operation).2, h]
  · rw [files_withNamespace_of_ne hsame]

/-- A plan changes nothing. -/
theorem files_planRestore (storage : DirectoryStorage) (name : String) (snapshot : StorageSnapshot)
    (limits : StorageLimits) (other : String) :
    (storage.planRestore name snapshot limits).2.files other = storage.files other := by
  unfold planRestore afterChecks
  split
  · exact withNamespace_keeps id storage name _ rfl other
  · rfl

variable {before : State} {entries : Entries}

/-- What a restore does to its directory when the checks pass and the state is loaded. -/
theorem update_restore (snapshot : StorageSnapshot) (entries : Entries) {directory : String}
    {files : NamespaceDirectory} (hload : loadState directory name files = .ok before) :
    match before.restorePlan snapshot entries with
    | .error error => files.update directory name (·.restore snapshot entries)
        = (.error error, files.cleanupPending)
    | .ok plan => (files.update directory name (·.restore snapshot entries)).1 = .ok plan ∧
        if plan.changed then commitState files.cleanupPending name (before.restored snapshot entries)
          = .ok (files.update directory name (·.restore snapshot entries)).2
        else (files.update directory name (·.restore snapshot entries)).2 = files.cleanupPending := by
  rw [NamespaceDirectory.update_of_loadState hload, before.restore_eq]
  cases hplan : before.restorePlan snapshot entries with
  | error error => rfl
  | ok plan =>
    have hdescribes := buildRestorePlan_describes hplan
    cases hchanged : plan.changed with
    | false =>
      simp only [Except.map, hchanged, Bool.false_eq_true, if_false, ok_bind,
        NamespaceDirectory.commitNext]
      exact ⟨trivial, trivial⟩
    | true =>
      obtain ⟨next, hcommit⟩ := commitState_of_lt files.cleanupPending name
        (show (before.restored snapshot entries).generation < wordMax from
          (hdescribes.advanced hchanged).2)
      simp only [Except.map, hchanged, if_true, ok_bind, NamespaceDirectory.commitNext, hcommit]
      exact ⟨trivial, trivial⟩

/-- What a restore does when its checks pass and the state is loaded. -/
theorem restore_of_loaded (hname : validateNamespace name = .ok ())
    (hentries : restoreEntries name snapshot limits = .ok entries)
    (hload : storage.Holds name before) :
    (storage.restore name snapshot limits).1 = before.restorePlan snapshot entries ∧
      ∀ plan, before.restorePlan snapshot entries = .ok plan →
        if plan.changed then
          commitState (storage.files name).cleanupPending name (before.restored snapshot entries)
            = .ok ((storage.restore name snapshot limits).2.files name)
        else (storage.restore name snapshot limits).2.files name
          = (storage.files name).cleanupPending := by
  obtain ⟨hresult, hfiles⟩ := storage.write_of_checks hname hentries fun entries state =>
    state.restore snapshot entries
  have hupdate := update_restore snapshot entries hload
  rw [restore, hresult, hfiles]
  cases hplan : before.restorePlan snapshot entries with
  | error error =>
    simp only [hplan] at hupdate
    rw [hupdate]
    exact ⟨rfl, fun plan hok => nomatch hok⟩
  | ok plan =>
    simp only [hplan] at hupdate
    refine ⟨hupdate.1, fun plan' hok => ?_⟩
    cases hok
    exact hupdate.2

/-- A restore that succeeds has passed its checks. -/
theorem restore_eq_ok {plan : RestorePlan} (hload : storage.Holds name before)
    (h : (storage.restore name snapshot limits).1 = .ok plan) :
    ∃ entries, validateNamespace name = .ok () ∧
      restoreEntries name snapshot limits = .ok entries ∧
      before.restorePlan snapshot entries = .ok plan := by
  obtain ⟨entries, _, _, hentries, hname, -⟩ := write_eq_ok h
  rw [(restore_of_loaded hname hentries hload).1] at h
  exact ⟨entries, hname, hentries, h⟩

/-- A plan is what the restore returns, also where both fail. -/
theorem planRestore_result (storage : DirectoryStorage) (name : String) (snapshot : StorageSnapshot)
    (limits : StorageLimits) :
    (storage.planRestore name snapshot limits).1 = (storage.restore name snapshot limits).1 := by
  cases hentries : restoreEntries name snapshot limits with
  | error error => rw [planRestore, restore, write, hentries, afterChecks, afterChecks]
  | ok entries =>
    cases hname : validateNamespace name with
    | error error =>
      rw [planRestore, restore, write, hentries, afterChecks, afterChecks, withNamespace,
        withNamespace, hname]
    | ok _ =>
      rw [planRestore, hentries, afterChecks, (storage.withNamespace_of_valid hname _).1]
      cases hload : loadState (storage.namespaceDirectory name) name (storage.files name) with
      | ok before =>
        rw [(restore_of_loaded hname hentries hload).1]
        rfl
      | error error =>
        have hload' : loadState (storage.namespaceDirectory name) name
            (storage.files name).cleanupPending = .error error := hload
        rw [restore, (storage.write_of_checks hname hentries _).1, NamespaceDirectory.update]
        simp only [hload', error_bind]

/-- An update that fails keeps the generation files. -/
theorem update_eq_error {α : Type} {directory : String} {files : NamespaceDirectory}
    {next : State → Except Error (α × Option State)} {error : Error}
    (h : (files.update directory name next).1 = .error error) :
    (files.update directory name next).2 = files.cleanupPending := by
  unfold NamespaceDirectory.update at h ⊢
  simp only at h ⊢
  split at h
  · cases h
  · rfl

/-- A restore that fails keeps the generation files of every namespace. -/
theorem restore_eq_error {error : Error}
    (h : (storage.restore name snapshot limits).1 = .error error) (other : String) :
    ((storage.restore name snapshot limits).2.files other).generations
      = (storage.files other).generations := by
  cases hentries : restoreEntries name snapshot limits with
  | error error => rw [restore, write, hentries, afterChecks]
  | ok entries =>
    cases hname : validateNamespace name with
    | error error => rw [restore, write, hentries, afterChecks, withNamespace, hname]
    | ok _ =>
      rw [restore, (storage.write_of_checks hname hentries _).1] at h
      rw [restore, write, hentries, afterChecks]
      refine withNamespace_keeps NamespaceDirectory.generations storage name _ ?_ other
      rw [update_eq_error h]
      rfl

/-! ## Restores that fit -/

/-- A restore does what its plan says. -/
structure RestoresExactly (storage : DirectoryStorage) (name : String) (snapshot : StorageSnapshot)
    (limits : StorageLimits) : Prop where
  restored : ∀ before plan, storage.Holds name before →
    (storage.restore name snapshot limits).1 = .ok plan →
    ∃ entries after, snapshot.decodeEntries = .ok entries ∧
      (storage.restore name snapshot limits).2.Holds name after ∧
      after.entries = entries ∧ after.schema = snapshot.payload.stateSchema ∧
      after.usage = trueUsage entries ∧ after.generation = plan.resultRevision ∧
      (plan.changed = true → before.generation < plan.resultRevision ∧
        snapshot.payload.stateRevision < plan.resultRevision) ∧
      (plan.changed = false → before.entries = entries ∧
        before.schema = snapshot.payload.stateSchema) ∧
      plan.added + plan.replaced + plan.unchanged = entries.size ∧
      plan.replaced + plan.unchanged + plan.removed = before.entries.size
  planned : (storage.planRestore name snapshot limits).1
    = (storage.restore name snapshot limits).1
  plan_keeps : ∀ other,
    (storage.planRestore name snapshot limits).2.files other = storage.files other
  failure_keeps : ∀ error, (storage.restore name snapshot limits).1 = .error error →
    ∀ other, ((storage.restore name snapshot limits).2.files other).generations
      = (storage.files other).generations

/-- The state that a restore has to write fits into a state file, unless there is nothing to write or
the revision cannot advance. -/
def RestoreFits (storage : DirectoryStorage) (name : String) (snapshot : StorageSnapshot)
    (limits : StorageLimits) : Prop :=
  ∀ before entries, storage.Holds name before →
    restoreEntries name snapshot limits = .ok entries →
    (before.entries = entries ∧ before.schema = snapshot.payload.stateSchema ∧
        snapshot.payload.stateRevision ≤ before.generation) ∨
      wordMax ≤ max before.generation snapshot.payload.stateRevision ∨
      stateFileBytes name (.ofContents (max before.generation snapshot.payload.stateRevision + 1)
        snapshot.payload.stateSchema entries) ≤ maxStateFileBytes

/-- The files of a restore are in the directory that it was made for. -/
theorem holds_restore_iff {after : State} :
    (storage.restore name snapshot limits).2.Holds name after ↔
      loadState (storage.namespaceDirectory name) name
        ((storage.restore name snapshot limits).2.files name) = .ok after := by
  have hroot : (storage.restore name snapshot limits).2.root = storage.root :=
    storage.write_root name _ _
  rw [Holds, namespaceDirectory, hroot, namespaceDirectory]

section

omit [FromJson DiskEnvelope]

/-- The snapshot of a cartridge has a valid name. -/
theorem validateNamespace_of_restoreEntries
    (hentries : restoreEntries name snapshot limits = .ok entries) :
    validateNamespace name = .ok () := by
  simp only [restoreEntries, StorageSnapshot.entriesFor, bind_eq_ok, exists_unit, rejectIf_eq_ok,
    not_not] at hentries
  obtain ⟨_, ⟨hvalid, hidentity, -⟩, -⟩ := hentries
  rw [← hidentity]
  exact (validate_eq_ok hvalid).2.1

/-- The state that is restored is well formed. -/
theorem restored_wellFormed (hentries : restoreEntries name snapshot limits = .ok entries)
    (before : State) : (before.restored snapshot entries).WellFormed := by
  obtain ⟨hdecode, hsize⟩ := restoreEntries_eq_ok hentries
  exact ⟨decodeEntries_valid hdecode, hsize, rfl⟩

end

/-- A restore that changes something and is read back has written a file within the limit. -/
theorem stateFileBytes_restored_le {after : State} {plan : RestorePlan}
    (hname : validateNamespace name = .ok ())
    (hentries : restoreEntries name snapshot limits = .ok entries)
    (hload : storage.Holds name before) (hplan : before.restorePlan snapshot entries = .ok plan)
    (hchanged : plan.changed = true)
    (hafter : (storage.restore name snapshot limits).2.Holds name after) :
    stateFileBytes name (.ofContents (max before.generation snapshot.payload.stateRevision + 1)
      snapshot.payload.stateSchema entries) ≤ maxStateFileBytes := by
  have hcommit := (restore_of_loaded hname hentries hload).2 plan hplan
  rw [if_pos hchanged] at hcommit
  have hwell := restored_wellFormed hentries before
  have hmax : ∀ generation ∈ (storage.files name).cleanupPending.generations,
      generation ≤ (before.restored snapshot entries).generation := fun generation hmem =>
    ((loadState_wellFormed hload).2 generation hmem).trans (le_max_left _ _)
  -- Every file of a directory that is loaded is read, so the new one is.
  obtain ⟨state, hread⟩ := foldlM_loadGeneration_reads (holds_restore_iff.mp hafter) (_, _)
    (ExtTreeMap.mem_toList_iff_getElem?_eq_some.mpr (commitState_newest hmax hcommit))
  have hnext := hwell.withGeneration ((before.restored snapshot entries).generation + 1)
  have henvelope := readState_envelope hnext
    (stateFilePath (storage.namespaceDirectory name) ((before.restored snapshot entries).generation + 1))
    name
  by_contra hlarge
  rw [length_encode_envelope hname hnext.valid, if_neg (by exact hlarge)] at henvelope
  exact nomatch henvelope.symm.trans hread

/-- A restore does what its plan says exactly when the state that it has to write fits. -/
theorem restore_exact_iff (storage : DirectoryStorage) (name : String) (snapshot : StorageSnapshot)
    (limits : StorageLimits) :
    storage.RestoresExactly name snapshot limits ↔ storage.RestoreFits name snapshot limits := by
  constructor
  · intro hexact before entries hload hentries
    have hname := validateNamespace_of_restoreEntries hentries
    have hbefore := (loadState_wellFormed hload).1.valid.bytes_le
    have hbytes := (restored_wellFormed hentries before).valid.bytes_le
    by_cases hoverflow : wordMax ≤ max before.generation snapshot.payload.stateRevision
    · exact .inr (.inl hoverflow)
    obtain ⟨plan, hplan⟩ : ∃ plan, before.restorePlan snapshot entries = .ok plan :=
      buildRestorePlan_succeeds (by unfold wordMax; omega) (hbytes.trans (by decide)) (by omega)
    cases hchanged : plan.changed with
    | false => exact .inl ((buildRestorePlan_describes hplan).unchanged_iff.mp hchanged)
    | true =>
      have hok := (restore_of_loaded hname hentries hload).1.trans hplan
      obtain ⟨_, after, -, hafter, -⟩ := hexact.restored before plan hload hok
      exact .inr (.inr (stateFileBytes_restored_le hname hentries hload hplan hchanged hafter))
  · intro hfits
    refine ⟨fun before plan hload hok => ?_, planRestore_result _ _ _ _, files_planRestore _ _ _ _,
      fun error => restore_eq_error⟩
    obtain ⟨entries, hname, hentries, hplan⟩ := restore_eq_ok hload hok
    have hdescribes := buildRestorePlan_describes hplan
    have hfiles := (restore_of_loaded hname hentries hload).2 plan hplan
    have hdecode := (restoreEntries_eq_ok hentries).1
    cases hchanged : plan.changed with
    | false =>
      rw [hchanged, if_neg Bool.false_ne_true] at hfiles
      obtain ⟨hsame, hschema, -⟩ := hdescribes.unchanged_iff.mp hchanged
      refine ⟨entries, before, hdecode, ?_, hsame, hschema, ?_, (hdescribes.kept hchanged).symm,
        (fun htrue => nomatch htrue), fun _ => ⟨hsame, hschema⟩, hdescribes.snapshot_keys,
        hdescribes.current_keys⟩
      · rw [holds_restore_iff, hfiles]
        exact hload
      · rw [← hsame]
        exact (loadState_wellFormed hload).1.usage_eq
    | true =>
      rw [hchanged, if_pos rfl] at hfiles
      obtain ⟨hrevision, hlt⟩ := hdescribes.advanced hchanged
      have hsize : stateFileBytes name { before.restored snapshot entries with
          generation := (before.restored snapshot entries).generation + 1 } ≤ maxStateFileBytes := by
        rcases hfits before entries hload hentries with hequal | hoverflow | hsize
        · exact nomatch hchanged.symm.trans (hdescribes.unchanged_iff.mpr hequal)
        · omega
        · exact hsize
      have hload' : loadState (storage.namespaceDirectory name) name
          (storage.files name).cleanupPending = .ok before := hload
      have hafter := loadState_commitState hname hload' (le_max_left _ _)
        (restored_wellFormed hentries before) hfiles hsize
      refine ⟨entries, _, hdecode, holds_restore_iff.mpr hafter, rfl, rfl, rfl, hrevision.symm,
        fun _ => ⟨by omega, by omega⟩, (fun hfalse => nomatch hfalse), hdescribes.snapshot_keys,
        hdescribes.current_keys⟩

/-! ## Restores into an empty storage -/

omit [HexCodec] [Sha256] [FromJson DiskEnvelope] in
/-- The loop of `countValue` counts values within the limit. -/
theorem foldlM_countValue_of_le {values : List (List UInt8)} {bytes : Nat}
    (hvalues : ∀ value ∈ values, value.length ≤ limits.maxValueBytes)
    (hbytes : bytes + (values.map List.length).sum ≤ wordMax) :
    values.foldlM (countValue limits) bytes = .ok (bytes + (values.map List.length).sum) := by
  induction values generalizing bytes with
  | nil => rfl
  | cons value values ih =>
    rw [List.forall_mem_cons] at hvalues
    rw [List.map_cons, List.sum_cons] at hbytes ⊢
    rw [List.foldlM_cons, countValue, rejectIf_of_not _ (Nat.not_lt.mpr hvalues.1), ok_bind,
      checkedAdd_of_le (by omega), okOr, ok_bind, ih hvalues.2 (by omega), Nat.add_assoc]

omit [FromJson DiskEnvelope] in
/-- The snapshot of valid entries within the limits can be restored. -/
theorem restoreEntries_ofEntries (hvalid : ValidEntries entries)
    (hname : validateNamespace name = .ok ()) (hlimits : limits.Valid)
    (hbytes : totalBytes entries ≤ limits.maxBytes) (hsize : entries.size ≤ limits.maxKeys)
    (hvalues : ∀ value ∈ entries.toList.map (·.2), value.length ≤ limits.maxValueBytes)
    (schema : UInt32) (revision : Nat) :
    restoreEntries name (.ofEntries name schema revision entries) limits = .ok entries := by
  have hkeys : entries.size ≤ maxStorageKeys := hsize.trans hlimits.keys_le
  have hsum : ((entries.toList.map (·.2)).map List.length).sum = totalBytes entries := by
    rw [List.map_map]
    rfl
  have hword : totalBytes entries ≤ wordMax := hvalid.bytes_le.trans (by decide)
  have hidentity : ¬ (StorageSnapshot.ofEntries name schema revision entries).payload.cartridgeId
      ≠ name := fun h => h rfl
  rw [restoreEntries, StorageSnapshot.entriesFor, validate_ofEntries hvalid hkeys hname, ok_bind,
    rejectIf_of_not _ hidentity, ok_bind, decodeEntries_ofEntries hvalid hkeys, ok_bind,
    validateRestoreLimits, validateLimits_eq_ok.mpr hlimits, ok_bind,
    foldlM_countValue_of_le hvalues (by omega), ok_bind, rejectIf_of_not _ (by omega), ok_bind,
    rejectIf_of_not _ (by omega), ok_bind]
  rfl

/-- The bulk entries are restored into an empty storage, but the next load fails once their state
file is too long. -/
theorem restore_bulkEntries {n : Nat} (hn : n ≤ 65536) (hlarge : maxStateFileBytes ≤ 2310 * n)
    (root : String) :
    let storage : DirectoryStorage := { root := root }
    let snapshot := StorageSnapshot.ofEntries "a" 0 0 (bulkEntries n)
    (∃ plan, (storage.restore "a" snapshot bulkLimits).1 = .ok plan) ∧
      ∀ after, ¬ (storage.restore "a" snapshot bulkLimits).2.Holds "a" after := by
  intro storage snapshot
  obtain ⟨hsize, hbytes, hfile⟩ := bulkEntries_sums hn
  have hvalid := validEntries_bulkEntries hn
  have hvalues : ∀ value ∈ (bulkEntries n).toList.map (·.2),
      value.length ≤ bulkLimits.maxValueBytes := fun value hmem => by
    obtain ⟨entry, hentry, rfl⟩ := List.mem_map.mp hmem
    exact hvalid.value_le (ExtTreeMap.mem_toList_iff_getElem?_eq_some.mp hentry)
  have hentries : restoreEntries "a" snapshot bulkLimits = .ok (bulkEntries n) :=
    restoreEntries_ofEntries hvalid validateNamespace_a bulkLimits_valid hvalid.bytes_le
      (hsize.le.trans (hn.trans (by decide))) hvalues 0 0
  have hload : storage.Holds "a" {} := loadState_empty _ _
  have hword : totalBytes (bulkEntries n) ≤ wordMax := hvalid.bytes_le.trans (by decide)
  obtain ⟨plan, hplan⟩ : ∃ plan, ({} : State).restorePlan snapshot (bulkEntries n) = .ok plan :=
    buildRestorePlan_succeeds (by simp [totalBytes]) hword (show max 0 0 < wordMax by decide)
  have hpos : 0 < n := by
    unfold maxStateFileBytes at hlarge
    omega
  have hchanged : plan.changed = true := by
    by_contra hfalse
    have hempty := ((buildRestorePlan_describes hplan).unchanged_iff.mp
      (Bool.not_eq_true _ ▸ hfalse)).1
    rw [← hempty, ExtTreeMap.size_empty] at hsize
    omega
  refine ⟨⟨plan, (restore_of_loaded validateNamespace_a hentries hload).1.trans hplan⟩,
    fun after hafter => ?_⟩
  have hsmall := stateFileBytes_restored_le validateNamespace_a hentries hload hplan hchanged hafter
  have hempty : (bulkEntries n).isEmpty = false := by
    rw [ExtTreeMap.isEmpty_eq_size_beq_zero, hsize, beq_eq_false_iff_ne]
    omega
  simp only [stateFileBytes, State.ofContents, hempty, hfile, Bool.false_eq_true, if_false] at hsmall
  omega

end DirectoryStorage

end

attribute [local instance] nibbleCodec Sha2.sha256 strictEnvelopeReader

/-- A restore of a snapshot of 65366 entries into an empty storage succeeds, and nothing can be loaded
after it. -/
theorem large_restore_not_loaded :
    let storage : DirectoryStorage := { root := "/state" }
    let snapshot := StorageSnapshot.ofEntries "a" 0 0 (bulkEntries 65366)
    (∃ plan, (storage.restore "a" snapshot bulkLimits).1 = .ok plan) ∧
      ∀ after, ¬ (storage.restore "a" snapshot bulkLimits).2.Holds "a" after := by
  exact DirectoryStorage.restore_bulkEntries (by omega) (by decide) "/state"

/-- A restore of one entry into an empty storage does what its plan says. -/
theorem small_restore_exact :
    let storage : DirectoryStorage := { root := "/state" }
    let snapshot := StorageSnapshot.ofEntries "a" 0 1 ((∅ : Entries).insert "k" [1])
    storage.RestoresExactly "a" snapshot bulkLimits := by
  intro storage snapshot
  refine (DirectoryStorage.restore_exact_iff _ _ _ _).mpr fun before entries hload hentries => ?_
  have hvalid : ValidEntries ((∅ : Entries).insert "k" [1]) :=
    ValidEntries.empty.insert (by decide) (by decide) (by decide +kernel)
  have hfound : DirectoryStorage.restoreEntries "a" snapshot bulkLimits
      = .ok ((∅ : Entries).insert "k" [1]) :=
    DirectoryStorage.restoreEntries_ofEntries hvalid validateNamespace_a bulkLimits_valid
      hvalid.bytes_le (by decide +kernel) (by decide +kernel) 0 1
  cases (loadState_empty _ _).symm.trans hload
  cases hfound.symm.trans hentries
  exact .inr (.inr (by decide +kernel))

end CartridgeRuntime.Storage
