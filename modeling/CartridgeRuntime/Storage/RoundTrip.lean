import CartridgeRuntime.Library.Sha2
import CartridgeRuntime.Storage.StateFile

/-!
# Durable writes are read back

Every state that `put`, `compare_exchange`, `apply_batch` or `restore` commits is well formed, and
its file is the newest of its directory. So it is read back exactly when its file is within the size
limit of the reader (`committed_state_reads_back_iff`). The writer has no such limit of its own: the
limits on keys and values allow states whose files are too large.
-/

namespace CartridgeRuntime.Storage

open Checked Std Encoding

/-! ## The newest generation -/

variable {generation : Nat} {files next : NamespaceDirectory} {bytes value : List UInt8}
    {name directory key : String} {state before : State} {limits : StorageLimits}
    {entries : Entries} {α : Type} {storage : DirectoryStorage}

/-- Removing generations one by one is erasing their keys. -/
theorem generations_foldl_removeGeneration (files : NamespaceDirectory) (removed : List Nat)
    (h : generation ∉ removed) :
    (removed.foldl NamespaceDirectory.removeGeneration files).generations[generation]?
      = files.generations[generation]? := by
  induction removed generalizing files with
  | nil => rfl
  | cons first removed ih =>
    rw [List.mem_cons, not_or] at h
    rw [List.foldl_cons, ih _ h.2, NamespaceDirectory.removeGeneration, TreeMap.getElem?_erase',
      if_neg (Ne.symm h.1)]

/-- The greatest key of a map is not among the first keys, when two are left out. -/
theorem newest_notMem_take {generations : ExtTreeMap Nat (List UInt8)} {newest : Nat}
    (hmax : ∀ generation ∈ generations, generation ≤ newest) :
    newest ∉ generations.keys.take (generations.size - retainedGenerations) := by
  intro hmem
  obtain ⟨i, hi, hnewest⟩ := List.mem_take_iff_getElem.mp hmem
  rw [ExtTreeMap.length_keys] at hi
  have hlast : generations.size - 1 < generations.keys.length := by
    rw [ExtTreeMap.length_keys]
    omega
  have hsorted := List.pairwise_iff_getElem.mp (ExtTreeMap.ordered_keys (t := generations)) i
    (generations.size - 1) (by omega) hlast (by unfold retainedGenerations at hi; omega)
  have hle := hmax _ (ExtTreeMap.mem_keys.mp (List.getElem_mem hlast))
  rw [hnewest, Nat.compare_eq_lt] at hsorted
  omega

/-- Removing generations leaves no new ones. -/
theorem mem_of_foldl_removeGeneration {removed : List Nat}
    (h : (removed.foldl NamespaceDirectory.removeGeneration files).generations[generation]?
      = some bytes) : files.generations[generation]? = some bytes := by
  induction removed generalizing files with
  | nil => exact h
  | cons first removed ih =>
    have hfirst := ih h
    rw [NamespaceDirectory.removeGeneration, TreeMap.getElem?_erase'] at hfirst
    split at hfirst
    · cases hfirst
    · exact hfirst

/-- Pruning keeps the newest generation. -/
theorem pruneGenerations_newest {newest : Nat}
    (hmax : ∀ generation ∈ files.generations, generation ≤ newest) :
    files.pruneGenerations.generations[newest]? = files.generations[newest]? :=
  generations_foldl_removeGeneration files _ (newest_notMem_take hmax)

section

variable [HexCodec] [Sha256]

/-- A commit adds one file and removes others. -/
theorem commitState_files (h : commitState files name state = .ok next)
    (hfile : next.generations[generation]? = some bytes) :
    generation = state.generation + 1 ∨ files.generations[generation]? = some bytes := by
  simp only [commitState, bind_eq_ok, okOr_eq_ok, checkedAdd_eq_some, pure_eq_ok,
    Except.ok.injEq] at h
  obtain ⟨_, ⟨-, rfl⟩, rfl⟩ := h
  have hbefore := mem_of_foldl_removeGeneration hfile
  simp only [NamespaceDirectory.createPending, NamespaceDirectory.renamePending,
    TreeMap.getElem?_insert'] at hbefore
  split at hbefore
  · rename_i heq
    exact .inl heq.symm
  · exact .inr hbefore

/-- A state whose generation can advance is committed. -/
theorem commitState_of_lt (files : NamespaceDirectory) (name : String)
    (h : state.generation < wordMax) : ∃ next, commitState files name state = .ok next := by
  rw [commitState, checkedAdd_of_le (Nat.succ_le_of_lt h)]
  exact ⟨_, rfl⟩

/-- A committed state is the newest generation of its directory. -/
theorem commitState_newest (hmax : ∀ generation ∈ files.generations, generation ≤ state.generation)
    (h : commitState files name state = .ok next) :
    next.generations[state.generation + 1]?
      = some (encode (State.envelope { state with generation := state.generation + 1 } name)) := by
  simp only [commitState, bind_eq_ok, okOr_eq_ok, checkedAdd_eq_some, pure_eq_ok,
    Except.ok.injEq] at h
  obtain ⟨_, ⟨-, rfl⟩, rfl⟩ := h
  rw [pruneGenerations_newest]
  · simp [NamespaceDirectory.createPending, NamespaceDirectory.renamePending]
  · intro generation hmem
    simp only [NamespaceDirectory.createPending, NamespaceDirectory.renamePending,
      ExtTreeMap.mem_insert, Std.compare_eq_iff_eq] at hmem
    rcases hmem with rfl | hmem
    · exact le_rfl
    · exact (hmax generation hmem).trans (Nat.le_succ _)

end

/-! ## Loading -/

theorem State.wellFormed_default : ({} : State).WellFormed where
  valid := .empty
  size_le := by simp
  usage_eq := by simp [trueUsage, totalBytes]

section

variable [HexCodec] [Sha256] [FromJson DiskEnvelope]

variable {latest : State}

/-- The loop of `loadState` keeps the newest generation it has read. -/
theorem foldlM_loadGeneration {files : List (Nat × List UInt8)}
    (h : files.foldlM (loadGeneration directory name) latest = .ok state)
    (hlatest : latest.WellFormed) :
    state.WellFormed ∧ latest.generation ≤ state.generation ∧
      ∀ file ∈ files, file.1 ≤ state.generation := by
  induction files generalizing latest with
  | nil =>
    cases h
    exact ⟨hlatest, le_rfl, by simp⟩
  | cons file files ih =>
    rw [List.foldlM_cons, bind_eq_ok] at h
    obtain ⟨next, hstep, hrest⟩ := h
    simp only [loadGeneration, bind_eq_ok, pure_eq_ok, Except.ok.injEq] at hstep
    obtain ⟨read, hread, rfl⟩ := hstep
    obtain ⟨hwell, hgeneration⟩ := readState_wellFormed hread
    split at hrest
    · rename_i hnewer
      obtain ⟨hstate, hle, hall⟩ := ih hrest hwell
      refine ⟨hstate, by omega, fun other hmem => ?_⟩
      rcases List.mem_cons.mp hmem with rfl | hmem
      · omega
      · exact hall other hmem
    · rename_i hnewer
      obtain ⟨hstate, hle, hall⟩ := ih hrest hlatest
      refine ⟨hstate, hle, fun other hmem => ?_⟩
      rcases List.mem_cons.mp hmem with rfl | hmem
      · omega
      · exact hall other hmem

/-- A new directory holds the empty state. -/
theorem loadState_empty (directory name : String) : loadState directory name {} = .ok {} := by
  have hlist : (∅ : ExtTreeMap Nat (List UInt8)).toList = [] :=
    List.eq_nil_of_length_eq_zero (by simp)
  rw [loadState, hlist]
  rfl

/-- When a directory is loaded, each of its files is read. -/
theorem foldlM_loadGeneration_reads {files : List (Nat × List UInt8)}
    (h : files.foldlM (loadGeneration directory name) latest = .ok state) :
    ∀ file ∈ files, ∃ read,
      readState (stateFilePath directory file.1) file.2 name file.1 = .ok read := by
  induction files generalizing latest with
  | nil => simp
  | cons file files ih =>
    rw [List.foldlM_cons, bind_eq_ok] at h
    obtain ⟨next, hstep, hrest⟩ := h
    simp only [loadGeneration, bind_eq_ok] at hstep
    obtain ⟨read, hread, -⟩ := hstep
    intro other hmem
    rcases List.mem_cons.mp hmem with rfl | hmem
    · exact ⟨read, hread⟩
    · exact ih hrest other hmem

/-- The loop of `loadState` ends with the newest generation, in whatever order it comes. -/
theorem foldlM_loadGeneration_newest {files : List (Nat × List UInt8)} {newest : State}
    (hreads : ∀ file ∈ files, ∃ read,
      readState (stateFilePath directory file.1) file.2 name file.1 = .ok read ∧
        (file.1 = newest.generation → read = newest))
    (hmax : ∀ file ∈ files, file.1 ≤ newest.generation)
    (hle : latest.generation ≤ newest.generation)
    (hfound : latest = newest ∨ ∃ file ∈ files, file.1 = newest.generation) :
    files.foldlM (loadGeneration directory name) latest = .ok newest := by
  induction files generalizing latest with
  | nil =>
    rcases hfound with rfl | ⟨file, hmem, -⟩
    · rfl
    · cases hmem
  | cons file files ih =>
    obtain ⟨read, hread, hnewest⟩ := hreads file List.mem_cons_self
    have hgeneration := (readState_wellFormed hread).2
    have hfile := hmax file List.mem_cons_self
    rw [List.foldlM_cons, loadGeneration, hread, ok_bind, pure_eq_ok, ok_bind]
    refine ih (fun other hmem => hreads other (List.mem_cons_of_mem _ hmem))
      (fun other hmem => hmax other (List.mem_cons_of_mem _ hmem)) (by split <;> omega) ?_
    by_cases heq : file.1 = newest.generation
    · rw [if_pos (by omega)]
      exact .inl (hnewest heq)
    · rcases hfound with rfl | ⟨other, hmem, hother⟩
      · rw [if_neg (by omega)]
        exact .inl rfl
      · rcases List.mem_cons.mp hmem with rfl | hmem
        · exact (heq hother).elim
        · exact .inr ⟨other, hmem, hother⟩

/-- A loaded state is well formed, and no generation of the directory is newer. -/
theorem loadState_wellFormed (h : loadState directory name files = .ok state) :
    state.WellFormed ∧ ∀ generation ∈ files.generations, generation ≤ state.generation := by
  obtain ⟨hwell, -, hall⟩ := foldlM_loadGeneration h State.wellFormed_default
  refine ⟨hwell, fun generation hmem => ?_⟩
  obtain ⟨bytes, hbytes⟩ := Option.isSome_iff_exists.mp (ExtTreeMap.mem_iff_isSome_getElem?.mp hmem)
  exact hall (generation, bytes) (ExtTreeMap.mem_toList_iff_getElem?_eq_some.mpr hbytes)

end

/-! ## Next states -/

/-- The state with given contents and its true usage. -/
def State.ofContents (generation : Nat) (schema : UInt32) (entries : Entries) : State :=
  { generation, schema, entries, usage := trueUsage entries }

/-- A well-formed state is determined by its contents. -/
theorem State.WellFormed.eq_ofContents (h : state.WellFormed) :
    state = .ofContents state.generation state.schema state.entries :=
  congrArg (fun usage => { state with usage }) h.usage_eq

/-- Only the entries and the usage of a state matter for being well formed. -/
theorem State.WellFormed.withGeneration (h : state.WellFormed) (generation : Nat) :
    State.WellFormed { state with generation } :=
  ⟨h.valid, h.size_le, h.usage_eq⟩

/-- Removing an entry keeps the others valid. -/
theorem State.WellFormed.erase (hwell : state.WellFormed)
    (hvalue : state.entries[key]? = some value) :
    State.WellFormed { state with
      entries := state.entries.erase key
      usage := ⟨state.usage.bytes - value.length, (state.entries.erase key).size⟩ } := by
  have hentry : ∀ {other : String} {found : List UInt8},
      (state.entries.erase key)[other]? = some found → state.entries[other]? = some found := by
    intro other found hfound
    rw [TreeMap.getElem?_erase'] at hfound
    split at hfound
    · cases hfound
    · exact hfound
  have hbytes := totalBytes_erase state.entries key
  have hsize := size_erase_old hvalue
  have hold := hwell.size_le
  have htotal := hwell.valid.bytes_le
  simp only [valueBytes, hvalue, Option.elim_some] at hbytes
  refine ⟨⟨fun h => hwell.valid.key_valid (hentry h), fun h => hwell.valid.value_le (hentry h), ?_⟩,
    ?_, ?_⟩
  · simp only
    omega
  · simp only
    omega
  · simp only [hwell.usage_eq, trueUsage, StorageUsage.mk.injEq, and_true]
    omega

/-- A put that asks for a next state has admitted the value. -/
theorem State.put_admits {next : State} {result : Unit}
    (hput : state.put key value limits = .ok (result, some next)) :
    ∃ nextBytes, admitValue state.entries state.usage.bytes key value limits = .ok nextBytes
      ∧ next = { state with
        entries := state.entries.insert key value
        usage := ⟨nextBytes, (state.entries.insert key value).size⟩ } := by
  unfold State.put at hput
  split at hput
  · cases hput
  · simp only [bind_eq_ok, pure_eq_ok, Except.ok.injEq, Prod.mk.injEq, Option.some.injEq] at hput
    obtain ⟨nextBytes, hadmission, -, rfl⟩ := hput
    exact ⟨nextBytes, hadmission, rfl⟩

/-- A put leads to a well-formed state with the value in it. -/
theorem State.put_next {next : State} (h : state.WellFormed) (hkey : validateKey key = .ok ())
    (hlimits : limits.Valid) (hvalue : value.length ≤ limits.maxValueBytes) {result : Unit}
    (hput : state.put key value limits = .ok (result, some next)) :
    next.WellFormed ∧
      next = .ofContents state.generation state.schema (state.entries.insert key value) := by
  obtain ⟨nextBytes, hadmission, rfl⟩ := State.put_admits hput
  rw [h.usage_eq] at hadmission
  obtain ⟨hbytes, hquota, hsize⟩ := admitValue_eq_ok hadmission
  have hmaxBytes := hlimits.bytes_le
  have hmaxKeys := hlimits.keys_le
  have hmaxValue := hlimits.value_le
  have hold := h.size_le
  have hnext : State.WellFormed { state with
      entries := state.entries.insert key value
      usage := ⟨nextBytes, (state.entries.insert key value).size⟩ } :=
    ⟨h.valid.insert hkey (by omega) (by omega), by simp only; omega, by rw [trueUsage, hbytes]⟩
  exact ⟨hnext, hnext.eq_ofContents⟩

variable {mutations : List StorageMutation}

/-- An entry after a batch comes from the batch or was there before. -/
theorem getElem?_foldl_applyMutation
    (h : (mutations.foldl applyMutation entries)[key]? = some value) :
    (∃ mutation ∈ mutations, mutation.key = key ∧ mutation.value = some value) ∨
      entries[key]? = some value := by
  induction mutations generalizing entries with
  | nil => exact .inr h
  | cons mutation mutations ih =>
    rcases ih h with ⟨other, hmem, hother⟩ | hfirst
    · exact .inl ⟨other, List.mem_cons_of_mem _ hmem, hother⟩
    · by_cases hkey : mutation.key = key
      · subst hkey
        rw [getElem?_applyMutation_self] at hfirst
        exact .inl ⟨mutation, List.mem_cons_self, rfl, hfirst⟩
      · rw [getElem?_applyMutation_of_ne hkey] at hfirst
        exact .inr hfirst

/-- A transaction that asks for a next state has applied its mutations. -/
theorem State.commit_applies {next : State} {result : StorageTransactionResult}
    (hcommit : state.commit mutations limits = .ok (result, some next)) :
    ∃ entries usage, applyMutations state.entries state.usage mutations limits
        = .ok (true, entries, usage) ∧ next = { state with entries, usage } := by
  simp only [State.commit, bind_eq_ok] at hcommit
  obtain ⟨_, -, ⟨changed, entries, usage⟩, happly, hcommit⟩ := hcommit
  cases changed with
  | false => simp at hcommit
  | true =>
    simp only [if_true, pure_eq_ok, Except.ok.injEq, Prod.mk.injEq, Option.some.injEq] at hcommit
    exact ⟨entries, usage, happly, hcommit.2.symm⟩

/-- A transaction leads to a well-formed state with all its mutations applied. -/
theorem State.commit_next {next : State} (h : state.WellFormed)
    (hmutations : ValidMutations mutations limits) {result : StorageTransactionResult}
    (hcommit : state.commit mutations limits = .ok (result, some next)) :
    next.WellFormed ∧ next = .ofContents state.generation state.schema
      (mutations.foldl applyMutation state.entries) := by
  obtain ⟨entries, usage, happly, rfl⟩ := State.commit_applies hcommit
  rw [h.usage_eq] at happly
  obtain ⟨rfl, rfl, hbytes, hkeys⟩ := applyMutations_eq_ok hmutations.keys_distinct happly
  have hmaxBytes := hmutations.limits_valid.bytes_le
  have hmaxKeys := hmutations.limits_valid.keys_le
  have hmaxValue := hmutations.limits_valid.value_le
  simp only [trueUsage] at hbytes hkeys
  refine ⟨⟨⟨fun {key value} hentry => ?_, fun {key value} hentry => ?_, by simp only; omega⟩,
    by simp only; omega, rfl⟩, rfl⟩
  · rcases getElem?_foldl_applyMutation hentry with ⟨mutation, hmem, rfl, -⟩ | hbefore
    · exact hmutations.key_valid mutation hmem
    · exact h.valid.key_valid hbefore
  · rcases getElem?_foldl_applyMutation hentry with ⟨mutation, hmem, -, hvalue⟩ | hbefore
    · exact (hmutations.value_le mutation hmem value hvalue).trans hmaxValue
    · exact h.valid.value_le hbefore

/-- The loop of `countValue` adds up the values, each within its limit. -/
theorem foldlM_countValue {values : List (List UInt8)} {bytes total : Nat}
    (h : values.foldlM (countValue limits) bytes = .ok total) :
    total = bytes + (values.map List.length).sum ∧
      ∀ value ∈ values, value.length ≤ limits.maxValueBytes := by
  induction values generalizing bytes with
  | nil =>
    cases h
    simp
  | cons value values ih =>
    rw [List.foldlM_cons, bind_eq_ok] at h
    obtain ⟨next, hstep, hrest⟩ := h
    simp only [countValue, bind_eq_ok, exists_unit, rejectIf_eq_ok, okOr_eq_ok,
      checkedAdd_eq_some] at hstep
    obtain ⟨hvalue, -, rfl⟩ := hstep
    obtain ⟨rfl, hall⟩ := ih hrest
    refine ⟨by simp; omega, fun other hmem => ?_⟩
    rcases List.mem_cons.mp hmem with rfl | hmem
    · omega
    · exact hall other hmem

/-- `stateUsage` returns the true usage. -/
theorem stateUsage_eq_ok {usage : StorageUsage} (h : stateUsage entries = .ok usage) :
    usage = trueUsage entries := by
  have hloop : ∀ (values : List (List UInt8)) (bytes total : Nat),
      values.foldlM (fun total value => okOr (checkedAdd total value.length)
        (Error.corrupt "storage usage overflowed")) bytes = .ok total →
      total = bytes + (values.map List.length).sum := by
    intro values
    induction values with
    | nil =>
      intro bytes total h
      cases h
      rfl
    | cons value values ih =>
      intro bytes total h
      simp only [List.foldlM_cons, bind_eq_ok, okOr_eq_ok, checkedAdd_eq_some] at h
      obtain ⟨_, ⟨-, rfl⟩, hrest⟩ := h
      rw [ih _ _ hrest, List.map_cons, List.sum_cons, Nat.add_assoc]
  simp only [stateUsage, bind_eq_ok, pure_eq_ok, Except.ok.injEq] at h
  obtain ⟨total, htotal, rfl⟩ := h
  rw [hloop _ _ _ htotal, Nat.zero_add, List.map_map]
  rfl

section

variable [HexCodec]

variable {snapshot : StorageSnapshot}

/-- The entries of a snapshot are valid. -/
theorem decodeEntries_valid (h : snapshot.decodeEntries = .ok entries) : ValidEntries entries := by
  simp only [StorageSnapshot.decodeEntries, bind_eq_ok, exists_unit, pure_eq_ok,
    Except.ok.injEq] at h
  obtain ⟨-, ⟨entries, bytes⟩, hloop, rfl⟩ := h
  exact (foldlM_decodeEntry hloop (TreeMap.nodup_keys_toList _) (by simp) .empty
    (by simp [totalBytes])).1

variable [Sha256]

/-- The entries that are restored are those of the snapshot, and not too many. -/
theorem restoreEntries_eq_ok
    (h : DirectoryStorage.restoreEntries name snapshot limits = .ok entries) :
    snapshot.decodeEntries = .ok entries ∧ entries.size ≤ 100000 := by
  simp only [DirectoryStorage.restoreEntries, StorageSnapshot.entriesFor, validateRestoreLimits,
    bind_eq_ok, exists_unit, pure_eq_ok, Except.ok.injEq, validateLimits_eq_ok,
    rejectIf_eq_ok] at h
  obtain ⟨_, ⟨-, -, hdecode⟩, ⟨hlimits, _, -, -, hsize⟩, rfl⟩ := h
  have := hlimits.keys_le
  exact ⟨hdecode, by omega⟩

omit [Sha256] in
/-- A restore leads to a well-formed state with the contents of the snapshot. -/
theorem State.restore_next {next : State} (hdecode : snapshot.decodeEntries = .ok entries)
    (hsize : entries.size ≤ 100000) {plan : RestorePlan}
    (hrestore : state.restore snapshot entries = .ok (plan, some next)) :
    next.WellFormed ∧ next = .ofContents (max state.generation snapshot.payload.stateRevision)
      snapshot.payload.stateSchema entries := by
  simp only [State.restore, buildRestorePlan, bind_eq_ok, pure_eq_ok, Except.ok.injEq,
    Prod.mk.injEq, Option.ite_none_right_eq_some, Option.some.injEq] at hrestore
  obtain ⟨_, ⟨_, -, _, -, usage, husage, rfl⟩, rfl, -, rfl⟩ := hrestore
  rw [stateUsage_eq_ok husage]
  exact ⟨⟨decodeEntries_valid hdecode, hsize, rfl⟩, rfl⟩

end

/-! ## Accepted writes -/

section

variable [HexCodec] [Sha256] [FromJson DiskEnvelope]

/-- The newest generation of a namespace holds a state. -/
def DirectoryStorage.Holds (storage : DirectoryStorage) (name : String) (state : State) : Prop :=
  loadState (storage.namespaceDirectory name) name (storage.files name) = .ok state

variable {result : α} {β : Type} {checks : Except Error β}

/-- What a successful update of a directory did. -/
theorem NamespaceDirectory.update_eq_ok {next : State → Except Error (α × Option State)}
    (h : (files.update directory name next).1 = .ok result) :
    ∃ before step, loadState directory name files = .ok before ∧ next before = .ok step ∧
      files.cleanupPending.commitNext name step
        = .ok (result, (files.update directory name next).2) := by
  unfold NamespaceDirectory.update at h ⊢
  simp only at h ⊢
  generalize hrun : (do
    let state ← loadState directory name files.cleanupPending
    let step ← next state
    files.cleanupPending.commitNext name step) = run at h ⊢
  cases run with
  | error e => cases h
  | ok pair =>
    obtain ⟨value, after⟩ := pair
    cases h
    simp only [bind_eq_ok] at hrun
    obtain ⟨before, hload, step, hnext, hcommit⟩ := hrun
    exact ⟨before, step, hload, hnext, hcommit⟩

omit [FromJson DiskEnvelope] in
/-- An operation on a namespace's directory leaves its files there. -/
theorem DirectoryStorage.withNamespace_of_valid (storage : DirectoryStorage)
    (hname : validateNamespace name = .ok ())
    (operation : String → NamespaceDirectory → Except Error α × NamespaceDirectory) :
    (storage.withNamespace name operation).1
        = (operation (storage.namespaceDirectory name) (storage.files name)).1 ∧
      (storage.withNamespace name operation).2.files name
        = (operation (storage.namespaceDirectory name) (storage.files name)).2 := by
  simp [withNamespace, hname, files]

/-- An update of a directory that is loaded commits the next state, if there is one. -/
theorem NamespaceDirectory.update_of_loadState (hload : loadState directory name files = .ok before)
    (next : State → Except Error (α × Option State)) :
    files.update directory name next
      = match next before >>= files.cleanupPending.commitNext name with
        | .ok (result, files) => (.ok result, files)
        | .error error => (.error error, files.cleanupPending) := by
  have houtcome : (do
      let state ← loadState directory name files.cleanupPending
      let step ← next state
      files.cleanupPending.commitNext name step)
        = next before >>= files.cleanupPending.commitNext name := by
    have hload' : loadState directory name files.cleanupPending = .ok before := hload
    exact hload' ▸ rfl
  exact congrArg (fun outcome : Except Error (α × NamespaceDirectory) =>
    (match outcome with
    | .ok (result, files) => (.ok result, files)
    | .error error => (.error error, files.cleanupPending) : Except Error α × NamespaceDirectory))
    houtcome

/-- A write whose checks pass updates the directory of its namespace. -/
theorem DirectoryStorage.write_of_checks (storage : DirectoryStorage)
    (hname : validateNamespace name = .ok ()) {value : β} (hchecks : checks = .ok value)
    (next : β → State → Except Error (α × Option State)) :
    (storage.write name checks next).1
        = ((storage.files name).update (storage.namespaceDirectory name) name (next value)).1 ∧
      (storage.write name checks next).2.files name
        = ((storage.files name).update (storage.namespaceDirectory name) name (next value)).2 := by
  subst hchecks
  exact storage.withNamespace_of_valid hname fun directory files =>
    files.update directory name (next value)

omit [FromJson DiskEnvelope] in
/-- An operation on a directory leaves the paths as they are. -/
theorem DirectoryStorage.withNamespace_root (storage : DirectoryStorage) (name : String)
    (operation : String → NamespaceDirectory → Except Error α × NamespaceDirectory) :
    (storage.withNamespace name operation).2.root = storage.root := by
  unfold withNamespace
  split <;> rfl

theorem DirectoryStorage.write_root (storage : DirectoryStorage) (name : String)
    (checks : Except Error β) (next : β → State → Except Error (α × Option State)) :
    (storage.write name checks next).2.root = storage.root := by
  unfold write afterChecks
  split
  · exact withNamespace_root storage name _
  · rfl

omit [FromJson DiskEnvelope] in
/-- What a commit of a next state leaves. -/
theorem NamespaceDirectory.commitNext_eq_ok {step : α × Option State}
    (h : files.commitNext name step = .ok (result, next)) :
    step.1 = result ∧ (step.2 = none ∧ next = files
      ∨ ∃ state, step.2 = some state ∧ commitState files name state = .ok next) := by
  obtain ⟨value, state⟩ := step
  cases state with
  | none =>
    cases h
    exact ⟨rfl, .inl ⟨rfl, rfl⟩⟩
  | some state =>
    unfold commitNext at h
    cases hstate : commitState files name state with
    | error error => simp [hstate, Except.map] at h
    | ok committed =>
      simp only [hstate, Except.map, Except.ok.injEq, Prod.mk.injEq] at h
      obtain ⟨rfl, rfl⟩ := h
      exact ⟨rfl, .inr ⟨state, rfl, hstate⟩⟩

/-- What a successful write did: it passed its checks, loaded the newest generation, computed a
next state from it, and left the directory that commits that state. -/
theorem DirectoryStorage.write_eq_ok {next : β → State → Except Error (α × Option State)}
    (h : (storage.write name checks next).1 = .ok result) :
    ∃ value before committed, checks = .ok value ∧ validateNamespace name = .ok () ∧
      storage.Holds name before ∧ next value before = .ok (result, committed) ∧
      (committed = none ∧ (storage.write name checks next).2.files name
          = (storage.files name).cleanupPending
        ∨ ∃ state, committed = some state
          ∧ commitState (storage.files name).cleanupPending name state
            = .ok ((storage.write name checks next).2.files name)) := by
  cases checks with
  | error e => cases h
  | ok value =>
    cases hname : validateNamespace name with
    | error e => simp [write, afterChecks, withNamespace, hname] at h
    | ok u =>
      obtain ⟨hresult, hfiles⟩ := storage.write_of_checks hname rfl next
      rw [hresult] at h
      obtain ⟨before, ⟨result', committed⟩, hload, hnext, hcommit⟩ :=
        NamespaceDirectory.update_eq_ok h
      rw [← hfiles] at hcommit
      obtain ⟨rfl, hleft⟩ := NamespaceDirectory.commitNext_eq_ok hcommit
      exact ⟨value, before, committed, rfl, rfl, hload, hnext, hleft⟩

/-- A write that fails leaves the generation files. -/
theorem DirectoryStorage.write_eq_error {next : β → State → Except Error (α × Option State)}
    {error : Error} (h : (storage.write name checks next).1 = .error error) :
    ((storage.write name checks next).2.files name).generations
      = (storage.files name).generations := by
  cases checks with
  | error e => rfl
  | ok value =>
    cases hname : validateNamespace name with
    | error e => simp [write, afterChecks, withNamespace, hname]
    | ok u =>
      obtain ⟨hresult, hfiles⟩ := storage.write_of_checks hname rfl next
      rw [hresult] at h
      rw [hfiles]
      unfold NamespaceDirectory.update at h ⊢
      dsimp only at h ⊢
      split at h
      · cases h
      · rfl

/-- A write leaves the generation files, or commits the next state. -/
theorem DirectoryStorage.write_cases (storage : DirectoryStorage) (name : String)
    (checks : Except Error β) (next : β → State → Except Error (α × Option State)) :
    ((storage.write name checks next).2.files name).generations = (storage.files name).generations
      ∨ ∃ value before result state, checks = .ok value ∧ validateNamespace name = .ok ()
        ∧ storage.Holds name before ∧ next value before = .ok (result, some state)
        ∧ commitState (storage.files name).cleanupPending name state
          = .ok ((storage.write name checks next).2.files name) := by
  cases hwrite : (storage.write name checks next).1 with
  | error error => exact .inl (write_eq_error hwrite)
  | ok result =>
    obtain ⟨value, before, _, hchecks, hname, hload, hnext,
      ⟨-, hkept⟩ | ⟨state, rfl, hcommit⟩⟩ := write_eq_ok hwrite
    · rw [hkept]
      exact .inl rfl
    · exact .inr ⟨value, before, result, state, hchecks, hname, hload, hnext, hcommit⟩

/-- A write that changed the generation files committed a state. -/
theorem DirectoryStorage.write_commits {next : β → State → Except Error (α × Option State)}
    (hload : storage.Holds name before) (h : (storage.write name checks next).1 = .ok result)
    (hchanged : ((storage.write name checks next).2.files name).generations
      ≠ (storage.files name).generations) :
    ∃ value state, checks = .ok value ∧ validateNamespace name = .ok () ∧
      next value before = .ok (result, some state) ∧
      commitState (storage.files name).cleanupPending name state
        = .ok ((storage.write name checks next).2.files name) := by
  obtain ⟨value, _, _, hchecks, hname, hload', hnext,
    ⟨-, hkept⟩ | ⟨state, rfl, hcommit⟩⟩ := write_eq_ok h
  · exact (hchanged (by rw [hkept]; rfl)).elim
  · cases hload.symm.trans hload'
    exact ⟨value, state, hchecks, hname, hnext, hcommit⟩

/-- A committed state is read back exactly when its file is within the size limit. -/
theorem commitState_reads_back_iff (directory : String) (hname : validateNamespace name = .ok ())
    (hstate : state.WellFormed)
    (hmax : ∀ generation ∈ files.generations, generation ≤ state.generation)
    (h : commitState files name state = .ok next) :
    let committed := { state with generation := state.generation + 1 }
    (∃ bytes, next.generations[committed.generation]? = some bytes ∧
        readState (stateFilePath directory committed.generation) bytes name committed.generation
          = .ok committed) ↔
      stateFileBytes name committed ≤ maxStateFileBytes := by
  intro committed
  have hwell : committed.WellFormed := hstate.withGeneration _
  have hfile := commitState_newest hmax h
  have hlength := length_encode_envelope hname hwell.valid
  have hread := readState_envelope hwell (stateFilePath directory committed.generation) name
  rw [hlength] at hread
  constructor
  · rintro ⟨bytes, hbytes, hok⟩
    cases hfile.symm.trans hbytes
    by_contra hlarge
    rw [hread, if_neg hlarge] at hok
    cases hok
  · intro hsmall
    exact ⟨_, hfile, by rw [hread, if_pos hsmall]⟩

end

/-! ## Accepted puts -/

section

variable [HexCodec] [Sha256] [FromJson DiskEnvelope]

omit [HexCodec] [Sha256] [FromJson DiskEnvelope] in
/-- A new key within the quota is put. -/
theorem State.put_new (hstate : state.WellFormed) (hlimits : limits.Valid)
    (hnew : state.entries[key]? = none)
    (hbytes : totalBytes state.entries + value.length ≤ limits.maxBytes)
    (hkeys : state.entries.size < limits.maxKeys) :
    state.put key value limits
      = .ok ((), some (.ofContents state.generation state.schema
          (state.entries.insert key value))) := by
  have hmax := hlimits.bytes_le
  have hadmission : admitValue state.entries state.usage.bytes key value limits
      = .ok (totalBytes (state.entries.insert key value)) := by
    simp only [admitValue, hstate.usage_eq, trueUsage, hnew, Option.elim_none, bind_eq_ok,
      exists_unit, okOr_eq_ok, rejectIf_eq_ok, Option.bind_eq_some_iff, checkedSub_eq_some,
      checkedAdd_eq_some, pure_eq_ok, Except.ok.injEq]
    refine ⟨_, ⟨_, ⟨Nat.zero_le _, rfl⟩, ?_, rfl⟩, ?_, ?_, ?_⟩
    · unfold wordMax
      omega
    · omega
    · simp
      omega
    · rw [totalBytes_insert_new hnew]
      rfl
  rw [State.put, if_neg (by simp [hnew]), hadmission]
  rfl

/-- A put of a new key within the quota is accepted, and commits the state with the key in it. -/
theorem DirectoryStorage.put_new (hname : validateNamespace name = .ok ())
    (hkey : validateKey key = .ok ()) (hlimits : limits.Valid)
    (hvalue : value.length ≤ limits.maxValueBytes)
    (hload : loadState (storage.namespaceDirectory name) name (storage.files name) = .ok before)
    (hnew : before.entries[key]? = none)
    (hbytes : totalBytes before.entries + value.length ≤ limits.maxBytes)
    (hkeys : before.entries.size < limits.maxKeys) (hgeneration : before.generation < wordMax) :
    let next := State.ofContents before.generation before.schema (before.entries.insert key value)
    (storage.put name key value limits).1 = .ok () ∧ next.WellFormed ∧
      commitState (storage.files name).cleanupPending name next
        = .ok ((storage.put name key value limits).2.files name) := by
  intro next
  have hchecks : (do
      validateKey key
      validateLimits limits
      rejectIf (value.length > limits.maxValueBytes)
        (Error.valueTooLarge value.length limits.maxValueBytes)) = .ok () := by
    simp only [bind_eq_ok, exists_unit, rejectIf_eq_ok, validateLimits_eq_ok]
    exact ⟨hkey, hlimits, by omega⟩
  obtain ⟨hresult, hfiles⟩ := storage.write_of_checks hname hchecks fun _ state =>
    state.put key value limits
  have hbefore := (loadState_wellFormed hload).1
  have hnext : before.put key value limits = .ok ((), some next) :=
    State.put_new hbefore hlimits hnew hbytes hkeys
  obtain ⟨files, hcommit⟩ : ∃ files, commitState (storage.files name).cleanupPending name next
      = .ok files := commitState_of_lt _ _ hgeneration
  rw [NamespaceDirectory.update_of_loadState hload, hnext] at hresult hfiles
  simp only [ok_bind, NamespaceDirectory.commitNext, hcommit, Except.map] at hresult hfiles
  exact ⟨hresult, (State.put_next hbefore hkey hlimits hvalue hnext).1, by rw [hcommit, put, hfiles]⟩

end

/-! ## The result -/

/-- The writes that hand a state to `commit_state`, apart from `prepare` and `delete`. -/
inductive DurableWrite where
  | put (key : String) (value : List UInt8) (limits : StorageLimits)
  | compareExchange (expectedRevision : Nat) (key : String)
      (expected replacement : Option (List UInt8)) (limits : StorageLimits)
  | applyBatch (expectedRevision : Nat) (mutations : List StorageMutation) (limits : StorageLimits)
  | restore (snapshot : StorageSnapshot) (limits : StorageLimits)

section

variable [HexCodec]

/-- What a write asks for: the generation, schema and entries after it. -/
def DurableWrite.contents (before : State) : DurableWrite → State
  | .put key value _ =>
    .ofContents (before.generation + 1) before.schema (before.entries.insert key value)
  | .compareExchange _ key _ replacement _ =>
    .ofContents (before.generation + 1) before.schema
      (applyMutation before.entries ⟨key, replacement⟩)
  | .applyBatch _ mutations _ =>
    .ofContents (before.generation + 1) before.schema
      (mutations.foldl applyMutation before.entries)
  | .restore snapshot _ =>
    .ofContents (max before.generation snapshot.payload.stateRevision + 1)
      snapshot.payload.stateSchema (snapshot.decodeEntries.toOption.getD ∅)

variable [Sha256] [FromJson DiskEnvelope]

/-- Perform a write. -/
def DurableWrite.perform (name : String) (storage : DirectoryStorage) :
    DurableWrite → Except Error Unit × DirectoryStorage
  | .put key value limits => storage.put name key value limits
  | .compareExchange expectedRevision key expected replacement limits =>
    (storage.compareExchange name expectedRevision key expected replacement limits).map
      (·.map fun _ => ()) id
  | .applyBatch expectedRevision mutations limits =>
    (storage.applyBatch name expectedRevision mutations limits).map (·.map fun _ => ()) id
  | .restore snapshot limits =>
    (storage.restore name snapshot limits).map (·.map fun _ => ()) id

omit [HexCodec] [Sha256] [FromJson DiskEnvelope] in
/-- A write succeeds with some result when its result is dropped. -/
theorem ok_of_map_unit {result : Except Error α} (h : result.map (fun _ => ()) = .ok ()) :
    ∃ value, result = .ok value := by
  cases result with
  | ok value => exact ⟨value, rfl⟩
  | error e => cases h

/-- A new generation that reads back next to files of a loaded directory is what is loaded. -/
theorem loadState_of_newest {newest : State} (hload : loadState directory name files = .ok before)
    (hlt : before.generation < newest.generation)
    (hbytes : next.generations[newest.generation]? = some bytes)
    (hread : readState (stateFilePath directory newest.generation) bytes name newest.generation
      = .ok newest) (hfiles : ∀ generation bytes, next.generations[generation]? = some bytes →
      generation = newest.generation ∨ files.generations[generation]? = some bytes) :
    loadState directory name next = .ok newest := by
  have hold : ∀ file ∈ next.generations.toList, file.1 = newest.generation ∧ file.2 = bytes ∨
      files.generations[file.1]? = some file.2 := fun file hmem => by
    have hfile := ExtTreeMap.mem_toList_iff_getElem?_eq_some.mp hmem
    rcases hfiles _ _ hfile with heq | hbefore
    · rw [heq, hbytes] at hfile
      exact .inl ⟨heq, (Option.some.inj hfile).symm⟩
    · exact .inr hbefore
  have hmax : ∀ file : Nat × List UInt8, files.generations[file.1]? = some file.2 →
      file.1 < newest.generation := fun file hfile =>
    ((loadState_wellFormed hload).2 file.1
      (ExtTreeMap.mem_iff_isSome_getElem?.mpr (by simp [hfile]))).trans_lt hlt
  refine foldlM_loadGeneration_newest (fun file hmem => ?_) (fun file hmem => ?_) (Nat.zero_le _)
    (.inr ⟨(_, bytes), ExtTreeMap.mem_toList_iff_getElem?_eq_some.mpr hbytes, rfl⟩)
  · rcases hold file hmem with ⟨hgeneration, hcontents⟩ | hbefore
    · rw [hgeneration, hcontents]
      exact ⟨_, hread, fun _ => rfl⟩
    · obtain ⟨read, hread'⟩ := foldlM_loadGeneration_reads hload file
        (ExtTreeMap.mem_toList_iff_getElem?_eq_some.mpr hbefore)
      exact ⟨read, hread', fun heq => absurd heq (hmax file hbefore).ne⟩
  · rcases hold file hmem with ⟨hgeneration, -⟩ | hbefore
    · exact hgeneration.le
    · exact (hmax file hbefore).le

/-- A committed state is what the next load returns, if its file is within the size limit. -/
theorem loadState_commitState (hname : validateNamespace name = .ok ())
    (hload : loadState directory name files = .ok before)
    (hle : before.generation ≤ state.generation) (hstate : state.WellFormed)
    (hcommit : commitState files name state = .ok next)
    (hsize : stateFileBytes name { state with generation := state.generation + 1 }
      ≤ maxStateFileBytes) :
    loadState directory name next = .ok { state with generation := state.generation + 1 } := by
  have hmax : ∀ generation ∈ files.generations, generation ≤ state.generation :=
    fun generation hmem => ((loadState_wellFormed hload).2 generation hmem).trans hle
  obtain ⟨bytes, hbytes, hread⟩ :=
    (commitState_reads_back_iff directory hname hstate hmax hcommit).mpr hsize
  exact loadState_of_newest hload (Nat.lt_succ_of_le hle) hbytes hread
    fun _ _ => commitState_files hcommit

/-- An accepted write that changes the generation files commits what it asks for. -/
theorem DurableWrite.commits {write : DurableWrite} (hload : storage.Holds name before)
    (haccepted : (write.perform name storage).1 = .ok ())
    (hchanged : ((write.perform name storage).2.files name).generations
      ≠ (storage.files name).generations) :
    validateNamespace name = .ok () ∧ ∃ state : State, state.WellFormed ∧
      before.generation ≤ state.generation ∧
      { state with generation := state.generation + 1 } = write.contents before ∧
      commitState (storage.files name).cleanupPending name state
        = .ok ((write.perform name storage).2.files name) := by
  have hbefore := (loadState_wellFormed hload).1
  cases write with
  | put key value limits =>
    obtain ⟨_, state, hchecks, hname, hnext, hcommit⟩ :=
      DirectoryStorage.write_commits hload haccepted hchanged
    simp only [bind_eq_ok, exists_unit, validateLimits_eq_ok] at hchecks
    obtain ⟨hkey, hlimits, hvalue⟩ := hchecks
    rw [rejectIf_eq_ok] at hvalue
    obtain ⟨hwell, rfl⟩ := State.put_next hbefore hkey hlimits (by omega) hnext
    exact ⟨hname, _, hwell, le_rfl, rfl, hcommit⟩
  | compareExchange expectedRevision key expected replacement limits =>
    obtain ⟨result, hresult⟩ := ok_of_map_unit haccepted
    obtain ⟨_, state, hchecks, hname, hnext, hcommit⟩ :=
      DirectoryStorage.write_commits hload hresult hchanged
    unfold State.compareExchange at hnext
    split at hnext
    · cases hnext
    · obtain ⟨hwell, rfl⟩ := State.commit_next hbefore (validateCompareExchange_eq_ok hchecks) hnext
      exact ⟨hname, _, hwell, le_rfl, rfl, hcommit⟩
  | applyBatch expectedRevision mutations limits =>
    obtain ⟨result, hresult⟩ := ok_of_map_unit haccepted
    obtain ⟨_, state, hchecks, hname, hnext, hcommit⟩ :=
      DirectoryStorage.write_commits hload hresult hchanged
    unfold State.applyBatch at hnext
    split at hnext
    · cases hnext
    · obtain ⟨hwell, rfl⟩ := State.commit_next hbefore (validateMutations_eq_ok hchecks) hnext
      exact ⟨hname, _, hwell, le_rfl, rfl, hcommit⟩
  | restore snapshot limits =>
    obtain ⟨result, hresult⟩ := ok_of_map_unit haccepted
    obtain ⟨entries, state, hchecks, hname, hnext, hcommit⟩ :=
      DirectoryStorage.write_commits hload hresult hchanged
    obtain ⟨hdecode, hsize⟩ := restoreEntries_eq_ok hchecks
    obtain ⟨hwell, rfl⟩ := State.restore_next hdecode hsize hnext
    refine ⟨hname, _, hwell, le_max_left _ _, ?_, hcommit⟩
    rw [DurableWrite.contents, hdecode]
    rfl

/-- The newest generation after an accepted write that committed a state is read back with the
generation, schema, entries and usage that the write asked for, exactly when the file of that state
is within the size limit of the reader. -/
theorem committed_state_reads_back_iff (storage : DirectoryStorage) (name : String)
    (write : DurableWrite) (before : State)
    (hload : loadState (storage.namespaceDirectory name) name (storage.files name) = .ok before)
    (haccepted : (write.perform name storage).1 = .ok ())
    (hchanged : ((write.perform name storage).2.files name).generations
      ≠ (storage.files name).generations) :
    let next := write.contents before
    (∃ bytes, ((write.perform name storage).2.files name).generations[next.generation]? = some bytes ∧
        readState (stateFilePath (storage.namespaceDirectory name) next.generation) bytes name
          next.generation = .ok next) ↔
      stateFileBytes name next ≤ maxStateFileBytes := by
  intro next
  obtain ⟨hname, state, hwell, hle, hnext, hcommit⟩ :=
    DurableWrite.commits hload haccepted hchanged
  have hmax : ∀ generation ∈ (storage.files name).cleanupPending.generations,
      generation ≤ state.generation := fun generation hmem =>
    ((loadState_wellFormed hload).2 generation hmem).trans hle
  have hiff := commitState_reads_back_iff (storage.namespaceDirectory name) hname hwell hmax hcommit
  rw [hnext] at hiff
  exact hiff

end

/-- A put into an empty storage is read back. -/
theorem committed_put_reads_back :
    let _ := nibbleCodec
    let _ := Sha2.sha256
    let _ := strictEnvelopeReader
    let storage : DirectoryStorage := { root := "/state" }
    let write := DurableWrite.put "k" [1] ⟨16, 2, 12⟩
    let next := write.contents {}
    ∃ bytes, ((write.perform "a" storage).2.files "a").generations[next.generation]? = some bytes ∧
      readState (stateFilePath (storage.namespaceDirectory "a") next.generation) bytes "a"
        next.generation = .ok next := by
  intro _ _ _ storage write next
  have hload : loadState (storage.namespaceDirectory "a") "a" (storage.files "a") = .ok {} :=
    loadState_empty _ _
  have hlimits : StorageLimits.Valid ⟨16, 2, 12⟩ := by constructor <;> decide
  have hname : validateNamespace "a" = .ok () := by decide
  have hnew : ({} : State).entries["k"]? = none := by simp
  have hvalue : ([1] : List UInt8).length ≤ 12 := by decide
  obtain ⟨haccepted, -, hcommit⟩ := DirectoryStorage.put_new hname
    (show validateKey "k" = .ok () by decide) hlimits hvalue hload hnew (by decide) (by decide)
    (by decide)
  have hold : (storage.files "a").generations[0 + 1]? = none := by
    simp [storage, DirectoryStorage.files]
  have hfile := commitState_newest (by simp [storage, DirectoryStorage.files,
    NamespaceDirectory.cleanupPending]) hcommit
  refine (committed_state_reads_back_iff storage "a" write {} hload haccepted fun h => ?_).mpr
    (by decide)
  rw [← h] at hold
  exact nomatch hold.symm.trans hfile

end CartridgeRuntime.Storage
