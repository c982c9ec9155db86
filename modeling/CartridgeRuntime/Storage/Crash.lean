import CartridgeRuntime.Storage.LostUpdate
import CartridgeRuntime.Storage.Oversized

/-!
# Interrupted commits

A commit is a sequence of file operations: create the pending file, write it, rename it to the file
of the new generation, and remove the generations that are not retained, one by one. The process can
stop after any of them, and in the middle of the write. `commit_crash_safe_iff` says when what it
leaves behind is always read as the state before or the state after: when the file of the new state
is within the size limit of the reader.
-/

namespace CartridgeRuntime.Storage

open Checked Std Encoding

/-! ## File operations -/

/-- An operation on the files of a namespace. -/
inductive FileOperation where
  | create
  | write (contents : List UInt8)
  | rename (generation : Nat)
  | remove (generation : Nat)

/-- The files after an operation. -/
def FileOperation.apply (files : NamespaceDirectory) : FileOperation → NamespaceDirectory
  | .create => files.createPending []
  | .write contents =>
    match files.pending with
    | [] => files
    | written :: pending => { files with pending := (written ++ contents) :: pending }
  | .rename generation => files.renamePending generation
  | .remove generation => files.removeGeneration generation

/-- The generations that are not retained. -/
def NamespaceDirectory.pruned (files : NamespaceDirectory) : List Nat :=
  files.generations.keys.take (files.generations.size - retainedGenerations)

/-- What is left of a sequence of operations that is stopped: those that were completed, and the
first bytes of a write that was not. -/
def interrupted (operations : List FileOperation) (completed written : Nat) : List FileOperation :=
  operations.take completed ++
    match operations[completed]? with
    | some (.write contents) => [.write (contents.take written)]
    | _ => []

/-- Only a write can be half done. -/
theorem interrupted_of_not_write {operations : List FileOperation} {completed : Nat}
    (h : ∀ contents, operations[completed]? ≠ some (.write contents)) (written : Nat) :
    interrupted operations completed written = operations.take completed := by
  unfold interrupted
  split
  · rename_i contents hwrite
    exact (h contents hwrite).elim
  · exact List.append_nil _

section

variable [HexCodec] [Sha256]

/-- The directory after the rename of a commit. -/
def renamed (files : NamespaceDirectory) (name : String) (state : State) : NamespaceDirectory :=
  (files.createPending (encode (state.envelope name))).renamePending state.generation

/-- The file operations of `commitState`. -/
def commitOperations (files : NamespaceDirectory) (name : String) (state : State) :
    List FileOperation :=
  match checkedAdd state.generation 1 with
  | none => []
  | some generation =>
    let state := { state with generation }
    [.create, .write (encode (state.envelope name)), .rename generation]
      ++ (renamed files name state).pruned.map .remove

/-- The directory that a stopped commit leaves. -/
def crashedFiles (files : NamespaceDirectory) (name : String) (state : State)
    (completed written : Nat) : NamespaceDirectory :=
  (interrupted (commitOperations files name state) completed written).foldl FileOperation.apply files

/-- The storage that a write leaves that is stopped in its commit. -/
def DirectoryStorage.crashed (storage : DirectoryStorage) (name : String) (state : State)
    (completed written : Nat) : DirectoryStorage :=
  { storage with
    directories := storage.directories.insert (directoryName name)
      (crashedFiles (storage.files name).cleanupPending name state completed written) }

omit [HexCodec] [Sha256] in
/-- Removals one by one. -/
theorem foldl_remove (removed : List Nat) (files : NamespaceDirectory) :
    (removed.map FileOperation.remove).foldl FileOperation.apply files
      = removed.foldl NamespaceDirectory.removeGeneration files := by
  rw [List.foldl_map]
  rfl

/-- A commit is the sequence of its file operations. -/
theorem commitState_eq_operations (files : NamespaceDirectory) (name : String) (state : State) :
    commitState files name state = (okOr (checkedAdd state.generation 1)
      (.corrupt "storage generation overflowed")).map fun _ =>
        (commitOperations files name state).foldl FileOperation.apply files := by
  unfold commitState commitOperations
  cases checkedAdd state.generation 1 with
  | none => rfl
  | some generation =>
    show Except.ok _ = Except.ok _
    rw [List.foldl_append, foldl_remove]
    rfl

/-- What a stopped commit leaves: the generations before it, or those after the rename without the
first ones of those to be removed. -/
theorem crashedFiles_cases (files : NamespaceDirectory) (name : String) (state : State)
    (completed written : Nat) :
    (crashedFiles files name state completed written).generations = files.generations
      ∨ state.generation < wordMax ∧ ∃ removed,
        removed <+: (renamed files name { state with generation := state.generation + 1 }).pruned
          ∧ crashedFiles files name state completed written
            = removed.foldl NamespaceDirectory.removeGeneration
              (renamed files name { state with generation := state.generation + 1 }) := by
  unfold crashedFiles commitOperations
  cases hnext : checkedAdd state.generation 1 with
  | none =>
    left
    simp [interrupted]
  | some generation =>
    obtain ⟨hle, rfl⟩ := checkedAdd_eq_some.mp hnext
    match completed with
    | 0 => exact .inl rfl
    | 1 => exact .inl rfl
    | 2 => exact .inl rfl
    | completed + 3 =>
      right
      refine ⟨hle, _, List.take_prefix completed _, ?_⟩
      rw [interrupted_of_not_write]
      · simp only [List.cons_append, List.nil_append, List.take_succ_cons, ← List.map_take,
          List.foldl_cons, foldl_remove]
        rfl
      · intro contents hwrite
        have hmem := List.mem_of_getElem? (l := List.map FileOperation.remove _)
          (i := completed) hwrite
        obtain ⟨generation, -, heq⟩ := List.mem_map.mp hmem
        cases heq

/-! ## Loading what is left -/

variable [FromJson DiskEnvelope]

variable {name : String} {before state : State}

/-- What is loaded depends on the generations only. -/
theorem loadState_of_generations {directory : String} {files other : NamespaceDirectory}
    (h : other.generations = files.generations) :
    loadState directory name other = loadState directory name files := by
  rw [loadState, h, loadState]

variable {files : NamespaceDirectory} {storage : DirectoryStorage} {call : DirectoryCall}

/-- After the rename the new state is loaded, exactly if its file is within the size limit. -/
theorem loadState_crashed {directory : String} {after : State}
    (hname : validateNamespace name = .ok ()) (hload : loadState directory name files = .ok before)
    (hlt : before.generation < after.generation) (hafter : after.WellFormed) {removed : List Nat}
    (hremoved : removed <+: (renamed files name after).pruned) :
    let left := removed.foldl NamespaceDirectory.removeGeneration (renamed files name after)
    if stateFileBytes name after ≤ maxStateFileBytes then loadState directory name left = .ok after
    else ∀ loaded, loadState directory name left ≠ .ok loaded := by
  intro left
  have hmax : ∀ generation ∈ (renamed files name after).generations,
      generation ≤ after.generation := by
    intro generation hmem
    simp only [renamed, NamespaceDirectory.createPending, NamespaceDirectory.renamePending,
      ExtTreeMap.mem_insert, Std.compare_eq_iff_eq] at hmem
    rcases hmem with rfl | hmem
    · exact le_rfl
    · exact ((loadState_wellFormed hload).2 generation hmem).trans hlt.le
  have hkept : after.generation ∉ removed := fun hmem =>
    newest_notMem_take hmax (hremoved.subset hmem)
  have hfile : left.generations[after.generation]? = some (encode (after.envelope name)) := by
    rw [generations_foldl_removeGeneration _ _ hkept]
    simp [renamed, NamespaceDirectory.createPending, NamespaceDirectory.renamePending]
  have hread := readState_envelope hafter (stateFilePath directory after.generation) name
  rw [length_encode_envelope hname hafter.valid] at hread
  split
  · rename_i hsize
    rw [if_pos hsize] at hread
    refine loadState_of_newest hload hlt hfile hread fun generation bytes hbytes => ?_
    have hbefore := mem_of_foldl_removeGeneration hbytes
    simp only [renamed, NamespaceDirectory.createPending, NamespaceDirectory.renamePending,
      TreeMap.getElem?_insert'] at hbefore
    split at hbefore
    · rename_i heq
      exact .inl heq.symm
    · exact .inr hbefore
  · rename_i hsize
    intro loaded hloaded
    obtain ⟨read, hok⟩ := foldlM_loadGeneration_reads hloaded _
      (ExtTreeMap.mem_toList_iff_getElem?_eq_some.mpr hfile)
    rw [hread, if_neg hsize] at hok
    cases hok

/-! ## State changes -/

section

omit [HexCodec] [Sha256] [FromJson DiskEnvelope]

/-- Removing generations that are there makes as many fewer. -/
theorem size_foldl_removeGeneration {removed : List Nat} (hdistinct : removed.Nodup)
    (h : ∀ generation ∈ removed, generation ∈ files.generations) :
    (removed.foldl NamespaceDirectory.removeGeneration files).generations.size + removed.length
      = files.generations.size := by
  induction removed generalizing files with
  | nil => rfl
  | cons first removed ih =>
    obtain ⟨hfirst, hdistinct⟩ := List.nodup_cons.mp hdistinct
    have hmem := h first List.mem_cons_self
    have hkept : ∀ generation ∈ removed,
        generation ∈ (files.removeGeneration first).generations := by
      intro generation hgeneration
      have hne : first ≠ generation := fun heq => hfirst (heq ▸ hgeneration)
      rw [NamespaceDirectory.removeGeneration, ExtTreeMap.mem_erase]
      exact ⟨by simpa using hne, h generation (List.mem_cons_of_mem _ hgeneration)⟩
    have hrest := ih hdistinct hkept
    have hpos : 0 < files.generations.size := by
      rw [← ExtTreeMap.length_keys]
      exact List.length_pos_of_mem (ExtTreeMap.mem_keys.mpr hmem)
    have herased : (files.removeGeneration first).generations.size
        = files.generations.size - 1 := by
      rw [NamespaceDirectory.removeGeneration, ExtTreeMap.size_erase,
        if_pos (ExtTreeMap.mem_iff_contains.mp hmem)]
    rw [List.foldl_cons, List.length_cons]
    omega

/-- At most two generations are retained. -/
theorem size_pruneGenerations (files : NamespaceDirectory) :
    files.pruneGenerations.generations.size ≤ 2 := by
  have hsize := size_foldl_removeGeneration
    ((ExtTreeMap.nodup_keys (t := files.generations)).sublist
      (List.take_sublist (files.generations.size - retainedGenerations) _))
    fun generation hmem => ExtTreeMap.mem_keys.mp (List.mem_of_mem_take hmem)
  rw [List.length_take, ExtTreeMap.length_keys] at hsize
  unfold NamespaceDirectory.pruneGenerations retainedGenerations at *
  omega

end

omit [FromJson DiskEnvelope] in
theorem size_commitState {next : NamespaceDirectory}
    (h : commitState files name state = .ok next) : next.generations.size ≤ 2 := by
  simp only [commitState, bind_eq_ok, pure_eq_ok, Except.ok.injEq] at h
  obtain ⟨_, -, rfl⟩ := h
  exact size_pruneGenerations _

/-! ## The result -/

/-- What a stopped commit leaves is the state before or the state after: one of them is loaded,
whatever the pending files hold, and the next write that commits a state succeeds and leaves at most
two generations. -/
structure CrashSafe (name : String) (before after : State) (storage : DirectoryStorage) : Prop where
  loads : storage.Holds name before ∨ storage.Holds name after
  ignores_pending : ∀ pending,
    loadState (storage.namespaceDirectory name) name { storage.files name with pending }
      = loadState (storage.namespaceDirectory name) name (storage.files name)
  next_write : ∀ (call : DirectoryCall) (current state : State), storage.Holds name current →
    call.change name current = some state → state.generation < wordMax →
    (∃ outcome, (call.perform name storage).1 = .ok outcome) ∧
      ((call.perform name storage).2.files name).generations.size ≤ 2

/-- What is loaded decides whether a crash is safe. -/
theorem crashSafe_iff {after : State} :
    CrashSafe name before after storage ↔ storage.Holds name before ∨ storage.Holds name after := by
  refine ⟨CrashSafe.loads, fun h => ⟨h, fun _ => rfl, ?_⟩⟩
  intro call current state hload hchange hgeneration
  obtain ⟨hresult, hcommit⟩ := DirectoryCall.perform_of_change hload hchange hgeneration
  exact ⟨hresult, size_commitState hcommit⟩

section

omit [FromJson DiskEnvelope]

theorem DirectoryStorage.files_crashed (storage : DirectoryStorage) (name : String) (state : State)
    (completed written : Nat) :
    (storage.crashed name state completed written).files name
      = crashedFiles (storage.files name).cleanupPending name state completed written := by
  simp [crashed, files]

/-- A commit that is stopped after its rename. -/
theorem crashedFiles_renamed (files : NamespaceDirectory) (name : String)
    (h : state.generation < wordMax) :
    crashedFiles files name state 3 0
      = renamed files name { state with generation := state.generation + 1 } := by
  unfold crashedFiles commitOperations
  rw [checkedAdd_of_le (Nat.succ_le_of_lt h)]
  simp only [List.cons_append, List.nil_append]
  rw [interrupted_of_not_write]
  · rfl
  · intro contents hwrite
    have hmem := List.mem_of_getElem? (l := List.map FileOperation.remove _) (i := 0) hwrite
    obtain ⟨generation, -, heq⟩ := List.mem_map.mp hmem
    cases heq

end

/-- A commit of a state whose file is too large is not readable from the rename on. -/
theorem crashed_unreadable (hload : storage.Holds name before)
    (hchange : call.change name before = some state) (hgeneration : state.generation < wordMax)
    (hlarge : maxStateFileBytes
      < stateFileBytes name { state with generation := state.generation + 1 }) (loaded : State) :
    ¬ (storage.crashed name state 3 0).Holds name loaded := by
  obtain ⟨hname, hwell, hle⟩ :=
    DirectoryCall.wellFormed_of_change (loadState_wellFormed hload).1 hchange
  have hload' : loadState (storage.namespaceDirectory name) name
      (storage.files name).cleanupPending = .ok before := hload
  have hnone := loadState_crashed hname hload' (Nat.lt_succ_of_le hle)
    (hwell.withGeneration (state.generation + 1)) (List.nil_prefix)
  rw [if_neg (Nat.not_le.mpr hlarge)] at hnone
  unfold DirectoryStorage.Holds
  rw [storage.files_crashed, crashedFiles_renamed _ _ hgeneration]
  exact hnone loaded

/-- Commits can be interrupted: whatever state change is being committed, after any number of
completed file operations and any number of bytes of the pending file, the namespace is left with
the state before or the state after, exactly if the file of the state after is within the size
limit of the reader (a commit that would overflow the generation does nothing). -/
theorem commit_crash_safe_iff (storage : DirectoryStorage) (name : String) (call : DirectoryCall)
    (before state : State) (hload : storage.Holds name before)
    (hchange : call.change name before = some state) :
    let after := { state with generation := state.generation + 1 }
    (∀ completed written,
      CrashSafe name before after (storage.crashed name state completed written)) ↔
    (state.generation < wordMax → stateFileBytes name after ≤ maxStateFileBytes) := by
  intro after
  obtain ⟨hname, hwell, hle⟩ :=
    DirectoryCall.wellFormed_of_change (loadState_wellFormed hload).1 hchange
  have hlt : before.generation < after.generation := Nat.lt_succ_of_le hle
  have hload' : loadState (storage.namespaceDirectory name) name
      (storage.files name).cleanupPending = .ok before := hload
  constructor
  · intro hsafe hgeneration
    by_contra hlarge
    have hnone := crashed_unreadable hload hchange hgeneration (Nat.not_le.mp hlarge)
    rcases (hsafe 3 0).loads with hold | hnew
    · exact hnone before hold
    · exact hnone after hnew
  · intro hsize completed written
    rw [crashSafe_iff]
    unfold DirectoryStorage.Holds
    rw [storage.files_crashed]
    rcases crashedFiles_cases (storage.files name).cleanupPending name state completed written with
      hkept | ⟨hgeneration, removed, hremoved, hleft⟩
    · left
      exact (loadState_of_generations hkept).trans hload'
    · right
      have hnew := loadState_crashed hname hload' hlt (hwell.withGeneration _) hremoved
      rw [if_pos (hsize hgeneration)] at hnew
      rw [hleft]
      exact hnew

end

/-- The next put of the run with many keys asks for the next state. -/
theorem bulk_change [HexCodec] [Sha256] {n : Nat} (hn : n < 65536)
    (hwell : (bulkState n).WellFormed) :
    (DirectoryCall.common (.put (bulkKey n) bulkValue bulkLimits)).change "a" (bulkState n)
      = some (.ofContents n 0 (bulkEntries (n + 1))) := by
  obtain ⟨hsize, hbytes, -⟩ := bulkEntries_sums hn.le
  have hlength : bulkValue.length = 1024 := List.length_replicate
  have hnew : (bulkState n).entries[bulkKey n]? = none := bulkEntries_new le_rfl hn
  have hvalue : ¬ bulkValue.length > bulkLimits.maxValueBytes := by
    rw [hlength]
    decide
  rw [DirectoryCall.change]
  refine requestedState_eq_some.mpr ⟨(), (), ?_, validateNamespace_a,
    State.put_new hwell bulkLimits_valid hnew ?_ ?_⟩
  · rw [validateKey_bulkKey, ok_bind, validateLimits_eq_ok.mpr bulkLimits_valid, ok_bind,
      rejectIf_of_not _ hvalue]
  · simp only [bulkState, State.ofContents, bulkLimits]
    omega
  · simp only [bulkState, State.ofContents, bulkLimits]
    omega

/-- Limits of a small namespace. -/
def smallLimits : StorageLimits := ⟨16, 4, 12⟩

/-- A put of one byte under a new key. -/
def putByte (key : String) (value : UInt8) : DirectoryCall :=
  .common (.put key [value] smallLimits)

attribute [local instance] nibbleCodec Sha2.sha256 strictEnvelopeReader

/-- A put into an empty storage can be interrupted. -/
theorem first_put_crash_safe :
    let storage : DirectoryStorage := { root := "/state" }
    let entries := (∅ : Entries).insert "k" [1]
    ∀ completed written, CrashSafe "a" {} (.ofContents 1 0 entries)
      (storage.crashed "a" (.ofContents 0 0 entries) completed written) := by
  intro storage entries
  have hload : storage.Holds "a" {} := loadState_empty _ _
  have hchange : (putByte "k" 1).change "a" {} = some (.ofContents 0 0 entries) := rfl
  exact (commit_crash_safe_iff storage "a" (putByte "k" 1) {} _ hload hchange).mpr fun _ => by
    decide

/-- A put that is accepted after many others is stopped after its rename, and the namespace cannot
be read. -/
theorem interrupted_put_unreadable :
    let storage := bulkStorage 65365
    let call := DirectoryCall.common (.put (bulkKey 65365) bulkValue bulkLimits)
    ∃ before state, storage.Holds "a" before ∧ call.change "a" before = some state ∧
      ∃ completed written, ∀ loaded,
        ¬ (storage.crashed "a" state completed written).Holds "a" loaded := by
  intro storage call
  have hload : storage.Holds "a" (bulkState 65365) := bulkStorage_load (Nat.le_refl _)
  have hchange := bulk_change (show 65365 < 65536 by omega) (loadState_wellFormed hload).1
  refine ⟨_, _, hload, hchange, 3, 0, fun loaded => ?_⟩
  refine crashed_unreadable hload hchange (show 65365 < wordMax by unfold wordMax; omega) ?_ loaded
  have hbytes := stateFileBytes_bulkState (show 0 < 65366 by omega) (show 65366 ≤ 65536 by omega)
  show maxStateFileBytes < stateFileBytes "a" (bulkState 65366)
  rw [hbytes, maxStateFileBytes]
  omega

end CartridgeRuntime.Storage
