import CartridgeRuntime.Storage.Snapshot

/-!
# The durable backend

`DirectoryStorage` keeps each namespace in a directory of its own. Every write removes what an
interrupted write left behind, loads the newest generation, computes the next state from it and
commits that state as the next generation. The next states are pure functions of the loaded state
(`State.put` and its siblings); `NamespaceDirectory.update` does the rest.
-/

namespace CartridgeRuntime.Storage

open Checked Std Encoding

/-! ## Next states -/

variable (state : State)

/-- `prepare` gives a new namespace its schema; on any other it only checks. -/
def State.prepare (stateSchema : UInt32) (limits : StorageLimits) :
    Except Error (Unit × Option State) :=
  if state.generation = 0 then .ok ((), some { state with schema := stateSchema })
  else do
    rejectIf (state.schema ≠ stateSchema) (.schemaMismatch stateSchema state.schema)
    discard (validateEntryLimits state.entries limits)
    pure ((), none)

/-- Set an entry; `none` is the same state. -/
def State.put (key : String) (value : List UInt8) (limits : StorageLimits) :
    Except Error (Unit × Option State) :=
  if state.entries[key]? = some value then .ok ((), none)
  else do
    let nextBytes ← admitValue state.entries state.usage.bytes key value limits
    let entries := state.entries.insert key value
    pure ((), some { state with entries, usage := ⟨nextBytes, entries.size⟩ })

/-- Remove an entry. -/
def State.delete (key : String) : Except Error (Bool × Option State) :=
  match state.entries[key]? with
  | none => .ok (false, none)
  | some value =>
    let entries := state.entries.erase key
    .ok (true, some { state with
      entries, usage := ⟨state.usage.bytes - value.length, entries.size⟩ })

/-- Apply mutations at the current generation. `compareExchange` and `applyBatch` end this way. -/
def State.commit (mutations : List StorageMutation) (limits : StorageLimits) :
    Except Error (StorageTransactionResult × Option State) := do
  let revision ← revisionAfter state.generation state.entries mutations
  let (changed, entries, usage) ← applyMutations state.entries state.usage mutations limits
  if changed then pure (⟨true, revision⟩, some { state with entries, usage })
  else pure (⟨true, state.generation⟩, none)

/-- Replace an entry at the expected generation and value. -/
def State.compareExchange (expectedRevision : Nat) (key : String)
    (expected replacement : Option (List UInt8)) (limits : StorageLimits) :
    Except Error (StorageTransactionResult × Option State) :=
  if state.generation ≠ expectedRevision ∨ state.entries[key]? ≠ expected then
    .ok (⟨false, state.generation⟩, none)
  else state.commit [⟨key, replacement⟩] limits

/-- Apply mutations at the expected generation. -/
def State.applyBatch (expectedRevision : Nat) (mutations : List StorageMutation)
    (limits : StorageLimits) : Except Error (StorageTransactionResult × Option State) :=
  if state.generation ≠ expectedRevision then .ok (⟨false, state.generation⟩, none)
  else state.commit mutations limits

/-! ## Restoring a snapshot -/

/-- What a restoration changes. -/
structure RestorePlan where
  currentSchema : UInt32
  snapshotSchema : UInt32
  currentRevision : Nat
  snapshotRevision : Nat
  resultRevision : Nat
  current : StorageUsage
  snapshot : StorageUsage
  added : Nat
  replaced : Nat
  removed : Nat
  unchanged : Nat
deriving DecidableEq

/-- The restoration has to be committed. -/
def RestorePlan.changed (plan : RestorePlan) : Bool :=
  plan.currentRevision ≠ plan.resultRevision || plan.currentSchema ≠ plan.snapshotSchema
    || plan.added ≠ 0 || plan.replaced ≠ 0 || plan.removed ≠ 0

/-- The entries are within the limits. -/
def validateRestoreLimits (entries : Entries) (limits : StorageLimits) : Except Error Unit := do
  validateLimits limits
  let bytes ← (entries.toList.map (·.2)).foldlM (countValue limits) 0
  rejectIf (bytes > limits.maxBytes) (.quotaExceeded bytes limits.maxBytes)
  rejectIf (entries.size > limits.maxKeys) (.keyLimitExceeded limits.maxKeys)

/-- The usage of some entries. -/
def stateUsage (entries : Entries) : Except Error StorageUsage := do
  let bytes ← (entries.toList.map (·.2)).foldlM
    (fun total value =>
      okOr (checkedAdd total value.length) (.corrupt "storage usage overflowed")) 0
  pure ⟨bytes, entries.size⟩

/-- The revision after a restore: past both revisions if the content changes or the snapshot is
newer. -/
def restoredRevision (contentChanged : Bool) (currentRevision snapshotRevision : Nat) :
    Except Error Nat :=
  if contentChanged ∨ snapshotRevision > currentRevision then
    nextRevision (max currentRevision snapshotRevision)
  else .ok currentRevision

/-- Compare a state with a snapshot. -/
def buildRestorePlan (currentSchema : UInt32) (currentRevision : Nat) (current : Entries)
    (snapshotSchema : UInt32) (snapshotRevision : Nat) (snapshot : Entries) :
    Except Error RestorePlan := do
  let added := snapshot.toList.countP fun entry => current[entry.1]? = none
  let unchanged := snapshot.toList.countP fun entry => current[entry.1]? = some entry.2
  let replaced := snapshot.toList.countP fun entry =>
    current[entry.1]? ≠ none ∧ current[entry.1]? ≠ some entry.2
  let removed := current.keys.countP fun key => snapshot[key]? = none
  let contentChanged := currentSchema ≠ snapshotSchema ∨ added ≠ 0 ∨ replaced ≠ 0 ∨ removed ≠ 0
  let resultRevision ← restoredRevision contentChanged currentRevision snapshotRevision
  let currentUsage ← stateUsage current
  let snapshotUsage ← stateUsage snapshot
  pure {
    currentSchema, snapshotSchema, currentRevision, snapshotRevision, resultRevision
    current := currentUsage, snapshot := snapshotUsage, added, replaced, removed, unchanged }

/-- Replace the state by the contents of a snapshot. -/
def State.restore (snapshot : StorageSnapshot) (entries : Entries) :
    Except Error (RestorePlan × Option State) := do
  let plan ← buildRestorePlan state.schema state.generation state.entries
    snapshot.payload.stateSchema snapshot.payload.stateRevision entries
  let next : State := {
    generation := max state.generation snapshot.payload.stateRevision
    schema := snapshot.payload.stateSchema, entries, usage := plan.snapshot }
  pure (plan, if plan.changed then some next else none)

/-! ## The backend -/

section

variable [HexCodec] [Sha256] [FromJson DiskEnvelope]

/-- Load the newest generation and look at it. -/
def NamespaceDirectory.observe {α : Type} (directory name : String) (files : NamespaceDirectory)
    (look : State → α) : Except Error α × NamespaceDirectory :=
  ((loadState directory name files).map look, files)

/-- Commit the next state, if there is one. -/
def NamespaceDirectory.commitNext {α : Type} (name : String) (files : NamespaceDirectory) :
    α × Option State → Except Error (α × NamespaceDirectory)
  | (result, none) => .ok (result, files)
  | (result, some state) => (commitState files name state).map fun files => (result, files)

/-- Remove pending files, load the newest generation, compute the next state and commit it. -/
def NamespaceDirectory.update {α : Type} (directory name : String) (files : NamespaceDirectory)
    (next : State → Except Error (α × Option State)) : Except Error α × NamespaceDirectory :=
  let files := files.cleanupPending
  match (do
    let state ← loadState directory name files
    let step ← next state
    files.commitNext name step) with
  | .ok (result, files) => (.ok result, files)
  | .error error => (.error error, files)

/-- The storage: the path of its root and the namespace directories in it, by their names. -/
structure DirectoryStorage where
  root : String
  directories : ExtTreeMap String NamespaceDirectory := ∅

namespace DirectoryStorage

/-- The name of a namespace's directory: the digest of the namespace. -/
def directoryName (name : String) : String :=
  sha256Hex (utf8 name.toList)

variable (storage : DirectoryStorage)

/-- The path of a namespace's directory. -/
def namespaceDirectory (name : String) : String :=
  storage.root ++ "/" ++ directoryName name

/-- The files of a namespace's directory, which is created when it is not there. -/
def files (name : String) : NamespaceDirectory :=
  storage.directories[directoryName name]?.getD {}

/-- Run an operation on a namespace's directory, under its lock. -/
def withNamespace {α : Type} (name : String)
    (operation : String → NamespaceDirectory → Except Error α × NamespaceDirectory) :
    Except Error α × DirectoryStorage :=
  match validateNamespace name with
  | .error error => (.error error, storage)
  | .ok () =>
    let (result, files) := operation (storage.namespaceDirectory name) (storage.files name)
    (result, { storage with directories := storage.directories.insert (directoryName name) files })

/-- Run an operation after the checks that come before it; a failed check changes nothing. -/
def afterChecks {α β : Type} (checks : Except Error β)
    (operation : β → Except Error α × DirectoryStorage) : Except Error α × DirectoryStorage :=
  match checks with
  | .ok value => operation value
  | .error error => (.error error, storage)

/-- A write: checks, then a next state from what they return. -/
def write {α β : Type} (name : String) (checks : Except Error β)
    (next : β → State → Except Error (α × Option State)) : Except Error α × DirectoryStorage :=
  storage.afterChecks checks fun value => storage.withNamespace name fun directory files =>
    files.update directory name (next value)

/-- A read: checks, then a look at the newest generation. -/
def read {α : Type} (name : String) (checks : Except Error Unit) (look : State → α) :
    Except Error α × DirectoryStorage :=
  storage.afterChecks checks fun _ => storage.withNamespace name fun directory files =>
    files.observe directory name look

def prepare (storage : DirectoryStorage) (name : String) (stateSchema : UInt32)
    (limits : StorageLimits) : Except Error Unit × DirectoryStorage :=
  storage.write name (validateLimits limits) fun _ state => state.prepare stateSchema limits

def get (name key : String) : Except Error (Option (List UInt8)) × DirectoryStorage :=
  storage.read name (validateKey key) fun state => state.entries[key]?

def put (storage : DirectoryStorage) (name key : String) (value : List UInt8)
    (limits : StorageLimits) : Except Error Unit × DirectoryStorage :=
  storage.write name (do
    validateKey key
    validateLimits limits
    rejectIf (value.length > limits.maxValueBytes)
      (.valueTooLarge value.length limits.maxValueBytes)) fun _ state => state.put key value limits

def delete (storage : DirectoryStorage) (name key : String) :
    Except Error Bool × DirectoryStorage :=
  storage.write name (validateKey key) fun _ state => state.delete key

def list (name keyPrefix : String) : Except Error (List String) × DirectoryStorage :=
  storage.read name (validatePrefix keyPrefix) fun state => listKeys state.entries keyPrefix

def usage (name : String) : Except Error StorageUsage × DirectoryStorage :=
  storage.read name (.ok ()) State.usage

def revision (name : String) : Except Error Nat × DirectoryStorage :=
  storage.read name (.ok ()) State.generation

def compareExchange (storage : DirectoryStorage) (name : String) (expectedRevision : Nat)
    (key : String) (expected replacement : Option (List UInt8)) (limits : StorageLimits) :
    Except Error StorageTransactionResult × DirectoryStorage :=
  storage.write name (validateCompareExchange key expected replacement limits) fun _ state =>
    state.compareExchange expectedRevision key expected replacement limits

def applyBatch (storage : DirectoryStorage) (name : String) (expectedRevision : Nat)
    (mutations : List StorageMutation) (limits : StorageLimits) :
    Except Error StorageTransactionResult × DirectoryStorage :=
  storage.write name (validateMutations mutations limits) fun _ state =>
    state.applyBatch expectedRevision mutations limits

instance : StorageBackend DirectoryStorage where
  prepare := prepare
  get := get
  put := put
  delete := delete
  list := list
  usage := usage
  revision := revision
  compareExchange := compareExchange
  applyBatch := applyBatch

/-- The entries of a snapshot that is to be restored, within the limits. -/
def restoreEntries (name : String) (snapshot : StorageSnapshot) (limits : StorageLimits) :
    Except Error Entries := do
  let entries ← snapshot.entriesFor name
  validateRestoreLimits entries limits
  pure entries

def restore (storage : DirectoryStorage) (name : String) (snapshot : StorageSnapshot)
    (limits : StorageLimits) : Except Error RestorePlan × DirectoryStorage :=
  storage.write name (restoreEntries name snapshot limits) fun entries state =>
    state.restore snapshot entries

end DirectoryStorage

end

end CartridgeRuntime.Storage
