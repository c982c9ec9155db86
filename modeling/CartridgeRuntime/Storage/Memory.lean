import CartridgeRuntime.Storage.Basic

/-!
# The backend interface and the in-memory backend

`StorageBackend` is the interface of every backend: each method takes the backend's state and
returns a result and the state afterwards, also when the result is an error. `MemoryStorage` keeps
its namespaces in a map. A namespace comes to be when a method first asks for its entry, and it
stays when the rest of that method fails.
-/

namespace CartridgeRuntime.Storage

open Checked Std

/-- The methods of a storage backend with states `σ`. -/
class StorageBackend (σ : Type) where
  prepare : σ → String → UInt32 → StorageLimits → Except Error Unit × σ
  get : σ → String → String → Except Error (Option (List UInt8)) × σ
  put : σ → String → String → List UInt8 → StorageLimits → Except Error Unit × σ
  delete : σ → String → String → Except Error Bool × σ
  list : σ → String → String → Except Error (List String) × σ
  usage : σ → String → Except Error StorageUsage × σ
  revision : σ → String → Except Error Nat × σ
  compareExchange : σ → String → Nat → String → Option (List UInt8) → Option (List UInt8) →
    StorageLimits → Except Error StorageTransactionResult × σ
  applyBatch : σ → String → Nat → List StorageMutation → StorageLimits →
    Except Error StorageTransactionResult × σ

/-! ## One namespace -/

/-- A namespace of the in-memory backend. -/
structure Namespace where
  stateSchema : UInt32 := 0
  revision : Nat := 0
  entries : Entries := ∅
  bytes : Nat := 0

variable (state : Namespace)

/-- The part of `put` after the namespace has been found. -/
def Namespace.put (key : String) (value : List UInt8) (limits : StorageLimits) :
    Except Error (Unit × Namespace) :=
  if state.entries[key]? = some value then .ok ((), state)
  else do
    let nextBytes ← admitValue state.entries state.bytes key value limits
    let revision ← nextRevision state.revision
    pure ((), { state with
      entries := state.entries.insert key value, bytes := nextBytes, revision })

/-- The part of `delete` after the namespace has been found. -/
def Namespace.delete (key : String) : Except Error (Bool × Namespace) :=
  match state.entries[key]? with
  | none => .ok (false, state)
  | some value => do
    let revision ← nextRevision state.revision
    pure (true, { state with
      entries := state.entries.erase key, bytes := state.bytes - value.length, revision })

/-- Apply mutations at the current revision. `compareExchange` and `applyBatch` end this way. -/
def Namespace.commit (mutations : List StorageMutation) (limits : StorageLimits) :
    Except Error (StorageTransactionResult × Namespace) := do
  let revision ← revisionAfter state.revision state.entries mutations
  let (changed, entries, usage) ←
    applyMutations state.entries ⟨state.bytes, state.entries.size⟩ mutations limits
  let revision := if changed then revision else state.revision
  pure (⟨true, revision⟩, { state with entries, bytes := usage.bytes, revision })

/-- The part of `compare_exchange` after the namespace has been found. -/
def Namespace.compareExchange (expectedRevision : Nat) (key : String)
    (expected replacement : Option (List UInt8)) (limits : StorageLimits) :
    Except Error (StorageTransactionResult × Namespace) :=
  if state.revision ≠ expectedRevision ∨ state.entries[key]? ≠ expected then
    .ok (⟨false, state.revision⟩, state)
  else state.commit [⟨key, replacement⟩] limits

/-- The part of `apply_batch` after the namespace has been found. -/
def Namespace.applyBatch (expectedRevision : Nat) (mutations : List StorageMutation)
    (limits : StorageLimits) : Except Error (StorageTransactionResult × Namespace) :=
  if state.revision ≠ expectedRevision then .ok (⟨false, state.revision⟩, state)
  else state.commit mutations limits

/-! ## The backend -/

/-- The namespaces by name. -/
structure MemoryStorage where
  namespaces : ExtTreeMap String Namespace := ∅

namespace MemoryStorage

/-- A storage without namespaces. -/
def new : MemoryStorage := {}

variable (storage : MemoryStorage)

/-- `namespaces.entry(name).or_default()`: the namespace of a name is put into the map before the
operation on it runs, so it is there afterwards even when the operation fails. -/
def withEntry {α : Type} (name : String) (operation : Namespace → Except Error (α × Namespace)) :
    Except Error α × MemoryStorage :=
  let state := storage.namespaces[name]?.getD {}
  match operation state with
  | .ok (result, next) => (.ok result, { namespaces := storage.namespaces.insert name next })
  | .error error => (.error error, { namespaces := storage.namespaces.insert name state })

/-- Run an operation after the checks that come before it; a failed check changes nothing. -/
def afterChecks {α : Type} (checks : Except Error Unit)
    (operation : MemoryStorage → Except Error α × MemoryStorage) : Except Error α × MemoryStorage :=
  match checks with
  | .ok () => operation storage
  | .error error => (.error error, storage)

def prepare (name : String) (stateSchema : UInt32) (limits : StorageLimits) :
    Except Error Unit × MemoryStorage :=
  storage.afterChecks (do validateNamespace name; validateLimits limits) fun storage =>
    match storage.namespaces[name]? with
    | none =>
      let state : Namespace := { stateSchema }
      (do discard (validateEntryLimits state.entries limits),
        { namespaces := storage.namespaces.insert name state })
    | some state =>
      if state.stateSchema ≠ stateSchema then
        (.error (.schemaMismatch stateSchema state.stateSchema), storage)
      else (do discard (validateEntryLimits state.entries limits), storage)

def get (name key : String) : Except Error (Option (List UInt8)) × MemoryStorage :=
  storage.afterChecks (do validateNamespace name; validateKey key) fun storage =>
    (.ok (storage.namespaces[name]?.bind fun state => state.entries[key]?), storage)

def put (storage : MemoryStorage) (name key : String) (value : List UInt8)
    (limits : StorageLimits) : Except Error Unit × MemoryStorage :=
  storage.afterChecks (do
    validateNamespace name
    validateKey key
    validateLimits limits
    rejectIf (value.length > limits.maxValueBytes)
      (.valueTooLarge value.length limits.maxValueBytes)) fun storage =>
    storage.withEntry name fun state => state.put key value limits

def delete (storage : MemoryStorage) (name key : String) : Except Error Bool × MemoryStorage :=
  storage.afterChecks (do validateNamespace name; validateKey key) fun storage =>
    match storage.namespaces[name]? with
    | none => (.ok false, storage)
    | some _ => storage.withEntry name fun state => state.delete key

def list (name keyPrefix : String) : Except Error (List String) × MemoryStorage :=
  storage.afterChecks (do validateNamespace name; validatePrefix keyPrefix) fun storage =>
    (.ok (storage.namespaces[name]?.elim [] fun state => listKeys state.entries keyPrefix), storage)

def usage (name : String) : Except Error StorageUsage × MemoryStorage :=
  storage.afterChecks (validateNamespace name) fun storage =>
    (.ok (storage.namespaces[name]?.elim ⟨0, 0⟩ fun state => ⟨state.bytes, state.entries.size⟩),
      storage)

def revision (name : String) : Except Error Nat × MemoryStorage :=
  storage.afterChecks (validateNamespace name) fun storage =>
    (.ok (storage.namespaces[name]?.elim 0 Namespace.revision), storage)

def compareExchange (storage : MemoryStorage) (name : String) (expectedRevision : Nat)
    (key : String) (expected replacement : Option (List UInt8)) (limits : StorageLimits) :
    Except Error StorageTransactionResult × MemoryStorage :=
  storage.afterChecks (do
    validateCompareExchange key expected replacement limits
    validateNamespace name) fun storage =>
    storage.withEntry name fun state =>
      state.compareExchange expectedRevision key expected replacement limits

def applyBatch (storage : MemoryStorage) (name : String) (expectedRevision : Nat)
    (mutations : List StorageMutation) (limits : StorageLimits) :
    Except Error StorageTransactionResult × MemoryStorage :=
  storage.afterChecks (do validateMutations mutations limits; validateNamespace name) fun storage =>
    storage.withEntry name fun state => state.applyBatch expectedRevision mutations limits

instance : StorageBackend MemoryStorage where
  prepare := prepare
  get := get
  put := put
  delete := delete
  list := list
  usage := usage
  revision := revision
  compareExchange := compareExchange
  applyBatch := applyBatch

end MemoryStorage

/-! ## Calls -/

/-- A call of a backend's method on a namespace. -/
inductive Call where
  | prepare (stateSchema : UInt32) (limits : StorageLimits)
  | get (key : String)
  | put (key : String) (value : List UInt8) (limits : StorageLimits)
  | delete (key : String)
  | list (keyPrefix : String)
  | usage
  | revision
  | compareExchange (expectedRevision : Nat) (key : String)
      (expected replacement : Option (List UInt8)) (limits : StorageLimits)
  | applyBatch (expectedRevision : Nat) (mutations : List StorageMutation) (limits : StorageLimits)
deriving DecidableEq

/-- What a call returns when it succeeds. -/
inductive Outcome where
  | done
  | value (value : Option (List UInt8))
  | deleted (present : Bool)
  | keys (keys : List String)
  | usage (usage : StorageUsage)
  | revision (revision : Nat)
  | transaction (result : StorageTransactionResult)
deriving DecidableEq

/-- Perform a call. -/
def Call.perform {σ : Type} [StorageBackend σ] (name : String) (backend : σ) :
    Call → Except Error Outcome × σ
  | .prepare stateSchema limits =>
    (StorageBackend.prepare backend name stateSchema limits).map (·.map fun _ => .done) id
  | .get key => (StorageBackend.get backend name key).map (·.map .value) id
  | .put key value limits =>
    (StorageBackend.put backend name key value limits).map (·.map fun _ => .done) id
  | .delete key => (StorageBackend.delete backend name key).map (·.map .deleted) id
  | .list keyPrefix => (StorageBackend.list backend name keyPrefix).map (·.map .keys) id
  | .usage => (StorageBackend.usage backend name).map (·.map .usage) id
  | .revision => (StorageBackend.revision backend name).map (·.map .revision) id
  | .compareExchange expectedRevision key expected replacement limits =>
    (StorageBackend.compareExchange backend name expectedRevision key expected replacement
      limits).map (·.map .transaction) id
  | .applyBatch expectedRevision mutations limits =>
    (StorageBackend.applyBatch backend name expectedRevision mutations limits).map
      (·.map .transaction) id

/-- The results of a sequence of calls, each on its own namespace. -/
def performAll {σ : Type} [StorageBackend σ] (backend : σ) :
    List (String × Call) → List (Except Error Outcome)
  | [] => []
  | (name, call) :: rest =>
    (call.perform name backend).1 :: performAll (call.perform name backend).2 rest

end CartridgeRuntime.Storage
