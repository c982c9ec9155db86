import CartridgeRuntime.Library.Checked
import CartridgeRuntime.Library.TreeMap

/-!
# Limits, keys and transactions

The part of the storage crate that its backends share: the limits and their checks, the checks of
namespaces, keys and mutations, and the quota rules of single writes and of batches.
-/

namespace CartridgeRuntime.Storage

open Checked Std

def maxKeyBytes : Nat := 256
def maxStorageBytes : Nat := 64 * 1024 * 1024
def maxStorageKeys : Nat := 100000
def maxStorageValueBytes : Nat := 8 * 1024 * 1024
def maxTransactionInputBytes : Nat := 16 * 1024 * 1024
def maxTransactionOperations : Nat := 128

/-- The entries of a namespace: a `BTreeMap<String, Vec<u8>>`. -/
abbrev Entries := ExtTreeMap String (List UInt8)

/-- How much a namespace may hold. -/
structure StorageLimits where
  maxBytes : Nat
  maxKeys : Nat
  maxValueBytes : Nat
deriving DecidableEq, Repr

/-- How much a namespace holds. -/
structure StorageUsage where
  bytes : Nat
  keys : Nat
deriving DecidableEq, Repr

/-- An entry is set or removed. -/
structure StorageMutation where
  key : String
  value : Option (List UInt8)
deriving DecidableEq, Repr

/-- Whether a transaction was applied, and the revision. -/
structure StorageTransactionResult where
  applied : Bool
  revision : Nat
deriving DecidableEq, Repr

/-- The errors that the modelled functions return. -/
inductive Error where
  | invalidNamespace (name : String)
  | invalidKey (key : String)
  | invalidLimits
  | valueTooLarge (size limit : Nat)
  | quotaExceeded (size limit : Nat)
  | keyLimitExceeded (limit : Nat)
  | corrupt (message : String)
  | snapshotIdentity (expected actual : String)
  | schemaMismatch (expected actual : UInt32)
  | invalidTransaction
  | transactionTooLarge (size limit : Nat)
  | revisionOverflow
  | noRecoverableState
  | stateChanged
deriving DecidableEq, Repr

/-! ## Names and limits -/

/-- The characters of a namespace. A byte of a non-ASCII character is none of these, so the test
of the bytes is the test of the characters. -/
def isNamespaceChar (c : Char) : Bool :=
  c.isLower || c.isDigit || c == '-' || c == '.'

/-- The characters of a key. -/
def isKeyChar (c : Char) : Bool :=
  c.isAlphanum || c == '-' || c == '_' || c == '.' || c == '/'

/-- Check the name of a namespace. -/
def validateNamespace (name : String) : Except Error Unit :=
  rejectIf (name.isEmpty ∨ name.utf8ByteSize > 128 ∨ ¬ name.toList.all isNamespaceChar)
    (.invalidNamespace name)

/-- A path segment that a key may not have. -/
def isBadSegment (segment : List Char) : Bool :=
  segment.isEmpty || segment == ['.'] || segment == ['.', '.']

/-- A key is a path of segments. -/
def validateKey (key : String) : Except Error Unit :=
  rejectIf (key.isEmpty ∨ key.utf8ByteSize > maxKeyBytes
      ∨ key.toList.head? = some '/' ∨ key.toList.getLast? = some '/'
      ∨ ¬ key.toList.all isKeyChar ∨ (key.toList.splitOn '/').any isBadSegment)
    (.invalidKey key)

/-- A listing prefix is empty, or a key that may end in one slash. -/
def validatePrefix (keyPrefix : String) : Except Error Unit :=
  if keyPrefix.isEmpty then .ok ()
  else if keyPrefix.toList.getLast? = some '/' then
    validateKey (String.ofList keyPrefix.toList.dropLast)
  else validateKey keyPrefix

/-- Check the limits. -/
def validateLimits (limits : StorageLimits) : Except Error Unit :=
  rejectIf (limits.maxBytes = 0 ∨ limits.maxKeys = 0 ∨ limits.maxValueBytes = 0
      ∨ limits.maxValueBytes > limits.maxBytes ∨ limits.maxBytes > maxStorageBytes
      ∨ limits.maxKeys > maxStorageKeys ∨ limits.maxValueBytes > maxStorageValueBytes)
    .invalidLimits

/-- Limits that pass `validateLimits`. -/
structure StorageLimits.Valid (limits : StorageLimits) : Prop where
  bytes_pos : 0 < limits.maxBytes
  keys_pos : 0 < limits.maxKeys
  value_pos : 0 < limits.maxValueBytes
  value_le_bytes : limits.maxValueBytes ≤ limits.maxBytes
  bytes_le : limits.maxBytes ≤ 67108864
  keys_le : limits.maxKeys ≤ 100000
  value_le : limits.maxValueBytes ≤ 8388608

theorem validateLimits_eq_ok {limits : StorageLimits} :
    validateLimits limits = .ok () ↔ limits.Valid := by
  unfold validateLimits
  rw [rejectIf_eq_ok]
  simp only [maxStorageBytes, maxStorageKeys, maxStorageValueBytes]
  constructor
  · intro h
    constructor <;> omega
  · rintro ⟨h₁, h₂, h₃, h₄, h₅, h₆, h₇⟩
    omega

/-- One turn of the loop of `validateEntryLimits`: the value is within its limit and is added to
the bytes counted so far. -/
def countValue (limits : StorageLimits) (bytes : Nat) (value : List UInt8) : Except Error Nat := do
  rejectIf (value.length > limits.maxValueBytes) (.valueTooLarge value.length limits.maxValueBytes)
  okOr (checkedAdd bytes value.length) (.quotaExceeded wordMax limits.maxBytes)

/-- The usage of entries that are within the limits. -/
def validateEntryLimits (entries : Entries) (limits : StorageLimits) :
    Except Error StorageUsage := do
  validateLimits limits
  rejectIf (entries.size > limits.maxKeys) (.keyLimitExceeded limits.maxKeys)
  let bytes ← (entries.toList.map (·.2)).foldlM (countValue limits) 0
  rejectIf (bytes > limits.maxBytes) (.quotaExceeded bytes limits.maxBytes)
  pure ⟨bytes, entries.size⟩

/-! ## Mutations -/

/-- What the loop of `validateMutations` has seen: the keys, and the bytes of keys and values. -/
structure MutationInput where
  keys : List String
  bytes : Nat

/-- One turn of the loop of `validateMutations`. -/
def validateMutation (limits : StorageLimits) (input : MutationInput) (mutation : StorageMutation) :
    Except Error MutationInput := do
  validateKey mutation.key
  rejectIf (mutation.key ∈ input.keys) .invalidTransaction
  let bytes ← okOr
    ((checkedAdd input.bytes mutation.key.utf8ByteSize).bind fun bytes =>
      mutation.value.elim (some bytes) fun value => checkedAdd bytes value.length)
    (.transactionTooLarge wordMax maxTransactionInputBytes)
  mutation.value.elim (.ok ()) fun value =>
    rejectIf (value.length > limits.maxValueBytes)
      (.valueTooLarge value.length limits.maxValueBytes)
  pure ⟨mutation.key :: input.keys, bytes⟩

/-- Check the mutations of a transaction. -/
def validateMutations (mutations : List StorageMutation) (limits : StorageLimits) :
    Except Error Unit := do
  validateLimits limits
  rejectIf (mutations.isEmpty ∨ mutations.length > maxTransactionOperations) .invalidTransaction
  let input ← mutations.foldlM (validateMutation limits) ⟨[], 0⟩
  rejectIf (input.bytes > maxTransactionInputBytes)
    (.transactionTooLarge input.bytes maxTransactionInputBytes)

/-- Check the parts of a comparison. -/
def validateCompareExchange (key : String) (expected replacement : Option (List UInt8))
    (limits : StorageLimits) : Except Error Unit := do
  let bytes ← okOr
    ((checkedAdd key.utf8ByteSize (expected.elim 0 List.length)).bind fun bytes =>
      checkedAdd bytes (replacement.elim 0 List.length))
    (.transactionTooLarge wordMax maxTransactionInputBytes)
  rejectIf (bytes > maxTransactionInputBytes) (.transactionTooLarge bytes maxTransactionInputBytes)
  validateMutations [⟨key, replacement⟩] limits
  rejectIf (expected.any fun value => value.length > limits.maxValueBytes)
    (.valueTooLarge (expected.elim 0 List.length) limits.maxValueBytes)

/-- The totals that `applyMutations` counts before it changes anything. -/
structure MutationTotals where
  removedBytes : Nat := 0
  addedBytes : Nat := 0
  removedKeys : Nat := 0
  addedKeys : Nat := 0
  changed : Bool := false

/-- One turn of the counting loop of `applyMutations`. -/
def countMutation (entries : Entries) (limits : StorageLimits) (totals : MutationTotals)
    (mutation : StorageMutation) : Except Error MutationTotals :=
  let current := entries[mutation.key]?
  if current = mutation.value then .ok totals
  else do
    let removedBytes ← current.elim (.ok totals.removedBytes) fun current =>
      okOr (checkedAdd totals.removedBytes current.length) (.quotaExceeded wordMax limits.maxBytes)
    let addedBytes ← mutation.value.elim (.ok totals.addedBytes) fun value =>
      okOr (checkedAdd totals.addedBytes value.length) (.quotaExceeded wordMax limits.maxBytes)
    pure {
      removedBytes, addedBytes
      removedKeys := totals.removedKeys + (if current.isSome ∧ mutation.value.isNone then 1 else 0)
      addedKeys := totals.addedKeys + (if current.isNone ∧ mutation.value.isSome then 1 else 0)
      changed := true }

/-- Write one mutation into the entries. -/
def applyMutation (entries : Entries) (mutation : StorageMutation) : Entries :=
  match mutation.value with
  | some value => entries.insert mutation.key value
  | none => entries.erase mutation.key

/-- Apply a batch under the quota. The result says whether an entry changed, and holds the entries
and the usage afterwards. -/
def applyMutations (entries : Entries) (usage : StorageUsage) (mutations : List StorageMutation)
    (limits : StorageLimits) : Except Error (Bool × Entries × StorageUsage) := do
  let totals ← mutations.foldlM (countMutation entries limits) {}
  let bytes ← okOr
    ((checkedSub usage.bytes totals.removedBytes).bind fun bytes =>
      checkedAdd bytes totals.addedBytes)
    (.quotaExceeded wordMax limits.maxBytes)
  let keys ← okOr
    ((checkedSub usage.keys totals.removedKeys).bind fun keys => checkedAdd keys totals.addedKeys)
    (.keyLimitExceeded limits.maxKeys)
  rejectIf (bytes > limits.maxBytes) (.quotaExceeded bytes limits.maxBytes)
  rejectIf (keys > limits.maxKeys) (.keyLimitExceeded limits.maxKeys)
  if totals.changed then pure (true, mutations.foldl applyMutation entries, ⟨bytes, keys⟩)
  else pure (false, entries, usage)

/-- Some mutation would change an entry. -/
def mutationsChange (entries : Entries) (mutations : List StorageMutation) : Bool :=
  mutations.any fun mutation => entries[mutation.key]? ≠ mutation.value

/-- The revision after another one. -/
def nextRevision (revision : Nat) : Except Error Nat :=
  okOr (checkedAdd revision 1) .revisionOverflow

/-- The revision after a batch: the next one if the batch changes an entry. -/
def revisionAfter (revision : Nat) (entries : Entries) (mutations : List StorageMutation) :
    Except Error Nat :=
  if mutationsChange entries mutations then nextRevision revision else .ok revision

/-! ## Single writes -/

/-- The quota check of a single write: the bytes of the namespace afterwards. -/
def admitValue (entries : Entries) (bytes : Nat) (key : String) (value : List UInt8)
    (limits : StorageLimits) : Except Error Nat := do
  let oldSize := entries[key]?.elim 0 List.length
  let nextBytes ← okOr
    ((checkedSub bytes oldSize).bind fun bytes => checkedAdd bytes value.length)
    (.quotaExceeded wordMax limits.maxBytes)
  rejectIf (nextBytes > limits.maxBytes) (.quotaExceeded nextBytes limits.maxBytes)
  rejectIf (entries[key]?.isNone ∧ entries.size ≥ limits.maxKeys) (.keyLimitExceeded limits.maxKeys)
  pure nextBytes

/-- The keys that start with a listing prefix, in order. -/
def listKeys (entries : Entries) (keyPrefix : String) : List String :=
  entries.keys.filter fun key => keyPrefix.toList.isPrefixOf key.toList

end CartridgeRuntime.Storage
