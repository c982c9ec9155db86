import CartridgeRuntime.Core.Text
import CartridgeRuntime.Library.Ascending
import CartridgeRuntime.Library.TreeMap
import Mathlib.Data.Finset.Sort
import Mathlib.Data.String.Basic

/-!
# The blob store

Blobs are kept under the digests of their contents. `put` stores one, `verify` hashes one again, and
`inventory`, `audit` and `gc` work on the list of all objects that `objectFiles` gathers.
-/

namespace CartridgeRuntime.Storage

open Checked CartridgeRuntime.Core Encoding
open Std (ExtTreeMap)

def maxBlobBytes : Nat := 256 * 1024 * 1024
def maxBlobGcRoots : Nat := 100000
def maxBlobObjects : Nat := 100000

/-- The errors of the blob store: a defect that is found, or a file that is not there. -/
inductive BlobError where
  | corrupt (message : String)
  | notFound
deriving DecidableEq, Repr

/-- The objects by their names. -/
structure BlobStore where
  objects : ExtTreeMap String (List UInt8) := ∅

/-- What is known of an object. -/
structure BlobInfo where
  sha256 : String
  bytes : Nat
  existed : Bool
deriving DecidableEq

/-- An object that something refers to. -/
structure BlobReference where
  sha256 : String
  bytes : Nat
deriving DecidableEq

/-- What a collection counts. -/
structure BlobGcReport where
  retained : Nat := 0
  removable : Nat := 0
  removableBytes : Nat := 0
  removed : Nat := 0
  removedBytes : Nat := 0
  dryRun : Bool := false
deriving DecidableEq

/-- The objects of a store. -/
structure BlobInventory where
  objects : List BlobReference := []
  totalBytes : Nat := 0
deriving DecidableEq

/-- An object that does not verify. -/
structure BlobAuditIssue where
  sha256 : String
  error : BlobError
deriving DecidableEq

/-- The objects that verify and those that do not. -/
structure BlobAuditReport where
  validObjects : Nat := 0
  validBytes : Nat := 0
  issues : List BlobAuditIssue := []
deriving DecidableEq

/-- How much was referred to. -/
structure BlobReferenceVerification where
  objects : Nat := 0
  bytes : Nat := 0
deriving DecidableEq

/-! ## Checks -/

/-- Check a digest. -/
def validateBlobDigest (value : String) : Except BlobError Unit :=
  rejectIf (¬ isDigest value) (.corrupt "blob digest must be lowercase sha256")

/-- Check a reference. -/
def BlobReference.validate (reference : BlobReference) : Except BlobError Unit := do
  validateBlobDigest reference.sha256
  rejectIf (reference.bytes > maxBlobBytes)
    (.corrupt s!"blob reference exceeds the {maxBlobBytes} byte limit")

/-- A reference that passes its check. -/
def BlobReference.new (sha256 : String) (bytes : Nat) : Except BlobError BlobReference := do
  let reference : BlobReference := { sha256, bytes }
  reference.validate
  return reference

/-- Sum sizes in 64 bits. -/
def addBytes (total bytes : Nat) (message : String) : Except BlobError Nat :=
  okOr (checkedAdd total bytes) (.corrupt message)

/-- Not too many objects are to be kept. -/
def validateGcRootCount (retained references : Nat) : Except BlobError Unit := do
  let rootCount ← addBytes retained references "blob root count overflowed"
  rejectIf (rootCount > maxBlobGcRoots)
    (.corrupt s!"blob garbage collection exceeds the {maxBlobGcRoots}-root limit")

/-- The error of a store with too many objects. -/
def objectLimitError : BlobError :=
  .corrupt s!"blob store exceeds the {maxBlobObjects}-object limit"

/-- One step of the scan: the name is checked and counted. -/
def scanObject (files : List String) (name : String) : Except BlobError (List String) := do
  validateBlobDigest name
  rejectIf (files.length + 1 > maxBlobObjects) objectLimitError
  return files ++ [name]

section

variable [HexCodec] [Sha256]

/-- Hash a content within a limit. -/
def hashBlob (content : List UInt8) (limit : Nat) : Except BlobError (Nat × String) := do
  rejectIf (content.length > limit) (.corrupt s!"blob exceeds the {limit} byte limit")
  return (content.length, sha256Hex content)

namespace BlobStore

variable (store : BlobStore)

omit [HexCodec] [Sha256] in
/-- The names of all objects, in order. -/
def objectFiles : Except BlobError (List String) :=
  (store.objects.toList.map Prod.fst).foldlM scanObject []

/-- An object has its digest. -/
def verify (sha256 : String) : Except BlobError BlobInfo := do
  validateBlobDigest sha256
  let content ← okOr store.objects[sha256]? .notFound
  let (bytes, actual) ← hashBlob content maxBlobBytes
  rejectIf (actual ≠ sha256) (.corrupt s!"blob {sha256} does not match its content")
  return { sha256, bytes, existed := true }

/-- Store a content under its digest, or find it there. -/
def put (input : List UInt8) : Except BlobError (BlobInfo × BlobStore) := do
  rejectIf (input.length > maxBlobBytes)
    (.corrupt s!"blob input exceeds the {maxBlobBytes} byte limit")
  let (bytes, sha256) ← hashBlob input maxBlobBytes
  validateBlobDigest sha256
  if sha256 ∈ store.objects then
    let existing ← store.verify sha256
    rejectIf (existing.bytes ≠ bytes) (.corrupt "blob digest collision has a different size")
    return ({ existing with existed := true }, store)
  else
    return ({ sha256, bytes, existed := false },
      { objects := store.objects.insert sha256 input })

/-- One object of an inventory. -/
def listObject (inventory : BlobInventory) (name : String) :
    Except BlobError BlobInventory := do
  let info ← store.verify name
  let totalBytes ← addBytes inventory.totalBytes info.bytes "blob inventory size overflowed"
  let reference ← BlobReference.new info.sha256 info.bytes
  return { objects := inventory.objects ++ [reference], totalBytes }

/-- List the objects. -/
def inventory : Except BlobError BlobInventory := do
  let files ← store.objectFiles
  files.foldlM store.listObject {}

/-- One object of an audit. -/
def auditObject (report : BlobAuditReport) (name : String) : Except BlobError BlobAuditReport :=
  match store.verify name with
  | .ok info => do
    let validBytes ← addBytes report.validBytes info.bytes "blob audit size overflowed"
    return { report with validObjects := report.validObjects + 1, validBytes }
  | .error error => return { report with issues := report.issues ++ [{ sha256 := name, error }] }

/-- Verify every object. -/
def audit : Except BlobError BlobAuditReport := do
  let files ← store.objectFiles
  files.foldlM store.auditObject {}

/-- One reference that must be there with its size. -/
def verifyReference (report : BlobReferenceVerification) (entry : String × Nat) :
    Except BlobError BlobReferenceVerification := do
  let reference ← BlobReference.new entry.1 entry.2
  let actual ← store.verify reference.sha256
  rejectIf (actual.bytes ≠ reference.bytes)
    (.corrupt (s!"blob {reference.sha256} has {actual.bytes} bytes; "
      ++ s!"reference declares {reference.bytes}"))
  let bytes ← addBytes report.bytes actual.bytes "blob reference size overflowed"
  return { objects := report.objects + 1, bytes }

/-- Verify every object that is referred to. -/
def verifyReferences (references : ExtTreeMap String Nat) :
    Except BlobError BlobReferenceVerification := do
  validateGcRootCount 0 references.size
  references.toList.foldlM store.verifyReference {}

/-- One object of a collection: what is not retained is verified and listed for removal. -/
def collectObject (retained : Finset String) (state : BlobGcReport × List (String × Nat))
    (name : String) :
    Except BlobError (BlobGcReport × List (String × Nat)) := do
  let (report, removals) := state
  if name ∈ retained then
    return state
  else
    let info ← store.verify name
    let removableBytes ← addBytes report.removableBytes info.bytes
      "blob garbage collection size overflowed"
    return ({ report with removable := report.removable + 1, removableBytes },
      removals ++ [(name, info.bytes)])

omit [HexCodec] [Sha256] in
/-- Remove one object. -/
def removeObject (state : BlobGcReport × BlobStore) (removal : String × Nat) :
    Except BlobError (BlobGcReport × BlobStore) := do
  let (report, store) := state
  let removedBytes ← addBytes report.removedBytes removal.2 "blob removal size overflowed"
  return ({ report with removed := report.removed + 1, removedBytes },
    { objects := store.objects.erase removal.1 })

/-- Remove the objects that are not retained. -/
def gcLocked (retained : Finset String) (dryRun : Bool) :
    Except BlobError (BlobGcReport × BlobStore) := do
  (retained.sort (· ≤ ·)).forM validateBlobDigest
  let files ← store.objectFiles
  let (report, removals) ← files.foldlM (store.collectObject retained)
    ({ retained := retained.card, dryRun }, [])
  if dryRun then return (report, store)
  else removals.foldlM removeObject (report, store)

/-- Remove the objects that are neither retained nor referred to. -/
def gcWithReferences (retained : Finset String)
    (references : ExtTreeMap String Nat) (dryRun : Bool) :
    Except BlobError (BlobGcReport × BlobStore) := do
  validateGcRootCount retained.card references.size
  discard (store.verifyReferences references)
  store.gcLocked (retained ∪ (references.toList.map Prod.fst).toFinset) dryRun

/-- A collection without references. -/
def gc (retained : Finset String) (dryRun : Bool) : Except BlobError (BlobGcReport × BlobStore) :=
  store.gcWithReferences retained ∅ dryRun

end BlobStore

end

end CartridgeRuntime.Storage
