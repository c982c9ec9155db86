import CartridgeRuntime.Core.Text
import CartridgeRuntime.Library.Codec

/-!
# Shared documents

A replica of a document keeps for each key the operation with the greatest clock and, of those, the
greatest peer. Replicas exchange operations or merge, which applies the entries of another replica.
-/

namespace CartridgeRuntime.Network

open Checked CartridgeRuntime.Core Encoding Std

def maxMessageBytes : Nat := 1024 * 1024
def maxDocumentOperations : Nat := 100000
def maxDocumentBytes : Nat := 16 * 1024 * 1024

/-- A peer sets or removes a key. -/
structure DocumentOperation where
  documentId : String
  key : String
  value : Option (List UInt8)
  clock : UInt64
  peerId : String
deriving DecidableEq

/-- The latest operation of each key, and those that were seen. -/
structure SharedDocument where
  documentId : String := ""
  entries : ExtTreeMap String DocumentOperation := ∅
  seen : Finset String := ∅
  bytes : Nat := 0

/-! ## Operations -/

open Codec Fields in
def DocumentOperation.codec : Codec DocumentOperation :=
  (member "document_id" string <| member "key" string <|
    member "value" (byte.list.nullable nofun) <| member "clock" word <|
    required "peer_id" string).record
    (fun ⟨a, b, c, d, e⟩ => (a, b, c, d, e)) (fun (a, b, c, d, e) => ⟨a, b, c, d, e⟩) fun _ => rfl

/-- Check a name. -/
def validateToken (value label : String) (max : Nat) : Except String Unit :=
  rejectIf (value = "" ∨ byteLength value.toList > max ∨ value.toList.any isControl)
    (label ++ " is invalid")

/-- Check an operation on a document. -/
def validateOperation (operation : DocumentOperation) (id : String) : Except String Unit := do
  rejectIf (operation.documentId ≠ id) "document operation targets another document"
  validateToken operation.key "document key" 1024
  validateToken operation.peerId "peer id" 128
  rejectIf (operation.value.any fun bytes => bytes.length > maxMessageBytes)
    "document value exceeds its byte limit"

/-- The bytes that the value of an operation counts for. -/
def DocumentOperation.size (operation : DocumentOperation) : Nat :=
  operation.value.elim 0 List.length

/-- An operation is newer by its clock, or with the same clock by its peer. -/
def DocumentOperation.isNewer (operation current : DocumentOperation) : Bool :=
  current.clock < operation.clock
    ∨ (current.clock = operation.clock ∧ current.peerId < operation.peerId)

/-! ## Replicas -/

namespace SharedDocument

/-- An empty document. -/
def new (id : String) : Except String SharedDocument := do
  validateToken id "document id" 128
  return { documentId := id }

/-- The operation takes the place of the entry of its key. -/
def replaces (document : SharedDocument) (operation : DocumentOperation) : Bool :=
  document.entries[operation.key]?.all operation.isNewer

/-- Put an operation in the place of the entry of its key. -/
def put (document : SharedDocument) (operation : DocumentOperation) : Except String SharedDocument := do
  let old := document.entries[operation.key]?.elim 0 DocumentOperation.size
  let next ← okOr (checkedAdd (document.bytes - old) operation.size) "document byte count overflow"
  rejectIf (next > maxDocumentBytes) "document byte quota exceeded"
  return { document with
    bytes := next
    entries := document.entries.insert operation.key operation }

/-- The value of a key. -/
def get (document : SharedDocument) (key : String) : Option (List UInt8) :=
  document.entries[key]?.bind DocumentOperation.value

end SharedDocument

section

variable [HexCodec] [Sha256]

/-- The digest of an operation. -/
def operationId (operation : DocumentOperation) : String :=
  sha256Hex (DocumentOperation.codec.toJson operation).bytes

namespace SharedDocument

/-- Apply an operation. It is answered whether the operation shows; a call that fails changes
nothing. -/
def apply (document : SharedDocument) (operation : DocumentOperation) :
    Except String (Bool × SharedDocument) := do
  validateOperation operation document.documentId
  let identity := operationId operation
  if identity ∈ document.seen then
    return (false, document)
  else
    rejectIf (document.seen.card ≥ maxDocumentOperations) "document operation limit exceeded"
    if document.replaces operation then
      let document ← document.put operation
      return (true, { document with seen := insert identity document.seen })
    else
      return (false, { document with seen := insert identity document.seen })

/-- Apply operations up to the first that fails. What was applied before stays. -/
def applyAll (document : SharedDocument) : List DocumentOperation → Except String Unit × SharedDocument
  | [] => (.ok (), document)
  | operation :: rest =>
    match document.apply operation with
    | .error error => (.error error, document)
    | .ok (_, document) => document.applyAll rest

/-- Apply the entries of another replica. -/
def merge (document other : SharedDocument) : Except String Unit × SharedDocument :=
  if document.documentId ≠ other.documentId then
    (.error "cannot merge different documents", document)
  else document.applyAll (other.entries.toList.map Prod.snd)

end SharedDocument

end

end CartridgeRuntime.Network
