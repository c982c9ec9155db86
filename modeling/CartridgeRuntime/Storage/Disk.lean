import CartridgeRuntime.Library.Hex
import CartridgeRuntime.Storage.Memory

/-!
# State files

The durable form of a namespace: a directory of generation files. Each file is a JSON envelope of a
payload and the digest of the payload. `commitState` writes the next generation and prunes the old
ones, `readState` reads one generation and checks it, and `loadState` reads all of them.

The JSON reader, the hexadecimal codec and the hash function are parameters: the results hold for
all that keep what the three classes promise. File operations succeed.
-/

namespace CartridgeRuntime.Storage

open Checked Std Encoding

def diskFormatVersion : Nat := 2
def retainedGenerations : Nat := 2
def maxStateFileBytes : Nat := 144 * 1024 * 1024

/-- A generation of a namespace. -/
structure State where
  generation : Nat := 0
  schema : UInt32 := 0
  entries : Entries := ∅
  usage : StorageUsage := ⟨0, 0⟩

/-- The contents of a generation file. -/
structure DiskPayload where
  formatVersion : Nat
  name : String
  generation : Nat
  stateSchema : UInt32
  entries : ExtTreeMap String String

/-- A generation file, with a digest of its contents. -/
structure DiskEnvelope where
  payload : DiskPayload
  payloadSha256 : String

/-- The document of a payload. A schema of 0 is left out. -/
def DiskPayload.document (payload : DiskPayload) : Json :=
  .obj ([("format_version", .num payload.formatVersion), ("namespace", .str payload.name),
      ("generation", .num payload.generation)]
    ++ (if payload.stateSchema = 0 then []
        else [("state_schema", .num payload.stateSchema.toNat)])
    ++ [("entries", .obj (payload.entries.toList.map fun entry => (entry.1, .str entry.2)))])

instance : ToJson DiskPayload := ⟨DiskPayload.document⟩

instance : ToJson DiskEnvelope where
  toJson envelope :=
    .obj [("payload", toJson envelope.payload), ("payload_sha256", .str envelope.payloadSha256)]

/-- The name of a generation's file: its number with twenty digits. -/
def stateFileName (generation : Nat) : String :=
  "state-" ++ String.ofList ((decimal generation).leftpad 20 '0') ++ ".json"

/-- The files of a namespace directory: the generation files by their number, and the contents of
the pending files. -/
structure NamespaceDirectory where
  generations : ExtTreeMap Nat (List UInt8) := ∅
  pending : List (List UInt8) := []

/-! ## Reading -/

section

variable [HexCodec]

/-- The texts of the errors of a loop over encoded entries. -/
structure EntryErrors where
  invalidKey : String → String
  oversized : String → String
  invalidValue : String → String → String
  overflow : String
  budget : String

/-- One turn of a loop over encoded entries: the key and the value of an entry are checked, and the
entry is added to those read so far. State files and snapshots are read with this loop. -/
def decodeEntry (errors : EntryErrors) (loaded : Entries × Nat) (entry : String × String) :
    Except Error (Entries × Nat) := do
  mapError (fun _ => .corrupt (errors.invalidKey entry.1)) (validateKey entry.1)
  rejectIf (entry.2.utf8ByteSize > maxStorageValueBytes * 2) (.corrupt (errors.oversized entry.1))
  let value ← mapError (fun error => .corrupt (errors.invalidValue entry.1 error))
    (HexCodec.decode entry.2)
  let bytes ← okOr (checkedAdd loaded.2 value.length) (.corrupt errors.overflow)
  rejectIf (bytes > maxStorageBytes) (.corrupt errors.budget)
  pure (loaded.1.insert entry.1 value, bytes)

/-- The errors of a state file name its path. -/
def stateFileErrors (path : String) : EntryErrors where
  invalidKey _ := s!"{path} contains an invalid key"
  oversized _ := s!"{path} contains an oversized value"
  invalidValue _ error := s!"{path} contains invalid value data: {error}"
  overflow := s!"{path} has overflowing usage"
  budget := s!"{path} exceeds the global storage budget"

/-- The state in a payload whose identity has been checked. -/
def readPayload (path : String) (generation : Nat) (payload : DiskPayload) : Except Error State := do
  rejectIf (payload.entries.size > maxStorageKeys) (.corrupt s!"{path} contains too many keys")
  let (entries, bytes) ←
    payload.entries.toList.foldlM (decodeEntry (stateFileErrors path)) (∅, 0)
  pure { generation, schema := payload.stateSchema, entries, usage := ⟨bytes, entries.size⟩ }

variable [Sha256] [FromJson DiskEnvelope]

/-- Read one generation from the bytes of its file. -/
def readState (path : String) (bytes : List UInt8) (name : String) (generation : Nat) :
    Except Error State := do
  rejectIf (bytes.length > maxStateFileBytes)
    (.corrupt s!"{path} exceeds the state file size limit")
  let envelope : DiskEnvelope ←
    mapError (fun error => .corrupt s!"{path} is not valid JSON: {error}") (fromSlice bytes)
  rejectIf (envelope.payloadSha256 ≠ sha256Hex (encode envelope.payload))
    (.corrupt s!"{path} has a mismatched payload digest")
  rejectIf (¬ (envelope.payload.formatVersion = 1 ∨ envelope.payload.formatVersion = diskFormatVersion)
      ∨ envelope.payload.name ≠ name ∨ envelope.payload.generation ≠ generation
      ∨ (envelope.payload.formatVersion = 1 ∧ envelope.payload.stateSchema ≠ 0))
    (.corrupt s!"{path} has mismatched state identity")
  readPayload path generation envelope.payload

/-- The path of a generation's file. -/
def stateFilePath (directory : String) (generation : Nat) : String :=
  directory ++ "/" ++ stateFileName generation

/-- One turn of the loop of `loadState`. -/
def loadGeneration (directory name : String) (latest : State) (file : Nat × List UInt8) :
    Except Error State := do
  let state ← readState (stateFilePath directory file.1) file.2 name file.1
  pure (if file.1 ≥ latest.generation then state else latest)

/-- The newest generation of a directory. Every generation file has to be valid. -/
def loadState (directory name : String) (files : NamespaceDirectory) : Except Error State :=
  files.generations.toList.foldlM (loadGeneration directory name) {}

end

/-! ## Writing -/

namespace NamespaceDirectory

/-- Remove the pending files. -/
def cleanupPending (files : NamespaceDirectory) : NamespaceDirectory :=
  { files with pending := [] }

/-- Create a pending file with its contents. -/
def createPending (files : NamespaceDirectory) (contents : List UInt8) : NamespaceDirectory :=
  { files with pending := contents :: files.pending }

/-- Rename the newest pending file to a generation's file. -/
def renamePending (files : NamespaceDirectory) (generation : Nat) : NamespaceDirectory :=
  match files.pending with
  | [] => files
  | contents :: pending => ⟨files.generations.insert generation contents, pending⟩

/-- Remove a generation file. -/
def removeGeneration (files : NamespaceDirectory) (generation : Nat) : NamespaceDirectory :=
  { files with generations := files.generations.erase generation }

/-- Remove all generations but the newest two. -/
def pruneGenerations (files : NamespaceDirectory) : NamespaceDirectory :=
  (files.generations.keys.take (files.generations.size - retainedGenerations)).foldl
    removeGeneration files

end NamespaceDirectory

section

variable [HexCodec] [Sha256]

/-- The payload that a state is written as. -/
def State.payload (state : State) (name : String) : DiskPayload where
  formatVersion := diskFormatVersion
  name := name
  generation := state.generation
  stateSchema := state.schema
  entries := state.entries.map fun _ value => HexCodec.encode value

/-- The envelope that a state is written as. -/
def State.envelope (state : State) (name : String) : DiskEnvelope where
  payload := state.payload name
  payloadSha256 := sha256Hex (encode (state.payload name))

/-- Write a state as the next generation. -/
def commitState (files : NamespaceDirectory) (name : String) (state : State) :
    Except Error NamespaceDirectory := do
  let generation ← okOr (checkedAdd state.generation 1) (.corrupt "storage generation overflowed")
  let state := { state with generation }
  let files := files.createPending (encode (state.envelope name))
  let files := files.renamePending generation
  pure files.pruneGenerations

end

end CartridgeRuntime.Storage
