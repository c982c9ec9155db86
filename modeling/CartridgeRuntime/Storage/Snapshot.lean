import CartridgeRuntime.Storage.Disk

/-!
# Snapshots

A snapshot is a portable copy of a namespace: its payload and the digest of the payload. Whatever
its origin, its entries are only handed out after `validate` has checked the digest and every
entry, and for the cartridge that the snapshot belongs to.
-/

namespace CartridgeRuntime.Storage

open Checked Std Encoding

def snapshotFormatVersion : Nat := 3

/-- The contents of a snapshot. -/
structure SnapshotPayload where
  formatVersion : Nat
  cartridgeId : String
  stateSchema : UInt32
  stateRevision : Nat
  entries : ExtTreeMap String String

/-- A snapshot, with a digest of its contents. -/
structure StorageSnapshot where
  payload : SnapshotPayload
  payloadSha256 : String

/-- The document of a payload. A schema or revision of 0 is left out. -/
def SnapshotPayload.document (payload : SnapshotPayload) : Json :=
  .obj ([("format_version", .num payload.formatVersion), ("cartridge_id", .str payload.cartridgeId)]
    ++ (if payload.stateSchema = 0 then []
        else [("state_schema", .num payload.stateSchema.toNat)])
    ++ (if payload.stateRevision = 0 then [] else [("state_revision", .num payload.stateRevision)])
    ++ [("entries", .obj (payload.entries.toList.map fun entry => (entry.1, .str entry.2)))])

instance : ToJson SnapshotPayload := ⟨SnapshotPayload.document⟩

/-- The errors of a snapshot name the key. -/
def snapshotErrors : EntryErrors where
  invalidKey key := "snapshot contains invalid key " ++ debugText key
  oversized key := "snapshot value for " ++ debugText key ++ " exceeds the value limit"
  invalidValue key error := "snapshot value for " ++ debugText key ++ " is invalid: " ++ error
  overflow := "snapshot usage overflowed"
  budget := "snapshot exceeds the global storage budget"

namespace StorageSnapshot

section

variable [HexCodec]

/-- The entries of a snapshot. -/
def decodeEntries (snapshot : StorageSnapshot) : Except Error Entries := do
  rejectIf (snapshot.payload.entries.size > maxStorageKeys)
    (.corrupt "snapshot contains too many keys")
  let (entries, _) ← snapshot.payload.entries.toList.foldlM (decodeEntry snapshotErrors) (∅, 0)
  pure entries

variable [Sha256]

def payloadDigest (payload : SnapshotPayload) : String :=
  sha256Hex (encode payload)

/-- Check a snapshot. -/
def validate (snapshot : StorageSnapshot) : Except Error Unit := do
  rejectIf (¬ (snapshot.payload.formatVersion = 1 ∨ snapshot.payload.formatVersion = 2
      ∨ snapshot.payload.formatVersion = snapshotFormatVersion))
    (.corrupt ("unsupported snapshot format " ++ toString snapshot.payload.formatVersion
      ++ "; expected 1, 2, or 3"))
  rejectIf (snapshot.payload.formatVersion = 1 ∧ snapshot.payload.stateSchema ≠ 0)
    (.corrupt "snapshot format 1 cannot declare a state schema")
  rejectIf (snapshot.payload.formatVersion < snapshotFormatVersion
      ∧ snapshot.payload.stateRevision ≠ 0)
    (.corrupt "snapshot formats 1 and 2 cannot declare a state revision")
  mapError (fun _ => .corrupt "snapshot has an invalid cartridge id")
    (validateNamespace snapshot.payload.cartridgeId)
  rejectIf (snapshot.payloadSha256 ≠ payloadDigest snapshot.payload)
    (.corrupt "snapshot payload digest does not match its contents")
  discard snapshot.decodeEntries

/-- The entries of a snapshot, for the cartridge that they are expected to belong to. -/
def entriesFor (snapshot : StorageSnapshot) (cartridgeId : String) : Except Error Entries := do
  snapshot.validate
  rejectIf (snapshot.payload.cartridgeId ≠ cartridgeId)
    (.snapshotIdentity cartridgeId snapshot.payload.cartridgeId)
  snapshot.decodeEntries

/-- The snapshot of some entries. -/
def fromEntriesWithRevision (cartridgeId : String) (stateSchema : UInt32) (stateRevision : Nat)
    (entries : Entries) : Except Error StorageSnapshot := do
  validateNamespace cartridgeId
  let payload : SnapshotPayload :=
    { formatVersion := snapshotFormatVersion, cartridgeId, stateSchema, stateRevision
      entries := entries.map fun _ value => HexCodec.encode value }
  pure ⟨payload, payloadDigest payload⟩

end

end StorageSnapshot

end CartridgeRuntime.Storage
