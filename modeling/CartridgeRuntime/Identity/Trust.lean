import CartridgeRuntime.Core.Manifest
import CartridgeRuntime.Library.PrettyJson

/-!
# Signatures and the trust store

A package is signed by a developer key, and a trust store says whose signatures are accepted: the
keys that were trusted, rotated to a successor, or revoked. A store is checked as a whole before it
is consulted. The signature scheme and the container of a package are left to parameters, as the
source leaves them to libraries.
-/

namespace CartridgeRuntime.Identity

open Checked CartridgeRuntime.Core Encoding Std

def signatureFormatVersion : Nat := 1

def trustFormatVersion : Nat := 1

def maxPackageBytes : Nat := 160 * 1024 * 1024

/-! ## What the source leaves to libraries -/

/-- A signature scheme with secrets and keys of 32 bytes and signatures of 64. -/
class Ed25519 where
  /-- The public key of a secret. -/
  publicKey : List UInt8 → List UInt8
  /-- The signature of a message. -/
  sign : List UInt8 → List UInt8 → List UInt8
  /-- The bytes are a public key. -/
  isKey : List UInt8 → Bool
  /-- A key accepts the signature of a message. -/
  verify : List UInt8 → List UInt8 → List UInt8 → Bool
  /-- A public key has 32 bytes. -/
  length_publicKey (secret : List UInt8) : (publicKey secret).length = 32

/-- The reading of a package: its container, its entries and its manifest. -/
class ArchiveReader where
  /-- The manifest of a package that is well formed. -/
  readManifest : List UInt8 → Except String PackageManifest

/-! ## Documents -/

/-- What a signature of a package is about. -/
structure PackageIdentity where
  cartridgeId : String
  version : String
  packageSha256 : String
  packageBytes : UInt64
  componentSha256 : String
  assetsRootSha256 : String
deriving DecidableEq, Repr

/-- A signature of a package. -/
structure PackageSignature where
  formatVersion : Nat
  algorithm : String
  keyId : String
  publicKey : String
  identity : PackageIdentity
  signature : String
deriving DecidableEq, Repr

/-- A key that is trusted, and the keys that may revoke it. -/
structure TrustEntry where
  keyId : String
  publicKey : String
  label : String
  recoveryKeys : Finset String
deriving DecidableEq

/-- A key that replaces another one, signed by both. -/
structure KeyRotation where
  formatVersion : Nat
  oldKeyId : String
  oldPublicKey : String
  newKeyId : String
  newPublicKey : String
  reason : String
  oldSignature : String
  newSignature : String
deriving DecidableEq, Repr

/-- The revocation of a key, signed by itself or a recovery key. -/
structure RevocationRecord where
  formatVersion : Nat
  revokedKeyId : String
  signerPublicKey : String
  reason : String
  signature : String
deriving DecidableEq, Repr

/-- The keys that are trusted, revoked and rotated. -/
structure TrustStore where
  formatVersion : Nat
  trusted : ExtTreeMap String TrustEntry
  revoked : ExtTreeMap String RevocationRecord
  rotations : List KeyRotation
deriving DecidableEq

/-- A store that trusts nobody. -/
def TrustStore.new : TrustStore where
  formatVersion := trustFormatVersion
  trusted := ∅
  revoked := ∅
  rotations := []

section

open Codec Fields

theorem assetsRoot_follows_component : ∀ name ∈ (required "assets_root_sha256" string).names,
    name ∉ (required "component_sha256" string).optional := by
  decide

def PackageIdentity.codec : Codec PackageIdentity :=
  (member "cartridge_id" string <| member "version" string <| member "package_sha256" string <|
    member "package_bytes" word <|
    (required "component_sha256" string).followedBy (required "assets_root_sha256" string)
      assetsRoot_follows_component).record
    (fun ⟨a, b, c, d, e, f⟩ => (a, b, c, d, e, f))
    (fun (a, b, c, d, e, f) => ⟨a, b, c, d, e, f⟩) fun _ => rfl

def PackageSignature.codec : Codec PackageSignature :=
  (member "format_version" natural <| member "algorithm" string <| member "key_id" string <|
    member "public_key" string <| member "identity" PackageIdentity.codec <|
    required "signature" string).record
    (fun ⟨a, b, c, d, e, f⟩ => (a, b, c, d, e, f))
    (fun (a, b, c, d, e, f) => ⟨a, b, c, d, e, f⟩) fun _ => rfl

def TrustEntry.codec : Codec TrustEntry :=
  (member "key_id" string <| member "public_key" string <| member "label" string <|
    required "recovery_keys" texts).record
    (fun ⟨a, b, c, d⟩ => (a, b, c, d)) (fun (a, b, c, d) => ⟨a, b, c, d⟩) fun _ => rfl

def KeyRotation.codec : Codec KeyRotation :=
  (member "format_version" natural <| member "old_key_id" string <|
    member "old_public_key" string <| member "new_key_id" string <|
    member "new_public_key" string <| member "reason" string <| member "old_signature" string <|
    required "new_signature" string).record
    (fun ⟨a, b, c, d, e, f, g, h⟩ => (a, b, c, d, e, f, g, h))
    (fun (a, b, c, d, e, f, g, h) => ⟨a, b, c, d, e, f, g, h⟩) fun _ => rfl

def RevocationRecord.codec : Codec RevocationRecord :=
  (member "format_version" natural <| member "revoked_key_id" string <|
    member "signer_public_key" string <| member "reason" string <|
    required "signature" string).record
    (fun ⟨a, b, c, d, e⟩ => (a, b, c, d, e)) (fun (a, b, c, d, e) => ⟨a, b, c, d, e⟩) fun _ => rfl

def TrustStore.codec : Codec TrustStore :=
  (member "format_version" natural <| member "trusted" TrustEntry.codec.textMap <|
    member "revoked" RevocationRecord.codec.textMap <|
    required "rotations" KeyRotation.codec.list).record
    (fun ⟨a, b, c, d⟩ => (a, b, c, d)) (fun (a, b, c, d) => ⟨a, b, c, d⟩) fun _ => rfl

end

/-! ## Checks -/

/-- Check a digest. -/
def validateDigest (value label : String) : Except String Unit :=
  rejectIf (¬ isSha256 value) s!"{label} is not a SHA-256 digest"

/-- Check a text that people read. -/
def validateLabel (value : String) : Except String Unit :=
  rejectIf (value = "" ∨ byteLength value.toList > 256 ∨ value.toList.any isControl)
    "label is empty, too long, or contains controls"

/-- A message with the domain it belongs to, each after its length. -/
def framedPayload (domain bytes : List UInt8) : List UInt8 :=
  toLeBytes domain.length ++ domain ++ toLeBytes bytes.length ++ bytes

/-- The bytes of a document of texts and numbers. -/
def payloadBytes (members : List (String × Json)) : List UInt8 :=
  utf8 (Json.obj members).compact

section

variable [HexCodec]

/-- The bytes of a hexadecimal text of a given length. -/
def decodeArray (length : Nat) (value label : String) : Except String (List UInt8) := do
  let bytes ← mapError (fun _ => s!"{label} is not hexadecimal") (HexCodec.decode value)
  rejectIf (bytes.length ≠ length) s!"{label} has the wrong length"
  return bytes

variable [Ed25519]

/-- Decode a public key. -/
def verifyingKey (value : String) : Except String (List UInt8) := do
  let bytes ← decodeArray 32 value "public key"
  rejectIf (¬ Ed25519.isKey bytes) "public key is invalid"
  return bytes

/-- Verify a signature of bytes in a domain. -/
def verifyDetached («public» : String) (domain : String) (bytes : List UInt8) (signature : String) :
    Except String Unit := do
  let key ← verifyingKey «public»
  let signature ← decodeArray 64 signature "signature"
  rejectIf (¬ Ed25519.verify key (framedPayload (utf8 domain.toList) bytes) signature)
    "detached signature verification failed"

end

section

variable [HexCodec] [Sha256]

/-- The id of a key is its digest. -/
def keyId («public» : List UInt8) : String :=
  sha256Hex «public»

end

/-! ## Rotations and revocations -/

def rotationDomain : String := "cartridge-key-rotation-v1"

def revocationDomain : String := "cartridge-key-revocation-v1"

/-- What a rotation signs. -/
def KeyRotation.payload (rotation : KeyRotation) : List UInt8 :=
  payloadBytes [("format_version", .num rotation.formatVersion),
    ("new_key_id", .str rotation.newKeyId), ("new_public_key", .str rotation.newPublicKey),
    ("old_key_id", .str rotation.oldKeyId), ("old_public_key", .str rotation.oldPublicKey),
    ("reason", .str rotation.reason)]

/-- What a revocation signs. -/
def RevocationRecord.payload (record : RevocationRecord) : List UInt8 :=
  payloadBytes [("format_version", .num record.formatVersion), ("reason", .str record.reason),
    ("revoked_key_id", .str record.revokedKeyId),
    ("signer_public_key", .str record.signerPublicKey)]

section

variable [HexCodec] [Ed25519]

/-- The signature of a developer key, given by its secret. -/
def signBytes (secret : List UInt8) (domain : String) (bytes : List UInt8) : String :=
  HexCodec.encode (Ed25519.sign secret (framedPayload (utf8 domain.toList) bytes))

/-- Verify both signatures of a rotation. -/
def KeyRotation.verify (rotation : KeyRotation) : Except String Unit := do
  rejectIf (rotation.formatVersion ≠ trustFormatVersion ∨ rotation.oldKeyId = rotation.newKeyId)
    "invalid key rotation"
  validateLabel rotation.reason
  verifyDetached rotation.oldPublicKey rotationDomain rotation.payload rotation.oldSignature
  verifyDetached rotation.newPublicKey rotationDomain rotation.payload rotation.newSignature

/-- Verify the signature of a revocation. -/
def RevocationRecord.verify (record : RevocationRecord) : Except String Unit := do
  rejectIf (record.formatVersion ≠ trustFormatVersion) "unsupported revocation format"
  validateDigest record.revokedKeyId "revoked key id"
  validateLabel record.reason
  verifyDetached record.signerPublicKey revocationDomain record.payload record.signature

variable [Sha256]

/-- The id of a developer key. -/
def developerKeyId (secret : List UInt8) : String :=
  keyId (Ed25519.publicKey secret)

/-- Sign a rotation with both keys. -/
def KeyRotation.create (old new : List UInt8) (reason : String) : Except String KeyRotation := do
  validateLabel reason
  let value : KeyRotation :=
    { formatVersion := trustFormatVersion
      oldKeyId := developerKeyId old
      oldPublicKey := HexCodec.encode (Ed25519.publicKey old)
      newKeyId := developerKeyId new
      newPublicKey := HexCodec.encode (Ed25519.publicKey new)
      reason
      oldSignature := ""
      newSignature := "" }
  return { value with
    oldSignature := signBytes old rotationDomain value.payload
    newSignature := signBytes new rotationDomain value.payload }

/-- Sign a revocation. -/
def RevocationRecord.create (revokedKeyId : String) (signer : List UInt8) (reason : String) :
    Except String RevocationRecord := do
  validateDigest revokedKeyId "revoked key id"
  validateLabel reason
  let value : RevocationRecord :=
    { formatVersion := trustFormatVersion
      revokedKeyId
      signerPublicKey := HexCodec.encode (Ed25519.publicKey signer)
      reason
      signature := "" }
  return { value with signature := signBytes signer revocationDomain value.payload }

/-! ## The trust store -/

/-- The entry is kept under the id of its key. -/
def TrustEntry.validate (id : String) (entry : TrustEntry) : Except String Unit := do
  rejectIf (id ≠ entry.keyId) "trust entry identity is invalid"
  let key ← decodeArray 32 entry.publicKey "trusted public key"
  rejectIf (Identity.keyId key ≠ id) "trust entry identity is invalid"
  validateLabel entry.label
  rejectIf (∃ recovery ∈ entry.recoveryKeys, ¬ isSha256 recovery)
    "recovery key id is not a SHA-256 digest"

/-- Check every entry, revocation and rotation of the store. -/
def TrustStore.validate (store : TrustStore) : Except String Unit := do
  rejectIf (store.formatVersion ≠ trustFormatVersion ∨ store.trusted.size > 10000
    ∨ store.revoked.size > 10000 ∨ store.rotations.length > 10000)
    "invalid or oversized trust store"
  store.trusted.toList.forM fun (id, entry) => entry.validate id
  store.revoked.toList.forM fun (id, record) => do
    rejectIf (id ≠ record.revokedKeyId) "revocation index is invalid"
    record.verify
  store.rotations.forM KeyRotation.verify

/-- A public key: 32 bytes. -/
abbrev PublicKey := { bytes : List UInt8 // bytes.length = 32 }

omit [Ed25519] in
/-- Trust a key. The store is returned with the key's id. -/
def TrustStore.trust (store : TrustStore) (publicKey : PublicKey) (label : String)
    (recoveryKeys : Finset String) : Except String (TrustStore × String) := do
  validateLabel label
  rejectIf (∃ recovery ∈ recoveryKeys, ¬ isSha256 recovery)
    "recovery key id is not a SHA-256 digest"
  let id := keyId publicKey.val
  let entry : TrustEntry :=
    { keyId := id, publicKey := HexCodec.encode publicKey.val, label, recoveryKeys }
  return ({ store with trusted := store.trusted.insert id entry }, id)

/-- Replace a key by its successor. The revocations are not consulted. -/
def TrustStore.applyRotation (store : TrustStore) (rotation : KeyRotation) :
    Except String TrustStore := do
  rotation.verify
  let old ← okOr store.trusted[rotation.oldKeyId]? "old rotation key is not trusted"
  rejectIf (old.publicKey ≠ rotation.oldPublicKey) "rotation old key does not match trust store"
  let key ← decodeArray 32 rotation.newPublicKey "new public key"
  rejectIf (keyId key ≠ rotation.newKeyId) "rotation new key id is invalid"
  let entry : TrustEntry :=
    { old with keyId := keyId key, publicKey := rotation.newPublicKey }
  return { store with
    trusted := (store.trusted.erase rotation.oldKeyId).insert (keyId key) entry
    rotations := store.rotations ++ [rotation] }

/-- Revoke a key. It stays among the trusted ones. -/
def TrustStore.applyRevocation (store : TrustStore) (record : RevocationRecord) :
    Except String TrustStore := do
  record.verify
  let trusted ← okOr store.trusted[record.revokedKeyId]? "revoked key is not trusted"
  let signer ← decodeArray 32 record.signerPublicKey "revocation signer"
  rejectIf (keyId signer ≠ record.revokedKeyId ∧ keyId signer ∉ trusted.recoveryKeys)
    "revocation signer is not an authorized recovery key"
  return { store with revoked := store.revoked.insert record.revokedKeyId record }

/-! ## Verification -/

/-- Verify a signature of a key that is trusted and not revoked. -/
def TrustStore.verifyTrustedBytes (store : TrustStore) (id publicKey domain : String)
    (bytes : List UInt8) (signature : String) : Except String Unit := do
  store.validate
  rejectIf (id ∈ store.revoked) "signing key is revoked"
  let trusted ← okOr store.trusted[id]? "signing key is not trusted"
  rejectIf (trusted.publicKey ≠ publicKey) "trusted public key does not match the signature"
  let key ← decodeArray 32 publicKey "public key"
  rejectIf (keyId key ≠ id) "signature key id is invalid"
  verifyDetached publicKey domain bytes signature

variable [Semver]

section

omit [HexCodec] [Ed25519] [Sha256]

/-- Check the digests of an identity. -/
def validateSignatureIdentity (identity : PackageIdentity) : Except String Unit := do
  validateDigest identity.packageSha256 "package digest"
  validateDigest identity.componentSha256 "component digest"
  if identity.assetsRootSha256 ≠ "" then
    validateDigest identity.assetsRootSha256 "asset root digest"
  rejectIf (identity.packageBytes = 0 ∨ identity.packageBytes.toNat > maxPackageBytes)
    "signed package byte length is invalid"
  rejectIf (¬ Semver.isVersion identity.version) "signed package version is invalid"

/-- Check the fields of a signature. -/
def validateSignatureDocument (value : PackageSignature) : Except String Unit := do
  rejectIf (value.formatVersion ≠ signatureFormatVersion ∨ value.algorithm ≠ "ed25519")
    "unsupported package signature format"
  validateSignatureIdentity value.identity

end

omit [Ed25519] [Semver] in
/-- What a signature of a package signs. -/
def packageSignaturePayload (identity : PackageIdentity) (bytes : List UInt8) :
    Except String (List UInt8) := do
  rejectIf (identity.packageSha256 ≠ sha256Hex bytes
    ∨ identity.packageBytes ≠ UInt64.ofNat bytes.length) "package identity does not match bytes"
  return framedPayload (utf8 "cartridge-package-signature-v1".toList)
    (utf8 (PackageIdentity.codec.toJson identity).compact)

/-- Verify a signature of a package with the key that it names. -/
def verifyPackageBytes (bytes : List UInt8) (identity : PackageIdentity)
    (signature : PackageSignature) : Except String Unit := do
  validateSignatureDocument signature
  rejectIf (signature.identity ≠ identity) "signed package identity does not match the package"
  let key ← verifyingKey signature.publicKey
  rejectIf (keyId key ≠ signature.keyId) "signature key id does not match its public key"
  let value ← decodeArray 64 signature.signature "signature"
  let payload ← packageSignaturePayload identity bytes
  rejectIf (¬ Ed25519.verify key payload value) "package signature verification failed"

variable [ArchiveReader]

omit [Ed25519] [Semver] in
/-- The identity of a package. -/
def packageIdentity (bytes : List UInt8) : Except String PackageIdentity := do
  let manifest ← ArchiveReader.readManifest bytes
  return {
    cartridgeId := manifest.cartridge.id
    version := manifest.cartridge.version
    packageSha256 := sha256Hex bytes
    packageBytes := UInt64.ofNat bytes.length
    componentSha256 := manifest.integrity.componentSha256
    assetsRootSha256 := manifest.integrity.assetsRootSha256 }

omit [Semver] in
/-- Sign a package. -/
def signPackage (secret bytes : List UInt8) : Except String PackageSignature := do
  let identity ← packageIdentity bytes
  let payload ← packageSignaturePayload identity bytes
  return {
    formatVersion := signatureFormatVersion
    algorithm := "ed25519"
    keyId := developerKeyId secret
    publicKey := HexCodec.encode (Ed25519.publicKey secret)
    identity
    signature := HexCodec.encode (Ed25519.sign secret payload) }

/-- Verify the signature of a package by a key that is trusted and not revoked. -/
def TrustStore.verifyBytes (store : TrustStore) (bytes : List UInt8)
    (signature : PackageSignature) : Except String PackageIdentity := do
  store.validate
  rejectIf (signature.keyId ∈ store.revoked) "package signing key is revoked"
  let trusted ← okOr store.trusted[signature.keyId]? "package signing key is not trusted"
  rejectIf (trusted.publicKey ≠ signature.publicKey)
    "trusted public key does not match the signature"
  let identity ← packageIdentity bytes
  verifyPackageBytes bytes identity signature
  return identity

end

/-! ## A small scheme -/

/-- A scheme whose signatures name the key and the head of the message. -/
@[reducible] def headScheme : Ed25519 where
  publicKey := head32
  sign secret message := head32 secret ++ head32 message
  isKey bytes := bytes.length == 32
  verify key message signature := signature == key ++ head32 message
  length_publicKey := length_head32

/-- A reader that finds the same cartridge in every package. -/
@[reducible] def demoReader : ArchiveReader where
  readManifest _ := .ok
    { cartridge := { id := "dev.test.signed", name := "Signed", version := "1.0.0" }
      integrity := { componentSha256 :=
        "0000000000000000000000000000000000000000000000000000000000000000" } }

end CartridgeRuntime.Identity
