import CartridgeRuntime.Identity.Files
import CartridgeRuntime.Identity.Trust

/-!
# The package registry

A registry has an index of the published versions and a log in which every entry names the hash of
the one before it. `publish` verifies a package, stores it under its digest, extends the index and
the log in memory and replaces the index on disk; the in-memory part is not undone when one of the
last steps fails. What a call reads from its surroundings is an argument.
-/

namespace CartridgeRuntime.Identity

open Checked CartridgeRuntime.Core Encoding Stateful Std

def registryFormatVersion : Nat := 1

def maxRegistryVersions : Nat := 100000

def maxTransparencyEntries : Nat := 100000

/-! ## Documents -/

/-- A version of a package in the index. -/
structure RegistryVersion where
  identity : PackageIdentity
  keyId : String
  publishedAtMs : UInt64
  dependencies : List String
  capabilities : List String
deriving DecidableEq, Repr

/-- An entry of the log, linked to the one before by its digest. -/
structure TransparencyEntry where
  sequence : UInt64
  cartridgeId : String
  version : String
  packageSha256 : String
  keyId : String
  previousSha256 : String
  entrySha256 : String
deriving DecidableEq, Repr

/-- The versions of all packages and the log of their publications. -/
structure RegistryIndex where
  formatVersion : Nat := registryFormatVersion
  packages : ExtTreeMap String (ExtTreeMap String RegistryVersion) := ∅
  transparency : List TransparencyEntry := []
deriving DecidableEq

section

open Codec Fields

def RegistryVersion.codec : Codec RegistryVersion :=
  (member "identity" PackageIdentity.codec <| member "key_id" string <|
    member "published_at_ms" word <| member "dependencies" string.list <|
    required "capabilities" string.list).record
    (fun ⟨a, b, c, d, e⟩ => (a, b, c, d, e)) (fun (a, b, c, d, e) => ⟨a, b, c, d, e⟩) fun _ => rfl

def TransparencyEntry.codec : Codec TransparencyEntry :=
  (member "sequence" word <| member "cartridge_id" string <| member "version" string <|
    member "package_sha256" string <| member "key_id" string <| member "previous_sha256" string <|
    required "entry_sha256" string).record
    (fun ⟨a, b, c, d, e, f, g⟩ => (a, b, c, d, e, f, g))
    (fun (a, b, c, d, e, f, g) => ⟨a, b, c, d, e, f, g⟩) fun _ => rfl

def RegistryIndex.codec : Codec RegistryIndex :=
  (member "format_version" natural <| member "packages" RegistryVersion.codec.textMap.textMap <|
    required "transparency" TransparencyEntry.codec.list).record
    (fun ⟨a, b, c⟩ => (a, b, c)) (fun (a, b, c) => ⟨a, b, c⟩) fun _ => rfl

end

/-- An open registry: the index in memory and the files of the directory. -/
structure Registry where
  index : RegistryIndex := {}
  directory : Directory RegistryIndex := {}

/-- A call on an open registry. -/
abbrev RegistryM := EStateM String Registry

/-! ## The index -/

/-- The number of versions of all packages. -/
def RegistryIndex.versionCount (index : RegistryIndex) : Nat :=
  (index.packages.toList.map fun (_, versions) => versions.size).sum

/-- A version of a package. -/
def RegistryIndex.find? (index : RegistryIndex) (id version : String) : Option RegistryVersion :=
  index.packages[id]?.bind fun versions => versions[version]?

/-- The index with another version. -/
def RegistryIndex.insert (index : RegistryIndex) (published : RegistryVersion) : RegistryIndex :=
  let id := published.identity.cartridgeId
  let versions := index.packages[id]?.getD ∅
  { index with
    packages := index.packages.insert id (versions.insert published.identity.version published) }

theorem RegistryIndex.find?_insert (index : RegistryIndex) (published : RegistryVersion) :
    (index.insert published).find? published.identity.cartridgeId published.identity.version
      = some published := by
  simp [find?, insert]

/-- The hash that the first entry of a log names. -/
def zeroDigest : String :=
  "0000000000000000000000000000000000000000000000000000000000000000"

/-- What an entry of the log says of a version. -/
abbrev LoggedVersion := String × String × String × String

/-- What an entry records. -/
def TransparencyEntry.logged (entry : TransparencyEntry) : LoggedVersion :=
  (entry.cartridgeId, entry.version, entry.packageSha256, entry.keyId)

section

variable [HexCodec] [Sha256]

/-- The digest of an entry without its own digest. -/
def transparencyHash (entry : TransparencyEntry) : String :=
  sha256Hex (payloadBytes [("cartridge_id", .str entry.cartridgeId), ("key_id", .str entry.keyId),
    ("package_sha256", .str entry.packageSha256),
    ("previous_sha256", .str entry.previousSha256), ("sequence", .num entry.sequence.toNat),
    ("version", .str entry.version)])

/-- Check one entry of the log, after the hash of the entry before it and what is logged so far. -/
def checkEntry (state : String × Finset LoggedVersion) (item : TransparencyEntry × Nat) :
    Except String (String × Finset LoggedVersion) := do
  let (previous, logged) := state
  let (entry, position) := item
  rejectIf (entry.sequence ≠ UInt64.ofNat position ∨ entry.previousSha256 ≠ previous
    ∨ transparencyHash entry ≠ entry.entrySha256) "transparency log chain is invalid"
  validateDigest entry.packageSha256 "transparency package digest"
  validateDigest entry.keyId "transparency key id"
  rejectIf (entry.logged ∈ logged) "transparency log contains a duplicate entry"
  return (entry.entrySha256, insert entry.logged logged)

variable [Semver]

omit [HexCodec] [Sha256] in
/-- A version is recorded in the log. -/
def checkVersion (logged : Finset LoggedVersion) (id version : String) (value : RegistryVersion) :
    Except String Unit := do
  rejectIf (value.identity.cartridgeId ≠ id ∨ value.identity.version ≠ version
    ∨ (id, version, value.identity.packageSha256, value.keyId) ∉ logged)
    "registry version is not bound to its transparency entry"
  rejectIf (¬ Semver.isVersion version) "registry version is not semantic versioning"
  validateSignatureIdentity value.identity
  validateDigest value.keyId "registry signing key id"

/-- Check the log, and that it records every version. -/
def validateRegistry (index : RegistryIndex) : Except String Unit := do
  rejectIf (index.formatVersion ≠ registryFormatVersion
    ∨ index.versionCount > maxRegistryVersions
    ∨ index.transparency.length > maxTransparencyEntries) "invalid or oversized registry index"
  let (_, logged) ← index.transparency.zipIdx.foldlM checkEntry (zeroDigest, ∅)
  rejectIf (logged.card ≠ index.versionCount)
    "registry index and transparency log do not describe the same version count"
  index.packages.toList.forM fun (id, versions) =>
    versions.toList.forM fun (version, value) => checkVersion logged id version value

/-! ## Opening -/

/-- The file holds an index that is valid. -/
def readsValid (content : FileContent RegistryIndex) : Bool :=
  (content.bind validateRegistry).isOk

/-- Put the backup in the place of an index that is missing or broken. `quarantined` says whether a
broken index was set aside before. -/
def recoverRegistryIndex (directory : Directory RegistryIndex) (quarantined : Bool) :
    Except String (Directory RegistryIndex) :=
  match directory.previous with
  | none => return directory
  | some backup =>
    match directory.current with
    | none => do
      rejectIf (¬ readsValid backup) "registry index recovery backup is invalid"
      return { current := some backup, previous := none }
    | some current => do
      if readsValid current then
        return { current := some current, previous := none }
      rejectIf (¬ readsValid backup) "registry index and recovery backup are invalid"
      rejectIf quarantined "registry recovery quarantine already exists"
      return { current := some backup, previous := none }

/-- The index that a process finds in a directory. -/
def readIndex (directory : Directory RegistryIndex) : Except String RegistryIndex := do
  let index ← directory.current.getD (.ok {})
  validateRegistry index
  return index

/-- Open a registry, after an interrupted replacement is completed. -/
def openRegistry (directory : Directory RegistryIndex) (quarantined : Bool) :
    Except String Registry := do
  let directory ← recoverRegistryIndex directory quarantined
  return { index := ← readIndex directory, directory }

end

/-! ## Publishing -/

/-- What a call of `publish` finds in the directory of objects, and how its writes there end. -/
structure ObjectReadings where
  object : Option (Except String (List UInt8))
  writeObject : Except String Unit
  signatureExists : Bool
  writeSignature : Except String Unit
  archive : Except String PackageManifest

/-- A call of `publish`: the package as it was read, the other arguments, and the readings. -/
structure Publication where
  package : Except String (List UInt8)
  signature : PackageSignature
  trust : TrustStore
  objects : ObjectReadings
  now : Except String UInt64
  disk : ReplaceOutcomes

/-- The permissions that are listed. Those of the network are not. -/
def permissionNames (manifest : PackageManifest) : List String :=
  let permissions := manifest.permissions
  [("clock", permissions.clock), ("random", permissions.random), ("assets", permissions.assets),
    ("storage", permissions.storage), ("graphics", permissions.graphics),
    ("audio", permissions.audio), ("midi", permissions.midi)].filterMap
      fun (name, enabled) => if enabled then some name else none

/-- Store the package under its digest, or find it there. -/
def storeObject (objects : ObjectReadings) (bytes : List UInt8) : Except String Unit :=
  match objects.object with
  | some content => do
    let stored ← content
    rejectIf (stored ≠ bytes) "registry object does not match its content address"
  | none => objects.writeObject

/-- Store the signature, unless there is one. -/
def storeSignature (objects : ObjectReadings) (signature : PackageSignature) :
    Except String Unit := do
  if ¬ objects.signatureExists then
    rejectIf (PackageSignature.codec.prettySize signature > maxIdentityDocumentBytes)
      "identity document exceeds its size limit"
    objects.writeSignature

/-- The entry of a package that was stored. -/
def Publication.store (call : Publication) (identity : PackageIdentity) (bytes : List UInt8) :
    Except String RegistryVersion := do
  storeObject call.objects bytes
  storeSignature call.objects call.signature
  let manifest ← call.objects.archive
  return {
    identity
    keyId := call.signature.keyId
    publishedAtMs := ← call.now
    dependencies := manifest.dependencies.map (·.cartridge)
    capabilities := permissionNames manifest }

section

variable [HexCodec] [Sha256]

/-- The entry that follows a log. -/
def nextEntry (log : List TransparencyEntry) (identity : PackageIdentity) (signingKey : String) :
    TransparencyEntry :=
  let entry : TransparencyEntry :=
    { sequence := UInt64.ofNat log.length
      cartridgeId := identity.cartridgeId
      version := identity.version
      packageSha256 := identity.packageSha256
      keyId := signingKey
      previousSha256 := (log.getLast?.map (·.entrySha256)).getD zeroDigest
      entrySha256 := "" }
  { entry with entrySha256 := transparencyHash entry }

/-- Record a publication. -/
def appendTransparency (identity : PackageIdentity) (signingKey : String) : RegistryM Unit := do
  let log := (← get).index.transparency
  check (rejectIf (log.length ≥ maxTransparencyEntries) "transparency log limit exceeded")
  modify fun registry => { registry with index := { registry.index with
    transparency := log ++ [nextEntry log identity signingKey] } }

variable [Semver]

/-- Replace the file of the index. -/
def save (disk : ReplaceOutcomes) : RegistryM Unit := do
  let index := (← get).index
  check (validateRegistry index)
  focus Registry.directory (fun directory registry => { registry with directory })
    (atomicJsonReplace RegistryIndex.codec index disk)

/-- Enter a version that is not in the index. -/
def enter (published : RegistryVersion) (disk : ReplaceOutcomes) : RegistryM RegistryVersion := do
  modify fun registry => { registry with index := registry.index.insert published }
  appendTransparency published.identity published.keyId
  save disk
  pure published

variable [Ed25519] [ArchiveReader]

/-- Enter a version, unless it is there. -/
def publish (call : Publication) : RegistryM RegistryVersion := do
  let bytes ← check call.package
  let identity ← check (call.trust.verifyBytes bytes call.signature)
  let index := (← get).index
  check (rejectIf (index.versionCount ≥ maxRegistryVersions) "registry version limit exceeded")
  match index.find? identity.cartridgeId identity.version with
  | some existing => do
    check (rejectIf (existing.identity.packageSha256 ≠ identity.packageSha256)
      "registry versions are immutable")
    pure existing
  | none => do
    let published ← check (call.store identity bytes)
    enter published call.disk

end

/-! ## Queries -/

/-- The greatest version that meets a requirement; of equal ones the last. -/
def Registry.resolve [SemverValues] (registry : Registry) (id requirement : String) :
    Except String (Option RegistryVersion) := do
  let requirement ← SemverValues.parseRequirement requirement
  let versions := (registry.index.packages[id]?.getD ∅).toList
  let candidates := versions.filterMap fun (version, value) =>
    match SemverValues.parse version with
    | .ok version =>
      if SemverValues.satisfies requirement version then some (version, value) else none
    | .error _ => none
  return (candidates.foldl (fun best candidate => match best with
    | none => some candidate
    | some best =>
      if SemverValues.order best.1 candidate.1 = .gt then some best else some candidate)
    none).map (·.2)

/-- The log of a registry. -/
def Registry.transparency (registry : Registry) : List TransparencyEntry :=
  registry.index.transparency

/-- The objects that an audit reads: the signature and the package of a digest. -/
structure StoredObjects where
  signature : String → Except String PackageSignature
  package : String → Except String (List UInt8)

section

variable [HexCodec] [Sha256] [Semver] [Ed25519] [ArchiveReader]

/-- The package and the signature of a version are stored and verify. -/
def auditVersion (trust : TrustStore) (stored : StoredObjects) (version : RegistryVersion) :
    Except String Unit := do
  let signature ← stored.signature version.identity.packageSha256
  let bytes ← stored.package version.identity.packageSha256
  let identity ← trust.verifyBytes bytes signature
  rejectIf (identity ≠ version.identity ∨ signature.keyId ≠ version.keyId)
    "registry index does not match a stored signed object"

/-- Verify every stored package. The number of them is returned. -/
def Registry.audit (registry : Registry) (trust : TrustStore) (stored : StoredObjects) :
    Except String Nat := do
  validateRegistry registry.index
  registry.index.packages.toList.forM fun (_, versions) =>
    versions.toList.forM fun (_, version) => auditVersion trust stored version
  return registry.index.versionCount

end

end CartridgeRuntime.Identity
