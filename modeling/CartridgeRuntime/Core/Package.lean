import CartridgeRuntime.Core.Manifest
import Mathlib.Algebra.BigOperators.Group.List.Basic

/-!
# Opening cartridges

A cartridge is an archive of a manifest, a component and assets. `CartridgeArchive.openBytes` takes it
apart and checks it against its manifest. The ZIP and TOML libraries are parameters.
-/

namespace CartridgeRuntime.Core

open Checked Encoding Network
open Std (ExtTreeMap)

/-! ## Libraries -/

/-- The TOML library on manifests. -/
class TomlManifests where
  /-- The manifest of a text. -/
  parse : String → Except String PackageManifest

/-- An entry of an archive: its name, the size it declares, and what reading it gives. -/
structure ZipEntry where
  name : String
  size : Nat
  content : Except String (List UInt8)

/-- The ZIP library. -/
class ZipLibrary where
  /-- The entries of an archive. -/
  read : List UInt8 → Except String (List ZipEntry)

def archiveError (message : String) : String :=
  "invalid cartridge archive: " ++ message

def tomlDecodeError (message : String) : String :=
  "TOML error: " ++ message

def zipError (message : String) : String :=
  "ZIP error: " ++ message

def ioError (message : String) : String :=
  "I/O error: " ++ message

/-! ## Limits and paths -/

def manifestPath : String := "cartridge.toml"
def componentPath : String := "component.wasm"

/-- How large the parts of a package may be. -/
structure PackageLimits where
  archiveBytes : Nat
  manifestBytes : Nat
  componentBytes : Nat
  assetBytes : Nat
  totalBytes : Nat
  entries : Nat

def PackageLimits.default : PackageLimits where
  archiveBytes := 160 * 1024 * 1024
  manifestBytes := 1024 * 1024
  componentBytes := 32 * 1024 * 1024
  assetBytes := 16 * 1024 * 1024
  totalBytes := 128 * 1024 * 1024
  entries := 1024

/-- A path below a directory; its parts joined again are the path itself. -/
def normalizeRelativePath (path : String) : Except String String := do
  rejectIf (¬ isRelativePath path) (archiveError s!"unsafe relative path: {debugText path}")
  return path

/-- The text of some bytes. -/
def textOf (bytes : List UInt8) : Except String String :=
  okOr (String.fromUTF8? ⟨bytes.toArray⟩) (manifestError "manifest must be UTF-8")

/-- The bytes of a text. -/
def bytesOf (text : String) : List UInt8 :=
  text.toUTF8.data.toList

/-! ## Integrity -/

section

variable [SemverValues] [HexCodec] [Sha256] [TomlManifests] [ZipLibrary]

omit [SemverValues] [TomlManifests] [ZipLibrary] in
/-- The manifest with the digests of the component and the assets. -/
def withIntegrity (manifest : PackageManifest) (component : List UInt8)
    (assets : ExtTreeMap String (List UInt8)) : Except String PackageManifest := do
  let assetsSha256 := assets.map fun _ bytes => sha256Hex bytes
  let assetsRootSha256 ← assetIntegrityRoot assetsSha256
  return { manifest with
    integrity := { componentSha256 := sha256Hex component, assetsSha256, assetsRootSha256 } }

/-- The manifest that is packed, before its digests are set. -/
def readManifest (bytes : List UInt8) : Except String PackageManifest := do
  let text ← textOf bytes
  let manifest ← mapError tomlDecodeError (TomlManifests.parse text)
  manifest.validate
  return manifest

/-! ## Opening -/

/-- A package that was opened. -/
structure CartridgeArchive where
  packageSha256 : String
  packageBytes : Nat
  manifest : PackageManifest
  component : List UInt8
  assets : ExtTreeMap String (List UInt8)

section

omit [SemverValues] [HexCodec] [Sha256] [TomlManifests] [ZipLibrary]

/-- The ZIP library takes a name with a separator at its end for a directory. -/
def isDirectory (name : String) : Bool :=
  name.toList.getLast? = some '/' ∨ name.toList.getLast? = some '\\'

/-- The limit of the entry with a name. -/
def entryLimit (limits : PackageLimits) (name : String) : Except String Nat :=
  if name = manifestPath then .ok limits.manifestBytes
  else if name = componentPath then .ok limits.componentBytes
  else if "assets/".toList <+: name.toList then .ok limits.assetBytes
  else .error (archiveError s!"unexpected archive entry: {name}")

/-- Read an entry up to a limit. -/
def readBoundedEntry (entry : ZipEntry) (limit : Nat) (name : String) :
    Except String (List UInt8) := do
  let content ← mapError ioError entry.content
  let bytes := content.take (limit + 1)
  rejectIf (bytes.length > limit)
    (archiveError s!"archive entry exceeded its decompressed size limit: {name}")
  rejectIf (bytes.length ≠ entry.size)
    (archiveError s!"archive entry size does not match its contents: {name}")
  return bytes

/-- One entry; the state is the entries so far and their size. -/
def readEntry (limits : PackageLimits) (state : ExtTreeMap String (List UInt8) × Nat)
    (entry : ZipEntry) : Except String (ExtTreeMap String (List UInt8) × Nat) := do
  let (entries, totalSize) := state
  if isDirectory entry.name then
    return state
  else
    let name ← normalizeRelativePath entry.name
    rejectIf (name ∈ entries) (archiveError s!"duplicate archive entry: {name}")
    let limit ← entryLimit limits name
    rejectIf (entry.size > limit) (archiveError s!"archive entry is too large: {name}")
    let remaining := limits.totalBytes - totalSize
    rejectIf (entry.size > remaining)
      (archiveError "archive exceeds the total uncompressed size limit")
    let bytes ← readBoundedEntry entry (min limit remaining) name
    let totalSize ← okOr (checkedAdd totalSize bytes.length) (archiveError "archive size overflow")
    return (entries.insert name bytes, totalSize)

end

section

omit [SemverValues] [TomlManifests] [ZipLibrary]

/-- The component has its digest. -/
def verifyComponent (manifest : PackageManifest) (component : List UInt8) :
    Except String Unit := do
  rejectIf (manifest.integrity.componentSha256 = "") (integrityError "component digest is missing")
  let actual := sha256Hex component
  rejectIf (¬ eqIgnoreAsciiCase actual manifest.integrity.componentSha256)
    (integrityError (s!"component digest mismatch: expected "
      ++ s!"{manifest.integrity.componentSha256}, got {actual}"))

/-- The assets are those of the manifest. -/
def verifyAssets (manifest : PackageManifest) (assets : ExtTreeMap String (List UInt8)) :
    Except String Unit := do
  let declared := manifest.integrity.assetsSha256
  if manifest.integrity.assetsRootSha256 ≠ "" then
    let actual ← assetIntegrityRoot declared
    rejectIf (¬ eqIgnoreAsciiCase actual manifest.integrity.assetsRootSha256)
      (integrityError "asset integrity root does not match the manifest")
  rejectIf (declared.size ≠ assets.size)
    (integrityError (s!"asset digest set contains {declared.size} entries but the package "
      ++ s!"contains {assets.size} assets"))
  assets.toList.forM fun (path, bytes) => do
    let expected ← okOr declared[path]? (integrityError s!"asset digest is missing: {path}")
    let actual := sha256Hex bytes
    rejectIf (¬ eqIgnoreAsciiCase actual expected)
      (integrityError s!"asset digest mismatch for {path}: expected {expected}, got {actual}")

end

omit [SemverValues] [HexCodec] [Sha256] [TomlManifests] [ZipLibrary] in
/-- The path of an asset from the name of its entry. -/
def assetEntry (entry : String × List UInt8) : Except String (String × List UInt8) := do
  rejectIf (¬ "assets/".toList <+: entry.1.toList)
    (archiveError s!"unexpected archive entry: {entry.1}")
  return (String.ofList (entry.1.toList.drop 7), entry.2)

/-- Open the bytes of a package within limits. -/
def CartridgeArchive.openWithin (limits : PackageLimits) (bytes : List UInt8) :
    Except String CartridgeArchive := do
  rejectIf (bytes.length = 0 ∨ bytes.length > limits.archiveBytes)
    (archiveError s!"archive byte length must be between 1 and {limits.archiveBytes}")
  let zip ← mapError zipError (ZipLibrary.read bytes)
  rejectIf (zip.length > limits.entries)
    (archiveError s!"archive contains {zip.length} entries; maximum is {limits.entries}")
  let (entries, _) ← zip.foldlM (readEntry limits) (∅, 0)
  let manifestBytes ← okOr entries[manifestPath]? (archiveError s!"missing {manifestPath}")
  let entries := entries.erase manifestPath
  let manifest ← readManifest manifestBytes
  let component ← okOr entries[componentPath]? (archiveError s!"missing {componentPath}")
  let entries := entries.erase componentPath
  verifyComponent manifest component
  let assets ← entries.toList.mapM assetEntry
  let assets := ExtTreeMap.ofList assets
  verifyAssets manifest assets
  return {
    packageSha256 := sha256Hex bytes, packageBytes := bytes.length, manifest, component, assets }

/-- Open a package. -/
def CartridgeArchive.openBytes (bytes : List UInt8) : Except String CartridgeArchive :=
  openWithin .default bytes

end

/-! A library for concrete packages. -/

/-- A TOML library that knows a few texts. -/
@[reducible] def tableToml (table : List (String × PackageManifest)) : TomlManifests where
  parse text := okOr (table.lookup text) "unknown text"

end CartridgeRuntime.Core
