import CartridgeRuntime.Core.Text
import CartridgeRuntime.Library.Codec

/-!
# Limits and composition locks

The parts of the core crate that a stack plan is made of: the runtime limits of an instance, and the
lock that fixes its packages and their dependencies, with their checks and documents.
-/

namespace CartridgeRuntime.Core

open Checked Encoding

/-! ## Runtime limits -/

/-- The ceilings of what a cartridge may use. -/
def maxFuel : Nat := 1000000000000
def maxMemoryBytes : Nat := 256 * 1024 * 1024
def maxTimeoutMs : Nat := 5 * 60 * 1000
def maxStorageBytes : Nat := 64 * 1024 * 1024
def maxStorageKeys : Nat := 100000
def maxStorageValueBytes : Nat := 8 * 1024 * 1024
def maxGraphicsPixels : Nat := 4 * 1024 * 1024
def maxGraphicsCommands : Nat := 32768
def maxAudioNodes : Nat := 128
def maxAudioEvents : Nat := 65536
def maxAudioFrames : Nat := 48000 * 30

/-- What a cartridge may use. -/
structure RuntimeLimits where
  fuel : Nat
  memoryBytes : Nat
  timeoutMs : Nat
  storageBytes : Nat
  storageKeys : Nat
  storageValueBytes : Nat
  graphicsPixels : Nat
  graphicsCommands : Nat
  audioNodes : Nat
  audioEvents : Nat
  audioFrames : Nat
deriving DecidableEq, Repr

/-- The text of a manifest error. -/
def manifestError (message : String) : String :=
  "invalid cartridge manifest: " ++ message

/-- A limit of at least `least` and at most `most`. -/
def checkRange (value least most : Nat) (message : String) : Except String Unit :=
  rejectIf (¬ (least ≤ value ∧ value ≤ most)) (manifestError message)

/-- Check every limit against its range. -/
def RuntimeLimits.validate (limits : RuntimeLimits) : Except String Unit := do
  checkRange limits.fuel 1 maxFuel s!"runtime fuel must be between 1 and {maxFuel}"
  checkRange limits.memoryBytes (1024 * 1024) maxMemoryBytes
    s!"runtime memory_bytes must be between 1 MiB and {maxMemoryBytes / 1024 / 1024} MiB"
  checkRange limits.timeoutMs 1 maxTimeoutMs
    s!"runtime timeout_ms must be between 1 and {maxTimeoutMs}"
  checkRange limits.storageBytes 1 maxStorageBytes
    s!"runtime storage_bytes must be between 1 and {maxStorageBytes}"
  checkRange limits.storageKeys 1 maxStorageKeys
    s!"runtime storage_keys must be between 1 and {maxStorageKeys}"
  rejectIf (limits.storageValueBytes = 0 ∨ limits.storageValueBytes > limits.storageBytes
      ∨ limits.storageValueBytes > maxStorageValueBytes)
    (manifestError ("runtime storage_value_bytes must be positive, no larger than storage_bytes, "
      ++ s!"and at most {maxStorageValueBytes}"))
  checkRange limits.graphicsPixels 1 maxGraphicsPixels
    s!"runtime graphics_pixels must be between 1 and {maxGraphicsPixels}"
  checkRange limits.graphicsCommands 1 maxGraphicsCommands
    s!"runtime graphics_commands must be between 1 and {maxGraphicsCommands}"
  checkRange limits.audioNodes 1 maxAudioNodes
    s!"runtime audio_nodes must be between 1 and {maxAudioNodes}"
  checkRange limits.audioEvents 1 maxAudioEvents
    s!"runtime audio_events must be between 1 and {maxAudioEvents}"
  checkRange limits.audioFrames 1 maxAudioFrames
    s!"runtime audio_frames must be between 1 and {maxAudioFrames}"

/-- The smaller of two limits, field by field. -/
def RuntimeLimits.constrainedBy (limits ceiling : RuntimeLimits) : RuntimeLimits :=
  let storageBytes := min limits.storageBytes ceiling.storageBytes
  { fuel := min limits.fuel ceiling.fuel
    memoryBytes := min limits.memoryBytes ceiling.memoryBytes
    timeoutMs := min limits.timeoutMs ceiling.timeoutMs
    storageBytes
    storageKeys := min limits.storageKeys ceiling.storageKeys
    storageValueBytes :=
      min (min limits.storageValueBytes ceiling.storageValueBytes) storageBytes
    graphicsPixels := min limits.graphicsPixels ceiling.graphicsPixels
    graphicsCommands := min limits.graphicsCommands ceiling.graphicsCommands
    audioNodes := min limits.audioNodes ceiling.audioNodes
    audioEvents := min limits.audioEvents ceiling.audioEvents
    audioFrames := min limits.audioFrames ceiling.audioFrames }

open Codec Fields in
def RuntimeLimits.codec : Codec RuntimeLimits :=
  (member "fuel" natural <| member "memory_bytes" natural <| member "timeout_ms" natural <|
    member "storage_bytes" natural <| member "storage_keys" natural <|
    member "storage_value_bytes" natural <| member "graphics_pixels" natural <|
    member "graphics_commands" natural <| member "audio_nodes" natural <|
    member "audio_events" natural <| required "audio_frames" natural).record
    (fun ⟨a, b, c, d, e, f, g, h, i, j, k⟩ => (a, b, c, d, e, f, g, h, i, j, k))
    (fun (a, b, c, d, e, f, g, h, i, j, k) => ⟨a, b, c, d, e, f, g, h, i, j, k⟩) fun _ => rfl

/-! ## Composition locks -/

/-- The format and the limits of a lock. -/
def compositionLockFormatVersion : Nat := 1
def maxLockedPackages : Nat := 128
def maxLockedPackageBytes : Nat := 160 * 1024 * 1024

/-- The digests of a package that a lock names. -/
structure LockedPackage where
  cartridgeId : String
  version : String
  packageSha256 : String
  packageBytes : Nat
  componentSha256 : String
  assetsRootSha256 : String
deriving DecidableEq, Repr

/-- A dependency with the version that was chosen for it. -/
structure ResolvedDependency where
  aliasName : String
  cartridge : String
  version : String
  interfaces : List String
deriving DecidableEq, Repr

/-- An optional dependency that was left out, and why. -/
structure UnavailableDependency where
  aliasName : String
  cartridge : String
  reason : String
deriving DecidableEq, Repr

/-- The dependencies of a package as they were resolved. -/
structure ResolutionPlan where
  resolved : List ResolvedDependency
  unavailableOptional : List UnavailableDependency
deriving DecidableEq, Repr

/-- A package, its providers and how its dependencies were resolved. -/
structure CompositionLock where
  formatVersion : Nat
  root : LockedPackage
  providers : List LockedPackage
  plan : ResolutionPlan
deriving DecidableEq, Repr

/-- The cartridge and the version of a package. -/
def LockedPackage.key (package : LockedPackage) : String × String :=
  (package.cartridgeId, package.version)

/-- The order of keys: by cartridge, then by version. -/
def KeyLt (left right : String × String) : Prop :=
  left.1 < right.1 ∨ (left.1 = right.1 ∧ left.2 < right.2)

instance (left right : String × String) : Decidable (KeyLt left right) :=
  inferInstanceAs (Decidable (_ ∨ _))

section

variable [Semver]

/-- Check the identity of a package of a lock. -/
def validateLockedPackage (value : LockedPackage) : Except String Unit :=
  rejectIf (¬ isCartridgeId value.cartridgeId ∨ ¬ isBoundedText value.version 64 false
      ∨ ¬ Semver.isVersion value.version ∨ value.packageBytes = 0
      ∨ value.packageBytes > maxLockedPackageBytes ∨ ¬ isDigest value.packageSha256
      ∨ ¬ isDigest value.componentSha256
      ∨ (¬ value.assetsRootSha256.isEmpty ∧ ¬ isDigest value.assetsRootSha256))
    "composition lock package identity is invalid"

/-- One turn of the loop over the providers; the state is the last key and all keys. -/
def validateProvider (scan : Option (String × String) × Finset (String × String))
    (provider : LockedPackage) :
    Except String (Option (String × String) × Finset (String × String)) := do
  validateLockedPackage provider
  rejectIf (scan.1.any fun previous => ¬ KeyLt previous provider.key)
    "composition lock providers are not strictly sorted"
  pure (some provider.key, insert provider.key scan.2)

/-- One turn of the loop over the resolved edges; the state is the aliases and the referenced
keys. -/
def validateResolved (indexed : Finset (String × String))
    (scan : Finset String × Finset (String × String)) (dependency : ResolvedDependency) :
    Except String (Finset String × Finset (String × String)) := do
  rejectIf (¬ isAlias dependency.aliasName ∨ ¬ isCartridgeId dependency.cartridge
      ∨ ¬ isBoundedText dependency.version 64 false ∨ ¬ Semver.isVersion dependency.version
      ∨ dependency.aliasName ∈ scan.1 ∨ dependency.interfaces.isEmpty
      ∨ dependency.interfaces.length > 64
      ∨ (dependency.interfaces.any fun interface =>
          !isBoundedText interface 256 false || !isInterface interface)
      ∨ (dependency.cartridge, dependency.version) ∉ indexed)
    "composition lock resolved edge is invalid"
  pure (insert dependency.aliasName scan.1,
    insert (dependency.cartridge, dependency.version) scan.2)

omit [Semver] in
/-- One turn of the loop over the optional edges; the state is the aliases. -/
def validateUnavailable (aliases : Finset String) (dependency : UnavailableDependency) :
    Except String (Finset String) := do
  rejectIf (¬ isAlias dependency.aliasName ∨ ¬ isCartridgeId dependency.cartridge
      ∨ dependency.aliasName ∈ aliases ∨ ¬ isBoundedText dependency.reason 512 false)
    "composition lock optional edge is invalid"
  pure (insert dependency.aliasName aliases)

/-- Check that the providers are those that the plan refers to. -/
def CompositionLock.validate (lock : CompositionLock) : Except String Unit := do
  rejectIf (lock.formatVersion ≠ compositionLockFormatVersion
      ∨ lock.providers.length > maxLockedPackages
      ∨ lock.plan.resolved.length > maxLockedPackages
      ∨ lock.plan.unavailableOptional.length > maxLockedPackages)
    "composition lock format or count is invalid"
  validateLockedPackage lock.root
  let (_, indexed) ← lock.providers.foldlM validateProvider (none, ∅)
  let (aliases, referenced) ← lock.plan.resolved.foldlM (validateResolved indexed) (∅, ∅)
  discard (lock.plan.unavailableOptional.foldlM validateUnavailable aliases)
  rejectIf (indexed ≠ referenced) "composition lock contains an unreferenced provider"

end

section

open Codec Fields

def LockedPackage.codec : Codec LockedPackage :=
  (member "cartridge_id" string <| member "version" string <| member "package_sha256" string <|
    member "package_bytes" natural <| member "component_sha256" string <|
    required "assets_root_sha256" string).record
    (fun ⟨a, b, c, d, e, f⟩ => (a, b, c, d, e, f)) (fun (a, b, c, d, e, f) => ⟨a, b, c, d, e, f⟩)
    fun _ => rfl

def ResolvedDependency.codec : Codec ResolvedDependency :=
  (member "alias" string <| member "cartridge" string <| member "version" string <|
    required "interfaces" string.list).record
    (fun ⟨a, b, c, d⟩ => (a, b, c, d)) (fun (a, b, c, d) => ⟨a, b, c, d⟩) fun _ => rfl

def UnavailableDependency.codec : Codec UnavailableDependency :=
  (member "alias" string <| member "cartridge" string <| required "reason" string).record
    (fun ⟨a, b, c⟩ => (a, b, c)) (fun (a, b, c) => ⟨a, b, c⟩) fun _ => rfl

def ResolutionPlan.codec : Codec ResolutionPlan :=
  (member "resolved" ResolvedDependency.codec.list <|
    required "unavailable_optional" UnavailableDependency.codec.list).record
    (fun ⟨a, b⟩ => (a, b)) (fun (a, b) => ⟨a, b⟩) fun _ => rfl

def CompositionLock.codec : Codec CompositionLock :=
  (member "format_version" natural <| member "root" LockedPackage.codec <|
    member "providers" LockedPackage.codec.list <| required "plan" ResolutionPlan.codec).record
    (fun ⟨a, b, c, d⟩ => (a, b, c, d)) (fun (a, b, c, d) => ⟨a, b, c, d⟩) fun _ => rfl

end

end CartridgeRuntime.Core
