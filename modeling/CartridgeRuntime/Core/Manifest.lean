import CartridgeRuntime.Core.Composition
import CartridgeRuntime.Core.Version
import CartridgeRuntime.Network.Policy

/-!
# The manifest of a package

What a package declares of itself and the checks of it. The errors are those of the source, with the
texts of the library errors inside them left open.
-/

namespace CartridgeRuntime.Core

open Checked Encoding Network

/-! ## Declarations -/

def currentFormatVersion : Nat := 1
def maxMigrations : Nat := 256
def maxDependencies : Nat := 128
def maxServices : Nat := 128
def maxInterfacesPerDependency : Nat := 64
def maxCapabilityRequirements : Nat := 64

/-- The names and the version of a cartridge. -/
structure CartridgeMetadata where
  id : String
  name : String
  version : String
  description : String := ""
deriving DecidableEq

/-- What a cartridge asks for. -/
structure Permissions where
  clock : Bool := false
  random : Bool := false
  assets : Bool := false
  storage : Bool := false
  graphics : Bool := false
  audio : Bool := false
  midi : Bool := false
  http : Bool := false
  serve : Bool := false
deriving DecidableEq, Repr

/-- The versions of the host and its capabilities that a cartridge needs. -/
structure Compatibility where
  hostApi : String := ""
  capabilities : Std.ExtTreeMap String String := ∅

/-- A step from one schema of the stored state to another. -/
structure StateMigration where
  name : String
  source : Nat
  target : Nat
deriving DecidableEq

/-- The schema of the stored state, and how older ones are migrated. -/
structure StateConfig where
  schema : Nat := 0
  migrations : List StateMigration := []
deriving DecidableEq

/-- A cartridge that another one uses. -/
structure CartridgeDependency where
  aliasName : String
  cartridge : String
  version : String
  interfaces : List String
  optional : Bool := false
  reason : String := ""
deriving DecidableEq

/-- Who may use a service. -/
inductive ServiceVisibility where
  | «private» | dependency | «public»
deriving DecidableEq, Repr

/-- A service that a cartridge offers. -/
structure ProvidedService where
  name : String
  interface : String
  visibility : ServiceVisibility := .dependency
  description : String := ""
deriving DecidableEq

/-- The digests of the component and the assets of a package. -/
structure Integrity where
  componentSha256 : String := ""
  assetsSha256 : Std.ExtTreeMap String String := ∅
  assetsRootSha256 : String := ""

/-- The limits of a manifest that names none. -/
def RuntimeLimits.default : RuntimeLimits where
  fuel := 10000000
  memoryBytes := 64 * 1024 * 1024
  timeoutMs := 30000
  storageBytes := 1024 * 1024
  storageKeys := 1024
  storageValueBytes := 256 * 1024
  graphicsPixels := 2 * 1024 * 1024
  graphicsCommands := 8192
  audioNodes := 64
  audioEvents := 16384
  audioFrames := 480000

/-- The manifest of a package. -/
structure PackageManifest where
  formatVersion : Nat := currentFormatVersion
  cartridge : CartridgeMetadata
  permissions : Permissions := {}
  http : HttpPolicy := {}
  compatibility : Compatibility := {}
  runtime : RuntimeLimits := .default
  state : StateConfig := {}
  dependencies : List CartridgeDependency := []
  provides : List ProvidedService := []
  integrity : Integrity := {}

/-! ## Texts -/

/-- The text of an integrity error. -/
def integrityError (message : String) : String :=
  "package integrity check failed: " ++ message

/-- A reverse-domain name of segments. -/
def validateId (id : String) : Except String Unit := do
  rejectIf (byteLength id.toList > 128 ∨ (id.toList.splitOn '.').length < 3)
    (manifestError "cartridge id must be a reverse-domain identifier such as dev.example.app")
  rejectIf (¬ (id.toList.splitOn '.').all isSegment) (manifestError s!"invalid cartridge id: {id}")

/-- Check a local name. -/
def validateAlias (value field : String) : Except String Unit :=
  rejectIf (¬ isAlias value) (manifestError s!"invalid {field}: {debugText value}")

/-- Check a text that people read. -/
def validateHumanText (value field : String) (maximum : Nat) (allowEmpty : Bool) :
    Except String Unit :=
  rejectIf (¬ isBoundedText value maximum allowEmpty)
    (manifestError s!"{field} must contain at most {maximum} printable characters")

/-- Check a part of an interface reference. -/
def validateWitName (name : List Char) (full : String) : Except String Unit :=
  rejectIf (¬ isBoundedSegment 64 name)
    (manifestError s!"invalid WIT interface reference: {debugText full}")

/-- A digest in hexadecimal digits of either case. -/
def isSha256 (value : String) : Bool :=
  byteLength value.toList == 64 && value.toList.all fun c =>
    c.isDigit || ('a' ≤ c && c ≤ 'f') || ('A' ≤ c && c ≤ 'F')

/-- The paths that stay below a directory; a path is its own normal form. -/
def isRelativePath (path : String) : Bool :=
  path ≠ "" ∧ path.toList.head? ≠ some '/' ∧ '\\' ∉ path.toList
    ∧ ∀ part ∈ path.toList.splitOn '/', part ≠ [] ∧ part ≠ ['.'] ∧ part ≠ ['.', '.'] ∧ ':' ∉ part

section

variable [SemverValues]

/-- An interface reference with a namespace, a package, a name and a version. -/
def validateInterface (value : String) : Except String Unit :=
  match rsplitOnce '@' value.toList with
  | none => .error
      (manifestError s!"interface must include a semantic version: {debugText value}")
  | some (path, version) => do
    let _ ← mapError
      (fun error => manifestError s!"invalid interface version in {debugText value}: {error}")
      (SemverValues.parse (String.ofList version))
    let syntaxError := manifestError
      s!"interface must use namespace:package/interface syntax: {debugText value}"
    match splitOnce '/' path with
    | none => .error syntaxError
    | some (package, interface) =>
      match splitOnce ':' package with
      | none => .error syntaxError
      | some (scope, package) => do
        validateWitName scope value
        validateWitName package value
        validateWitName interface value

/-! ## Compatibility and state -/

/-- The permissions by name. -/
def permissionMap (permissions : Permissions) : List (String × Bool) :=
  [("clock", permissions.clock), ("random", permissions.random), ("assets", permissions.assets),
   ("storage", permissions.storage), ("graphics", permissions.graphics),
   ("audio", permissions.audio), ("midi", permissions.midi), ("http", permissions.http),
   ("serve", permissions.serve)]

/-- Check the name of a capability. -/
def validateCapabilityName (value : String) : Except String Unit :=
  rejectIf (value = "" ∨ byteLength value.toList > 64 ∨ ¬ value.toList.all isNameChar)
    (manifestError "capability names must be lowercase identifiers")

/-- Every requirement is one of a capability that the package may use. -/
def Compatibility.validate (compatibility : Compatibility) (permissions : Permissions) :
    Except String Unit := do
  rejectIf (compatibility.capabilities.size > maxCapabilityRequirements)
    (manifestError "too many capability version requirements")
  if compatibility.hostApi ≠ "" then
    discard <| mapError
      (fun error => manifestError s!"compatibility.host_api is invalid: {error}")
      (SemverValues.parseRequirement compatibility.hostApi)
  compatibility.capabilities.toList.forM fun (name, requirement) => do
    validateCapabilityName name
    discard <| mapError
      (fun error => manifestError
        s!"capability requirement {debugText name} is invalid: {error}")
      (SemverValues.parseRequirement requirement)
    rejectIf (¬ ((permissionMap permissions).lookup name).getD false)
      (manifestError
        s!"capability version requirement {debugText name} needs its permission enabled")

/-- One turn of the loop over the migrations; the state is the names and the starts so far. -/
def validateMigration (schema : Nat) (scan : Finset String × Finset Nat)
    (migration : StateMigration) : Except String (Finset String × Finset Nat) := do
  validateAlias migration.name "migration name"
  rejectIf (migration.name ∈ scan.1)
    (manifestError s!"duplicate migration name: {migration.name}")
  rejectIf (migration.source ≥ migration.target)
    (manifestError s!"migration {migration.name} must increase the state schema")
  rejectIf (migration.target > schema)
    (manifestError (s!"migration {migration.name} targets schema {migration.target} "
      ++ s!"beyond package schema {schema}"))
  rejectIf (migration.source ∈ scan.2)
    (manifestError s!"more than one migration starts at schema {migration.source}")
  pure (insert migration.name scan.1, insert migration.source scan.2)

/-- The migrations lead from a schema to that of the package. Each one has been found to increase
the schema, so that no more steps than the difference are made. -/
def leadsTo (migrations : List StateMigration) (schema : Nat) : Nat → Nat → Bool
  | 0, current => schema ≤ current
  | steps + 1, current =>
    if current < schema then
      match migrations.find? (·.source = current) with
      | none => false
      | some next => leadsTo migrations schema steps next.target
    else true

/-- Every migration increases the schema, and from each the schema can be reached. -/
def validateState (state : StateConfig) (permissions : Permissions) : Except String Unit := do
  rejectIf (state.schema > 0 ∧ ¬ permissions.storage)
    (manifestError "state schema requires permissions.storage = true")
  rejectIf (state.migrations.length > maxMigrations)
    (manifestError s!"state cannot declare more than {maxMigrations} migrations")
  discard <| state.migrations.foldlM (validateMigration state.schema) (∅, ∅)
  state.migrations.forM fun migration =>
    rejectIf (¬ leadsTo state.migrations state.schema (state.schema - migration.target)
        migration.target)
      (manifestError
        s!"migration {migration.name} does not lead to package schema {state.schema}")

/-! ## Relationships -/

/-- One turn of the loop over the interfaces of a dependency. -/
def validateRequested (owner : String) (seen : Finset String) (interface : String) :
    Except String (Finset String) := do
  validateInterface interface
  rejectIf (interface ∈ seen)
    (manifestError s!"dependency {owner} requests interface {interface} more than once")
  pure (insert interface seen)

/-- One turn of the loop over the dependencies; the state is the aliases and the cartridges so
far. -/
def validateDependency (id : String) (scan : Finset String × Finset String)
    (dependency : CartridgeDependency) : Except String (Finset String × Finset String) := do
  validateAlias dependency.aliasName "dependency alias"
  validateId dependency.cartridge
  rejectIf (dependency.cartridge = id) (manifestError "a cartridge cannot depend on itself")
  discard <| mapError
    (fun error => manifestError
      s!"dependency {dependency.aliasName} has an invalid version requirement: {error}")
    (SemverValues.parseRequirement dependency.version)
  rejectIf (dependency.interfaces = [])
    (manifestError s!"dependency {dependency.aliasName} must request at least one interface")
  rejectIf (dependency.interfaces.length > maxInterfacesPerDependency)
    (manifestError (s!"dependency {dependency.aliasName} cannot request more than "
      ++ s!"{maxInterfacesPerDependency} interfaces"))
  validateHumanText dependency.reason "dependency reason" 240 true
  rejectIf (dependency.aliasName ∈ scan.1)
    (manifestError s!"duplicate dependency alias: {dependency.aliasName}")
  rejectIf (dependency.cartridge ∈ scan.2)
    (manifestError s!"duplicate cartridge dependency: {dependency.cartridge}")
  discard <| dependency.interfaces.foldlM (validateRequested dependency.aliasName) ∅
  pure (insert dependency.aliasName scan.1, insert dependency.cartridge scan.2)

/-- One turn of the loop over the services; the state is the names and the interfaces so far. -/
def validateService (scan : Finset String × Finset String) (service : ProvidedService) :
    Except String (Finset String × Finset String) := do
  validateAlias service.name "service name"
  validateInterface service.interface
  validateHumanText service.description "service description" 240 true
  rejectIf (service.name ∈ scan.1)
    (manifestError s!"duplicate provided service name: {service.name}")
  rejectIf (service.interface ∈ scan.2)
    (manifestError s!"interface is provided more than once: {service.interface}")
  pure (insert service.name scan.1, insert service.interface scan.2)

/-- Check the dependencies and the services. -/
def validateRelationships (manifest : PackageManifest) : Except String Unit := do
  rejectIf (manifest.dependencies.length > maxDependencies)
    (manifestError s!"a cartridge cannot declare more than {maxDependencies} dependencies")
  rejectIf (manifest.provides.length > maxServices)
    (manifestError s!"a cartridge cannot provide more than {maxServices} services")
  discard <| manifest.dependencies.foldlM (validateDependency manifest.cartridge.id) (∅, ∅)
  discard <| manifest.provides.foldlM validateService (∅, ∅)

/-! ## Integrity -/

variable [HexCodec] [Sha256]

/-- The eight bytes of a 64-bit number, the highest first. -/
def bigEndian (n : Nat) : List UInt8 :=
  (List.range 8).reverse.map fun i => UInt8.ofNat (n / 256 ^ i)

/-- The parents of the nodes of one level; a last node alone is paired with itself. -/
def parentNodes : List (List UInt8) → List (List UInt8)
  | [] => []
  | [last] => [Sha256.digest (1 :: last ++ last)]
  | left :: right :: rest => Sha256.digest (1 :: left ++ right) :: parentNodes rest

omit [SemverValues] [HexCodec] in
theorem length_parentNodes_lt (left right : List UInt8) (rest : List (List UInt8)) :
    (parentNodes (left :: right :: rest)).length < (left :: right :: rest).length := by
  have hle : ∀ nodes : List (List UInt8), (parentNodes nodes).length ≤ nodes.length := by
    intro nodes
    induction nodes using parentNodes.induct with
    | case1 | case2 => simp [parentNodes]
    | case3 left right rest ih =>
      simp only [parentNodes, List.length_cons]
      omega
  simp only [parentNodes, List.length_cons]
  have := hle rest
  omega

/-- The root above the nodes of a level. -/
def rootNode : List (List UInt8) → List UInt8
  | [] => Sha256.digest [2]
  | [root] => root
  | left :: right :: rest => rootNode (parentNodes (left :: right :: rest))
termination_by nodes => nodes.length
decreasing_by exact length_parentNodes_lt left right rest

/-- The leaf of an asset in the tree of digests. -/
def assetNode (path digest : String) : Except String (List UInt8) := do
  let message := integrityError s!"invalid asset digest for {debugText path}"
  let bytes ← mapError (fun _ => message) (HexCodec.decode digest)
  rejectIf (bytes.length ≠ 32) message
  pure (Sha256.digest
    (0 :: bigEndian (byteLength path.toList) ++ path.toUTF8.toList ++ bytes))

/-- The root of the tree over the assets. -/
def assetIntegrityRoot (assets : Std.ExtTreeMap String String) : Except String String := do
  let nodes ← assets.toList.mapM fun (path, digest) => assetNode path digest
  pure (HexCodec.encode (rootNode nodes))

/-- Check the digests and the root of the assets. -/
def validateIntegrity (integrity : Integrity) : Except String Unit := do
  rejectIf (integrity.componentSha256 ≠ "" ∧ ¬ isSha256 integrity.componentSha256)
    (manifestError "integrity.component_sha256 must be a 64-character hexadecimal digest")
  integrity.assetsSha256.toList.forM fun (path, digest) => do
    rejectIf (¬ isRelativePath path)
      (manifestError s!"invalid integrity asset path: {debugText path}")
    rejectIf (¬ isSha256 digest)
      (manifestError (s!"integrity.assets_sha256 entry for {debugText path} must be a "
        ++ "64-character hexadecimal digest"))
  if integrity.assetsRootSha256 ≠ "" then
    rejectIf (¬ isSha256 integrity.assetsRootSha256)
      (manifestError "integrity.assets_root_sha256 must be a 64-character hexadecimal digest")
    let actual ← assetIntegrityRoot integrity.assetsSha256
    rejectIf (¬ eqIgnoreAsciiCase actual integrity.assetsRootSha256)
      (integrityError "asset integrity root does not match the declared asset digests")

/-! ## Manifests -/

/-- Check a manifest part by part. -/
def PackageManifest.validate (manifest : PackageManifest) : Except String Unit := do
  rejectIf (manifest.formatVersion ≠ currentFormatVersion)
    (manifestError (s!"unsupported format version {manifest.formatVersion}; "
      ++ s!"expected {currentFormatVersion}"))
  validateId manifest.cartridge.id
  validateHumanText manifest.cartridge.name "cartridge name" 80 false
  validateHumanText manifest.cartridge.description "cartridge description" 240 true
  discard <| mapError (fun error => manifestError s!"version must be valid SemVer: {error}")
    (SemverValues.parse manifest.cartridge.version)
  mapError manifestError manifest.http.validate
  rejectIf (¬ manifest.permissions.http ∧ manifest.http.scopes ≠ [])
    (manifestError "HTTP scopes require permissions.http = true")
  manifest.compatibility.validate manifest.permissions
  manifest.runtime.validate
  validateState manifest.state manifest.permissions
  validateIntegrity manifest.integrity
  validateRelationships manifest

end

end CartridgeRuntime.Core
