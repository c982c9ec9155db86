import CartridgeRuntime.Core.Composition
import CartridgeRuntime.Engine.Rolling
import Mathlib.Data.Finset.Sort
import Mathlib.Data.String.Basic

/-!
# Stack plans

A stack plan is the desired state of a stack: its instances with their packages, capabilities and
limits, its resources and secrets, and the digest of its own document. Sets of capabilities and
names are finite sets, and they are written in order.
-/

namespace CartridgeRuntime.Engine

open Checked CartridgeRuntime.Core Encoding

/-- The format that is written, and the older ones that are read. -/
def stackPlanFormatVersion : Nat := 4
def legacyStackPlanFormatVersion : Nat := 2
def healthStackPlanFormatVersion : Nat := 3

/-- The bounds of a probe policy. -/
def minProbeTimeoutMs : UInt64 := 100
def maxProbeTimeoutMs : UInt64 := 5 * 60 * 1000
def maxProbeFailureThreshold : Nat := 10

/-- Which of the requested capabilities need a grant. -/
inductive SecurityProfile where
  | strict
  | balanced
  | permissive
deriving DecidableEq, Repr

/-- Whether a process may run without a sandbox. -/
inductive SandboxPolicy where
  | required
  | preferred
  | disabled
deriving DecidableEq, Repr

/-- Whether an instance should run. -/
inductive DesiredState where
  | running
  | stopped
deriving DecidableEq, Repr

/-- When an instance is started again. -/
inductive RestartPolicy where
  | never
  | onFailure
  | always
deriving DecidableEq, Repr

/-- What a cartridge can be allowed. -/
inductive StackCapability where
  | clock
  | random
  | assets
  | storage
  | graphics
  | audio
  | midi
  | http
  | serve
deriving DecidableEq, Repr

/-- A store of keys or of objects. -/
inductive ResourceKind where
  | state
  | blob
deriving DecidableEq, Repr

/-- What happens to a resource when its stack is removed. -/
inductive RetentionPolicy where
  | retain
  | delete
deriving DecidableEq, Repr

/-- How long an application may take to report itself. -/
structure HealthProbeSpec where
  startupTimeoutMs : UInt64 := 10000
  readinessTimeoutMs : UInt64 := 30000
  livenessTimeoutMs : UInt64 := 15000
  failureThreshold : Nat := 3
deriving DecidableEq, Repr

/-- The security settings of a stack. -/
structure PlannedSecurity where
  profile : SecurityProfile
  sandbox : SandboxPolicy
deriving DecidableEq, Repr

/-- A cartridge that a stack runs, with its resolved policy. -/
structure PlannedInstance where
  name : String
  cartridgeId : String
  version : String
  packageSha256 : String
  packageBytes : Nat
  replicas : Nat
  desired : DesiredState
  restart : RestartPolicy
  maxRestarts : Nat
  requested : Finset StackCapability
  granted : Finset StackCapability
  blocked : Finset StackCapability
  allowed : Finset StackCapability
  denied : Finset StackCapability
  args : List String
  secrets : Finset String
  limits : RuntimeLimits
  health : Option HealthProbeSpec
  update : RollingUpdatePolicy
  composition : CompositionLock
deriving DecidableEq

/-- A resource that a stack owns. -/
structure PlannedResource where
  name : String
  kind : ResourceKind
  owner : String
  retention : RetentionPolicy
  quotaBytes : Option Nat
deriving DecidableEq, Repr

/-- A secret that a stack uses. -/
structure PlannedSecret where
  name : String
  required : Bool
deriving DecidableEq, Repr

/-- A stack as it is applied, with the digest of its own document. -/
structure StackPlan where
  formatVersion : Nat
  stack : String
  security : PlannedSecurity
  instances : List PlannedInstance
  resources : List PlannedResource
  secrets : List PlannedSecret
  warnings : List String
  planSha256 : String
deriving DecidableEq

/-! ## Documents -/

open Codec Fields in
def RollingUpdatePolicy.codec : Codec RollingUpdatePolicy :=
  (member "order" (enumeration [RollingOrder.startFirst, .stopFirst]
      (fun | .startFirst => "start-first" | .stopFirst => "stop-first")
      fun order => by cases order <;> rfl) <|
    member "max_surge" natural <| member "max_unavailable" natural <| member "min_ready_ms" word <|
    member "progress_deadline_ms" word <| required "drain_timeout_ms" word).record
    (fun ⟨a, b, c, d, e, f⟩ => (a, b, c, d, e, f)) (fun (a, b, c, d, e, f) => ⟨a, b, c, d, e, f⟩)
    fun _ => rfl

open Codec Fields in
def HealthProbeSpec.codec : Codec HealthProbeSpec :=
  (member "startup_timeout_ms" word <| member "readiness_timeout_ms" word <|
    member "liveness_timeout_ms" word <| required "failure_threshold" natural).record
    (fun ⟨a, b, c, d⟩ => (a, b, c, d)) (fun (a, b, c, d) => ⟨a, b, c, d⟩) fun _ => rfl

def SecurityProfile.codec : Codec SecurityProfile :=
  .enumeration [.strict, .balanced, .permissive]
    (fun | .strict => "strict" | .balanced => "balanced" | .permissive => "permissive")
    fun profile => by cases profile <;> rfl

def SandboxPolicy.codec : Codec SandboxPolicy :=
  .enumeration [.required, .preferred, .disabled]
    (fun | .required => "required" | .preferred => "preferred" | .disabled => "disabled")
    fun policy => by cases policy <;> rfl

def DesiredState.codec : Codec DesiredState :=
  .enumeration [.running, .stopped] (fun | .running => "running" | .stopped => "stopped")
    fun state => by cases state <;> rfl

def RestartPolicy.codec : Codec RestartPolicy :=
  .enumeration [.never, .onFailure, .always]
    (fun | .never => "never" | .onFailure => "on-failure" | .always => "always")
    fun policy => by cases policy <;> rfl

def ResourceKind.codec : Codec ResourceKind :=
  .enumeration [.state, .blob] (fun | .state => "state" | .blob => "blob")
    fun kind => by cases kind <;> rfl

def RetentionPolicy.codec : Codec RetentionPolicy :=
  .enumeration [.retain, .delete] (fun | .retain => "retain" | .delete => "delete")
    fun policy => by cases policy <;> rfl

/-- The capabilities in their order. -/
def allCapabilities : List StackCapability :=
  [.clock, .random, .assets, .storage, .graphics, .audio, .midi, .http, .serve]

def StackCapability.codec : Codec StackCapability :=
  .enumeration allCapabilities
    (fun
      | .clock => "clock" | .random => "random" | .assets => "assets" | .storage => "storage"
      | .graphics => "graphics" | .audio => "audio" | .midi => "midi" | .http => "http"
      | .serve => "serve")
    fun capability => by cases capability <;> rfl

theorem mem_allCapabilities (capability : StackCapability) : capability ∈ allCapabilities := by
  cases capability <;> decide

/-- A set of capabilities, in order. -/
def capabilitySet : Codec (Finset StackCapability) :=
  StackCapability.codec.list.convert (fun set => allCapabilities.filter (· ∈ set)) List.toFinset
    fun set => by
      ext capability
      simp [mem_allCapabilities]

section

open Codec Fields

def PlannedSecurity.codec : Codec PlannedSecurity :=
  (member "profile" SecurityProfile.codec <| required "sandbox" SandboxPolicy.codec).record
    (fun ⟨a, b⟩ => (a, b)) (fun (a, b) => ⟨a, b⟩) fun _ => rfl

def PlannedInstance.codec : Codec PlannedInstance :=
  (member "name" string <| member "cartridge_id" string <| member "version" string <|
    member "package_sha256" string <| member "package_bytes" natural <| member "replicas" natural <|
    member "desired" DesiredState.codec <| member "restart" RestartPolicy.codec <|
    member "max_restarts" natural <| member "requested" capabilitySet <|
    member "granted" capabilitySet <| member "blocked" capabilitySet <|
    member "allowed" capabilitySet <| member "denied" capabilitySet <| member "args" string.list <|
    member "secrets" texts <| member "limits" RuntimeLimits.codec <|
    (unlessDefault "health" (nullable HealthProbeSpec.codec fun _ h => by cases h) none).followedBy
      <|
    (unlessDefault "update" RollingUpdatePolicy.codec {}).followedBy <|
    required "composition" CompositionLock.codec).record
    (fun ⟨a, b, c, d, e, f, g, h, i, j, k, l, m, n, o, p, q, r, s, t⟩ =>
      (a, b, c, d, e, f, g, h, i, j, k, l, m, n, o, p, q, r, s, t))
    (fun (a, b, c, d, e, f, g, h, i, j, k, l, m, n, o, p, q, r, s, t) =>
      ⟨a, b, c, d, e, f, g, h, i, j, k, l, m, n, o, p, q, r, s, t⟩) fun _ => rfl

def PlannedResource.codec : Codec PlannedResource :=
  (member "name" string <| member "kind" ResourceKind.codec <| member "owner" string <|
    member "retention" RetentionPolicy.codec <|
    required "quota_bytes" (natural.nullable fun _ h => by cases h)).record
    (fun ⟨a, b, c, d, e⟩ => (a, b, c, d, e)) (fun (a, b, c, d, e) => ⟨a, b, c, d, e⟩) fun _ => rfl

end

open Codec in
def PlannedSecret.codec : Codec PlannedSecret :=
  ((Fields.required "name" string).followedBy <| Fields.required "required" boolean).record
    (fun ⟨a, b⟩ => (a, b)) (fun (a, b) => ⟨a, b⟩) fun _ => rfl

open Codec Fields in
def StackPlan.codec : Codec StackPlan :=
  (member "format_version" natural <| member "stack" string <|
    member "security" PlannedSecurity.codec <| member "instances" PlannedInstance.codec.list <|
    member "resources" PlannedResource.codec.list <| member "secrets" PlannedSecret.codec.list <|
    member "warnings" string.list <| required "plan_sha256" string).record
    (fun ⟨a, b, c, d, e, f, g, h⟩ => (a, b, c, d, e, f, g, h))
    (fun (a, b, c, d, e, f, g, h) => ⟨a, b, c, d, e, f, g, h⟩) fun _ => rfl

instance : ToJson StackPlan := ⟨StackPlan.codec.toJson⟩

/-! ## Validation -/

/-- Check the timeouts and the threshold of a probe. -/
def HealthProbeSpec.validate (health : HealthProbeSpec) : Except String Unit :=
  rejectIf ((∃ value ∈ [health.startupTimeoutMs, health.readinessTimeoutMs,
        health.livenessTimeoutMs], ¬ (minProbeTimeoutMs ≤ value ∧ value ≤ maxProbeTimeoutMs))
      ∨ health.readinessTimeoutMs < health.startupTimeoutMs
      ∨ health.failureThreshold = 0 ∨ health.failureThreshold > maxProbeFailureThreshold)
    "application health probe policy is invalid"

/-- The capabilities that need no grant in the balanced profile. -/
def balancedCapabilities : Finset StackCapability :=
  {.clock, .assets, .graphics, .audio}

/-- The allowed and the denied capabilities are those of the profile. -/
def validatePlannedCapabilities (planned : PlannedInstance) (profile : SecurityProfile) :
    Except String Unit :=
  let profileAllowed := match profile with
    | .strict => planned.granted
    | .balanced => (planned.requested ∩ balancedCapabilities) ∪ planned.granted
    | .permissive => planned.requested
  let expectedAllowed := profileAllowed \ planned.blocked
  let expectedDenied := planned.requested \ planned.allowed
  rejectIf (expectedAllowed ≠ planned.allowed ∨ expectedDenied ≠ planned.denied)
    "stack plan capability policy is inconsistent"

section

variable [Semver]

/-- Check the fields of an instance against each other and their limits. -/
def validatePlannedInstance (planned : PlannedInstance) (profile : SecurityProfile)
    (declaredSecrets : Finset String) : Except String Unit := do
  planned.limits.validate
  planned.health.elim (.ok ()) HealthProbeSpec.validate
  planned.update.validate planned.replicas
  let argumentBytes ← planned.args.foldlM (fun total argument =>
      okOr (checkedAdd total argument.utf8ByteSize) "stack plan argument size overflow") 0
  rejectIf (¬ validName planned.name ∨ ¬ validCartridgeId planned.cartridgeId
      ∨ ¬ Semver.isVersion planned.version ∨ ¬ isDigest planned.packageSha256
      ∨ planned.packageBytes = 0 ∨ planned.packageBytes > 160 * 1024 * 1024
      ∨ planned.replicas = 0 ∨ planned.replicas > maxStackReplicas
      ∨ planned.maxRestarts > maxStackRestarts
      ∨ ¬ planned.allowed ⊆ planned.requested ∨ ¬ planned.denied ⊆ planned.requested
      ∨ ¬ planned.granted ⊆ planned.requested ∨ ¬ planned.blocked ⊆ planned.requested
      ∨ ¬ Disjoint planned.granted planned.blocked
      ∨ ¬ Disjoint planned.allowed planned.denied
      ∨ planned.allowed ∪ planned.denied ≠ planned.requested
      ∨ planned.args.length > maxStackArguments ∨ argumentBytes > maxStackArgumentBytes
      ∨ (∃ argument ∈ planned.args, ¬ validText argument 4096 true)
      ∨ (∃ secret ∈ planned.secrets, ¬ validName secret ∨ secret ∉ declaredSecrets))
    "stack plan instance is invalid"
  planned.composition.validate
  let root := planned.composition.root
  rejectIf (root.cartridgeId ≠ planned.cartridgeId ∨ root.version ≠ planned.version
      ∨ root.packageSha256 ≠ planned.packageSha256
      ∨ root.packageBytes ≠ planned.packageBytes)
    "stack plan package does not match its composition root"
  validatePlannedCapabilities planned profile

/-- What the loop over the planned instances carries along. -/
structure InstanceScan where
  names : Finset String := ∅
  previousName : Option String := none
  totalReplicas : Nat := 0
  totalSurge : Nat := 0

/-- One turn of the loop over the planned instances. -/
def scanPlannedInstance (profile : SecurityProfile) (declaredSecrets : Finset String)
    (scan : InstanceScan) (planned : PlannedInstance) : Except String InstanceScan := do
  validatePlannedInstance planned profile declaredSecrets
  let totalReplicas ← okOr (checkedAddShort scan.totalReplicas planned.replicas)
    "stack plan replica count overflow"
  let totalSurge ← okOr (checkedAddShort scan.totalSurge planned.update.maxSurge)
    "stack plan surge count overflow"
  rejectIf ((∃ previous ∈ scan.previousName, previous ≥ planned.name)
      ∨ planned.name ∈ scan.names)
    "stack plan instances are not strictly sorted"
  pure { names := insert planned.name scan.names, previousName := some planned.name,
         totalReplicas, totalSurge }

/-- Check the instances in their order, and return their names. -/
def validatePlannedInstances (instances : List PlannedInstance) (profile : SecurityProfile)
    (secrets : List PlannedSecret) : Except String (Finset String) := do
  let declaredSecrets := (secrets.map PlannedSecret.name).toFinset
  let scan ← instances.foldlM (scanPlannedInstance profile declaredSecrets) {}
  rejectIf (scan.totalReplicas > maxStackTotalReplicas
      ∨ scan.totalSurge > maxStackTotalSurgeReplicas)
    "stack plan exceeds its aggregate replica or surge limit"
  pure scan.names

omit [Semver] in
/-- One turn of the loop over the planned resources; the state is the last name. -/
def validatePlannedResource (instances : Finset String) (previous : Option String)
    (resource : PlannedResource) : Except String (Option String) := do
  rejectIf (¬ validName resource.name ∨ resource.owner ∉ instances
      ∨ (∃ value ∈ resource.quotaBytes, value = 0 ∨ value > 64 * 2 ^ 30)
      ∨ (∃ name ∈ previous, name ≥ resource.name))
    "stack plan resource is invalid or not strictly sorted"
  pure (some resource.name)

omit [Semver] in
/-- One turn of the loop over the planned secrets; the state is the last name. -/
def validatePlannedSecret (previous : Option String) (secret : PlannedSecret) :
    Except String (Option String) := do
  rejectIf (¬ validName secret.name ∨ (∃ name ∈ previous, name ≥ secret.name))
    "stack plan secret is invalid or not strictly sorted"
  pure (some secret.name)

namespace StackPlan

variable [HexCodec] [Sha256]

omit [Semver] in
/-- The digest of the plan without its own digest. -/
def computedSha256 (plan : StackPlan) : Except String String := do
  let bytes := encode { plan with planSha256 := "" }
  rejectIf (bytes.length > maxStackPlanBytes) "stack plan exceeds its byte limit"
  pure (sha256Hex bytes)

/-- Check the identity of the plan, its instances, resources, secrets and warnings. -/
def validate (plan : StackPlan) : Except String Unit := do
  rejectIf (plan.formatVersion ∉ [legacyStackPlanFormatVersion, healthStackPlanFormatVersion,
        stackPlanFormatVersion]
      ∨ (plan.formatVersion = legacyStackPlanFormatVersion
        ∧ ∃ planned ∈ plan.instances, planned.health.isSome ∨ ¬ planned.update.isDefault)
      ∨ (plan.formatVersion = healthStackPlanFormatVersion
        ∧ ∃ planned ∈ plan.instances, ¬ planned.update.isDefault)
      ∨ ¬ validName plan.stack ∨ plan.instances.isEmpty
      ∨ plan.instances.length > maxStackInstances ∨ ¬ isDigest plan.planSha256)
    "stack plan identity is invalid"
  let digest ← plan.computedSha256
  rejectIf (digest ≠ plan.planSha256) "stack plan identity is invalid"
  let names ← validatePlannedInstances plan.instances plan.security.profile plan.secrets
  rejectIf (plan.resources.length > maxStackResources ∨ plan.secrets.length > maxStackSecrets
      ∨ plan.warnings.length > maxStackInstances + 1
      ∨ ∃ warning ∈ plan.warnings, ¬ validText warning 512 false)
    "stack plan collection is invalid"
  discard (plan.resources.foldlM (validatePlannedResource names) none)
  discard (plan.secrets.foldlM validatePlannedSecret none)

/-- The plan with every instance stopped. -/
def stopped (plan : StackPlan) : Except String StackPlan := do
  let stopInstance := fun planned : PlannedInstance => { planned with desired := .stopped }
  let value := { plan with instances := plan.instances.map stopInstance }
  let digest ← value.computedSha256
  let value := { value with planSha256 := digest }
  value.validate
  pure value

end StackPlan

end

end CartridgeRuntime.Engine
