import CartridgeRuntime.Engine.RollingSafety
import CartridgeRuntime.Engine.Plan
import CartridgeRuntime.Library.CodecSize

/-!
# Valid plans

What the checks of a stack plan establish about its instances, and how large its document is.
`StackPlan.valid_of_validate` collects the facts, and `StackPlan.validate_sealed` is the way back
for a plan that carries the digest of its own document.
-/

namespace CartridgeRuntime.Engine

open Checked CartridgeRuntime.Core Encoding Codec Fields

theorem size_validName_le {name : String} (h : validName name) : string.size name ≤ 66 :=
  size_string_le (plain_of_isBoundedSegment h).1 (plain_of_isBoundedSegment h).2

theorem size_isDigest_le {digest : String} (h : isDigest digest) : string.size digest ≤ 66 :=
  size_string_le (plain_of_isDigest h).1 (plain_of_isDigest h).2.le

section

variable [Semver]

/-- A planned instance that passes its checks. -/
structure PlannedInstance.Valid (planned : PlannedInstance) : Prop where
  name_valid : validName planned.name
  policy_valid : planned.update.Valid planned.replicas
  maxRestarts_le : planned.maxRestarts ≤ maxStackRestarts
  root_cartridgeId : planned.composition.root.cartridgeId = planned.cartridgeId
  root_version : planned.composition.root.version = planned.version
  root_sha256 : planned.composition.root.packageSha256 = planned.packageSha256
  root_bytes : planned.composition.root.packageBytes = planned.packageBytes

variable {profile : SecurityProfile} {secrets : Finset String}

theorem valid_of_validatePlannedInstance {planned : PlannedInstance}
    (h : validatePlannedInstance planned profile secrets = .ok ()) : planned.Valid := by
  simp only [validatePlannedInstance, bind_eq_ok, exists_unit,
    RollingUpdatePolicy.validate_eq_ok] at h
  obtain ⟨-, -, hpolicy, argumentBytes, -, hfields, -, hroot, -⟩ := h
  rw [rejectIf_eq_ok] at hfields hroot
  simp only [not_or, not_not, gt_iff_lt, not_lt] at hfields hroot
  obtain ⟨hname, -, -, -, -, -, -, -, hrestarts, -⟩ := hfields
  exact ⟨hname, hpolicy, hrestarts, hroot.1, hroot.2.1, hroot.2.2.1, hroot.2.2.2⟩

/-- What the loop over the planned instances establishes. -/
theorem foldlM_scanPlannedInstance {instances : List PlannedInstance} {scan result : InstanceScan}
    (h : instances.foldlM (scanPlannedInstance profile secrets) scan = .ok result) :
    (∀ planned ∈ instances, planned.Valid)
      ∧ (∀ name ∈ scan.previousName, ∀ planned ∈ instances, name < planned.name)
      ∧ instances.Pairwise (fun left right => left.name < right.name)
      ∧ result.totalReplicas = scan.totalReplicas + (instances.map (·.replicas)).sum
      ∧ result.totalSurge = scan.totalSurge + (instances.map (·.update.maxSurge)).sum := by
  induction instances generalizing scan with
  | nil =>
    rw [List.foldlM_nil, pure_eq_ok, Except.ok.injEq] at h
    subst h
    exact ⟨by simp, by simp, .nil, rfl, rfl⟩
  | cons planned rest ih =>
    simp only [List.foldlM_cons, scanPlannedInstance, bind_eq_ok, exists_unit, okOr_eq_ok,
      checkedAddShort_eq_some, pure_eq_ok, Except.ok.injEq] at h
    obtain ⟨_, ⟨hplanned, _, ⟨-, rfl⟩, _, ⟨-, rfl⟩, hname, rfl⟩, hrest⟩ := h
    rw [rejectIf_eq_ok, not_or] at hname
    obtain ⟨hvalids, hnames, hsorted, hreplicas, hsurge⟩ := ih hrest
    have hfirst : ∀ other ∈ rest, planned.name < other.name := hnames _ rfl
    have hlast : ∀ name ∈ scan.previousName, name < planned.name := fun name hmem =>
      not_le.mp fun hle => hname.1 ⟨name, hmem, hle⟩
    refine ⟨List.forall_mem_cons.mpr ⟨valid_of_validatePlannedInstance hplanned, hvalids⟩,
      fun name hmem => List.forall_mem_cons.mpr ⟨hlast name hmem, fun other hother =>
        (hlast name hmem).trans (hfirst other hother)⟩,
      List.pairwise_cons.mpr ⟨hfirst, hsorted⟩, ?_, ?_⟩
    · simp only [hreplicas, List.map_cons, List.sum_cons, Nat.add_assoc]
    · simp only [hsurge, List.map_cons, List.sum_cons, Nat.add_assoc]

/-- A valid instance with a later name joins the scan. -/
theorem scanPlannedInstance_succeeds
    {scan : InstanceScan} {planned : PlannedInstance}
    (hvalid : validatePlannedInstance planned profile secrets = .ok ())
    (hreplicas : scan.totalReplicas + planned.replicas < 2 ^ 16)
    (hsurge : scan.totalSurge + planned.update.maxSurge < 2 ^ 16)
    (hprevious : ∀ name ∈ scan.previousName, name < planned.name)
    (hnew : planned.name ∉ scan.names) :
    scanPlannedInstance profile secrets scan planned
      = .ok { names := insert planned.name scan.names, previousName := some planned.name,
              totalReplicas := scan.totalReplicas + planned.replicas,
              totalSurge := scan.totalSurge + planned.update.maxSurge } := by
  simp only [scanPlannedInstance, bind_eq_ok, exists_unit, okOr_eq_ok, checkedAddShort_eq_some]
  refine ⟨hvalid, _, ⟨by omega, rfl⟩, _, ⟨by omega, rfl⟩, ?_, rfl⟩
  rw [rejectIf_eq_ok]
  rintro (⟨name, hmem, hle⟩ | hmem)
  · exact (hprevious name hmem).not_ge hle
  · exact hnew hmem

variable [HexCodec] [Sha256]

namespace StackPlan

/-- Instances that are valid, in order, and within the limits of a stack. -/
structure InstancesValid (instances : List PlannedInstance) : Prop where
  valid : ∀ planned ∈ instances, planned.Valid
  sorted : instances.Pairwise fun left right => left.name < right.name
  replicas_le : (instances.map (·.replicas)).sum ≤ maxStackTotalReplicas
  surge_le : (instances.map (·.update.maxSurge)).sum ≤ maxStackTotalSurgeReplicas

/-- A plan that passes its checks. -/
structure Valid (plan : StackPlan) : Prop where
  stack_valid : validName plan.stack
  instances_le : plan.instances.length ≤ maxStackInstances
  sha256_digest : isDigest plan.planSha256
  computed : plan.computedSha256 = .ok plan.planSha256
  instances_valid : InstancesValid plan.instances

variable {plan : StackPlan}

theorem valid_of_validate (h : plan.validate = .ok ()) : plan.Valid := by
  simp only [validate, validatePlannedInstances, bind_eq_ok, exists_unit] at h
  obtain ⟨hidentity, digest, hdigest, hcomputed, names, ⟨scan, hscan, hlimits, -⟩, -⟩ := h
  rw [rejectIf_eq_ok] at hidentity hcomputed hlimits
  simp only [not_or, not_not, gt_iff_lt, Nat.not_lt] at hidentity hcomputed hlimits
  obtain ⟨-, -, -, hstack, -, hlength, hsha⟩ := hidentity
  obtain ⟨hvalid, -, hsorted, hreplicas, hsurge⟩ := foldlM_scanPlannedInstance hscan
  rw [hreplicas, hsurge, Nat.zero_add, Nat.zero_add] at hlimits
  exact ⟨hstack, hlength, hsha, hcomputed ▸ hdigest, hvalid, hsorted, hlimits.1, hlimits.2⟩

/-! ## The document of a plan -/

omit [Semver] [HexCodec] [Sha256] in
theorem size_eq_add (h : isDigest plan.planSha256) :
    codec.size plan = codec.size { plan with planSha256 := "" } + 64 := by
  have hdigest : string.size plan.planSha256 = 66 := by
    rw [size_string (plain_of_isDigest h).1, (plain_of_isDigest h).2]
  have hempty : string.size "" = 2 := by decide
  simp only [codec, size_record_required, size_followedBy, size_required, hdigest, hempty]
  omega

section

omit [Semver]

theorem computedSha256_eq_ok {digest : String} :
    plan.computedSha256 = .ok digest
      ↔ codec.size { plan with planSha256 := "" } ≤ maxStackPlanBytes
        ∧ digest = sha256Hex (encode { plan with planSha256 := "" }) := by
  have hsize : (encode { plan with planSha256 := "" }).length
      = codec.size { plan with planSha256 := "" } := Json.length_bytes _
  simp only [computedSha256, bind_eq_ok, exists_unit, pure_eq_ok, Except.ok.injEq]
  rw [rejectIf_eq_ok, Nat.not_lt, hsize, eq_comm (a := digest)]

theorem Valid.size_le (h : plan.Valid) : codec.size plan ≤ maxStackPlanBytes + 64 := by
  rw [size_eq_add h.sha256_digest]
  exact Nat.add_le_add_right (computedSha256_eq_ok.mp h.computed).1 _

/-- The plan with the digest of its own document. -/
def sealed (plan : StackPlan) : StackPlan :=
  { plan with planSha256 := sha256Hex (encode { plan with planSha256 := "" }) }

end

/-- A sealed plan of instances only is valid when its instances are and it is not too long. -/
theorem validate_sealed {names : Finset String}
    (hformat : plan.formatVersion = stackPlanFormatVersion) (hstack : validName plan.stack)
    (hinstances : plan.instances ≠ []) (hlength : plan.instances.length ≤ maxStackInstances)
    (hsize : codec.size { plan with planSha256 := "" } ≤ maxStackPlanBytes)
    (hnames : validatePlannedInstances plan.instances plan.security.profile [] = .ok names)
    (hresources : plan.resources = []) (hsecrets : plan.secrets = [])
    (hwarnings : plan.warnings = []) : plan.sealed.validate = .ok () := by
  have hdigest : plan.sealed.computedSha256 = .ok plan.sealed.planSha256 :=
    computedSha256_eq_ok.mpr ⟨hsize, rfl⟩
  have hidentity := isDigest_sha256Hex (encode { plan with planSha256 := "" })
  simp only [validate, hdigest, ok_bind]
  rw [rejectIf_of_not, ok_bind, rejectIf_of_not _ (not_not.mpr rfl), ok_bind]
  · simp only [sealed, hresources, hsecrets, hwarnings, hnames, ok_bind]
    rw [rejectIf_of_not _ (by simp)]
    rfl
  · rintro (h | ⟨h, -⟩ | ⟨h, -⟩ | h | h | h | h)
    · refine h ?_
      show plan.formatVersion ∈ _
      rw [hformat]
      decide
    · exact absurd (hformat.symm.trans h) (by decide)
    · exact absurd (hformat.symm.trans h) (by decide)
    · exact h hstack
    · exact hinstances (List.isEmpty_iff.mp h)
    · exact Nat.not_le.mpr h hlength
    · exact h hidentity

end StackPlan

end

/-! ## Plans of small instances -/

/-- A digest for examples. -/
def zeroDigest : String :=
  "0000000000000000000000000000000000000000000000000000000000000000"

theorem isDigest_zeroDigest : isDigest zeroDigest := by
  decide

/-- A package for examples. -/
def smallPackage : LockedPackage :=
  { cartridgeId := "org.example.app"
    version := "1.0.0"
    packageSha256 := zeroDigest
    packageBytes := 1
    componentSha256 := zeroDigest
    assetsRootSha256 := "" }

/-- The smallest limits. -/
def smallLimits : RuntimeLimits :=
  { fuel := 1
    memoryBytes := 1024 * 1024
    timeoutMs := 1
    storageBytes := 1
    storageKeys := 1
    storageValueBytes := 1
    graphicsPixels := 1
    graphicsCommands := 1
    audioNodes := 1
    audioEvents := 1
    audioFrames := 1 }

/-- An instance of a package without dependencies and capabilities. -/
def smallInstance (name : String) (package : LockedPackage) (replicas : Nat)
    (desired : DesiredState) (update : RollingUpdatePolicy) : PlannedInstance :=
  { name, replicas, desired, update
    cartridgeId := package.cartridgeId
    version := package.version
    packageSha256 := package.packageSha256
    packageBytes := package.packageBytes
    restart := .never
    maxRestarts := 0
    requested := ∅
    granted := ∅
    blocked := ∅
    allowed := ∅
    denied := ∅
    args := []
    secrets := ∅
    limits := smallLimits
    health := none
    composition := { formatVersion := compositionLockFormatVersion, root := package,
                     providers := [], plan := ⟨[], []⟩ } }

/-- A plan of instances only. -/
def smallPlan (instances : List PlannedInstance) : StackPlan :=
  { formatVersion := stackPlanFormatVersion
    stack := "s"
    security := ⟨.strict, .required⟩
    instances
    resources := []
    secrets := []
    warnings := []
    planSha256 := "" }

theorem smallPlan_valid [Semver] [HexCodec] [Sha256] {instances : List PlannedInstance}
    (names : Finset String) (hinstances : instances ≠ [])
    (hlength : instances.length ≤ maxStackInstances)
    (hsize : StackPlan.codec.size (smallPlan instances) ≤ maxStackPlanBytes)
    (hnames : validatePlannedInstances instances .strict [] = .ok names) :
    (smallPlan instances).sealed.validate = .ok () :=
  StackPlan.validate_sealed rfl (by decide : validName "s") hinstances hlength hsize hnames rfl rfl
    rfl

end CartridgeRuntime.Engine
