import CartridgeRuntime.Engine.Event

/-!
# Rollout records

A rollout replaces the plan of a stack by a candidate. Its record remembers the generation that it
started from and moves from prepared to activated, and then to committed or rolled back.
-/

namespace CartridgeRuntime.Engine

open Checked CartridgeRuntime.Core Encoding

/-- The format of a checkpoint, its size, and how long a candidate must be healthy. -/
def engineRolloutFormatVersion : Nat := 1
def maxRolloutBytes : Nat := maxStackPlanBytes * 2 + 64 * 1024
def rolloutStabilityWindowMs : UInt64 := 2000

/-- How far a rollout has come. -/
inductive RolloutPhase where
  | prepared
  | activated
  | committed
  | rolledBack
  | cancelled
deriving DecidableEq, Repr

/-- The checkpoint of a rollout: what it replaces, its candidate, and its phase. -/
structure RolloutRecord where
  formatVersion : Nat
  rolloutId : String
  stack : String
  phase : RolloutPhase
  createdAtMs : UInt64
  updatedAtMs : UInt64
  previousRevision : Option UInt64
  previousGeneration : Option String
  previousState : Option EngineStackState
  previousPlan : Option StackPlan
  candidatePlan : StackPlan
  activatedRevision : Option UInt64
  activatedGeneration : Option String
  rollbackRevision : Option UInt64
  rollbackGeneration : Option String
  healthReportSha256 : Option String
  recordSha256 : String
deriving DecidableEq

def RolloutPhase.codec : Codec RolloutPhase :=
  .enumeration [.prepared, .activated, .committed, .rolledBack, .cancelled]
    (fun
      | .prepared => "prepared" | .activated => "activated" | .committed => "committed"
      | .rolledBack => "rolled-back" | .cancelled => "cancelled")
    fun phase => by cases phase <;> rfl

open Codec Fields in
def RolloutRecord.codec : Codec RolloutRecord :=
  (member "format_version" natural <| member "rollout_id" string <| member "stack" string <|
    member "phase" RolloutPhase.codec <| member "created_at_ms" word <|
    member "updated_at_ms" word <| member "previous_revision" nullableWord <|
    member "previous_generation" nullableString <|
    member "previous_state" (EngineStackState.codec.nullable fun _ h => by cases h) <|
    member "previous_plan" optionalPlan <| member "candidate_plan" StackPlan.codec <|
    member "activated_revision" nullableWord <| member "activated_generation" nullableString <|
    member "rollback_revision" nullableWord <| member "rollback_generation" nullableString <|
    member "health_report_sha256" nullableString <| required "record_sha256" string).record
    (fun ⟨a, b, c, d, e, f, g, h, i, j, k, l, m, n, o, p, q⟩ =>
      (a, b, c, d, e, f, g, h, i, j, k, l, m, n, o, p, q))
    (fun (a, b, c, d, e, f, g, h, i, j, k, l, m, n, o, p, q) =>
      ⟨a, b, c, d, e, f, g, h, i, j, k, l, m, n, o, p, q⟩) fun _ => rfl

instance : ToJson RolloutRecord := ⟨RolloutRecord.codec.toJson⟩

/-- The strict reader of checkpoints. -/
@[reducible] def RolloutRecord.reader : FromJson RolloutRecord :=
  RolloutRecord.codec.reader fun _ => rfl

/-- The fields of an activation, a rollback and a report are there when the phase needs them. -/
def validPhaseFields (phase : RolloutPhase) (previousRevision activatedRevision : Option UInt64)
    (activatedGeneration : Option String) (rollbackRevision : Option UInt64)
    (rollbackGeneration healthReportSha256 : Option String) : Bool :=
  let activationValid := activatedRevision.any (· > 0) && activatedGeneration.any isDigest
  let rollbackValid := rollbackRevision.any (· > 0) && rollbackGeneration.any isDigest
  let activationAbsent := activatedRevision.isNone && activatedGeneration.isNone
  let rollbackAbsent := rollbackRevision.isNone && rollbackGeneration.isNone
  let healthValid := healthReportSha256.any isDigest
  let phaseValid := match phase with
    | .prepared | .cancelled => activationAbsent && rollbackAbsent && healthReportSha256.isNone
    | .activated => activationValid && rollbackAbsent && healthReportSha256.isNone
    | .committed => activationValid && rollbackAbsent && healthValid
    | .rolledBack => activationValid && rollbackValid && healthReportSha256.all isDigest
  let activationRevisionValid := activatedRevision.all fun activated =>
    activated == previousRevision.elim 1 (saturatingAdd · 1)
  let rollbackRevisionValid := match activatedRevision, rollbackRevision with
    | some activated, some rollback => rollback == saturatingAdd activated 1
    | _, none => true
    | none, some _ => false
  phaseValid && activationRevisionValid && rollbackRevisionValid

section

variable [HexCodec] [Sha256]

/-- The digest of what a rollout starts from and leads to. -/
def rolloutId (stack : String) (createdAtMs : UInt64) (previousRevision : Option UInt64)
    (previousGeneration : Option String) (candidatePlanSha256 : String) : String :=
  sha256Hex (Json.arr [.num engineRolloutFormatVersion, .str stack, .num createdAtMs.toNat,
    Codec.nullableWord.toJson previousRevision, Codec.nullableString.toJson previousGeneration,
    .str candidatePlanSha256]).bytes

namespace RolloutRecord

/-- The identity that the fields of the record give. -/
def computedRolloutId (record : RolloutRecord) : String :=
  Engine.rolloutId record.stack record.createdAtMs record.previousRevision record.previousGeneration
    record.candidatePlan.planSha256

/-- The digest of the record without its own digest. -/
def computedSha256 (record : RolloutRecord) : Except String String := do
  let bytes := encode { record with recordSha256 := "" }
  rejectIf (bytes.length > maxRolloutBytes) "engine rollout exceeds its byte limit"
  pure (sha256Hex bytes)

section

omit [HexCodec] [Sha256]

/-- The rollout can still go on. -/
def active (record : RolloutRecord) : Bool :=
  record.phase = .prepared ∨ record.phase = .activated

/-- The rollout has ended. -/
def terminal (record : RolloutRecord) : Bool :=
  !record.active

/-- Check the fields that depend on the phase. -/
def validatePhase (record : RolloutRecord) : Except String Unit :=
  rejectIf (¬ validPhaseFields record.phase record.previousRevision record.activatedRevision
      record.activatedGeneration record.rollbackRevision record.rollbackGeneration
      record.healthReportSha256)
    "engine rollout phase fields are inconsistent"

end

variable [Semver]

/-- The plan of a previous state that still has one. -/
def validatePreviousPlan (record : RolloutRecord) (state : EngineStackState) :
    Except String Unit := do
  let plan ← okOr record.previousPlan "rollout previous state is missing its plan"
  plan.validate
  rejectIf (plan.stack ≠ record.stack
      ∨ (state = .stopped ∧ ∃ planned ∈ plan.instances, planned.desired ≠ .stopped))
    "rollout previous plan is inconsistent"

/-- Check what is recorded about the generation before the rollout. -/
def validatePrevious (record : RolloutRecord) : Except String Unit :=
  match record.previousRevision, record.previousGeneration, record.previousState with
  | none, none, none =>
    rejectIf (record.previousPlan.isSome) "rollout previous generation is incomplete"
  | some revision, some generation, some state =>
    if revision > 0 ∧ isDigest generation then
      match state with
      | .applied | .stopped => record.validatePreviousPlan state
      | .removed =>
        rejectIf (record.previousPlan.isSome) "removed rollout state cannot retain a plan"
    else .error "rollout previous generation is incomplete"
  | _, _, _ => .error "rollout previous generation is incomplete"

/-- Check the identity of the record and its phase. -/
def validate (record : RolloutRecord) : Except String Unit := do
  record.candidatePlan.validate
  rejectIf (record.formatVersion ≠ engineRolloutFormatVersion ∨ ¬ isDigest record.rolloutId
      ∨ ¬ validName record.stack ∨ record.candidatePlan.stack ≠ record.stack
      ∨ record.createdAtMs = 0 ∨ record.updatedAtMs < record.createdAtMs
      ∨ record.rolloutId ≠ record.computedRolloutId ∨ ¬ isDigest record.recordSha256)
    "engine rollout identity is invalid"
  let digest ← record.computedSha256
  rejectIf (record.recordSha256 ≠ digest) "engine rollout identity is invalid"
  record.validatePrevious
  record.validatePhase

/-- The record with the digest of its own document, when it is valid. -/
def refresh (record : RolloutRecord) : Except String RolloutRecord := do
  let digest ← record.computedSha256
  let refreshed := { record with recordSha256 := digest }
  refreshed.validate
  pure refreshed

/-- A prepared rollout of a plan over the latest event of its stack. -/
def new (candidatePlan : StackPlan) (previous : Option EngineEvent) (nowMs : UInt64) :
    Except String RolloutRecord := do
  rejectIf (nowMs = 0) "rollout timestamp is invalid"
  let value : RolloutRecord :=
    { formatVersion := engineRolloutFormatVersion
      rolloutId := ""
      stack := candidatePlan.stack
      phase := .prepared
      createdAtMs := nowMs
      updatedAtMs := nowMs
      previousRevision := previous.map EngineEvent.revision
      previousGeneration := previous.map EngineEvent.eventSha256
      previousState := previous.map EngineEvent.state
      previousPlan := previous.bind EngineEvent.plan
      candidatePlan
      activatedRevision := none
      activatedGeneration := none
      rollbackRevision := none
      rollbackGeneration := none
      healthReportSha256 := none
      recordSha256 := "" }
  refresh { value with rolloutId := value.computedRolloutId }

end RolloutRecord

end

/-! ## Comparison with the journal -/

variable (record : RolloutRecord)

/-- The kind and the plan of the event that undoes the rollout. -/
def rollbackTarget : Except String (EngineEventKind × Option StackPlan) :=
  match record.previousState with
  | some .applied => do
    let plan ← okOr record.previousPlan "rollback plan is missing"
    pure (.apply, some plan)
  | some .stopped => do
    let plan ← okOr record.previousPlan "rollback plan is missing"
    pure (.stop, some plan)
  | some .removed | none => pure (.remove, none)

/-- The clock has not gone back since the last checkpoint. -/
def ensureTimeAdvances (nowMs : UInt64) : Except String Unit :=
  rejectIf (nowMs = 0 ∨ nowMs < record.updatedAtMs) "rollout timestamp cannot move backwards"

/-- The stack is still in the state that the rollout was prepared for. -/
def matchesPrevious (current : Option EngineEvent) : Bool :=
  match record.previousRevision, current with
  | none, none => true
  | some revision, some event =>
    event.revision = revision ∧ record.previousGeneration = some event.eventSha256
      ∧ record.previousState = some event.state
      ∧ record.previousPlan.map StackPlan.planSha256 = event.plan.map StackPlan.planSha256
  | _, _ => false

/-- Nothing was appended since the rollout was prepared. -/
def ensureMatchesPrevious (current : Option EngineEvent) : Except String Unit :=
  rejectIf (¬ matchesPrevious record current) "desired state changed after rollout preparation"

/-- The latest event applies the candidate over the recorded generation. -/
def matchesCandidate (current : Option EngineEvent) : Bool :=
  current.any fun event => event.kind = .apply
    ∧ event.plan.map StackPlan.planSha256 = some record.candidatePlan.planSha256
    ∧ event.previousEventSha256 = record.previousGeneration.getD ""

/-- The latest event is the one that activated the rollout. -/
def ensureMatchesActivation (current : Option EngineEvent) : Except String Unit :=
  rejectIf (¬ (matchesCandidate record current ∧ current.any fun event =>
      some event.revision = record.activatedRevision
        ∧ some event.eventSha256 = record.activatedGeneration))
    "desired state no longer matches the activated rollout"

/-- The latest event undoes the activation. -/
def matchesRollback (current : Option EngineEvent) : Bool :=
  match current with
  | none => false
  | some event =>
    event.previousEventSha256 = record.activatedGeneration.getD "" &&
      match record.previousState with
      | some .applied => event.kind = .apply
          ∧ event.plan.map StackPlan.planSha256 = record.previousPlan.map StackPlan.planSha256
      | some .stopped => event.kind = .stop
          ∧ event.plan.map StackPlan.planSha256 = record.previousPlan.map StackPlan.planSha256
      | some .removed | none => event.kind = .remove

end CartridgeRuntime.Engine
