import CartridgeRuntime.Engine.Event
import CartridgeRuntime.Engine.Supervisor

/-!
# Stack health

The status of a stack after its latest event, and the health report that counts the phases of its
observed replicas. A rollout commits only while the report of its stack allows it.
-/

namespace CartridgeRuntime.Engine

open Checked CartridgeRuntime.Core Encoding

/-- The latest event of a stack in short. -/
structure StackStatus where
  stack : String
  revision : UInt64
  state : EngineStackState
  planSha256 : Option String
  instanceCount : Nat
  desiredReplicas : Nat
  eventSha256 : String
deriving DecidableEq

/-- The replicas of the instances that should run. -/
def StackPlan.desiredReplicas (plan : StackPlan) : Nat :=
  ((plan.instances.filter (·.desired = .running)).map PlannedInstance.replicas).sum

/-- The status that an event gives its stack. -/
def EngineEvent.status (event : EngineEvent) : StackStatus :=
  { stack := event.stack
    revision := event.revision
    state := event.state
    planSha256 := event.plan.map StackPlan.planSha256
    instanceCount := event.plan.elim 0 (·.instances.length)
    desiredReplicas := event.plan.elim 0 StackPlan.desiredReplicas
    eventSha256 := event.eventSha256 }

/-- A stack has a plan until it is removed. -/
def StackStatus.stateMatchesPlan (status : StackStatus) : Bool :=
  match status.state with
  | .applied | .stopped => status.planSha256.isSome
  | .removed => status.planSha256.isNone && status.instanceCount == 0
      && status.desiredReplicas == 0

/-- Check the fields of a status. -/
def validateStackStatus (status : StackStatus) : Except String Unit :=
  rejectIf (¬ validName status.stack ∨ status.revision = 0
      ∨ status.instanceCount > maxStackInstances ∨ status.desiredReplicas > maxStackTotalReplicas
      ∨ ¬ isDigest status.eventSha256 ∨ (∃ digest ∈ status.planSha256, ¬ isDigest digest)
      ∨ ¬ status.stateMatchesPlan)
    "stack status is invalid"

def engineHealthFormatVersion : Nat := 2
def supervisorStaleAfterMs : UInt64 := 20000

/-- How a stack is doing. -/
inductive StackHealthState where
  | healthy
  | starting
  | degraded
  | failed
  | completed
  | stopped
  | removed
  | stale
deriving DecidableEq, Repr

/-- The state of a stack and the counts that it follows from. -/
structure StackHealthReport where
  formatVersion : Nat
  stack : String
  revision : UInt64
  desiredState : EngineStackState
  state : StackHealthState
  observedAtMs : UInt64
  runtimeObservedAtMs : Option UInt64
  desiredReplicas : Nat
  replicasTotal : Nat := 0
  pending : Nat := 0
  starting : Nat := 0
  running : Nat := 0
  backoff : Nat := 0
  succeeded : Nat := 0
  failed : Nat := 0
  exhausted : Nat := 0
  stopped : Nat := 0
  probeWaiting : Nat := 0
  probeReady : Nat := 0
  probeUnhealthy : Nat := 0
  reportSha256 : String := ""
deriving DecidableEq

def StackHealthState.codec : Codec StackHealthState :=
  .enumeration [.healthy, .starting, .degraded, .failed, .completed, .stopped, .removed, .stale]
    (fun
      | .healthy => "healthy" | .starting => "starting" | .degraded => "degraded"
      | .failed => "failed" | .completed => "completed" | .stopped => "stopped"
      | .removed => "removed" | .stale => "stale")
    fun state => by cases state <;> rfl

open Codec Fields in
def StackHealthReport.codec : Codec StackHealthReport :=
  (member "format_version" natural <| member "stack" string <| member "revision" word <|
    member "desired_state" EngineStackState.codec <| member "state" StackHealthState.codec <|
    member "observed_at_ms" word <| member "runtime_observed_at_ms" nullableWord <|
    member "desired_replicas" natural <| member "replicas_total" natural <|
    member "pending" natural <| member "starting" natural <| member "running" natural <|
    member "backoff" natural <| member "succeeded" natural <| member "failed" natural <|
    member "exhausted" natural <| member "stopped" natural <| member "probe_waiting" natural <|
    member "probe_ready" natural <| member "probe_unhealthy" natural <|
    required "report_sha256" string).record
    (fun ⟨a, b, c, d, e, f, g, h, i, j, k, l, m, n, o, p, q, r, s, t, u⟩ =>
      (a, b, c, d, e, f, g, h, i, j, k, l, m, n, o, p, q, r, s, t, u))
    (fun (a, b, c, d, e, f, g, h, i, j, k, l, m, n, o, p, q, r, s, t, u) =>
      ⟨a, b, c, d, e, f, g, h, i, j, k, l, m, n, o, p, q, r, s, t, u⟩) fun _ => rfl

instance : ToJson StackHealthReport := ⟨StackHealthReport.codec.toJson⟩

namespace StackHealthReport

/-- The stack does what it should. -/
def ready (report : StackHealthReport) : Bool :=
  report.state = .healthy ∨ report.state = .completed

/-- The replicas that are to run yet. -/
def waiting (report : StackHealthReport) : Nat :=
  report.pending + report.starting + report.backoff

/-- The replicas that have failed. -/
def failures (report : StackHealthReport) : Nat :=
  report.failed + report.exhausted

/-- The replicas that run or have ended well. -/
def successful (report : StackHealthReport) : Nat :=
  report.running + report.succeeded

/-- The state that the counts of an applied stack imply. -/
def derivedAppliedState (report : StackHealthReport) (nowMs runtimeObservedAtMs : UInt64) :
    StackHealthState :=
  if (report.running > 0 ∨ report.waiting > 0)
      ∧ saturatingSub nowMs runtimeObservedAtMs > supervisorStaleAfterMs then .stale
  else if report.probeUnhealthy > 0 then .degraded
  else if report.failures > 0 then
    if report.successful > 0 ∨ report.waiting > 0 then .degraded else .failed
  else if report.waiting > 0 ∨ report.successful < report.desiredReplicas then .starting
  else if report.running = 0 ∧ report.succeeded = report.desiredReplicas then .completed
  else .healthy

/-- The state is one that the counts allow. -/
def stateMatchesCounts (report : StackHealthReport) : Bool :=
  match report.desiredState with
  | .removed => report.state = .removed ∧ report.replicasTotal = 0
      ∧ report.runtimeObservedAtMs.isNone
  | .stopped => report.state = .stopped ∧ report.desiredReplicas = 0 ∧ report.waiting = 0
      ∧ report.successful = 0 ∧ report.failures = 0
  | .applied =>
    if report.desiredReplicas = 0 then report.state = .stopped
    else match report.state with
      | .healthy => report.failures = 0 ∧ report.probeUnhealthy = 0 ∧ report.probeWaiting = 0
          ∧ report.waiting = 0 ∧ report.running > 0
          ∧ report.running + report.succeeded = report.desiredReplicas
      | .completed => report.failures = 0 ∧ report.probeUnhealthy = 0 ∧ report.probeWaiting = 0
          ∧ report.waiting = 0 ∧ report.running = 0
          ∧ report.succeeded = report.desiredReplicas
      | .starting => report.failures = 0 ∧ report.probeUnhealthy = 0
          ∧ (report.waiting > 0 ∨ report.successful < report.desiredReplicas)
      | .degraded => report.probeUnhealthy > 0
          ∨ (report.failures > 0 ∧ (report.successful > 0 ∨ report.waiting > 0))
      | .failed => report.failures > 0 ∧ report.successful = 0 ∧ report.waiting = 0
      | .stale => report.runtimeObservedAtMs.any fun observed =>
        (report.running > 0 ∨ report.waiting > 0)
          ∧ saturatingSub report.observedAtMs observed > supervisorStaleAfterMs
      | .stopped | .removed => false

/-- A sum of 16-bit counts, when it is one. -/
def checkedSum (counts : List Nat) : Option Nat :=
  counts.foldlM checkedAddShort 0

/-- Count a replica by its phase. -/
def countPhase (report : StackHealthReport) : ReplicaPhase → Option StackHealthReport
  | .pending => (checkedAddShort report.pending 1).map fun count => { report with pending := count }
  | .starting =>
    (checkedAddShort report.starting 1).map fun count => { report with starting := count }
  | .running => (checkedAddShort report.running 1).map fun count => { report with running := count }
  | .backoff => (checkedAddShort report.backoff 1).map fun count => { report with backoff := count }
  | .succeeded =>
    (checkedAddShort report.succeeded 1).map fun count => { report with succeeded := count }
  | .failed => (checkedAddShort report.failed 1).map fun count => { report with failed := count }
  | .exhausted =>
    (checkedAddShort report.exhausted 1).map fun count => { report with exhausted := count }
  | .stopped => (checkedAddShort report.stopped 1).map fun count => { report with stopped := count }

/-- Count a replica by the phase of its probe. -/
def countProbe (report : StackHealthReport) : ProbePhase → Option StackHealthReport
  | .waiting =>
    (checkedAddShort report.probeWaiting 1).map fun count => { report with probeWaiting := count }
  | .ready =>
    (checkedAddShort report.probeReady 1).map fun count => { report with probeReady := count }
  | .unhealthy => (checkedAddShort report.probeUnhealthy 1).map fun count =>
    { report with probeUnhealthy := count }

/-- Count a replica and its probe. -/
def countReplica (report : StackHealthReport) (replica : ReplicaRuntime) :
    Except String StackHealthReport := do
  let report ← okOr (report.countPhase replica.phase) "health replica count overflow"
  match replica.probe with
  | none => pure report
  | some probe => okOr (report.countProbe probe.phase) "health probe count overflow"

variable [HexCodec] [Sha256]

/-- The digest of the report without its own digest. -/
def computedSha256 (report : StackHealthReport) : String :=
  sha256Hex (encode { report with reportSha256 := "" })

/-- Check the counts of the report and that its state fits them. -/
def validate (report : StackHealthReport) : Except String Unit := do
  let total ← okOr (checkedSum [report.pending, report.starting, report.running, report.backoff,
      report.succeeded, report.failed, report.exhausted, report.stopped])
    "health replica count overflow"
  let probed ← okOr (checkedSum [report.probeWaiting, report.probeReady, report.probeUnhealthy])
    "health probe count overflow"
  rejectIf (report.formatVersion ≠ engineHealthFormatVersion ∨ ¬ validName report.stack
      ∨ report.revision = 0 ∨ report.observedAtMs = 0
      ∨ report.desiredReplicas > maxStackTotalReplicas
      ∨ report.replicasTotal > maxStackTotalReplicas ∨ total ≠ report.replicasTotal
      ∨ probed > report.replicasTotal
      ∨ (∃ observed ∈ report.runtimeObservedAtMs, observed = 0 ∨ observed > report.observedAtMs)
      ∨ ¬ isDigest report.reportSha256 ∨ report.computedSha256 ≠ report.reportSha256
      ∨ ¬ report.stateMatchesCounts)
    "stack health report is invalid"

/-- Seal the report with its digest and check it. -/
def refresh (report : StackHealthReport) : Except String StackHealthReport := do
  let refreshed := { report with reportSha256 := report.computedSha256 }
  refreshed.validate
  pure refreshed

/-- Count the observed replicas of the generation that is desired. -/
def countRuntime (report : StackHealthReport) (status : StackStatus) (nowMs : UInt64)
    (runtime : StackRuntimeStatus) : Except String StackHealthReport := do
  runtime.validate
  rejectIf (runtime.stack ≠ status.stack ∨ runtime.revision ≠ status.revision
      ∨ runtime.generation ≠ status.eventSha256)
    "runtime health belongs to another desired generation"
  rejectIf (runtime.replicas.length > 65535) "runtime replica count overflow"
  let counted ← runtime.replicas.foldlM countReplica
    { report with replicasTotal := runtime.replicas.length }
  if status.state = .applied ∧ report.desiredReplicas > 0 then
    pure { counted with state := counted.derivedAppliedState nowMs runtime.observedAtMs }
  else pure counted

/-- The report before the replicas are counted. -/
def draft (status : StackStatus) (runtime : Option StackRuntimeStatus) (nowMs : UInt64) :
    StackHealthReport :=
  { formatVersion := engineHealthFormatVersion
    stack := status.stack
    revision := status.revision
    desiredState := status.state
    state := match status.state with
      | .applied => if status.desiredReplicas = 0 then .stopped else .starting
      | .stopped => .stopped
      | .removed => .removed
    observedAtMs := nowMs
    runtimeObservedAtMs := runtime.map StackRuntimeStatus.observedAtMs
    desiredReplicas := status.desiredReplicas }

/-- The report of a stack, from what was observed of its replicas. -/
def fromStatus (status : StackStatus) (runtime : Option StackRuntimeStatus) (nowMs : UInt64) :
    Except String StackHealthReport := do
  validateStackStatus status
  rejectIf (nowMs = 0) "health observation time is invalid"
  rejectIf (status.desiredReplicas > 65535) "desired replica count overflow"
  let report := draft status runtime nowMs
  match runtime with
  | none => report.refresh
  | some runtime => do
    let counted ← report.countRuntime status nowMs runtime
    counted.refresh

end StackHealthReport

end CartridgeRuntime.Engine
