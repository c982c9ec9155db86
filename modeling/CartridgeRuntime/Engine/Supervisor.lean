import CartridgeRuntime.Engine.Plan

/-!
# Runtime status of a generation

The status of a generation holds one record per replica, which starts, becomes ready, exits, waits
for its next start and is drained. A method that fails after it has changed the status leaves the
change in place, as a method of the source with a mutable receiver does, so methods return the status
along with their result.
-/

namespace CartridgeRuntime.Engine

open Checked CartridgeRuntime.Core Encoding

def supervisorStatusFormatVersion : Nat := 2
def legacySupervisorStatusFormatVersion : Nat := 1
def maxRestartBackoffMs : UInt64 := 30000
def minRestartBackoffMs : UInt64 := 250

/-- A replica of an instance. -/
structure ReplicaId where
  instanceName : String
  ordinal : Nat
deriving DecidableEq, Repr

/-- Where a replica is between its starts and its end. -/
inductive ReplicaPhase where
  | pending
  | starting
  | running
  | backoff
  | succeeded
  | failed
  | exhausted
  | stopped
deriving DecidableEq, Repr

/-- What an application has reported about itself. -/
inductive ProbePhase where
  | waiting
  | ready
  | unhealthy
deriving DecidableEq, Repr

/-- What an application can report. -/
inductive ProbeSignalKind where
  | started
  | ready
  | heartbeat
  | unhealthy
deriving DecidableEq, Repr

/-- What is known of the application health of a replica; the defaults are those of a new run. -/
structure ReplicaProbeRuntime where
  phase : ProbePhase := .waiting
  lastSequence : UInt64 := 0
  lastSignalAtMs : Option UInt64 := none
  readyAtMs : Option UInt64 := none
  consecutiveFailures : Nat := 0
deriving DecidableEq, Repr

/-- A replica as the supervisor sees it. -/
structure ReplicaRuntime where
  id : ReplicaId
  desired : DesiredState
  restart : RestartPolicy
  maxRestarts : Nat
  attempt : Nat
  phase : ReplicaPhase
  runId : Option String
  startedAtMs : Option UInt64
  finishedAtMs : Option UInt64
  nextStartAtMs : Option UInt64
  lastExitCode : Option Int
  detail : Option String
  probe : Option ReplicaProbeRuntime
deriving DecidableEq, Repr

/-- The replicas of a generation, with the digest of the document. -/
structure StackRuntimeStatus where
  formatVersion : Nat
  stack : String
  revision : UInt64
  generation : String
  observedAtMs : UInt64
  replicas : List ReplicaRuntime
  statusSha256 : String
deriving DecidableEq, Repr

/-! ## Documents -/

def ReplicaPhase.codec : Codec ReplicaPhase :=
  .enumeration [.pending, .starting, .running, .backoff, .succeeded, .failed, .exhausted, .stopped]
    (fun
      | .pending => "pending" | .starting => "starting" | .running => "running"
      | .backoff => "backoff" | .succeeded => "succeeded" | .failed => "failed"
      | .exhausted => "exhausted" | .stopped => "stopped")
    fun phase => by cases phase <;> rfl

def ProbePhase.codec : Codec ProbePhase :=
  .enumeration [.waiting, .ready, .unhealthy]
    (fun | .waiting => "waiting" | .ready => "ready" | .unhealthy => "unhealthy")
    fun phase => by cases phase <;> rfl

section

open Codec Fields

def ReplicaId.codec : Codec ReplicaId :=
  (member "instance" string <| required "ordinal" natural).record
    (fun ⟨a, b⟩ => (a, b)) (fun (a, b) => ⟨a, b⟩) fun _ => rfl

def ReplicaProbeRuntime.codec : Codec ReplicaProbeRuntime :=
  (member "phase" ProbePhase.codec <| member "last_sequence" word <|
    member "last_signal_at_ms" nullableWord <| member "ready_at_ms" nullableWord <|
    required "consecutive_failures" natural).record
    (fun ⟨a, b, c, d, e⟩ => (a, b, c, d, e)) (fun (a, b, c, d, e) => ⟨a, b, c, d, e⟩) fun _ => rfl

def ReplicaRuntime.codec : Codec ReplicaRuntime :=
  (member "id" ReplicaId.codec <| member "desired" DesiredState.codec <|
    member "restart" RestartPolicy.codec <| member "max_restarts" natural <|
    member "attempt" natural <| member "phase" ReplicaPhase.codec <|
    member "run_id" nullableString <| member "started_at_ms" nullableWord <|
    member "finished_at_ms" nullableWord <| member "next_start_at_ms" nullableWord <|
    member "last_exit_code" (integer.nullable fun _ h => by cases h) <|
    member "detail" nullableString <|
    unlessDefault "probe" (nullable ReplicaProbeRuntime.codec fun _ h => by cases h) none).record
    (fun ⟨a, b, c, d, e, f, g, h, i, j, k, l, m⟩ => (a, b, c, d, e, f, g, h, i, j, k, l, m))
    (fun (a, b, c, d, e, f, g, h, i, j, k, l, m) => ⟨a, b, c, d, e, f, g, h, i, j, k, l, m⟩)
    fun _ => rfl

def StackRuntimeStatus.codec : Codec StackRuntimeStatus :=
  (member "format_version" natural <| member "stack" string <| member "revision" word <|
    member "generation" string <| member "observed_at_ms" word <|
    member "replicas" ReplicaRuntime.codec.list <| required "status_sha256" string).record
    (fun ⟨a, b, c, d, e, f, g⟩ => (a, b, c, d, e, f, g))
    (fun (a, b, c, d, e, f, g) => ⟨a, b, c, d, e, f, g⟩) fun _ => rfl

end

instance : ToJson StackRuntimeStatus := ⟨StackRuntimeStatus.codec.toJson⟩

/-! ## Validation -/

/-- The fields of a probe fit together and the phase of its replica. -/
def validateProbeRuntime (probe : ReplicaProbeRuntime) (replicaPhase : ReplicaPhase) :
    Except String Unit :=
  let pristine := probe.lastSequence = 0 ∧ probe.lastSignalAtMs = none ∧ probe.readyAtMs = none
    ∧ probe.consecutiveFailures = 0 ∧ probe.phase = .waiting
  let observed := probe.lastSequence > 0 ∧ probe.lastSignalAtMs.isSome
  rejectIf ((¬ pristine ∧ ¬ observed) ∨ probe.consecutiveFailures > maxProbeFailureThreshold
      ∨ (probe.phase = .ready ∧ probe.consecutiveFailures ≠ 0)
      ∨ (probe.phase = .ready ∧ probe.readyAtMs = none)
      ∨ (probe.phase ≠ .ready ∧ probe.readyAtMs.isSome)
      ∨ (probe.phase = .unhealthy ∧ probe.consecutiveFailures = 0)
      ∨ (∃ ready ∈ probe.readyAtMs, ∃ signal ∈ probe.lastSignalAtMs, ready > signal)
      ∨ (replicaPhase = .running ∧ probe.phase = .waiting)
      ∨ (replicaPhase = .starting ∧ probe.phase = .ready))
    "runtime application health state is invalid"

namespace ReplicaRuntime

variable (replica : ReplicaRuntime)

/-- The worker of the replica is alive. -/
def Active : Prop :=
  replica.phase = .starting ∨ replica.phase = .running

/-- The replica is stopped as planned and has never run. -/
def PlannedStopped : Prop :=
  replica.phase = .stopped ∧ replica.desired = .stopped ∧ replica.attempt = 0
    ∧ replica.runId = none ∧ replica.startedAtMs = none ∧ replica.finishedAtMs = none
    ∧ replica.nextStartAtMs = none ∧ replica.lastExitCode = none ∧ replica.detail = none

/-- The replica was stopped by a rollout. -/
def Drained : Prop :=
  replica.phase = .stopped ∧ replica.desired = .running ∧ replica.runId = none
    ∧ replica.finishedAtMs.isSome ∧ replica.nextStartAtMs = none ∧ replica.lastExitCode = none
    ∧ replica.detail = some "drained by rollout"
    ∧ (replica.attempt = 0 ↔ replica.startedAtMs = none)

/-- The replica will not run again by itself. -/
def Terminal : Prop :=
  replica.phase = .succeeded ∨ replica.phase = .failed ∨ replica.phase = .exhausted

/-- The restart policy allows the phase. -/
def PolicyAllowsPhase : Prop :=
  match replica.phase with
  | .backoff | .exhausted => replica.restart ≠ .never
  | .succeeded => replica.restart ≠ .always
  | .failed => replica.restart = .never
  | _ => True

instance (replica : ReplicaRuntime) : Decidable replica.Active :=
  inferInstanceAs (Decidable (_ ∨ _))

instance (replica : ReplicaRuntime) : Decidable replica.PlannedStopped :=
  inferInstanceAs (Decidable (_ ∧ _))

instance (replica : ReplicaRuntime) : Decidable replica.Drained :=
  inferInstanceAs (Decidable (_ ∧ _))

instance (replica : ReplicaRuntime) : Decidable replica.Terminal :=
  inferInstanceAs (Decidable (_ ∨ _))

instance (replica : ReplicaRuntime) : Decidable replica.PolicyAllowsPhase := by
  unfold PolicyAllowsPhase
  split <;> infer_instance

end ReplicaRuntime

/-- The fields of a replica are those of its phase. -/
def validateReplica (replica : ReplicaRuntime) : Except String Unit := do
  rejectIf (¬ validName replica.id.instanceName ∨ replica.id.ordinal = 0
      ∨ replica.maxRestarts > maxStackRestarts ∨ replica.attempt > replica.maxRestarts + 1
      ∨ ∃ value ∈ replica.detail, ¬ validText value 512 false)
    "runtime replica is invalid"
  replica.probe.elim (.ok ()) fun probe => validateProbeRuntime probe replica.phase
  rejectIf ((replica.Active ∧ (replica.attempt = 0 ∨ ¬ replica.runId.any isDigest
        ∨ replica.startedAtMs = none ∨ replica.finishedAtMs.isSome ∨ replica.nextStartAtMs.isSome
        ∨ replica.lastExitCode.isSome ∨ replica.detail.isSome))
      ∨ (replica.phase = .backoff ∧ (replica.attempt = 0 ∨ replica.runId.isSome
        ∨ replica.startedAtMs = none ∨ replica.finishedAtMs = none ∨ replica.nextStartAtMs = none
        ∨ replica.detail = none))
      ∨ (replica.phase = .pending ∧ (replica.attempt ≠ 0 ∨ replica.runId.isSome
        ∨ replica.startedAtMs.isSome ∨ replica.finishedAtMs.isSome ∨ replica.nextStartAtMs.isSome
        ∨ replica.lastExitCode.isSome ∨ replica.detail.isSome))
      ∨ (replica.phase = .stopped ∧ ¬ replica.PlannedStopped ∧ ¬ replica.Drained)
      ∨ (replica.desired = .stopped ∧ ¬ replica.PlannedStopped)
      ∨ (replica.Terminal ∧ (replica.attempt = 0 ∨ replica.startedAtMs = none
        ∨ replica.finishedAtMs = none ∨ replica.nextStartAtMs.isSome ∨ replica.detail = none))
      ∨ (¬ replica.Active ∧ replica.phase ≠ .backoff ∧ replica.phase ≠ .pending
        ∧ replica.runId.isSome)
      ∨ ¬ replica.PolicyAllowsPhase
      ∨ (∃ finished ∈ replica.finishedAtMs, ∃ started ∈ replica.startedAtMs, finished < started)
      ∨ (∃ next ∈ replica.nextStartAtMs, ∃ finished ∈ replica.finishedAtMs, next ≤ finished))
    "runtime replica phase fields are inconsistent"

/-- The order of replicas: by instance, then by ordinal. -/
def ReplicaId.Before (left right : ReplicaId) : Prop :=
  left.instanceName < right.instanceName
    ∨ (left.instanceName = right.instanceName ∧ left.ordinal < right.ordinal)

instance (left right : ReplicaId) : Decidable (left.Before right) :=
  inferInstanceAs (Decidable (_ ∨ _))

/-- One turn of the loop over the replicas; the state is the last identity. Identities in strict
order are distinct, so the set of the source adds nothing to it. -/
def scanReplica (previous : Option ReplicaId) (replica : ReplicaRuntime) :
    Except String (Option ReplicaId) := do
  validateReplica replica
  rejectIf (∃ value ∈ previous, ¬ value.Before replica.id)
    "runtime replicas are not strictly sorted"
  pure (some replica.id)

section

variable [HexCodec] [Sha256]

namespace StackRuntimeStatus

variable (status : StackRuntimeStatus)

/-- The digest of the status without its own digest. -/
def computedSha256 : String :=
  sha256Hex (encode { status with statusSha256 := "" })

/-- Check the status and its replicas, which are in order. -/
def validate : Except String Unit := do
  rejectIf (status.formatVersion ∉ [legacySupervisorStatusFormatVersion,
        supervisorStatusFormatVersion]
      ∨ (status.formatVersion = legacySupervisorStatusFormatVersion
        ∧ ∃ replica ∈ status.replicas, replica.probe.isSome)
      ∨ ¬ validName status.stack ∨ status.revision = 0 ∨ ¬ isDigest status.generation
      ∨ status.observedAtMs = 0 ∨ status.replicas.length > maxStackTotalReplicas
      ∨ ¬ isDigest status.statusSha256 ∨ status.computedSha256 ≠ status.statusSha256)
    "runtime status identity is invalid"
  discard (status.replicas.foldlM scanReplica none)

/-- Seal the status with its digest and check it. -/
def refresh : Except String Unit × StackRuntimeStatus :=
  let refreshed := { status with statusSha256 := status.computedSha256 }
  (refreshed.validate, refreshed)

/-- The replicas of an instance as they are before their first start. -/
def plannedReplicas (planned : PlannedInstance) : List ReplicaRuntime :=
  (List.range' 1 planned.replicas).map fun ordinal =>
    { id := ⟨planned.name, ordinal⟩
      desired := planned.desired
      restart := planned.restart
      maxRestarts := planned.maxRestarts
      attempt := 0
      phase := if planned.desired = .running then .pending else .stopped
      runId := none
      startedAtMs := none
      finishedAtMs := none
      nextStartAtMs := none
      lastExitCode := none
      detail := none
      probe := if planned.desired = .running then planned.health.map fun _ => {} else none }

/-- The status of a generation before its first start. -/
def fromPlan [Semver] (plan : StackPlan) (revision : UInt64) (generation : String)
    (nowMs : UInt64) : Except String StackRuntimeStatus := do
  plan.validate
  rejectIf (revision = 0 ∨ ¬ isDigest generation ∨ nowMs = 0)
    "runtime generation identity is invalid"
  let (result, value) := refresh
    { formatVersion := supervisorStatusFormatVersion
      stack := plan.stack
      revision
      generation
      observedAtMs := nowMs
      replicas := plan.instances.flatMap plannedReplicas
      statusSha256 := "" }
  result
  pure value

/-- A replica is of another plan than the expected one. -/
def Mismatch (actual expected : ReplicaRuntime) : Prop :=
  actual.id ≠ expected.id ∨ actual.desired ≠ expected.desired ∨ actual.restart ≠ expected.restart
    ∨ actual.maxRestarts ≠ expected.maxRestarts ∨ actual.probe.isSome ≠ expected.probe.isSome

instance (actual expected : ReplicaRuntime) : Decidable (Mismatch actual expected) :=
  inferInstanceAs (Decidable (_ ∨ _))

/-- The status is one of this plan and generation. -/
def validateAgainst [Semver] (status : StackRuntimeStatus) (plan : StackPlan) (revision : UInt64)
    (generation : String) : Except String Unit := do
  status.validate
  let expected ← fromPlan plan revision generation status.observedAtMs
  rejectIf (status.stack ≠ expected.stack ∨ status.revision ≠ revision
      ∨ status.generation ≠ generation ∨ status.replicas.length ≠ expected.replicas.length
      ∨ ∃ pair ∈ status.replicas.zip expected.replicas, Mismatch pair.1 pair.2)
    "runtime status does not match the desired generation"

end StackRuntimeStatus

/-! ## Transitions of one replica -/

/-- The little-endian bytes of a 16-bit number. -/
def shortBytes (value : Nat) : List UInt8 :=
  [.ofNat (value % 256), .ofNat (value / 256 % 256)]

omit [HexCodec] in
/-- How long a replica waits, longer after each attempt, with a jitter of its own. -/
def restartBackoffMs (id : ReplicaId) (attempt : Nat) : UInt64 :=
  let base := min (minRestartBackoffMs * 2 ^ min (attempt - 1) 7) maxRestartBackoffMs
  let bytes := Sha256.digest
    (utf8 id.instanceName.toList ++ shortBytes id.ordinal ++ shortBytes attempt)
  let word : UInt64 := .ofNat ((bytes.getD 0 0).toNat + 256 * (bytes.getD 1 0).toNat)
  let jitter := word % (base / 4 + 1)
  min (saturatingAdd base jitter) maxRestartBackoffMs

namespace ReplicaRuntime

variable (replica : ReplicaRuntime)

/-- The replica may be started now. -/
def Eligible (nowMs : UInt64) : Prop :=
  match replica.phase with
  | .pending => True
  | .backoff => ∃ deadline ∈ replica.nextStartAtMs, deadline ≤ nowMs
  | _ => False

instance (replica : ReplicaRuntime) (nowMs : UInt64) : Decidable (replica.Eligible nowMs) := by
  unfold Eligible
  split <;> infer_instance

/-- The worker of the replica is alive in this run. -/
def ActiveIn (runId : String) : Prop :=
  replica.Active ∧ replica.runId = some runId

instance (replica : ReplicaRuntime) (runId : String) : Decidable (replica.ActiveIn runId) :=
  inferInstanceAs (Decidable (_ ∧ _))

omit [HexCodec] in
/-- The replica after its process has ended. -/
def finishReplica (success : Bool) (exitCode : Option Int) (detail : String) (nowMs : UInt64) :
    ReplicaRuntime :=
  let restart : Bool := match replica.restart with
    | .never => false
    | .onFailure => !success
    | .always => true
  let finished := { replica with
    runId := none, finishedAtMs := some nowMs, lastExitCode := exitCode, detail := some detail }
  if restart ∧ replica.attempt < replica.maxRestarts + 1 then
    { finished with
      phase := .backoff
      nextStartAtMs := some (saturatingAdd nowMs (restartBackoffMs replica.id replica.attempt)) }
  else
    { finished with
      phase := if restart then .exhausted else if success then .succeeded else .failed
      nextStartAtMs := none }

/-- Start a replica that is due. -/
def beginStart (runId : String) (nowMs : UInt64) (replica : ReplicaRuntime) :
    Except String Nat × ReplicaRuntime :=
  if ¬ replica.Eligible nowMs ∨ replica.desired ≠ .running then
    (.error "replica is not eligible to start", replica)
  else
    match checkedAddShort replica.attempt 1 with
    | none => (.error "replica attempt counter overflow", replica)
    | some attempt =>
      if attempt > replica.maxRestarts + 1 then
        (.error "replica restart budget is exhausted", replica)
      else
        (.ok attempt, { replica with
          attempt, phase := .starting, runId := some runId, startedAtMs := some nowMs
          finishedAtMs := none, nextStartAtMs := none, lastExitCode := none, detail := none
          probe := replica.probe.map fun _ => {} })

/-- The process of a replica without a probe has started. -/
def markRunning (runId : String) (replica : ReplicaRuntime) : Except String Unit × ReplicaRuntime :=
  if replica.phase ≠ .starting ∨ replica.runId ≠ some runId then
    (.error "stale or unexpected replica start acknowledgement", replica)
  else if replica.probe.isSome then
    (.error "probe-gated replica requires an application ready signal", replica)
  else (.ok (), { replica with phase := .running })

/-- A failed health check of a replica. The counter is stored before it is compared with its
limit. -/
def countFailure (probe : ReplicaProbeRuntime) : Except String Nat × ReplicaRuntime :=
  let unhealthy := { probe with phase := .unhealthy, readyAtMs := none }
  match checkedAddShort probe.consecutiveFailures 1 with
  | none => (.error "application health failure counter overflow",
      { replica with probe := some unhealthy })
  | some failures =>
    let counted := { replica with
      probe := some { unhealthy with consecutiveFailures := failures } }
    if failures > maxProbeFailureThreshold then
      (.error "application health failure counter exceeded its limit", counted)
    else (.ok failures, counted)

/-- The application has reported itself. -/
def markProbeSignal (runId : String) (sequence : UInt64) (kind : ProbeSignalKind) (nowMs : UInt64)
    (replica : ReplicaRuntime) : Except String Unit × ReplicaRuntime :=
  if ¬ replica.ActiveIn runId then
    (.error "stale or unexpected application health signal", replica)
  else
    match replica.probe with
    | none => (.error "replica does not require application health signals", replica)
    | some probe =>
      if sequence ≤ probe.lastSequence then
        (.error "application health signal was replayed or reordered", replica)
      else
        let probe := { probe with lastSequence := sequence, lastSignalAtMs := some nowMs }
        match kind with
        | .started | .heartbeat => (.ok (), { replica with probe := some probe })
        | .ready => (.ok (), { replica with
            phase := .running
            probe := some { probe with
              phase := .ready, readyAtMs := some nowMs, consecutiveFailures := 0 } })
        | .unhealthy =>
          let (result, replica) := replica.countFailure probe
          (result.map fun _ => (), replica)

/-- The application has not reported itself in time. -/
def markProbeTimeout (runId : String) (replica : ReplicaRuntime) :
    Except String Nat × ReplicaRuntime :=
  if ¬ replica.ActiveIn runId then
    (.error "stale or unexpected application health timeout", replica)
  else
    match replica.probe with
    | none => (.error "replica does not require application health signals", replica)
    | some probe => replica.countFailure probe

omit [HexCodec] in
/-- The process of a replica has ended. -/
def markExit (runId : String) (success : Bool) (exitCode : Option Int) (detail : String)
    (nowMs : UInt64) (replica : ReplicaRuntime) : Except String Unit × ReplicaRuntime :=
  if ¬ replica.ActiveIn runId then (.error "stale or unexpected replica exit", replica)
  else (.ok (), replica.finishReplica success exitCode detail nowMs)

/-- The replica was drained. -/
def markDrained (runId : Option String) (nowMs : UInt64) (replica : ReplicaRuntime) :
    Except String Unit × ReplicaRuntime :=
  if replica.desired ≠ .running ∨ replica.phase = .stopped ∨ ¬ (replica.Active ↔ runId.isSome)
      ∨ (replica.Active ∧ replica.runId ≠ runId) then
    (.error "stale or unexpected replica drain", replica)
  else
    (.ok (), { replica with
      phase := .stopped, runId := none, finishedAtMs := some nowMs, nextStartAtMs := none
      lastExitCode := none, detail := some "drained by rollout" })

end ReplicaRuntime

/-! ## Methods of the status -/

namespace StackRuntimeStatus

/-- Set the time of observation and refresh the status, after a step that succeeded. -/
def observe {α : Type} (nowMs : UInt64) (result : Except String α) (status : StackRuntimeStatus) :
    Except String α × StackRuntimeStatus :=
  match result with
  | .error error => (.error error, status)
  | .ok value =>
    let (refreshed, status) := refresh { status with observedAtMs := nowMs }
    (refreshed.map fun _ => value, status)

/-- What the methods for one replica have in common: their own check, the transition of the replica
and the refresh of the status. -/
def transition {α : Type} (invalid : Prop) [Decidable invalid] (error : String) (id : ReplicaId)
    (step : ReplicaRuntime → Except String α × ReplicaRuntime) (nowMs : UInt64)
    (status : StackRuntimeStatus) : Except String α × StackRuntimeStatus :=
  if invalid then (.error error, status)
  else
    let (result, replicas) := updateFirst (fun replica => replica.id = id)
      "replica is not part of this runtime generation" step status.replicas
    observe nowMs result { status with replicas }

def beginStart (id : ReplicaId) (runId : String) (nowMs : UInt64) (status : StackRuntimeStatus) :
    Except String Nat × StackRuntimeStatus :=
  status.transition (¬ isDigest runId ∨ nowMs < status.observedAtMs)
    "replica run identity is invalid" id (ReplicaRuntime.beginStart runId nowMs) nowMs

def markRunning (id : ReplicaId) (runId : String) (nowMs : UInt64) (status : StackRuntimeStatus) :
    Except String Unit × StackRuntimeStatus :=
  status.transition (nowMs < status.observedAtMs) "runtime observation time cannot move backwards"
    id (ReplicaRuntime.markRunning runId) nowMs

def markProbeSignal (id : ReplicaId) (runId : String) (sequence : UInt64) (kind : ProbeSignalKind)
    (nowMs : UInt64) (status : StackRuntimeStatus) : Except String Unit × StackRuntimeStatus :=
  status.transition (nowMs < status.observedAtMs) "runtime observation time cannot move backwards"
    id (ReplicaRuntime.markProbeSignal runId sequence kind nowMs) nowMs

def markProbeTimeout (id : ReplicaId) (runId : String) (nowMs : UInt64)
    (status : StackRuntimeStatus) : Except String Nat × StackRuntimeStatus :=
  status.transition (nowMs < status.observedAtMs) "runtime observation time cannot move backwards"
    id (ReplicaRuntime.markProbeTimeout runId) nowMs

def markExit (id : ReplicaId) (runId : String) (success : Bool) (exitCode : Option Int)
    (detail : String) (nowMs : UInt64) (status : StackRuntimeStatus) :
    Except String Unit × StackRuntimeStatus :=
  status.transition (¬ validText detail 512 false ∨ nowMs < status.observedAtMs)
    "replica exit detail is invalid" id
    (ReplicaRuntime.markExit runId success exitCode detail nowMs) nowMs

def markDrained (id : ReplicaId) (runId : Option String) (nowMs : UInt64)
    (status : StackRuntimeStatus) : Except String Unit × StackRuntimeStatus :=
  status.transition (nowMs < status.observedAtMs) "runtime observation time cannot move backwards"
    id (ReplicaRuntime.markDrained runId nowMs) nowMs

/-- Replicas that a supervisor left behind have ended. -/
def recoverInterrupted (nowMs : UInt64) (status : StackRuntimeStatus) :
    Except String Nat × StackRuntimeStatus :=
  if nowMs < status.observedAtMs then
    (.error "runtime observation time cannot move backwards", status)
  else
    let recovered := status.replicas.countP fun replica => replica.Active
    let replicas := status.replicas.map fun replica =>
      if replica.Active then
        replica.finishReplica false none "previous supervisor exited before the worker" nowMs
      else replica
    if recovered > 0 then observe nowMs (.ok recovered) { status with replicas }
    else (.ok 0, { status with replicas })

/-- The supervisor is alive. -/
def heartbeat (nowMs : UInt64) (status : StackRuntimeStatus) :
    Except String Unit × StackRuntimeStatus :=
  if nowMs < status.observedAtMs then
    (.error "runtime observation time cannot move backwards", status)
  else observe nowMs (.ok ()) status

end StackRuntimeStatus

end

end CartridgeRuntime.Engine
