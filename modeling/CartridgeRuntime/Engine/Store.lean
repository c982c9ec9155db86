import CartridgeRuntime.Engine.Health
import CartridgeRuntime.Engine.Progress
import CartridgeRuntime.Library.Durable

/-!
# The calls of the engine

The engine keeps the journal of events of each stack, the checkpoint of its rollout and the
progress of that rollout. `StackStore` is what the calls need from the place where these are kept,
and `EngineCall.run` performs a call on any such place.
-/

namespace CartridgeRuntime.Engine

open Checked CartridgeRuntime.Core Encoding Durable

def maxEngineEventsPerStack : Nat := 4096
def maxEngineStacks : Nat := 1024
def maxEngineEventBytes : Nat := 16 * 1024 * 1024
def maxEngineEventHistoryBytes : Nat := 64 * 1024 * 1024
def maxRolloutHistory : Nat := 256
def maxRolloutHistoryBytes : Nat := 256 * 1024 * 1024

/-- Why a call fails. A document that cannot be read or is not valid has a text of its own. -/
inductive EngineError where
  | rejected (text : String)
  | stackNameInvalid
  | eventHistoryExceeded
  | eventBytesExceeded
  | eventBytesOverflow
  | eventUnbounded
  | chainInvalid
  | eventHistoryReached
  | eventDiscontinuous
  | eventTooLarge
  | eventBytesReached
  | eventStackMissing
  | unsafeStackDirectory
  | stackLimitExceeded
  | stackLimitReached
  | stackUnknown
  | stackRemoved
  | activePlanMissing
  | insecureApply
  | insecureRollout
  | rolloutFence
  | rolloutUnbounded
  | rolloutForeign
  | rolloutTooLarge
  | rolloutActive
  | candidateDesired
  | rolloutNotPrepared
  | rolloutNotActive
  | healthNotReady (state : StackHealthState)
  | runtimeMissing
  | rolloutUnstable
  | rolloutIdInvalid
  | rolloutMissing
  | rolloutIdMismatch
  | activationEventMissing
  | rollbackEventMissing
  | archiveActive
  | archiveUnexpected
  | archiveBytesOverflow
  | archiveCollision
  | archiveFull
  | progressActive
  | progressUnbounded
  | progressForeign
  | progressTooLarge
  | progressCheckpointMissing
  | progressMismatch
  | progressOfAnother
  | replacementInProgress
  | fileExists
deriving DecidableEq

/-- The check of a document, as part of a call. -/
def nested {α : Type} (result : Except String α) : Except EngineError α :=
  mapError .rejected result

/-- Refuse a name that no stack can have. -/
def requireName (stack : String) : Except EngineError Unit :=
  rejectIf (¬ validName stack) .stackNameInvalid

/-- Where the journals, checkpoints and progress of stacks are kept. -/
class StackStore (σ : Type) (ω : outParam Type) [Acts σ ω] where
  /-- The names of the stack directories, in order. -/
  names : σ → List String
  /-- The journal of a stack. -/
  readEvents : σ → String → Except EngineError (List EngineEvent)
  /-- Add an event to the journal of its stack. -/
  append : EngineEvent → Durable σ ω EngineError Unit
  /-- The checkpoint of a stack, after an interrupted replacement of it is undone or finished. -/
  rolloutFile : String → Durable σ ω EngineError (Option RolloutRecord)
  /-- Replace the checkpoint of a stack. -/
  writeRolloutFile : String → RolloutRecord → Durable σ ω EngineError Unit
  /-- Keep a copy of a terminal checkpoint. -/
  archiveRollout : RolloutRecord → Durable σ ω EngineError Unit
  /-- The progress of a stack, after an interrupted replacement of it is undone or finished. -/
  progressFile : String → Durable σ ω EngineError (Option RolloutProgress)
  /-- Undo or finish an interrupted replacement of the progress of a stack. -/
  recoverProgressFile : String → Durable σ ω EngineError Unit
  /-- Replace the progress of a stack. -/
  writeProgressFile : String → RolloutProgress → Durable σ ω EngineError Unit
  /-- Remove the progress of a stack. -/
  removeProgressFile : String → Durable σ ω EngineError Unit

export StackStore (append rolloutFile writeRolloutFile archiveRollout progressFile
  recoverProgressFile writeProgressFile removeProgressFile)

/-! ## The journal -/

section

variable {σ ω : Type} [Acts σ ω] [StackStore σ ω]

/-- The journal of a stack. -/
def events (store : σ) (stack : String) : Except EngineError (List EngineEvent) := do
  requireName stack
  StackStore.readEvents store stack

/-- The last event of a stack. -/
def latest (store : σ) (stack : String) : Except EngineError (Option EngineEvent) := do
  let events ← events store stack
  pure events.getLast?

/-- Add the name of a stack directory to the inventory. -/
def scanStack (names : List String) (name : String) : Except EngineError (List String) := do
  rejectIf (¬ validName name) .unsafeStackDirectory
  rejectIf (names.length + 1 > maxEngineStacks) .stackLimitExceeded
  pure (names ++ [name])

/-- The status of every stack that has a journal. -/
def list (store : σ) : Except EngineError (List StackStatus) := do
  let names ← (StackStore.names store).foldlM scanStack []
  let statuses ← names.mapM fun name => (latest store name).map (·.map EngineEvent.status)
  pure statuses.reduceOption

/-- A stack that has no event yet needs a place among the stacks. -/
def admitStack (store : σ) (previous : Option EngineEvent) : Except EngineError Unit :=
  if previous.isNone then do
    let known ← list store
    rejectIf (known.length ≥ maxEngineStacks) .stackLimitReached
  else .ok ()

end

/-- The event that follows another one. -/
def nextEvent [HexCodec] [Sha256] [Semver] (previous : Option EngineEvent)
    (kind : EngineEventKind) (plan : Option StackPlan) (clockMs : UInt64) :
    Except EngineError EngineEvent := do
  let stack ← okOr ((plan.map StackPlan.stack).or (previous.map EngineEvent.stack))
    .eventStackMissing
  nested (EngineEvent.new (previous.elim 1 (·.revision + 1)) stack kind
    (previous.elim "" EngineEvent.eventSha256) plan clockMs)

/-- The event asks for this plan. -/
def EngineEvent.applies (event : EngineEvent) (plan : StackPlan) : Bool :=
  event.kind = .apply ∧ event.plan.map StackPlan.planSha256 = some plan.planSha256

/-! ## Moves of a checkpoint -/

section

variable [HexCodec] [Sha256] [Semver]

namespace RolloutRecord

/-- The checkpoint after its candidate became the given event. -/
def activate (record : RolloutRecord) (event : EngineEvent) (updatedAtMs : UInt64) :
    Except String RolloutRecord :=
  refresh { record with
    phase := .activated
    updatedAtMs
    activatedRevision := some event.revision
    activatedGeneration := some event.eventSha256 }

/-- The checkpoint after a health report allowed it to commit. -/
def commit (record : RolloutRecord) (reportSha256 : String) (updatedAtMs : UInt64) :
    Except String RolloutRecord :=
  refresh { record with phase := .committed, updatedAtMs, healthReportSha256 := some reportSha256 }

/-- The checkpoint after the given event undid it. -/
def rollBack (record : RolloutRecord) (event : EngineEvent) (updatedAtMs : UInt64) :
    Except String RolloutRecord :=
  refresh { record with
    phase := .rolledBack
    updatedAtMs
    rollbackRevision := some event.revision
    rollbackGeneration := some event.eventSha256 }

/-- The checkpoint after it was given up before its activation. -/
def cancel (record : RolloutRecord) (updatedAtMs : UInt64) : Except String RolloutRecord :=
  refresh { record with phase := .cancelled, updatedAtMs }

end RolloutRecord

/-- The checkpoint that the journal implies, when that is another one. -/
def recoverRolloutCheckpoint (record : RolloutRecord) (current : Option EngineEvent) :
    Except EngineError (Option RolloutRecord) :=
  match record.phase with
  | .prepared =>
    if matchesCandidate record current then do
      let event ← okOr current .activationEventMissing
      some <$> nested (record.activate event (max record.updatedAtMs event.createdAtMs))
    else do
      nested (ensureMatchesPrevious record current)
      pure none
  | .activated =>
    if matchesRollback record current then do
      let event ← okOr current .rollbackEventMissing
      some <$> nested (record.rollBack event (max record.updatedAtMs event.createdAtMs))
    else do
      nested (ensureMatchesActivation record current)
      pure none
  | .committed | .rolledBack | .cancelled => pure none

/-- The progress belongs to the rollout. -/
def validateProgressAgainstRollout (progress : RolloutProgress) (rollout : RolloutRecord) :
    Except EngineError Unit := do
  nested rollout.validate
  rejectIf (progress.rolloutId ≠ rollout.rolloutId ∨ progress.stack ≠ rollout.stack
      ∨ progress.previousRevision ≠ rollout.previousRevision
      ∨ progress.previousGeneration ≠ rollout.previousGeneration
      ∨ some progress.candidateRevision ≠ rollout.activatedRevision
      ∨ some progress.candidateGeneration ≠ rollout.activatedGeneration)
    .progressMismatch

/-- The replica was ready for long enough, or has ended as it should. -/
def stable (nowMs : UInt64) (replica : ReplicaRuntime) : Bool :=
  match replica.phase with
  | .running => (replica.probe.elim replica.startedAtMs ReplicaProbeRuntime.readyAtMs).any
      fun started => saturatingSub nowMs started ≥ rolloutStabilityWindowMs
  | .succeeded => true
  | .stopped => replica.desired = .stopped
  | _ => false

/-- The health of a stack allows its rollout to commit. -/
def ensureCommits (record : RolloutRecord) (health : StackHealthReport)
    (observed : Except String (Option StackRuntimeStatus)) (nowMs : UInt64) :
    Except EngineError Unit := do
  let stoppedCandidate := health.state = .stopped ∧ health.desiredReplicas = 0
    ∧ ∀ planned ∈ record.candidatePlan.instances, planned.desired = .stopped
  rejectIf (¬ health.ready ∧ ¬ stoppedCandidate) (.healthNotReady health.state)
  if health.state = .healthy then
    let runtime ← nested observed
    let runtime ← okOr runtime .runtimeMissing
    rejectIf (∃ replica ∈ runtime.replicas, ¬ stable nowMs replica) .rolloutUnstable

end

/-! ## Calls -/

/-- What a call on the journal answers. -/
structure ApplyReport where
  changed : Bool
  status : StackStatus
deriving DecidableEq

section

variable {σ ω : Type} [Acts σ ω] [StackStore σ ω] [HexCodec] [Sha256] [Semver]

/-- The checkpoint of a stack, brought up to date with its journal. -/
def rollout (stack : String) : Durable σ ω EngineError (Option RolloutRecord) := do
  check (requireName stack)
  let file ← rolloutFile stack
  match file with
  | none => pure none
  | some record => do
    check (rejectIf (record.stack ≠ stack) .rolloutForeign)
    let current ← consult (latest · record.stack)
    let recovered ← check (recoverRolloutCheckpoint record current)
    match recovered with
    | none => pure (some record)
    | some recovered => do
      writeRolloutFile stack recovered
      pure (some recovered)

/-- Refuse a call while a rollout is active. -/
def ensureNoActiveRollout (stack : String) : Durable σ ω EngineError Unit := do
  let record ← rollout stack
  check (rejectIf (record.any RolloutRecord.active) .rolloutFence)

/-- The checkpoint of a stack, when it has this identity. -/
def requireRollout (stack rolloutId : String) : Durable σ ω EngineError RolloutRecord := do
  check (rejectIf (¬ isDigest rolloutId) .rolloutIdInvalid)
  let record ← rollout stack
  let record ← check (okOr record .rolloutMissing)
  check (rejectIf (record.rolloutId ≠ rolloutId) .rolloutIdMismatch)
  pure record

/-- Append an event and report the status after it. -/
def appendChange (event : EngineEvent) : Durable σ ω EngineError ApplyReport := do
  append event
  pure ⟨true, event.status⟩

/-- Append the event of a plan, unless it is applied already. -/
def apply (plan : StackPlan) (allowInsecure : Bool) (clockMs : UInt64) :
    Durable σ ω EngineError ApplyReport := do
  check (nested plan.validate)
  ensureNoActiveRollout plan.stack
  check (rejectIf (plan.security.sandbox = .disabled ∧ ¬ allowInsecure) .insecureApply)
  let previous ← consult (latest · plan.stack)
  consult (admitStack · previous)
  match previous.filter (·.applies plan) with
  | some previous => pure ⟨false, previous.status⟩
  | none => do
    let event ← check (nextEvent previous .apply (some plan) clockMs)
    appendChange event

/-- Append an event that stops all instances. -/
def stop (stack : String) (clockMs : UInt64) : Durable σ ω EngineError ApplyReport := do
  ensureNoActiveRollout stack
  let previous ← consult (latest · stack)
  let previous ← check (okOr previous .stackUnknown)
  match previous.kind with
  | .remove => check (.error .stackRemoved)
  | .stop => pure ⟨false, previous.status⟩
  | .apply => do
    let plan ← check (okOr previous.plan .activePlanMissing)
    let plan ← check (nested plan.stopped)
    let event ← check (nextEvent (some previous) .stop (some plan) clockMs)
    appendChange event

/-- Append an event that removes the stack. -/
def remove (stack : String) (clockMs : UInt64) : Durable σ ω EngineError ApplyReport := do
  ensureNoActiveRollout stack
  let previous ← consult (latest · stack)
  let previous ← check (okOr previous .stackUnknown)
  match previous.kind with
  | .remove => pure ⟨false, previous.status⟩
  | .apply | .stop => do
    let event ← check (nextEvent (some previous) .remove none clockMs)
    appendChange event

/-- Remove the progress of a rollout that has ended. -/
def removeTerminalRolloutProgress (rollout : RolloutRecord) : Durable σ ω EngineError Unit := do
  check (rejectIf (¬ rollout.terminal) .progressActive)
  check (requireName rollout.stack)
  let file ← progressFile rollout.stack
  match file with
  | none => pure ()
  | some progress => do
    check (validateProgressAgainstRollout progress rollout)
    removeProgressFile rollout.stack

/-- Put a terminal checkpoint aside. -/
def retireRollout (current : RolloutRecord) : Durable σ ω EngineError (Option RolloutRecord) := do
  removeTerminalRolloutProgress current
  archiveRollout current
  pure none

/-- The checkpoint that already prepared or committed the plan; any other one is put aside. -/
def settleRollout (plan : StackPlan) (current : RolloutRecord) :
    Durable σ ω EngineError (Option RolloutRecord) :=
  if current.active then
    if current.phase = .prepared ∧ current.candidatePlan.planSha256 = plan.planSha256 then
      pure (some current)
    else check (.error .rolloutActive)
  else if current.phase = .committed ∧ current.candidatePlan.planSha256 = plan.planSha256 then do
    let event ← consult (latest · plan.stack)
    match ensureMatchesActivation current event with
    | .ok () => pure (some current)
    | .error _ => retireRollout current
  else retireRollout current

/-- Write the checkpoint of a new rollout. -/
def startRollout (plan : StackPlan) (nowMs : UInt64) : Durable σ ω EngineError RolloutRecord := do
  let previous ← consult (latest · plan.stack)
  consult (admitStack · previous)
  check (rejectIf (previous.any (·.applies plan)) .candidateDesired)
  let record ← check (nested (RolloutRecord.new plan previous nowMs))
  writeRolloutFile plan.stack record
  pure record

/-- Begin a rollout once the one before it is archived. -/
def prepareRollout (plan : StackPlan) (allowInsecure : Bool) (nowMs : UInt64) :
    Durable σ ω EngineError RolloutRecord := do
  check (nested plan.validate)
  check (rejectIf (plan.security.sandbox = .disabled ∧ ¬ allowInsecure) .insecureRollout)
  let current ← rollout plan.stack
  match current with
  | none => startRollout plan nowMs
  | some current => do
    let settled ← settleRollout plan current
    match settled with
    | some current => pure current
    | none => startRollout plan nowMs

/-- Append the event of the candidate and record it. -/
def activateRollout (stack rolloutId : String) (nowMs clockMs : UInt64) :
    Durable σ ω EngineError RolloutRecord := do
  let record ← requireRollout stack rolloutId
  if record.phase = .activated then pure record
  else do
    check (rejectIf (record.phase ≠ .prepared) .rolloutNotPrepared)
    check (nested (ensureTimeAdvances record nowMs))
    let previous ← consult (latest · stack)
    check (nested (ensureMatchesPrevious record previous))
    let event ← check (nextEvent previous .apply (some record.candidatePlan) clockMs)
    append event
    let record ← check (nested (record.activate event nowMs))
    writeRolloutFile stack record
    pure record

/-- The health of a stack, from what its runtime status was read as. -/
def health (store : σ) (stack : String) (observed : Except String (Option StackRuntimeStatus))
    (nowMs : UInt64) : Except EngineError StackHealthReport := do
  let event ← latest store stack
  let event ← okOr event .stackUnknown
  let runtime ← nested observed
  nested (StackHealthReport.fromStatus event.status runtime nowMs)

/-- Record that the candidate is healthy. -/
def commitRollout (stack rolloutId : String) (nowMs : UInt64)
    (observed : Except String (Option StackRuntimeStatus)) :
    Durable σ ω EngineError RolloutRecord := do
  let record ← requireRollout stack rolloutId
  if record.phase = .committed then pure record
  else do
    check (rejectIf (record.phase ≠ .activated) .rolloutNotActive)
    check (nested (ensureTimeAdvances record nowMs))
    let current ← consult (latest · stack)
    check (nested (ensureMatchesActivation record current))
    let health ← consult (health · stack observed nowMs)
    check (ensureCommits record health observed nowMs)
    let record ← check (nested (record.commit health.reportSha256 nowMs))
    writeRolloutFile stack record
    pure record

/-- Give up a prepared rollout. -/
def cancelRollout (stack : String) (record : RolloutRecord) (nowMs : UInt64) :
    Durable σ ω EngineError RolloutRecord := do
  let current ← consult (latest · stack)
  check (nested (ensureMatchesPrevious record current))
  let record ← check (nested (record.cancel nowMs))
  writeRolloutFile stack record
  pure record

/-- Undo an activated rollout. -/
def undoRollout (stack : String) (record : RolloutRecord) (nowMs clockMs : UInt64) :
    Durable σ ω EngineError RolloutRecord := do
  let current ← consult (latest · stack)
  check (nested (ensureMatchesActivation record current))
  let target ← check (nested (rollbackTarget record))
  let event ← check (nextEvent current target.1 target.2 clockMs)
  append event
  let record ← check (nested (record.rollBack event nowMs))
  writeRolloutFile stack record
  pure record

/-- Give up a prepared rollout, or append the event that undoes it. -/
def rollbackRollout (stack rolloutId : String) (nowMs clockMs : UInt64) :
    Durable σ ω EngineError RolloutRecord := do
  let record ← requireRollout stack rolloutId
  match record.phase with
  | .cancelled | .rolledBack => pure record
  | .prepared => do
    check (nested (ensureTimeAdvances record nowMs))
    cancelRollout stack record nowMs
  | .activated | .committed => do
    check (nested (ensureTimeAdvances record nowMs))
    undoRollout stack record nowMs clockMs

/-- The progress of the rollout of a stack. -/
def rolloutProgress (stack : String) : Durable σ ω EngineError (Option RolloutProgress) := do
  check (requireName stack)
  let file ← progressFile stack
  match file with
  | none => pure none
  | some progress => do
    check (rejectIf (progress.stack ≠ stack) .progressForeign)
    let record ← rollout stack
    let record ← check (okOr record .progressCheckpointMissing)
    check (validateProgressAgainstRollout progress record)
    pure (some progress)

/-- Begin the progress of a rollout, or go on with it. -/
def beginRolloutProgress (stack rolloutId : String) (nowMs : UInt64) :
    Durable σ ω EngineError RolloutProgress := do
  let progress ← rolloutProgress stack
  match progress with
  | some progress => do
    check (rejectIf (progress.rolloutId ≠ rolloutId) .progressOfAnother)
    pure progress
  | none => do
    let record ← rollout stack
    let record ← check (okOr record .rolloutMissing)
    check (rejectIf (record.rolloutId ≠ rolloutId) .rolloutIdMismatch)
    let progress ← check (nested (RolloutProgress.fromRollout record nowMs))
    writeProgressFile stack progress
    pure progress

/-- Replace the progress of a rollout. -/
def saveRolloutProgress (progress : RolloutProgress) : Durable σ ω EngineError Unit := do
  check (nested progress.validate)
  let record ← rollout progress.stack
  let record ← check (okOr record .progressCheckpointMissing)
  check (validateProgressAgainstRollout progress record)
  recoverProgressFile progress.stack
  writeProgressFile progress.stack progress

end

/-- A call, with the times that it is given and that the system clock shows. -/
inductive EngineCall where
  | apply (plan : StackPlan) (allowInsecure : Bool) (clockMs : UInt64)
  | stop (stack : String) (clockMs : UInt64)
  | remove (stack : String) (clockMs : UInt64)
  | rollout (stack : String)
  | prepareRollout (plan : StackPlan) (allowInsecure : Bool) (nowMs : UInt64)
  | activateRollout (stack rolloutId : String) (nowMs clockMs : UInt64)
  | commitRollout (stack rolloutId : String) (nowMs : UInt64)
      (observed : Except String (Option StackRuntimeStatus))
  | rollbackRollout (stack rolloutId : String) (nowMs clockMs : UInt64)
  | beginRolloutProgress (stack rolloutId : String) (nowMs : UInt64)
  | saveRolloutProgress (progress : RolloutProgress)

/-- What a call returns. -/
inductive EngineAnswer where
  | report (report : ApplyReport)
  | checkpoint (record : Option RolloutRecord)
  | progress (progress : RolloutProgress)

/-- The stack that a call is about. -/
def EngineCall.stack : EngineCall → String
  | .apply plan _ _ | .prepareRollout plan _ _ => plan.stack
  | .stop stack _ | .remove stack _ | .rollout stack | .activateRollout stack _ _ _
  | .commitRollout stack _ _ _ | .rollbackRollout stack _ _ _
  | .beginRolloutProgress stack _ _ => stack
  | .saveRolloutProgress progress => progress.stack

/-- Perform a call on a store. -/
def EngineCall.run {σ ω : Type} [Acts σ ω] [StackStore σ ω] [HexCodec] [Sha256] [Semver] :
    EngineCall → Durable σ ω EngineError EngineAnswer
  | .apply plan allowInsecure clockMs => .report <$> Engine.apply plan allowInsecure clockMs
  | .stop stack clockMs => .report <$> Engine.stop stack clockMs
  | .remove stack clockMs => .report <$> Engine.remove stack clockMs
  | .rollout stack => .checkpoint <$> Engine.rollout stack
  | .prepareRollout plan allowInsecure nowMs =>
    (.checkpoint ∘ some) <$> Engine.prepareRollout plan allowInsecure nowMs
  | .activateRollout stack rolloutId nowMs clockMs =>
    (.checkpoint ∘ some) <$> Engine.activateRollout stack rolloutId nowMs clockMs
  | .commitRollout stack rolloutId nowMs observed =>
    (.checkpoint ∘ some) <$> Engine.commitRollout stack rolloutId nowMs observed
  | .rollbackRollout stack rolloutId nowMs clockMs =>
    (.checkpoint ∘ some) <$> Engine.rollbackRollout stack rolloutId nowMs clockMs
  | .beginRolloutProgress stack rolloutId nowMs =>
    .progress <$> Engine.beginRolloutProgress stack rolloutId nowMs
  | .saveRolloutProgress progress =>
    (fun _ => .progress progress) <$> Engine.saveRolloutProgress progress

end CartridgeRuntime.Engine
