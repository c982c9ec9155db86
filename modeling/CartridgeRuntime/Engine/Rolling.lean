import CartridgeRuntime.Engine.Basic
import CartridgeRuntime.Library.Ascending

/-!
# Rolling updates of one instance

The decision of the scheduler about one instance: from the ordinals that are active, ready and
available in the previous and the candidate generation it computes what to start or drain next. The
ordinals of a generation are sets of numbers, and 16-bit counts are natural numbers.
-/

namespace CartridgeRuntime.Engine

open Checked Ascending

def minRollingProgressDeadlineMs : UInt64 := 1000
def maxRollingProgressDeadlineMs : UInt64 := 60 * 60 * 1000
def maxRollingMinReadyMs : UInt64 := 5 * 60 * 1000
def maxRollingDrainTimeoutMs : UInt64 := 5 * 60 * 1000

/-- Whether a new replica is started before an old one is drained. -/
inductive RollingOrder where
  | startFirst
  | stopFirst
deriving DecidableEq, Repr

/-- How many replicas may be added or missing during an update, and for how long. -/
structure RollingUpdatePolicy where
  order : RollingOrder := .startFirst
  maxSurge : Nat := 1
  maxUnavailable : Nat := 0
  minReadyMs : UInt64 := 2000
  progressDeadlineMs : UInt64 := 5 * 60 * 1000
  drainTimeoutMs : UInt64 := 30000
deriving DecidableEq, Repr

namespace RollingUpdatePolicy

/-- The policy of a plan that declares none. -/
def isDefault (policy : RollingUpdatePolicy) : Bool :=
  policy = {}

/-- Check the policy for a number of replicas. -/
def validate (policy : RollingUpdatePolicy) (replicas : Nat) : Except String Unit :=
  rejectIf (replicas = 0 ∨ replicas > maxStackReplicas ∨ policy.maxSurge > replicas
      ∨ policy.maxUnavailable > replicas ∨ (policy.maxSurge = 0 ∧ policy.maxUnavailable = 0)
      ∨ policy.minReadyMs > maxRollingMinReadyMs
      ∨ policy.progressDeadlineMs < minRollingProgressDeadlineMs
      ∨ policy.progressDeadlineMs > maxRollingProgressDeadlineMs
      ∨ policy.progressDeadlineMs ≤ policy.minReadyMs
      ∨ policy.drainTimeoutMs > maxRollingDrainTimeoutMs
      ∨ policy.progressDeadlineMs ≤ policy.drainTimeoutMs)
    "rolling update policy is invalid"

end RollingUpdatePolicy

/-- What the scheduler sees of one instance. -/
structure RollingObservation where
  previousReplicas : Nat := 0
  candidateReplicas : Nat := 0
  previousActive : Finset Nat := ∅
  previousReady : Finset Nat := ∅
  candidateActive : Finset Nat := ∅
  candidateReady : Finset Nat := ∅
  candidateAvailable : Finset Nat := ∅
  candidateTerminal : Finset Nat := ∅
  elapsedSinceProgressMs : UInt64 := 0
deriving DecidableEq

/-- What an update waits for. -/
inductive RollingWaitReason where
  | candidateReadiness
  | minimumReadyTime
  | availabilityBudget
deriving DecidableEq, Repr

/-- Why an update is undone. -/
inductive RollingRollbackReason where
  | candidateFailed
  | progressDeadline
deriving DecidableEq, Repr

/-- The next step of an update. -/
inductive RollingAction where
  | startCandidate (ordinals : List Nat)
  | drainPrevious (ordinals : List Nat) (timeoutMs : UInt64)
  | wait (reason : RollingWaitReason)
  | complete
  | rollback (reason : RollingRollbackReason)
deriving DecidableEq, Repr

namespace RollingObservation

/-- Some member of a set is not an ordinal of a generation with so many replicas. -/
def HasForeignOrdinal (ordinals : Finset Nat) (replicas : Nat) : Prop :=
  ∃ ordinal ∈ ordinals, ¬ (ordinal > 0 ∧ ordinal ≤ replicas)

instance (ordinals : Finset Nat) (replicas : Nat) : Decidable (HasForeignOrdinal ordinals replicas) :=
  inferInstanceAs (Decidable (∃ ordinal ∈ ordinals, _))

variable (observation : RollingObservation)

/-- The number of replicas that the policy is for. -/
def policyReplicas : Nat :=
  max observation.previousReplicas observation.candidateReplicas

/-- The observed replicas are those of the two generations. -/
def validate (observation : RollingObservation) (policy : RollingUpdatePolicy) :
    Except String Unit := do
  policy.validate observation.policyReplicas
  rejectIf (HasForeignOrdinal observation.previousActive observation.previousReplicas
      ∨ HasForeignOrdinal observation.previousReady observation.previousReplicas
      ∨ HasForeignOrdinal observation.candidateActive observation.candidateReplicas
      ∨ HasForeignOrdinal observation.candidateReady observation.candidateReplicas
      ∨ HasForeignOrdinal observation.candidateAvailable observation.candidateReplicas
      ∨ HasForeignOrdinal observation.candidateTerminal observation.candidateReplicas
      ∨ ¬ observation.previousReady ⊆ observation.previousActive
      ∨ ¬ observation.candidateReady ⊆ observation.candidateActive
      ∨ ¬ observation.candidateAvailable ⊆ observation.candidateReady
      ∨ ¬ Disjoint observation.candidateTerminal observation.candidateActive)
    "rolling update observation is inconsistent"
  let active ← okOr
    (checkedAdd observation.previousActive.card observation.candidateActive.card)
    "rolling update active count overflow"
  let limit ← okOr (checkedAdd observation.policyReplicas policy.maxSurge)
    "rolling update surge count overflow"
  rejectIf (active > limit) "rolling update exceeds its surge limit"

/-- Start as many candidates as the surge allows, lowest ordinals first. -/
def startAction (policy : RollingUpdatePolicy) : Option RollingAction :=
  let active := observation.previousActive.card + observation.candidateActive.card
  let capacity := observation.policyReplicas + policy.maxSurge
  let count := min (observation.candidateReplicas - observation.candidateActive.card)
    (capacity - active)
  if count = 0 then none
  else
    let ordinals := ((List.range' 1 observation.candidateReplicas).filter fun ordinal =>
      ordinal ∉ observation.candidateActive ∧ ordinal ∉ observation.candidateTerminal).take count
    if ordinals.isEmpty then none else some (.startCandidate ordinals)

/-- Drain what is not ready, and as many ready replicas as availability allows. -/
def drainAction (policy : RollingUpdatePolicy) : Option RollingAction :=
  if observation.previousActive = ∅ then none
  else
    let minimumAvailable := observation.candidateReplicas - policy.maxUnavailable
    let available := observation.previousReady.card + observation.candidateAvailable.card
    let readyBudget := available - minimumAvailable
    let ordinals := ascending (observation.previousActive \ observation.previousReady)
      ++ (ascending observation.previousReady).take readyBudget
    if ordinals.isEmpty then none
    else some (.drainPrevious (ordinals.insertionSort (· ≤ ·)) policy.drainTimeoutMs)

/-- The action of the policy's order, if there is one. -/
def orderedAction (policy : RollingUpdatePolicy) : Option RollingAction :=
  match policy.order with
  | .startFirst => (observation.startAction policy).or (observation.drainAction policy)
  | .stopFirst => (observation.drainAction policy).or (observation.startAction policy)

/-- Why nothing can be done now. -/
def waitReason : RollingWaitReason :=
  if observation.candidateReady.card < observation.candidateActive.card then .candidateReadiness
  else if observation.candidateAvailable.card < observation.candidateReady.card then
    .minimumReadyTime
  else .availabilityBudget

/-- The next step of an update, from what is observed. -/
def next (policy : RollingUpdatePolicy) :
    Except String RollingAction := do
  observation.validate policy
  if observation.candidateTerminal ≠ ∅ then return .rollback .candidateFailed
  if observation.previousActive = ∅
      ∧ observation.candidateAvailable.card = observation.candidateReplicas then return .complete
  if observation.elapsedSinceProgressMs ≥ policy.progressDeadlineMs then
    return .rollback .progressDeadline
  return (observation.orderedAction policy).getD (.wait observation.waitReason)

end RollingObservation

end CartridgeRuntime.Engine
