import CartridgeRuntime.Engine.Plan

/-!
# Engine events

The journal of a stack is a chain of events. Each one names the digest of the event before it and
carries its own digest, and an apply or stop event carries the plan that it asks for.
-/

namespace CartridgeRuntime.Engine

open Checked CartridgeRuntime.Core Encoding

def engineEventFormatVersion : Nat := 1

/-- What an event does to its stack. -/
inductive EngineEventKind where
  | apply
  | stop
  | remove
deriving DecidableEq, Repr

/-- What should become of a stack. -/
inductive EngineStackState where
  | applied
  | stopped
  | removed
deriving DecidableEq, Repr

/-- An entry of a journal, linked to the one before by its digest. -/
structure EngineEvent where
  formatVersion : Nat
  revision : UInt64
  stack : String
  kind : EngineEventKind
  previousEventSha256 : String
  createdAtMs : UInt64
  plan : Option StackPlan
  eventSha256 : String
deriving DecidableEq

def EngineEventKind.codec : Codec EngineEventKind :=
  .enumeration [.apply, .stop, .remove]
    (fun | .apply => "apply" | .stop => "stop" | .remove => "remove")
    fun kind => by cases kind <;> rfl

def EngineStackState.codec : Codec EngineStackState :=
  .enumeration [.applied, .stopped, .removed]
    (fun | .applied => "applied" | .stopped => "stopped" | .removed => "removed")
    fun state => by cases state <;> rfl

/-- A plan or null. -/
def optionalPlan : Codec (Option StackPlan) :=
  StackPlan.codec.nullable fun _ h => by cases h

open Codec Fields in
def EngineEvent.codec : Codec EngineEvent :=
  (member "format_version" natural <| member "revision" word <| member "stack" string <|
    member "kind" EngineEventKind.codec <| member "previous_event_sha256" string <|
    member "created_at_ms" word <| member "plan" optionalPlan <|
    required "event_sha256" string).record
    (fun ⟨a, b, c, d, e, f, g, h⟩ => (a, b, c, d, e, f, g, h))
    (fun (a, b, c, d, e, f, g, h) => ⟨a, b, c, d, e, f, g, h⟩) fun _ => rfl

instance : ToJson EngineEvent := ⟨EngineEvent.codec.toJson⟩

/-- The strict reader of events. -/
@[reducible] def EngineEvent.reader : FromJson EngineEvent :=
  EngineEvent.codec.reader fun _ => rfl

namespace EngineEvent

variable [HexCodec] [Sha256]

/-- The digest of the event without its own digest. -/
def computedSha256 (event : EngineEvent) : String :=
  sha256Hex (encode { event with eventSha256 := "" })

/-- The state of the stack after the event. -/
def state (event : EngineEvent) : EngineStackState :=
  match event.kind with
  | .apply => .applied
  | .stop => .stopped
  | .remove => .removed

/-- The plan of an event that must have one. -/
def requirePlan (event : EngineEvent) : Except String StackPlan :=
  okOr event.plan "engine event is missing its plan"

/-- Check the identity of the event, and the plan that its kind needs. -/
def validate [Semver] (event : EngineEvent) : Except String Unit := do
  rejectIf (event.formatVersion ≠ engineEventFormatVersion ∨ event.revision = 0
      ∨ event.createdAtMs = 0 ∨ ¬ validName event.stack
      ∨ (event.revision = 1 ∧ ¬ event.previousEventSha256.isEmpty)
      ∨ (event.revision > 1 ∧ ¬ isDigest event.previousEventSha256)
      ∨ ¬ isDigest event.eventSha256 ∨ event.computedSha256 ≠ event.eventSha256)
    "engine event identity is invalid"
  match event.kind with
  | .apply =>
    let plan ← event.requirePlan
    plan.validate
    rejectIf (plan.stack ≠ event.stack) "engine event plan belongs to another stack"
  | .stop =>
    let plan ← event.requirePlan
    plan.validate
    rejectIf (plan.stack ≠ event.stack ∨ ∃ planned ∈ plan.instances, planned.desired ≠ .stopped)
      "stop event contains a running or foreign plan"
  | .remove => rejectIf (event.plan.isSome) "remove event cannot retain a plan"

/-- A new event, made at the time that the system clock shows. -/
def new [Semver] (revision : UInt64) (stack : String) (kind : EngineEventKind)
    (previousEventSha256 : String) (plan : Option StackPlan) (clockMs : UInt64) :
    Except String EngineEvent := do
  let unsigned : EngineEvent :=
    { formatVersion := engineEventFormatVersion, revision, stack, kind, previousEventSha256,
      createdAtMs := clockMs, plan, eventSha256 := "" }
  let value := { unsigned with eventSha256 := unsigned.computedSha256 }
  value.validate
  pure value

end EngineEvent

end CartridgeRuntime.Engine
