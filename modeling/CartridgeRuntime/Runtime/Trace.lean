import CartridgeRuntime.Core.Text

/-!
# Traces of a run

Every host call records its outcome as an event. During a replay it asks for the outcome of the event
that stands next in the trace, and every event that it records is compared with that one; the first
disagreement is kept as the divergence that `finishReplay` reports. `ExecutionTrace.validate` is the
check of a trace that is read from a file.
-/

namespace CartridgeRuntime.Runtime

open Checked CartridgeRuntime.Core Encoding

/-- Two values are equal when their texts are. -/
instance : DecidableEq Json := fun a b =>
  decidable_of_iff (a.bytes = b.bytes) ⟨fun h => Option.some.inj (by
    rw [← Json.parse_bytes a, ← Json.parse_bytes b, h]), congrArg Json.bytes⟩

/-- The format and the limits of a trace. -/
def currentTraceFormatVersion : Nat := 2
def maxTraceBytes : Nat := 16 * 1024 * 1024
def maxTraceEvents : Nat := 100000
def maxTraceOutputBytes : Nat := 1024 * 1024
def maxTraceArguments : Nat := 4096
def maxTraceArgumentBytes : Nat := 1024 * 1024
def maxTraceLabelBytes : Nat := 128

/-- A host call and what it returned. -/
structure TraceEvent where
  sequence : UInt64
  capability : String
  operation : String
  outcome : Json
deriving DecidableEq

/-- How an execution ended. -/
structure TraceResult where
  output : String
  fuelConsumed : Nat

/-- A recorded execution. -/
structure ExecutionTrace where
  formatVersion : Nat := currentTraceFormatVersion
  runtimeVersion : String
  cartridgeId : String
  cartridgeVersion : String
  componentSha256 : String
  args : List String
  events : List TraceEvent
  result : TraceResult

/-- Why a replay is refused. -/
inductive ReplayError where
  | unsupportedFormat (found expected : Nat)
  | invalidTrace (reason : String)
  | divergence (sequence : UInt64) (reason : String)
  | eventsRemaining (remaining : Nat)
  | traceLimitExceeded (events bytes : Nat)
  | identityMismatch (field expected actual : String)
  | invocationMismatch (expected actual : List String)
  | resultMismatch (field expected actual : String)

/-- A text that is not blank, of bounded size and without control characters. -/
def validLabel (value : String) : Bool :=
  !value.toList.all isWhitespace && value.utf8ByteSize ≤ maxTraceLabelBytes
    && !value.toList.any isControl

/-- The bytes that an event takes of the budget. -/
def eventBytes (capability operation : String) (outcome : Json) : Nat :=
  capability.utf8ByteSize + operation.utf8ByteSize + outcome.size + 128

/-! ## The check of a trace -/

/-- Refuse a trace. -/
def invalid (condition : Prop) [Decidable condition] (reason : String) : Except ReplayError Unit :=
  rejectIf condition (.invalidTrace reason)

/-- One event of a trace, after the bytes of the events before it. -/
def validateEvent (traceBytes : Nat) (entry : TraceEvent × Nat) : Except ReplayError Nat := do
  let (event, index) := entry
  invalid (event.sequence ≠ .ofNat index)
    s!"event at index {index} has sequence {event.sequence}, expected {index}"
  invalid (¬ validLabel event.capability) s!"event {index} has an empty capability"
  invalid (¬ validLabel event.operation) s!"event {index} has an empty operation"
  let traceBytes := traceBytes + eventBytes event.capability event.operation event.outcome
  invalid (traceBytes > wordMax) "trace event size overflowed"
  invalid (traceBytes > maxTraceBytes) "trace events exceed their byte budget"
  pure traceBytes

/-- Check everything but the events and the output. -/
def ExecutionTrace.validateHeader (trace : ExecutionTrace) : Except ReplayError Unit := do
  rejectIf (trace.formatVersion ≠ currentTraceFormatVersion)
    (.unsupportedFormat trace.formatVersion currentTraceFormatVersion)
  invalid (¬ validLabel trace.runtimeVersion) "runtime version is empty"
  invalid (¬ validLabel trace.cartridgeId) "cartridge id is empty"
  invalid (¬ validLabel trace.cartridgeVersion) "cartridge version is empty"
  invalid (trace.componentSha256.utf8ByteSize ≠ 64
      ∨ ¬ trace.componentSha256.toList.all fun c => (hexValue? c.toLower).isSome)
    "component sha256 is not a hexadecimal digest"
  invalid (trace.args.length > maxTraceArguments) "trace contains too many arguments"
  let argumentBytes := (trace.args.map String.utf8ByteSize).sum
  invalid (argumentBytes > wordMax) "trace argument size overflowed"
  invalid (argumentBytes > maxTraceArgumentBytes) "trace arguments exceed their byte budget"

/-- Check the header, the events and the output of a trace. -/
def ExecutionTrace.validate (trace : ExecutionTrace) : Except ReplayError Unit := do
  trace.validateHeader
  invalid (trace.events.length > maxTraceEvents) "trace contains too many events"
  discard (trace.events.zipIdx.foldlM validateEvent 0)
  invalid (trace.result.output.utf8ByteSize > maxTraceOutputBytes)
    "trace output exceeds its byte budget"

/-! ## The host that records -/

/-- A trace that is replayed, and how far. -/
structure ReplayCursor where
  events : List TraceEvent
  cursor : Nat := 0

/-- The part of the host state that records and replays. -/
structure HostState where
  events : List TraceEvent := []
  traceBytes : Nat := 0
  traceLimitReached : Bool := false
  nextSequence : UInt64 := 0
  replay : Option ReplayCursor := none
  divergence : Option ReplayError := none

/-- An event in the text of a divergence. -/
def TraceEvent.label (event : TraceEvent) : String :=
  s!"event {event.sequence} {event.capability}.{event.operation} with "
    ++ String.ofList event.outcome.compact

namespace HostState

/-- Keep the first divergence. -/
def setDivergence (reason : String) (host : HostState) : HostState :=
  { host with divergence := host.divergence <|> some (.divergence host.nextSequence reason) }

/-- Compare an event with the one that the trace has in its place. -/
def advance (actual : TraceEvent) (host : HostState) : HostState :=
  match host.replay with
  | none => host
  | some replay =>
    let next := { host with replay := some { replay with cursor := replay.cursor + 1 } }
    match replay.events[replay.cursor]? with
    | some expected =>
      if expected = actual then next
      else next.setDivergence ("expected " ++ expected.label ++ ", got " ++ actual.label)
    | none => next.setDivergence ("execution produced an extra " ++ actual.label)

/-- Record a host call, unless the trace is full. -/
def record (capability operation : String) (outcome : Json) (host : HostState) : HostState :=
  let nextTraceBytes := host.traceBytes + eventBytes capability operation outcome
  if host.traceLimitReached then host
  else if host.events.length ≥ maxTraceEvents ∨ nextTraceBytes > maxTraceBytes then
    { host with
      traceLimitReached := true
      divergence := host.divergence
        <|> some (.traceLimitExceeded host.events.length host.traceBytes) }
  else
    let actual := ⟨host.nextSequence, capability, operation, outcome⟩
    { host.advance actual with
      events := host.events ++ [actual]
      traceBytes := nextTraceBytes
      nextSequence := host.nextSequence + 1 }

/-- The outcome that the trace has for a call, when there is a trace. -/
def replayOutcome (capability operation : String) (host : HostState) :
    Option (Except String Json) × HostState :=
  match host.replay with
  | none => (none, host)
  | some replay =>
    match replay.events[replay.cursor]? with
    | none =>
      let message := s!"trace ended before {capability}.{operation}"
      (some (.error message), host.setDivergence message)
    | some expected =>
      if expected.sequence ≠ host.nextSequence ∨ expected.capability ≠ capability
          ∨ expected.operation ≠ operation then
        let message :=
          "expected " ++ expected.label ++ s!", guest called {capability}.{operation}"
        (some (.error message), host.setDivergence message)
      else (some (.ok expected.outcome), host)

/-- The replay has not diverged and no event is left. -/
def finishReplay (host : HostState) : Except ReplayError Unit :=
  match host.divergence with
  | some error => .error error
  | none => host.replay.elim (.ok ()) fun replay =>
    let remaining := replay.events.length - replay.cursor
    rejectIf (remaining ≠ 0) (.eventsRemaining remaining)

end HostState

end CartridgeRuntime.Runtime
