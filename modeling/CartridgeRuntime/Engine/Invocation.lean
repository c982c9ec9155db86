import CartridgeRuntime.Engine.Basic
import CartridgeRuntime.Library.CodecSize
import CartridgeRuntime.Network.Service

/-!
# Envelopes of invocations

A request to a service replica and its response pass between the daemon and the worker as files. Each
file holds an envelope that says to which run of which replica it belongs.
-/

namespace CartridgeRuntime.Engine

open Checked CartridgeRuntime.Core Encoding Network

def engineInvocationFormatVersion : Nat := 1
def maxInvocationEnvelopeBytes : Nat := 2 * 1024 * 1024

/-- A run of a replica that is ready to serve. -/
structure RouteTarget where
  instanceName : String
  ordinal : Nat
  revision : UInt64
  generation : String
  runId : String
  readyAtMs : UInt64
deriving DecidableEq

/-- A request on its way to the instance that its route has chosen. -/
structure InvocationRequestEnvelope where
  formatVersion : Nat
  stack : String
  routingEpoch : String
  routingSequence : UInt64
  target : RouteTarget
  issuedAtMs : UInt64
  deadlineAtMs : UInt64
  request : ServiceRequest
deriving DecidableEq

/-- The answer of that instance. -/
structure InvocationResponseEnvelope where
  formatVersion : Nat
  stack : String
  target : RouteTarget
  requestId : String
  respondedAtMs : UInt64
  response : ServiceResponse
deriving DecidableEq

/-- Check the identity and the deadline of the envelope, then the request. -/
def InvocationRequestEnvelope.validate (envelope : InvocationRequestEnvelope) :
    Except String Unit := do
  rejectIf (envelope.formatVersion ≠ engineInvocationFormatVersion ∨ ¬ validName envelope.stack
      ∨ ¬ isDigest envelope.routingEpoch ∨ envelope.routingSequence = 0 ∨ envelope.issuedAtMs = 0
      ∨ envelope.deadlineAtMs ≤ envelope.issuedAtMs
      ∨ saturatingSub envelope.deadlineAtMs envelope.issuedAtMs > maxServiceTimeoutMs)
    "invocation request identity is invalid"
  envelope.request.validate

/-- Check the identity of the envelope, then the response. -/
def InvocationResponseEnvelope.validate (envelope : InvocationResponseEnvelope) :
    Except String Unit := do
  rejectIf (envelope.formatVersion ≠ engineInvocationFormatVersion ∨ ¬ validName envelope.stack
      ∨ ¬ isDigest envelope.requestId ∨ envelope.respondedAtMs = 0)
    "invocation response identity is invalid"
  envelope.response.validate

open Codec Fields in
def RouteTarget.codec : Codec RouteTarget :=
  (member "instance" string <| member "ordinal" natural <| member "revision" word <|
    member "generation" string <| member "run_id" string <| required "ready_at_ms" word).record
    (fun ⟨a, b, c, d, e, f⟩ => (a, b, c, d, e, f)) (fun (a, b, c, d, e, f) => ⟨a, b, c, d, e, f⟩)
    fun _ => rfl

open Codec Fields in
def InvocationResponseEnvelope.codec : Codec InvocationResponseEnvelope :=
  (member "format_version" natural <| member "stack" string <| member "target" RouteTarget.codec <|
    member "request_id" string <| member "responded_at_ms" word <|
    required "response" ServiceResponse.codec).record
    (fun ⟨a, b, c, d, e, f⟩ => (a, b, c, d, e, f)) (fun (a, b, c, d, e, f) => ⟨a, b, c, d, e, f⟩)
    fun _ => rfl

end CartridgeRuntime.Engine
