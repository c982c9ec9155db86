import CartridgeRuntime.Engine.Invocation
import CartridgeRuntime.Library.Transition

/-!
# The host of a service worker

A guest takes a request with `serve_next` and answers it with `serve_respond`. The open request is known
twice: the host has its identifier among the service requests, and the broker has a claim to it. A
response that comes too late drops the claim only, so that the host refuses the next request: the guest
can go on exactly as long as it answers in time (`serves_on_iff`).
-/

namespace CartridgeRuntime.Daemon

open Checked CartridgeRuntime.Core Encoding Engine Network Std Transition

/-! ## The broker of the worker -/

/-- The memory of a `FileInvocationBroker`. -/
structure Broker where
  stack : String
  target : RouteTarget
  active : ExtTreeMap String (RouteTarget × UInt64) := ∅

namespace Broker

/-- The checks of a request that has been claimed. -/
def openClaimed (broker : Broker) (requestId : String) (envelope : InvocationRequestEnvelope)
    (nowMs : UInt64) (ready : Bool) : Except String Broker := do
  envelope.validate
  rejectIf (envelope.request.id ≠ requestId ∨ envelope.stack ≠ broker.stack
      ∨ envelope.target.instanceName ≠ broker.target.instanceName
      ∨ envelope.target.ordinal ≠ broker.target.ordinal
      ∨ envelope.target.revision ≠ broker.target.revision
      ∨ envelope.target.generation ≠ broker.target.generation
      ∨ envelope.target.runId ≠ broker.target.runId)
    "invocation request belongs to another worker"
  rejectIf (nowMs > envelope.deadlineAtMs) "invocation request expired before delivery"
  rejectIf (¬ ready) "invocation route changed before delivery"
  pure { broker with
    active := broker.active.insert envelope.request.id (envelope.target, envelope.deadlineAtMs) }

/-- The envelope of a response, and the memory after a response that comes too late. -/
def envelopeOf (broker : Broker) (requestId : String) (response : ServiceResponse)
    (nowMs respondedAtMs : UInt64) : Except String InvocationResponseEnvelope × Broker :=
  match response.validate, broker.active[requestId]? with
  | .error error, _ => (.error error, broker)
  | .ok (), none => (.error "invocation response does not match a claimed request", broker)
  | .ok (), some (target, deadlineAtMs) =>
    if nowMs > deadlineAtMs then
      (.error "invocation deadline expired before the response",
        { broker with active := broker.active.erase requestId })
    else
      let envelope : InvocationResponseEnvelope :=
        { formatVersion := engineInvocationFormatVersion, stack := broker.stack, target, requestId,
          respondedAtMs, response }
      ((do
        envelope.validate
        rejectIf (InvocationResponseEnvelope.codec.size envelope > maxInvocationEnvelopeBytes)
          "invocation envelope exceeds its byte limit"
        pure envelope), broker)

end Broker

/-! ## Calls of the broker -/

/-- Why a file of a response cannot be written, or a claimed one not removed. -/
inductive FileError where
  | alreadyExists
  | unsafePath
  | os (detail : String) (code : Nat)
deriving DecidableEq, Repr

/-- The text of an error; that of the system is the one of `io::Error`. -/
def FileError.text : FileError → String
  | .alreadyExists => "invocation response already exists"
  | .unsafePath => "claimed invocation path is unsafe"
  | .os detail code => s!"{detail} (os error {code})"

namespace Broker

/-- `receive`, with what the directory has given: an error, nothing in time, or a request that has been
claimed. -/
def receive (broker : Broker)
    (found : Except String (Option (String × InvocationRequestEnvelope))) (nowMs : UInt64)
    (ready : Bool) : Except String (Option ServiceRequest) × Broker :=
  match found with
  | .error error => (.error error, broker)
  | .ok none => (.ok none, broker)
  | .ok (some (id, envelope)) =>
    match broker.openClaimed id envelope nowMs ready with
    | .error error => (.error error, broker)
    | .ok broker => (.ok (some envelope.request), broker)

/-- `respond`, with what becomes of the response file and, after it, of the claimed file. -/
def respond (broker : Broker) (requestId : String) (response : ServiceResponse)
    (nowMs respondedAtMs : UInt64) (written removed : Except FileError Unit) :
    Except String Unit × Broker :=
  match broker.envelopeOf requestId response nowMs respondedAtMs with
  | (.error error, broker) => (.error error, broker)
  | (.ok _, broker) =>
    match written with
    | .error error => (.error error.text, broker)
    | .ok () =>
      (mapError FileError.text removed,
        { broker with active := broker.active.erase requestId })

end Broker

/-! ## The host -/

/-- The part of the host that serves. -/
structure HostState where
  serve : Bool
  replay : Bool
  broker : Option Broker
  serviceRequests : Finset String := ∅

/-- A response as the guest gives it. -/
structure GuestResponse where
  status : Nat
  headers : List (String × String) := []
  body : List UInt8 := []

/-- What the host reads while it waits for a request. -/
structure ReceiveReadings where
  deadlineReached : Bool := false
  found : Except String (Option (String × InvocationRequestEnvelope))
  nowMs : UInt64
  ready : Bool := true

/-- What the host reads while it responds. -/
structure RespondReadings where
  nowMs : UInt64
  respondedAtMs : UInt64
  written : Except FileError Unit := .ok ()
  removed : Except FileError Unit := .ok ()

/-- The headers of a guest, none of them twice. -/
def collectHeaders (headers : List (String × String)) :
    Except String (ExtTreeMap String String) := do
  let (_, collected) ← headers.foldlM (fun (normalized, collected) (name, value) => do
    let lower := toAsciiLowercase name.toList
    rejectIf (lower ∈ normalized ∨ name ∈ collected) "duplicate HTTP header names are not allowed"
    pure (lower :: normalized, collected.insert name value))
    (([] : List (List Char)), (∅ : ExtTreeMap String String))
  pure collected

/-- The response that the host gives to the broker. -/
def GuestResponse.convert (response : GuestResponse) : Except String ServiceResponse := do
  rejectIf (response.headers.length > maxHttpHeaders ∨ response.body.length > maxServiceResponseBytes)
    "service response exceeds its limits"
  let headers ← collectHeaders response.headers
  let converted : ServiceResponse := { status := response.status, headers, body := response.body }
  converted.validate
  pure converted

namespace HostState

/-- The checks of `serve_next` before it turns to the broker. -/
def beforeNext (host : HostState) (timeoutMs : UInt64) (deadlineReached : Bool) :
    Except String Broker := do
  rejectIf (¬ host.serve) "serve capability was not granted"
  rejectIf host.replay "service invocations are unavailable during replay"
  rejectIf (¬ (minServiceTimeoutMs ≤ timeoutMs ∧ timeoutMs ≤ maxServiceTimeoutMs))
    "service receive timeout is outside its limits"
  rejectIf (host.serviceRequests ≠ ∅) "the previous service request has not been answered"
  rejectIf deadlineReached "cartridge wall-clock deadline exceeded"
  okOr host.broker "no host invocation broker is configured"

/-- The guest asks for a request. -/
def serveNext (host : HostState) (timeoutMs : UInt64) (readings : ReceiveReadings) :
    Except String (Option ServiceRequest) × HostState :=
  match host.beforeNext timeoutMs readings.deadlineReached with
  | .error error => (.error error, host)
  | .ok broker =>
    let (received, broker) := broker.receive readings.found readings.nowMs readings.ready
    let host := { host with broker := some broker }
    match received with
    | .error error => (.error error, host)
    | .ok none => (.ok none, host)
    | .ok (some request) =>
      match request.validate with
      | .error error => (.error error, host)
      | .ok () =>
        (.ok (some request),
          { host with serviceRequests := insert request.id host.serviceRequests })

/-- The checks of `serve_respond` before it turns to the broker. -/
def beforeRespond (host : HostState) (requestId : String) (response : GuestResponse) :
    Except String (ServiceResponse × Broker) := do
  rejectIf (¬ host.serve) "serve capability was not granted"
  rejectIf (¬ isDigest requestId) "service response identity is invalid"
  rejectIf (requestId ∉ host.serviceRequests) "service response does not match the active request"
  let response ← response.convert
  let broker ← okOr host.broker "no host invocation broker is configured"
  pure (response, broker)

/-- The guest answers a request. -/
def serveRespond (host : HostState) (requestId : String) (response : GuestResponse)
    (readings : RespondReadings) : Except String Unit × HostState :=
  match host.beforeRespond requestId response with
  | .error error => (.error error, host)
  | .ok (response, broker) =>
    let (responded, broker) := broker.respond requestId response readings.nowMs
      readings.respondedAtMs readings.written readings.removed
    let host := { host with broker := some broker }
    match responded with
    | .error error => (.error error, host)
    | .ok () => (.ok (), { host with serviceRequests := host.serviceRequests.erase requestId })

end HostState

/-- What a guest calls. -/
inductive GuestCall where
  | next (timeoutMs : UInt64) (readings : ReceiveReadings)
  | respond (requestId : String) (response : GuestResponse) (readings : RespondReadings)

/-- The host after a call. -/
def HostState.step (host : HostState) : GuestCall → Option HostState
  | .next timeoutMs readings => some (host.serveNext timeoutMs readings).2
  | .respond requestId response readings => some (host.serveRespond requestId response readings).2

/-- A host with some permission, that replays or not, and with a new broker or none. -/
def hostSystem (serve replay : Bool) (worker : Option (String × RouteTarget)) :
    System HostState GuestCall where
  start := { serve, replay, broker := worker.map fun (stack, target) => { stack, target } }
  step := HostState.step

/-! ## Open requests -/

/-- Open requests are there only when the host serves, and they have proper identifiers. -/
structure HostState.Serving (host : HostState) : Prop where
  isDigest : ∀ id ∈ host.serviceRequests, isDigest id
  serves : host.serviceRequests.Nonempty →
    host.serve ∧ ¬ host.replay ∧ ∃ broker, host.broker = some broker

namespace HostState

variable {host : HostState}

theorem Serving.withBroker (h : host.Serving) (broker : Broker) :
    Serving { host with broker := some broker } :=
  ⟨h.isDigest, fun hopen => ⟨(h.serves hopen).1, (h.serves hopen).2.1, broker, rfl⟩⟩

theorem Serving.serveNext (h : host.Serving) (timeoutMs : UInt64) (readings : ReceiveReadings) :
    (host.serveNext timeoutMs readings).2.Serving := by
  rw [HostState.serveNext]
  split
  · exact h
  · rename_i broker hbefore
    simp only [beforeNext, bind_eq_ok] at hbefore
    obtain ⟨_, hserve, _, hreplay, -⟩ := hbefore
    have hserve := not_not.mp (rejectIf_eq_ok.mp hserve)
    have hreplay := rejectIf_eq_ok.mp hreplay
    generalize broker.receive readings.found readings.nowMs readings.ready = received
    obtain ⟨received, broker⟩ := received
    dsimp only
    have hhost := h.withBroker broker
    split
    · exact hhost
    · exact hhost
    · split
      · exact hhost
      · rename_i request hvalid
        refine ⟨fun id hid => ?_, fun _ => ⟨hserve, hreplay, broker, rfl⟩⟩
        rcases Finset.mem_insert.mp hid with rfl | hid
        · simp only [ServiceRequest.validate, bind_eq_ok] at hvalid
          obtain ⟨_, hdigest, -⟩ := hvalid
          exact not_not.mp (rejectIf_eq_ok.mp hdigest)
        · exact h.isDigest id hid

theorem Serving.serveRespond (h : host.Serving) (requestId : String) (response : GuestResponse)
    (readings : RespondReadings) : (host.serveRespond requestId response readings).2.Serving := by
  rw [HostState.serveRespond]
  split
  · exact h
  · rename_i response broker hbefore
    generalize broker.respond requestId response readings.nowMs readings.respondedAtMs
      readings.written readings.removed = responded
    obtain ⟨responded, broker⟩ := responded
    have hhost := h.withBroker broker
    dsimp only
    split
    · exact hhost
    · refine ⟨fun id hid => h.isDigest id (Finset.mem_of_mem_erase hid), fun hopen => ?_⟩
      exact hhost.serves (hopen.mono (Finset.erase_subset _ _))

theorem serving_of_reached {serve replay : Bool} {worker : Option (String × RouteTarget)}
    (h : Reached (hostSystem serve replay worker) (fun _ _ => True) host) : host.Serving := by
  refine h.invariant (P := Serving) ?_ ?_
  · exact ⟨fun _ hid => absurd hid (Finset.notMem_empty _),
      fun hopen => absurd hopen Finset.not_nonempty_empty⟩
  · intro before after action hbefore _ hstep
    cases action with
    | next timeoutMs readings =>
      cases hstep
      exact hbefore.serveNext timeoutMs readings
    | respond requestId response readings =>
      cases hstep
      exact hbefore.serveRespond requestId response readings

end HostState

/-! ## Late responses -/

def deadlineExpired : String := "invocation deadline expired before the response"

def notAnswered : String := "the previous service request has not been answered"

/-- The error is that of a late response. -/
def IsLate (error : String) : Prop :=
  error = deadlineExpired

theorem FileError.not_isLate (error : FileError) : ¬ IsLate error.text := by
  cases error with
  | alreadyExists => unfold IsLate; decide
  | unsafePath => unfold IsLate; decide
  | os detail code =>
    intro h
    have hlast := congrArg (fun text => text.toList.getLast?) h
    have hliteral : toString ")" = ")" := rfl
    simp [FileError.text, deadlineExpired, hliteral] at hlast

theorem validateHeaders_avoids (headers : ExtTreeMap String String) :
    Avoids IsLate (validateHeaders headers) := by
  refine (Avoids.rejectIf fun _ => by unfold IsLate; decide).bind fun _ _ =>
    (Avoids.foldlM (fun entry _ scan => ?_) _).bind fun _ _ =>
      .rejectIf fun _ => by unfold IsLate; decide
  refine (Avoids.rejectIf fun _ => by unfold IsLate; decide).bind fun _ _ =>
    (Avoids.rejectIf fun _ => by unfold IsLate; decide).bind fun _ _ =>
      (Avoids.rejectIf fun _ => by unfold IsLate; decide).bind fun _ _ =>
        (Avoids.okOr fun _ => by unfold IsLate; decide).bind fun _ _ => .ok _

theorem serviceResponse_validate_avoids (response : ServiceResponse) :
    Avoids IsLate response.validate :=
  (Avoids.rejectIf fun _ => by unfold IsLate; decide).bind fun _ _ =>
    validateHeaders_avoids response.headers

theorem GuestResponse.convert_avoids (response : GuestResponse) :
    Avoids IsLate response.convert := by
  refine (Avoids.rejectIf fun _ => by unfold IsLate; decide).bind fun _ _ =>
    Avoids.bind ?_ fun _ _ => (serviceResponse_validate_avoids _).bind fun _ _ => .ok _
  refine (Avoids.foldlM (fun _ _ scan => ?_) _).bind fun _ _ => .ok _
  exact (Avoids.rejectIf fun _ => by unfold IsLate; decide).bind fun _ _ => .ok _

/-- A response that the host has checked is late when the deadline of its claim is over. -/
theorem Broker.respond_late_iff (broker : Broker) (requestId : String) {response : ServiceResponse}
    (hvalid : response.validate = .ok ()) (readings : RespondReadings) :
    (broker.respond requestId response readings.nowMs readings.respondedAtMs readings.written
        readings.removed).1 = .error deadlineExpired
      ↔ ∃ claim, broker.active[requestId]? = some claim ∧ claim.2 < readings.nowMs := by
  rw [Broker.respond, Broker.envelopeOf, hvalid]
  cases hclaim : broker.active[requestId]? with
  | none => simp [deadlineExpired]
  | some claim =>
    obtain ⟨target, deadlineAtMs⟩ := claim
    simp only [Option.some.injEq, exists_eq_left']
    by_cases hlate : readings.nowMs > deadlineAtMs
    · rw [if_pos hlate]
      exact iff_of_true rfl hlate
    · rw [if_neg hlate]
      refine iff_of_false ?_ hlate
      split
      · rename_i error _ hprepared
        obtain ⟨hprepared, -⟩ := Prod.mk.inj hprepared
        have havoids : Avoids IsLate (do
            let envelope : InvocationResponseEnvelope :=
              { formatVersion := engineInvocationFormatVersion, stack := broker.stack, target,
                requestId, respondedAtMs := readings.respondedAtMs, response }
            envelope.validate
            rejectIf (InvocationResponseEnvelope.codec.size envelope > maxInvocationEnvelopeBytes)
              "invocation envelope exceeds its byte limit"
            pure envelope) :=
          ((Avoids.rejectIf fun _ => by unfold IsLate; decide).bind fun _ _ =>
            serviceResponse_validate_avoids response).bind fun _ _ =>
              (Avoids.rejectIf fun _ => by unfold IsLate; decide).bind fun _ _ => .ok _
        exact fun heq => havoids error hprepared (Except.error.inj heq)
      · split
        · rename_i error _
          exact fun heq => error.not_isLate (Except.error.inj heq)
        · intro heq
          cases hremoved : readings.removed with
          | error error =>
            rw [hremoved] at heq
            exact error.not_isLate (Except.error.inj heq)
          | ok =>
            rw [hremoved] at heq
            cases heq

/-- A response that the guest gives for an open request is late when it passes the checks of the host
and the deadline of the claim is over. -/
theorem HostState.serveRespond_late_iff {host : HostState} (h : host.Serving) {requestId : String}
    (hopen : requestId ∈ host.serviceRequests) (response : GuestResponse)
    (readings : RespondReadings) :
    (host.serveRespond requestId response readings).1 = .error deadlineExpired
      ↔ (∃ converted, response.convert = .ok converted)
        ∧ ∃ broker claim, host.broker = some broker ∧ broker.active[requestId]? = some claim
          ∧ claim.2 < readings.nowMs := by
  obtain ⟨hserve, -, broker, hbroker⟩ := h.serves ⟨requestId, hopen⟩
  have hdigest := h.isDigest requestId hopen
  have hbefore : host.beforeRespond requestId response
      = response.convert >>= fun converted => pure (converted, broker) := by
    rw [HostState.beforeRespond, rejectIf_of_not _ (not_not.mpr hserve),
      rejectIf_of_not _ (not_not.mpr hdigest), rejectIf_of_not _ (not_not.mpr hopen), hbroker]
    rfl
  rw [HostState.serveRespond, hbefore]
  cases hconvert : response.convert with
  | error error =>
    have hother := response.convert_avoids error hconvert
    simpa [IsLate] using hother
  | ok converted =>
    have hvalid : converted.validate = .ok () := by
      simp only [GuestResponse.convert, bind_eq_ok, pure_eq_ok] at hconvert
      obtain ⟨_, -, _, -, _, hvalid, heq⟩ := hconvert
      cases heq
      exact hvalid
    have hclaim : (∃ other claim, host.broker = some other
          ∧ other.active[requestId]? = some claim ∧ claim.2 < readings.nowMs)
        ↔ (broker.respond requestId converted readings.nowMs readings.respondedAtMs
          readings.written readings.removed).1 = .error deadlineExpired := by
      rw [broker.respond_late_iff requestId hvalid readings, hbroker]
      constructor
      · rintro ⟨_, claim, heq, hclaim⟩
        cases heq
        exact ⟨claim, hclaim⟩
      · rintro ⟨claim, hclaim⟩
        exact ⟨broker, claim, rfl, hclaim⟩
    rw [hclaim, and_iff_right ⟨converted, rfl⟩]
    dsimp only [bind, pure, Except.bind, Except.pure]
    generalize broker.respond requestId converted readings.nowMs readings.respondedAtMs
      readings.written readings.removed = responded
    obtain ⟨responded, after⟩ := responded
    cases responded with
    | error error => rfl
    | ok => simp

/-- A response that fails leaves the open requests as they are. -/
theorem HostState.serviceRequests_of_error {host : HostState} {requestId : String}
    {response : GuestResponse} {readings : RespondReadings} {error : String}
    (h : (host.serveRespond requestId response readings).1 = .error error) :
    (host.serveRespond requestId response readings).2.serviceRequests = host.serviceRequests := by
  rw [HostState.serveRespond] at h ⊢
  split at h
  · rfl
  · dsimp only at h ⊢
    split at h
    · rfl
    · cases h

/-- A host with an open request refuses the next one. -/
theorem HostState.serveNext_refused {host : HostState} (h : host.Serving)
    (hopen : host.serviceRequests.Nonempty) {timeoutMs : UInt64}
    (htimeout : minServiceTimeoutMs ≤ timeoutMs ∧ timeoutMs ≤ maxServiceTimeoutMs)
    (readings : ReceiveReadings) :
    (host.serveNext timeoutMs readings).1 = .error notAnswered := by
  obtain ⟨hserve, hreplay, -⟩ := h.serves hopen
  have hbefore : host.beforeNext timeoutMs readings.deadlineReached = .error notAnswered := by
    rw [HostState.beforeNext, rejectIf_of_not _ (not_not.mpr hserve), rejectIf_of_not _ hreplay,
      rejectIf_of_not _ (not_not.mpr htimeout), rejectIf_of _ hopen.ne_empty]
    rfl
  rw [HostState.serveNext, hbefore]

/-- A guest that answers an open request can go on with the next one after a response that is too late
exactly when there is no such response: when the deadline of the claim is not over, or when the host
refuses the response before it asks for the time. -/
theorem serves_on_iff {serve replay : Bool} {worker : Option (String × RouteTarget)}
    {host : HostState} (h : Reached (hostSystem serve replay worker) (fun _ _ => True) host)
    {requestId : String} (hopen : requestId ∈ host.serviceRequests) (response : GuestResponse)
    (readings : RespondReadings) {timeoutMs : UInt64}
    (htimeout : minServiceTimeoutMs ≤ timeoutMs ∧ timeoutMs ≤ maxServiceTimeoutMs)
    (next : ReceiveReadings) :
    ((host.serveRespond requestId response readings).1 = .error deadlineExpired →
        ((host.serveRespond requestId response readings).2.serveNext timeoutMs next).1
          ≠ .error notAnswered)
      ↔ ¬ ((∃ converted, response.convert = .ok converted)
        ∧ ∃ broker claim, host.broker = some broker ∧ broker.active[requestId]? = some claim
          ∧ claim.2 < readings.nowMs) := by
  have hserving := HostState.serving_of_reached h
  rw [← HostState.serveRespond_late_iff hserving hopen response readings]
  refine ⟨fun hgoes hlate => hgoes hlate ?_, fun hnot hlate => (hnot hlate).elim⟩
  refine HostState.serveNext_refused (hserving.serveRespond requestId response readings) ?_ htimeout
    next
  rw [HostState.serviceRequests_of_error hlate]
  exact ⟨requestId, hopen⟩

/-- The worker of the sample runs. -/
def sampleTarget : RouteTarget :=
  { instanceName := "api", ordinal := 1, revision := 1
    generation := String.ofList (List.replicate 64 'b')
    runId := String.ofList (List.replicate 64 'c'), readyAtMs := 1 }

/-- The identifier of the sample request. -/
def sampleId : String :=
  String.ofList (List.replicate 64 'a')

/-- A request for a path, with the one identifier. -/
def sampleEnvelope (path : String) : InvocationRequestEnvelope :=
  { formatVersion := engineInvocationFormatVersion, stack := "shop"
    routingEpoch := String.ofList (List.replicate 64 'd'), routingSequence := 1
    target := sampleTarget, issuedAtMs := 1000, deadlineAtMs := 2000
    request := { id := sampleId, method := .get, path } }

/-- What the guest is given in the runs below. -/
def sampleReceive : ReceiveReadings :=
  { found := .ok (some (sampleId, sampleEnvelope "/a")), nowMs := 1500 }

/-- The host after the guest was given a request. -/
def sampleHost : HostState :=
  ((hostSystem true false (some ("shop", sampleTarget))).start.serveNext 1000 sampleReceive).2

theorem sampleHost_reached :
    Reached (hostSystem true false (some ("shop", sampleTarget))) (fun _ _ => True) sampleHost :=
  Reached.start.step (a := .next 1000 sampleReceive) trivial rfl

/-- The request is open, and the deadline of its claim is known. -/
theorem sampleHost_open :
    sampleId ∈ sampleHost.serviceRequests
      ∧ (sampleHost.broker.bind fun broker => broker.active[sampleId]?)
        = some (sampleTarget, 2000) := by
  decide +kernel

/-- A response in time. -/
theorem serves_on_in_time :
    sampleId ∈ sampleHost.serviceRequests ∧
      ((sampleHost.serveRespond sampleId { status := 200 } ⟨1600, 1600, .ok (), .ok ()⟩).1
          = .error deadlineExpired →
        ((sampleHost.serveRespond sampleId { status := 200 }
          ⟨1600, 1600, .ok (), .ok ()⟩).2.serveNext 1000 sampleReceive).1 ≠ .error notAnswered) := by
  refine ⟨sampleHost_open.1,
    (serves_on_iff sampleHost_reached sampleHost_open.1 _ _ (by decide) _).mpr ?_⟩
  rintro ⟨-, broker, claim, hbroker, hclaim, hlate⟩
  have hopen := sampleHost_open.2
  rw [hbroker, Option.bind_some, hclaim] at hopen
  cases hopen
  exact absurd hlate (by decide)

/-- A response one millisecond too late: the claim is dropped, but the request stays open, and the
next one is refused. -/
theorem late_response_wedges_worker :
    Reached (hostSystem true false (some ("shop", sampleTarget))) (fun _ _ => True) sampleHost
      ∧ sampleId ∈ sampleHost.serviceRequests
      ∧ (sampleHost.serveRespond sampleId { status := 200 } ⟨2001, 2001, .ok (), .ok ()⟩).1
        = .error deadlineExpired
      ∧ ((sampleHost.serveRespond sampleId { status := 200 } ⟨2001, 2001, .ok (), .ok ()⟩).2.serveNext
        1000 sampleReceive).1 = .error notAnswered := by
  have hserving := HostState.serving_of_reached sampleHost_reached
  obtain ⟨hopen, hclaim⟩ := sampleHost_open
  have hlate : (sampleHost.serveRespond sampleId { status := 200 } ⟨2001, 2001, .ok (), .ok ()⟩).1
      = .error deadlineExpired := by
    rw [HostState.serveRespond_late_iff hserving hopen]
    obtain ⟨broker, hbroker, hclaim⟩ := Option.bind_eq_some_iff.mp hclaim
    refine ⟨⟨{ status := 200 }, ?_⟩, broker, _, hbroker, hclaim, by decide⟩
    decide +kernel
  refine ⟨sampleHost_reached, hopen, hlate,
    HostState.serveNext_refused (hserving.serveRespond _ _ _) ?_ (by decide) _⟩
  rw [HostState.serviceRequests_of_error hlate]
  exact ⟨sampleId, hopen⟩

end CartridgeRuntime.Daemon
