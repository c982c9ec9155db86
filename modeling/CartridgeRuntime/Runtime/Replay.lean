import CartridgeRuntime.Runtime.HostCalls

/-!
# A replay that is accepted is the run of its trace

Read `replay_eq_trace` and `replay_of_execute`. A replay that has not diverged has recorded the first
events of its trace; in the other direction the replay of a live run goes through the states of that
run. Both rest on `Change`, which says what a host call can do to the recorder.
-/

namespace CartridgeRuntime.Runtime

open Checked Encoding CartridgeRuntime.Media

namespace HostState

/-- An event moves the cursor on, and without a divergence it is the next one of the trace. -/
def Advances (host : HostState) (actual : TraceEvent) (replay : Option ReplayCursor)
    (divergence : Option ReplayError) : Prop :=
  divergence = none → host.divergence = none ∧ ∀ events cursor,
    host.replay = some ⟨events, cursor⟩ →
      replay = some ⟨events, cursor + 1⟩ ∧ events[cursor]? = some actual

/-- What a call does to the recorder: it keeps what was recorded, or it records one event. -/
inductive Change (host : HostState) : HostState → Prop where
  | keep (traceLimitReached : Bool) (divergence : Option ReplayError)
      (h : divergence = none →
        host.divergence = none ∧ traceLimitReached = host.traceLimitReached) :
      Change host { host with traceLimitReached, divergence }
  | push (capability operation : Label) (outcome : Json) (replay : Option ReplayCursor)
      (divergence : Option ReplayError) (hlimit : host.traceLimitReached = false)
      (hlength : host.events.length < maxTraceEvents)
      (hbytes : host.traceBytes + eventBytes capability operation outcome ≤ maxTraceBytes)
      (h : host.Advances ⟨host.nextSequence, capability, operation, outcome⟩ replay divergence) :
      Change host { host with
        events := host.events ++ [⟨host.nextSequence, capability, operation, outcome⟩]
        traceBytes := host.traceBytes + eventBytes capability operation outcome
        nextSequence := host.nextSequence + 1
        replay, divergence }

theorem change_setDivergence (host : HostState) (reason : String) :
    host.Change (host.setDivergence reason) :=
  .keep _ _ (by simp)

theorem change_replayOutcome (host : HostState) (capability operation : String) :
    host.Change (host.replayOutcome capability operation).2 := by
  unfold replayOutcome
  split
  · exact .keep _ _ fun h => ⟨h, rfl⟩
  · split
    · exact host.change_setDivergence _
    · split
      · exact host.change_setDivergence _
      · exact .keep _ _ fun h => ⟨h, rfl⟩

theorem advance_eq (host : HostState) (actual : TraceEvent) :
    ∃ replay divergence, host.advance actual = { host with replay, divergence } ∧
      host.Advances actual replay divergence := by
  unfold advance setDivergence Advances
  split
  · exact ⟨_, _, rfl, by simp [*]⟩
  · split
    · split
      · exact ⟨_, _, rfl, by grind⟩
      · exact ⟨_, _, rfl, by simp⟩
    · exact ⟨_, _, rfl, by simp⟩

theorem change_record (host : HostState) (capability operation : Label) (outcome : Json) :
    host.Change (host.record capability operation outcome) := by
  simp only [record]
  split
  · exact .keep _ _ fun h => ⟨h, rfl⟩
  · split
    · exact .keep _ _ (by simp)
    · rename_i hlimit hroom
      obtain ⟨_, _, heq, h⟩ := host.advance_eq ⟨host.nextSequence, capability, operation, outcome⟩
      simp only [heq]
      exact .push _ _ _ _ _ (by simpa using hlimit) (by omega) (by omega) h

end HostState

open HostState

/-- What every change keeps, the run of a component keeps. -/
theorem Component.run_induction {P : HostState → Prop}
    (hchange : ∀ {host next : HostState}, P host → host.Change next → P next) (machine : Machine)
    (component : Component) (turn : Nat) {host : HostState} (h : P host) :
    P (component.run machine turn host).2 := by
  induction component generalizing turn host with
  | finish => exact h
  | given capability operation outcome _ ih =>
    exact ih _ (hchange h (host.change_record capability operation outcome))
  | sensed capability operation check _ ih =>
    refine ih _ _ ?_
    -- Every sensed call asks first; the rest depends on the answer.
    have hask := hchange h (host.change_replayOutcome capability operation)
    unfold HostState.sensed
    split
    · rename_i heq
      rwa [heq] at hask
    · rename_i heq
      rw [heq] at hask
      split
      · exact hchange hask (change_setDivergence _ _)
      · exact hchange hask (change_record _ _ _ _)
    · rename_i heq
      rw [heq] at hask
      split
      · exact hask
      · exact hchange hask (change_record _ _ _ _)

namespace HostState

/-! ## What is recorded passes the check -/

/-- The events of a host are events that the check of a trace accepts. -/
structure Recorded (host : HostState) : Prop where
  accepted : host.events.zipIdx.foldlM validateEvent 0 = .ok host.traceBytes
  length_le : host.events.length ≤ maxTraceEvents
  next : host.nextSequence = .ofNat host.events.length
  limited : host.divergence = none → host.traceLimitReached = false

theorem recorded_start (replay : Option ReplayCursor) : Recorded { replay } :=
  ⟨rfl, Nat.zero_le _, rfl, fun _ => rfl⟩

variable {host next : HostState}

theorem Recorded.change (h : host.Recorded) (hchange : host.Change next) : next.Recorded := by
  cases hchange with
  | keep _ _ hkeep =>
    exact ⟨h.accepted, h.length_le, h.next,
      fun hnone => (hkeep hnone).2.trans (h.limited (hkeep hnone).1)⟩
  | push capability operation outcome _ _ hlimit hlength hbytes =>
    have hword : maxTraceBytes ≤ wordMax := by decide
    refine ⟨?_, by simpa using hlength, by simp [h.next, UInt64.ofNat_add], fun _ => hlimit⟩
    simp only [List.zipIdx_append, List.foldlM_append, h.accepted]
    simp [validateEvent, invalid, h.next, capability.2, operation.2, rejectIf_of_not,
      Nat.not_lt.mpr hbytes, Nat.not_lt.mpr (hbytes.trans hword)]

theorem Recorded.validate (h : host.Recorded) {trace : ExecutionTrace}
    (hevents : trace.events = host.events) : trace.validate = .ok () ↔
      trace.validateHeader = .ok () ∧ trace.result.output.utf8ByteSize ≤ maxTraceOutputBytes := by
  simp [ExecutionTrace.validate, invalid, discard_eq_ok, hevents, h.accepted, h.length_le]

/-! ## A replay that has not diverged -/

/-- Without a divergence the events are the first ones of the trace and the cursor is behind them. -/
def Follows (trace : List TraceEvent) (host : HostState) : Prop :=
  host.divergence = none → host.replay = some ⟨trace, host.events.length⟩ ∧ host.events <+: trace

theorem Follows.change {trace : List TraceEvent} (h : Follows trace host)
    (hchange : host.Change next) : Follows trace next := by
  intro hnone
  cases hchange with
  | keep _ _ hkeep => exact h (hkeep hnone).1
  | push _ _ _ _ _ _ _ _ hpush =>
    obtain ⟨hreplay, rest, rfl⟩ := h (hpush hnone).1
    obtain ⟨hcursor, hevent⟩ := (hpush hnone).2 _ _ hreplay
    refine ⟨by simpa using hcursor, ?_⟩
    rw [List.getElem?_append_right le_rfl, Nat.sub_self] at hevent
    obtain ⟨rest, rfl⟩ := List.head?_eq_some_iff.mp (List.head?_eq_getElem?.trans hevent)
    exact ⟨rest, by simp⟩

theorem Follows.events_eq {trace : List TraceEvent} (h : Follows trace host)
    (hfinish : host.finishReplay = .ok ()) : host.events = trace := by
  cases hdivergence : host.divergence with
  | some error => simp [finishReplay, hdivergence] at hfinish
  | none =>
    obtain ⟨hreplay, hfirst⟩ := h hdivergence
    simp only [finishReplay, hdivergence, hreplay, Option.elim, rejectIf_eq_ok, not_not] at hfinish
    exact hfirst.eq_of_length_le (by omega)

/-! ## The replay of a live run -/

/-- A divergence stays, and the events only grow. -/
structure Extends (host next : HostState) : Prop where
  divergence : next.divergence = none → host.divergence = none
  events : host.events <+: next.events

theorem Extends.change {middle : HostState} (h : host.Extends middle)
    (hchange : middle.Change next) : host.Extends next := by
  cases hchange with
  | keep _ _ hkeep => exact ⟨fun hnone => h.divergence (hkeep hnone).1, h.events⟩
  | push _ _ _ _ _ _ _ _ hpush =>
    exact ⟨fun hnone => h.divergence (hpush hnone).1, h.events.trans (List.prefix_append _ _)⟩

/-- A live host with the cursor of its replay. -/
def shadow (trace : List TraceEvent) (live : HostState) : HostState :=
  { live with replay := some ⟨trace, live.events.length⟩ }

theorem record_shadow {trace : List TraceEvent} {live : HostState} {capability operation : String}
    {outcome : Json} (hlive : live.replay = none)
    (hnone : (live.record capability operation outcome).divergence = none)
    (hfirst : (live.record capability operation outcome).events <+: trace) :
    (live.record capability operation outcome).replay = none ∧
      (shadow trace live).record capability operation outcome =
        shadow trace (live.record capability operation outcome) ∧
      (live.traceLimitReached = false → (shadow trace live).replayOutcome capability operation =
        (some (.ok outcome), shadow trace live)) := by
  by_cases hlimit : live.traceLimitReached = true
  · simp [record, shadow, hlimit, hlive]
  by_cases hfull : live.events.length ≥ maxTraceEvents ∨
      live.traceBytes + eventBytes capability operation outcome > maxTraceBytes
  · simp [record, hlimit, hfull] at hnone
  · -- The event recorded live is the one under the cursor.
    simp only [record, hlimit, hfull, ↓reduceIte, advance, hlive] at hfirst
    obtain ⟨rest, rfl⟩ := hfirst
    simp [record, shadow, hlimit, hfull, advance, hlive, replayOutcome]

end HostState

/-- The machine answers every call, with an outcome that the check of a replay accepts. -/
def Component.Answered (machine : Machine) : Component → Nat → Prop
  | .finish _ _, _ => True
  | .given _ _ _ rest, turn => rest.Answered machine (turn + 1)
  | .sensed _ _ check resume, turn => ∃ outcome, machine turn = .ok outcome ∧
      check outcome = .ok () ∧ (resume (.ok outcome)).Answered machine (turn + 1)

variable {turn : Nat}

/-- A call is answered by an outcome that it decodes. -/
theorem Component.Answered.senses {α : Type} {machine : Machine} {capability operation : Label}
    {decode : Json → Except String α} {resume : Except String α → Component} {outcome : Json}
    {value : α} (hmachine : machine turn = .ok outcome) (hdecode : decode outcome = .ok value)
    (hrest : (resume (.ok value)).Answered machine (turn + 1)) :
    (Component.senses capability operation none decode resume).Answered machine turn := by
  refine ⟨outcome, hmachine, discard_eq_ok.mpr ⟨value, hdecode⟩, ?_⟩
  show (resume (.ok outcome >>= decode)).Answered machine (turn + 1)
  rwa [ok_bind, hdecode]

/-- A call that takes an event from a queue is answered by the event, which was checked. -/
theorem Component.Answered.nextEvent {α : Type} [ToJson α] [FromValue α] {machine : Machine}
    {capability : Label} {source : String} {validate : α → Except MediaError α}
    {resume : Except String (Option (List UInt8)) → Component} (event : Option α)
    (hmachine : machine turn = .ok (eventOutcome event))
    (hvalid : ∀ value ∈ event, validate value = .ok value ∧ ∃ members, toJson value = .obj members)
    (hrest : (resume (.ok (event.map encode))).Answered machine (turn + 1)) :
    (Component.nextEvent capability source none validate resume).Answered machine turn :=
  .senses hmachine (map_eq_ok.mpr ⟨event, decodeEvent_eventOutcome hvalid, rfl⟩) hrest

theorem Component.run_shadow {machine : Machine} (other : Machine) {trace : List TraceEvent}
    (component : Component) {live : HostState} (hlive : live.replay = none)
    (hanswered : component.Answered machine turn) (hrecorded : live.Recorded)
    (hnone : (component.run machine turn live).2.divergence = none)
    (hfirst : (component.run machine turn live).2.events <+: trace) :
    component.run other turn (shadow trace live) =
      ((component.run machine turn live).1, shadow trace (component.run machine turn live).2) := by
  induction component generalizing turn live with
  | finish => rfl
  | given capability operation outcome rest ih =>
    rw [Component.run] at hnone hfirst ⊢
    have hextends := rest.run_induction Extends.change machine (turn + 1)
      ⟨id, List.prefix_rfl (l := (live.record capability operation outcome).events)⟩
    obtain ⟨hnext, hrecord, -⟩ :=
      record_shadow hlive (hextends.divergence hnone) (hextends.events.trans hfirst)
    rw [Component.run, hrecord]
    exact ih hnext hanswered (hrecorded.change (live.change_record _ _ _)) hnone hfirst
  | sensed capability operation check resume ih =>
    obtain ⟨outcome, hmachine, hcheck, hrest⟩ := hanswered
    have hcall : live.sensed capability operation check (machine turn) =
        (.ok outcome, live.record capability operation outcome) := by
      simp [HostState.sensed, replayOutcome, hlive, hmachine]
    simp only [Component.run, hcall] at hnone hfirst ⊢
    have hextends := (resume (.ok outcome)).run_induction Extends.change machine (turn + 1)
      ⟨id, List.prefix_rfl (l := (live.record capability operation outcome).events)⟩
    obtain ⟨hnext, hrecord, hask⟩ :=
      record_shadow hlive (hextends.divergence hnone) (hextends.events.trans hfirst)
    -- At the limit nothing is recorded and the trace would have no answer.
    have hlimit := hrecorded.limited (Extends.change ⟨id, List.prefix_rfl⟩
      (live.change_record capability operation outcome) |>.divergence (hextends.divergence hnone))
    simp only [HostState.sensed, hask hlimit, hcheck, hrecord]
    exact ih _ hnext hrest (hrecorded.change (live.change_record _ _ _)) hnone hfirst

/-! ## Execution and replay -/

variable {runtimeVersion : String} {machine : Machine} {package : Package} {args : List String}
  {trace report : ExecutionTrace}

theorem CallResult.size_le_of_output {result : CallResult} {output : String}
    (h : result.output = .ok output) : output.utf8ByteSize ≤ maxTraceOutputBytes := by
  unfold CallResult.output at h
  split at h
  · cases h
  · cases h
  · obtain ⟨⟨⟩, hsize, ⟨⟩⟩ := bind_eq_ok.mp h
    exact Nat.not_lt.mp (rejectIf_eq_ok.mp hsize)

/-- What a live execution establishes. -/
theorem execute_live (h : execute runtimeVersion machine package args none = .ok trace) :
    ((package.component args).run machine 0 {}).2.finishReplay = .ok () ∧
      (trace.validate = .ok () ↔ trace.validateHeader = .ok ()) ∧
      ∃ output, ((package.component args).run machine 0 {}).1.1.output = .ok output ∧
        trace = ⟨currentTraceFormatVersion, runtimeVersion, package.identity.cartridgeId,
          package.identity.cartridgeVersion, package.identity.componentSha256, args,
          ((package.component args).run machine 0 {}).2.events,
          ⟨output, package.fuel - ((package.component args).run machine 0 {}).1.2⟩⟩ := by
  simp only [execute, Option.map_none, Option.elim, bind_eq_ok, mapError_eq_ok] at h
  obtain ⟨⟨⟩, hfinish, output, houtput, ⟨⟩, -, ⟨⟩⟩ := h
  have hrecorded := (package.component args).run_induction Recorded.change machine 0
    (recorded_start none)
  refine ⟨hfinish, (hrecorded.validate rfl).trans ?_, output, houtput, rfl⟩
  exact and_iff_left (CallResult.size_le_of_output houtput)

/-- A replay that is accepted returns the trace that it was given. -/
theorem replay_eq_trace (h : replay runtimeVersion machine package args trace = .ok report) :
    report = trace := by
  have hstart : Follows trace.events { replay := some ⟨trace.events, 0⟩ } :=
    fun _ => ⟨rfl, List.nil_prefix⟩
  have hfollows := (package.component args).run_induction Follows.change machine 0 hstart
  simp [replay, execute, ExecutionTrace.validateInvocation, checkIdentity, TraceResult.compare] at h
  obtain ⟨⟨hvalid, rfl, hid, hversion, hsha, rfl⟩, hfinish, -, hfuel, rfl⟩ := h
  simp [ExecutionTrace.validate, ExecutionTrace.validateHeader] at hvalid
  rw [hfollows.events_eq hfinish, ← hfuel, ← hid, ← hversion, ← hsha, ← hvalid.1]

/-! ## A component that senses -/

/-- The message of a document, read member by member. -/
def midiOfJson (document : Json) : Option MidiEvent := do
  let number (name : String) : Option Nat := do
    let .num (.ofNat n) ← field name document | none
    return n
  return ⟨.ofNat (← number "timestamp_frames"), .ofNat (← number "cable"),
    .ofNat (← number "status"), .ofNat (← number "data1"), .ofNat (← number "data2")⟩

theorem midiOfJson_sorted (event : MidiEvent) :
    midiOfJson (Json.sorted (toJson event)) = some event := by
  simp [midiOfJson, Json.sorted, toJson, field, List.lookup_cons]

/-- The reader of MIDI messages. -/
@[reducible] def midiReader : FromValue MidiEvent where
  fromValue document := okOr (midiOfJson document) "no MIDI event"
  fromValue_sorted event := by rw [midiOfJson_sorted, okOr]

theorem validLabel_log : validLabel "log" := by decide

theorem validLabel_write : validLabel "write" := by decide

/-- A component that logs a line, reads the clock, takes two random bytes and a MIDI message, and
asks for another message. -/
def sensingPackage [HexCodec] [FromValue MidiEvent] : Package where
  identity := ⟨"a.b.c", "1.0.0", .ofList (.replicate 64 'a')⟩
  fuel := 5
  component _ :=
    .given ⟨"log", validLabel_log⟩ ⟨"write", validLabel_write⟩
      (.obj [("level", .str "info"), ("message", .str "start")]) <|
    .wallClockMs true fun _ => .randomBytes true 2 fun _ => .midiNext true fun _ =>
    .midiNext true fun _ => .finish (.returned (.ok "done")) 2

/-- The outcomes of a live run of the component. -/
def sensedOutcomes [HexCodec] : List Json :=
  [.obj [("value", .num 7)], randomOutcome [171, 3],
    eventOutcome (some (MidiEvent.mk 48000 0 0x90 60 100)), eventOutcome (none : Option MidiEvent)]

/-- The machine that answers so. -/
def sensedMachine [HexCodec] : Machine := fun turn =>
  okOr (sensedOutcomes[turn - 1]?) "no outcome"

/-- The trace of that run. -/
def sensedTrace [HexCodec] : ExecutionTrace :=
  ⟨2, "1", "a.b.c", "1.0.0", .ofList (.replicate 64 'a'), [],
    [⟨0, "log", "write", .obj [("level", .str "info"), ("message", .str "start")]⟩] ++
    List.zipWith (fun call outcome => ⟨call.1, call.2.1, call.2.2, outcome⟩)
      [(1, "clock", "wall-clock-ms"), (2, "random", "random-bytes"), (3, "midi", "next"),
        (4, "midi", "next")] sensedOutcomes, ⟨"done", 3⟩⟩

theorem sensedMachine_eq_ok [HexCodec] (turn : Nat) {outcome : Json}
    (h : sensedOutcomes[turn - 1]? = some outcome) : sensedMachine turn = .ok outcome := by
  rw [sensedMachine, h, okOr]

attribute [local instance] nibbleCodec midiReader

theorem validateHeader_sensedTrace :
    sensedTrace.validateHeader = .ok () := by
  obtain ⟨⟨⟩, h⟩ := isOk_iff.mp (by decide +kernel : sensedTrace.validateHeader.isOk)
  exact h

theorem execute_sensingPackage :
    execute "1" sensedMachine sensingPackage [] none = .ok sensedTrace := by
  rfl

theorem replay_eq_sensedTrace :
    ∃ report, replay "1" sensedMachine sensingPackage [] sensedTrace = .ok report
      ∧ report = sensedTrace := by
  have hok : (replay "1" sensedMachine sensingPackage [] sensedTrace).isOk := by decide +kernel
  obtain ⟨report, hreplay⟩ := isOk_iff.mp hok
  exact ⟨report, hreplay, replay_eq_trace hreplay⟩

/-- The trace of a live run passes the check as soon as its header does. -/
theorem validate_of_execute (h : execute runtimeVersion machine package args none = .ok trace) :
    trace.validate = .ok () ↔ trace.validateHeader = .ok () :=
  (execute_live h).2.1

theorem sensedTrace_validates :
    sensedTrace.validate = .ok () := by
  exact (validate_of_execute execute_sensingPackage).mpr validateHeader_sensedTrace

/-- The trace of a live run is accepted by a replay, whatever the machine answers then. -/
theorem replay_of_execute (other : Machine)
    (h : execute runtimeVersion machine package args none = .ok trace)
    (hheader : trace.validateHeader = .ok ())
    (hanswered : (package.component args).Answered machine 0) :
    replay runtimeVersion other package args trace = .ok trace := by
  obtain ⟨hfinish, hvalid, output, houtput, rfl⟩ := execute_live h
  have hnone : ((package.component args).run machine 0 {}).2.divergence = none := by
    cases hdivergence : ((package.component args).run machine 0 {}).2.divergence with
    | none => rfl
    | some error => simp [finishReplay, hdivergence] at hfinish
  have hrun := (package.component args).run_shadow other rfl hanswered (recorded_start none)
    hnone List.prefix_rfl
  simp only [shadow, List.length_nil] at hrun
  simp [replay, execute, ExecutionTrace.validateInvocation, hvalid.mpr hheader, checkIdentity,
    rejectIf_of_not, hrun, houtput, TraceResult.compare, finishReplay, hnone, mapError]

theorem sensedTrace_replays :
    replay "1" (fun _ => .error "") sensingPackage [] sensedTrace = .ok sensedTrace := by
  refine replay_of_execute _ execute_sensingPackage validateHeader_sensedTrace ?_
  rw [sensingPackage, Component.Answered]
  have hclock : decodeClock (.obj [("value", .num 7)]) = .ok 7 := rfl
  refine Component.Answered.senses (sensedMachine_eq_ok 1 rfl) hclock ?_
  refine Component.Answered.senses (sensedMachine_eq_ok 2 rfl) (decodeRandom_randomOutcome rfl) ?_
  refine Component.Answered.nextEvent _ (sensedMachine_eq_ok 3 rfl) ?_ ?_
  · rintro _ ⟨⟩
    exact ⟨rfl, _, rfl⟩
  · exact .nextEvent none (sensedMachine_eq_ok 4 rfl) (by rintro _ ⟨⟩) trivial

end CartridgeRuntime.Runtime
