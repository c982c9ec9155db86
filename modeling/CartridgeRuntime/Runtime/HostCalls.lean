import CartridgeRuntime.Media.Audio
import CartridgeRuntime.Runtime.Trace

/-!
# Host calls and the execution of a component

The calls that read the clock, the random source and the input queues decode a recorded outcome
with the checks of a live one. `execute` runs a component and returns the trace of the run; `replay`
runs it against a trace. The numbers of a document are integers, as all that these calls record.
-/

namespace CartridgeRuntime.Media

open Checked Encoding

/-! ## Events of the devices -/

/-- The text of an error of the media crate. -/
def MediaError.text : MediaError → String
  | .invalid message => "invalid media document: " ++ message
  | .limit message => "media limit exceeded: " ++ message
  | .asset message => "media asset error: " ++ message
  | .encoding message => "media encoding failed: " ++ message

def maxTextInputBytes : Nat := 4096

/-- An event of the keyboard, the pointer, a controller or the window. -/
inductive InputEvent where
  | key (code : UInt16) (pressed repeated : Bool)
  | pointerMove (x y : Int32)
  | pointerButton (button : UInt8) (pressed : Bool)
  | pointerWheel (x y : Int16)
  | controllerAxis (controller axis : UInt8) (value : Int16)
  | controllerButton (controller button : UInt8) (pressed : Bool)
  | text (value : String)
  | closeRequested

/-- The document of an event: its kind, and the fields of that kind. -/
def InputEvent.toJson (event : InputEvent) : Json :=
  let tagged (kind : String) (fields : List (String × Json)) := .obj (("type", .str kind) :: fields)
  match event with
  | .key code pressed repeated =>
    tagged "key" [("code", .num code.toNat), ("pressed", .bool pressed), ("repeat", .bool repeated)]
  | .pointerMove x y => tagged "pointer-move" [("x", .num x.toInt), ("y", .num y.toInt)]
  | .pointerButton button pressed =>
    tagged "pointer-button" [("button", .num button.toNat), ("pressed", .bool pressed)]
  | .pointerWheel x y => tagged "pointer-wheel" [("x", .num x.toInt), ("y", .num y.toInt)]
  | .controllerAxis controller axis value =>
    tagged "controller-axis" [("controller", .num controller.toNat), ("axis", .num axis.toNat),
      ("value", .num value.toInt)]
  | .controllerButton controller button pressed =>
    tagged "controller-button" [("controller", .num controller.toNat),
      ("button", .num button.toNat), ("pressed", .bool pressed)]
  | .text value => tagged "text" [("value", .str value)]
  | .closeRequested => tagged "close-requested" []

instance : ToJson InputEvent := ⟨InputEvent.toJson⟩

/-- The check of an event before it is queued and after it is read from a trace. -/
def InputEvent.validate (event : InputEvent) : Except MediaError InputEvent := do
  if let .text value := event then
    rejectIf (value.utf8ByteSize > maxTextInputBytes)
      (.limit s!"text input exceeds {maxTextInputBytes} bytes")
    rejectIf (value.toList.any (· = '\x00')) (.invalid "text input contains a null character")
  pure event

/-- A message of a MIDI device. -/
structure MidiEvent where
  timestampFrames : UInt64
  cable : UInt8
  status : UInt8
  data1 : UInt8
  data2 : UInt8

instance : ToJson MidiEvent where
  toJson event := .obj [("timestamp_frames", .num event.timestampFrames.toNat),
    ("cable", .num event.cable.toNat), ("status", .num event.status.toNat),
    ("data1", .num event.data1.toNat), ("data2", .num event.data2.toNat)]

/-- The check of a message before it is queued and after it is read from a trace. -/
def MidiEvent.validate (event : MidiEvent) : Except MediaError MidiEvent := do
  rejectIf (event.cable > 15 ∨ event.status < 0x80 ∨ event.data1 > 0x7f ∨ event.data2 > 0x7f)
    (.invalid "invalid MIDI event")
  pure event

end CartridgeRuntime.Media

namespace CartridgeRuntime.Runtime

open Checked Encoding CartridgeRuntime.Media

def maxGuestErrorBytes : Nat := 16 * 1024
def maxRandomBytes : UInt32 := 1024 * 1024

/-- The texts that name a call in a trace. -/
abbrev Label := { text : String // validLabel text }

/-- The outcome that the machine has for a call, by the number of calls made before. -/
abbrev Machine := Nat → Except String Json

/-- What `wall_clock_ms`, `random_bytes`, `input_next` and `midi_next` do once they are permitted: the
outcome comes from the machine, or from the trace, where it is checked and recorded again. -/
def HostState.sensed (capability operation : Label) (check : Json → Except String Unit)
    (live : Except String Json) (host : HostState) : Except String Json × HostState :=
  match host.replayOutcome capability operation with
  | (some (.error message), host) => (.error message, host)
  | (some (.ok outcome), host) =>
    match check outcome with
    | .error error => (.error error, host.setDivergence error)
    | .ok () => (.ok outcome, host.record capability operation outcome)
  | (none, host) =>
    match live with
    -- A clock that cannot be read leaves no event.
    | .error error => (.error error, host)
    | .ok outcome => (.ok outcome, host.record capability operation outcome)

/-- How the call of a component ends. -/
inductive CallResult where
  | trapped (error : String)
  | returned (result : Except String String)

/-- What a component does: its host calls, with what follows for every answer. The outcome of a `given`
call (a log line, a denial, a frame) follows from its arguments. -/
inductive Component where
  | finish (result : CallResult) (fuelRemaining : Nat)
  | given (capability operation : Label) (outcome : Json) (rest : Component)
  | sensed (capability operation : Label) (check : Json → Except String Unit)
      (resume : Except String Json → Component)

/-- Run a component on a machine, from a turn on. -/
def Component.run (machine : Machine) :
    Component → Nat → HostState → (CallResult × Nat) × HostState
  | .finish result fuelRemaining, _, host => ((result, fuelRemaining), host)
  | .given capability operation outcome rest, turn, host =>
    rest.run machine (turn + 1) (host.record capability operation outcome)
  | .sensed capability operation check resume, turn, host =>
    let call := host.sensed capability operation check (machine turn)
    (resume call.1).run machine (turn + 1) call.2

/-- A call that is denied, or whose outcome is decoded. -/
def Component.senses {α : Type} (capability operation : Label) (denied : Option String)
    (decode : Json → Except String α) (resume : Except String α → Component) : Component :=
  match denied with
  | some error =>
    .given capability operation (.obj [("denied", .str error)]) (resume (.error error))
  | none => .sensed capability operation (fun outcome => discard (decode outcome))
      fun answer => resume (answer >>= decode)

/-! ## The clock and the random source -/

/-- A member of an object. -/
def field (name : String) : Json → Option Json
  | .obj members => members.lookup name
  | _ => none

/-- A number that fits into 64 bits. -/
def asU64 : Json → Option Nat
  | .num (.ofNat n) => if n < UInt64.size then some n else none
  | _ => none

/-- A text. -/
def asStr : Json → Option String
  | .str text => some text
  | _ => none

theorem validLabel_clock : validLabel "clock" := by decide

theorem validLabel_wallClockMs : validLabel "wall-clock-ms" := by decide

/-- The time that an outcome of the clock has. -/
def decodeClock (outcome : Json) : Except String Nat :=
  okOr ((field "value" outcome).bind asU64)
    "recorded clock outcome does not contain an unsigned value"

/-- Ask for the time. -/
def Component.wallClockMs (granted : Bool) (resume : Except String Nat → Component) : Component :=
  senses ⟨"clock", validLabel_clock⟩ ⟨"wall-clock-ms", validLabel_wallClockMs⟩
    (if granted then none else some "clock capability was not granted") decodeClock resume

theorem validLabel_random : validLabel "random" := by decide

theorem validLabel_randomBytes : validLabel "random-bytes" := by decide

section

variable [HexCodec]

/-- The bytes that an outcome of the random source has for a request. -/
def decodeRandom (length : UInt32) (outcome : Json) : Except String (List UInt8) := do
  let recordedLength := (field "length" outcome).bind asU64
  let shown := recordedLength.elim "missing" toString
  rejectIf (recordedLength ≠ some length.toNat)
    s!"recorded random length was {shown}, guest requested {length}"
  let encoded ← okOr ((field "bytes" outcome).bind asStr)
    "recorded random outcome does not contain bytes"
  let bytes ← mapError ("recorded random bytes are invalid: " ++ ·) (HexCodec.decode encoded)
  let found := bytes.length
  rejectIf (found ≠ length.toNat) s!"recorded random data has {found} bytes, expected {length}"
  pure bytes

/-- What a live call records of the bytes that it returns. -/
def randomOutcome (bytes : List UInt8) : Json :=
  .obj [("bytes", .str (HexCodec.encode bytes)), ("length", .num bytes.length)]

/-- What a live call records is accepted by a replay. -/
theorem decodeRandom_randomOutcome {length : UInt32} {bytes : List UInt8}
    (h : bytes.length = length.toNat) : decodeRandom length (randomOutcome bytes) = .ok bytes := by
  have hlength : (field "length" (randomOutcome bytes)).bind asU64 = some length.toNat := by
    have hlt : bytes.length < UInt64.size := h ▸ length.toNat_lt.trans (by decide)
    exact (if_pos hlt).trans (congrArg some h)
  have hbytes : (field "bytes" (randomOutcome bytes)).bind asStr = some (HexCodec.encode bytes) :=
    rfl
  simp [decodeRandom, hlength, hbytes, HexCodec.decode_encode, h, rejectIf_of_not, okOr, mapError]

/-- Ask for random bytes. -/
def Component.randomBytes (granted : Bool) (length : UInt32)
    (resume : Except String (List UInt8) → Component) : Component :=
  senses ⟨"random", validLabel_random⟩ ⟨"random-bytes", validLabel_randomBytes⟩
    (if ¬ granted then some "random capability was not granted"
      else if length > maxRandomBytes then
        some s!"random request exceeds the {maxRandomBytes}-byte limit"
      else none)
    (decodeRandom length) resume

end

/-! ## The input queues -/

theorem validLabel_next : validLabel "next" := by decide

/-- An object as a value in memory, which has its members in the order of their names. -/
def Json.sorted : Json → Json
  | .obj members => .obj (members.insertionSort fun left right => left.1 ≤ right.1)
  | document => document

/-- A typed reader of values, known only by that it reads what was made of a value. -/
class FromValue (α : Type) [ToJson α] where
  /-- Read a value. -/
  fromValue : Json → Except String α
  /-- The value that was made is read back. -/
  fromValue_sorted (value : α) : fromValue (Json.sorted (toJson value)) = .ok value

section

variable {α : Type} [ToJson α] [FromValue α]

/-- The event of a document, if it has one. -/
def readEvent (source : String) : Json → Except String (Option α)
  | .null => .ok none
  | document => mapError (s!"recorded {source} event is invalid: " ++ ·)
      ((FromValue.fromValue document).map some)

/-- The event of an outcome, checked as before it was queued. -/
def decodeEvent (source : String) (validate : α → Except MediaError α) (outcome : Json) :
    Except String (Option α) := do
  let event ← readEvent source ((field "event" outcome).getD .null)
  mapError (fun error => s!"recorded {source} event failed validation: {error.text}")
    (event.mapM validate)

/-- What a live call records of the event that it takes from a queue. -/
def eventOutcome (event : Option α) : Json :=
  .obj [("event", event.elim .null fun event => Json.sorted (toJson event))]

/-- What a live call records of an event that was checked is accepted by a replay. -/
theorem decodeEvent_eventOutcome {source : String} {validate : α → Except MediaError α}
    {event : Option α} (h : ∀ value ∈ event, validate value = .ok value
      ∧ ∃ members, toJson value = .obj members) :
    decodeEvent source validate (eventOutcome event) = .ok event := by
  cases event with
  | none => rfl
  | some value =>
    obtain ⟨hvalid, members, hmembers⟩ := h value rfl
    have hread : readEvent source (Json.sorted (toJson value)) = .ok (some value) := by
      rw [hmembers, Json.sorted, readEvent, ← Json.sorted, ← hmembers,
        FromValue.fromValue_sorted]
      · rfl
      · exact Json.noConfusion
    show readEvent source (Json.sorted (toJson value)) >>= _ = _
    rw [hread, ok_bind, Option.mapM_some, hvalid]
    rfl

/-- The next event of a queue, as the guest gets it. -/
def Component.nextEvent (capability : Label) (source : String) (denied : Option String)
    (validate : α → Except MediaError α) (resume : Except String (Option (List UInt8)) → Component) :
    Component :=
  senses capability ⟨"next", validLabel_next⟩ denied
    (fun outcome => (decodeEvent source validate outcome).map (·.map encode)) resume

end

theorem validLabel_input : validLabel "input" := by decide

/-- Ask for the next input event. -/
def Component.inputNext [FromValue InputEvent] (granted : Bool) :
    (Except String (Option (List UInt8)) → Component) → Component :=
  nextEvent ⟨"input", validLabel_input⟩ "input"
    (if granted then none else some "graphics capability was not granted") InputEvent.validate

theorem validLabel_midi : validLabel "midi" := by decide

/-- Ask for the next MIDI event. -/
def Component.midiNext [FromValue MidiEvent] (granted : Bool) :
    (Except String (Option (List UInt8)) → Component) → Component :=
  nextEvent ⟨"midi", validLabel_midi⟩ "MIDI"
    (if granted then none else some "MIDI capability was not granted") MidiEvent.validate

/-! ## Execution -/

/-- The package that a trace is of. -/
structure TraceIdentity where
  cartridgeId : String
  cartridgeVersion : String
  componentSha256 : String

/-- What the runtime takes of a package: its identity, its fuel and its component. -/
structure Package where
  identity : TraceIdentity
  fuel : Nat
  component : List String → Component

/-- Why a run fails. -/
inductive RunError where
  | replay (error : ReplayError)
  | failed (message : String)

/-- A field of the trace is that of the invocation. -/
def checkIdentity (field expected actual : String) : Except ReplayError Unit :=
  rejectIf (expected ≠ actual) (.identityMismatch field expected actual)

/-- The trace is one of this invocation. -/
def ExecutionTrace.validateInvocation (trace : ExecutionTrace) (runtimeVersion : String)
    (identity : TraceIdentity) (args : List String) : Except ReplayError Unit := do
  trace.validate
  checkIdentity "runtime version" trace.runtimeVersion runtimeVersion
  checkIdentity "cartridge id" trace.cartridgeId identity.cartridgeId
  checkIdentity "cartridge version" trace.cartridgeVersion identity.cartridgeVersion
  checkIdentity "component sha256" trace.componentSha256 identity.componentSha256
  rejectIf (trace.args ≠ args) (.invocationMismatch trace.args args)

/-- A replay ends as its trace did. -/
def TraceResult.compare (expected actual : TraceResult) : Except ReplayError Unit := do
  rejectIf (expected.output ≠ actual.output)
    (.resultMismatch "output" expected.output actual.output)
  rejectIf (expected.fuelConsumed ≠ actual.fuelConsumed)
    (.resultMismatch "fuel consumed" (toString expected.fuelConsumed) (toString actual.fuelConsumed))

/-- The output of a call, or why there is none. -/
def CallResult.output : CallResult → Except String String
  | .trapped error => .error s!"the component trapped while running: {error}"
  | .returned (.error message) => .error <|
      if message.utf8ByteSize ≤ maxGuestErrorBytes then s!"cartridge returned an error: {message}"
      else s!"cartridge returned an error larger than the {maxGuestErrorBytes} byte limit"
  | .returned (.ok output) => do
    rejectIf (output.utf8ByteSize > maxTraceOutputBytes)
      s!"cartridge output exceeds the {maxTraceOutputBytes} byte limit"
    pure output

/-- Run a package and trace it, or follow a trace. -/
def execute (runtimeVersion : String) (machine : Machine) (package : Package) (args : List String)
    (replay : Option ExecutionTrace) : Except RunError ExecutionTrace := do
  let start : HostState := { replay := replay.map fun trace => { events := trace.events } }
  let call := (package.component args).run machine 0 start
  mapError .replay call.2.finishReplay
  let output ← mapError .failed call.1.1.output
  let result : TraceResult := ⟨output, package.fuel - call.1.2⟩
  replay.elim (pure ()) fun trace => mapError .replay (trace.result.compare result)
  pure ⟨currentTraceFormatVersion, runtimeVersion, package.identity.cartridgeId,
    package.identity.cartridgeVersion, package.identity.componentSha256, args, call.2.events, result⟩

/-- Follow a trace of the same invocation. -/
def replay (runtimeVersion : String) (machine : Machine) (package : Package) (args : List String)
    (trace : ExecutionTrace) : Except RunError ExecutionTrace := do
  mapError .replay (trace.validateInvocation runtimeVersion package.identity args)
  execute runtimeVersion machine package args (some trace)

end CartridgeRuntime.Runtime
