import CartridgeRuntime.Library.Bytes
import CartridgeRuntime.Library.Checked
import CartridgeRuntime.Library.Saturating

/-!
# Audio documents

An audio document is a list of nodes, of which each reads an earlier one, and a list of events that
set their parameters. `validateGraph` accepts it and `renderAudio` computes its samples, one frame
after the other. The effects of the frame loop, in their order, are kept in `Renderer.log`.

A 32-bit sample is an integer, and the code's saturating operations are those of `Saturating`.
-/

namespace CartridgeRuntime.Media

open Checked Encoding Saturating
open Sha2 (bigEndian)

/-- Errors of the media crate. -/
inductive MediaError where
  | invalid (message : String)
  | limit (message : String)
  | asset (message : String)
  | encoding (message : String)
deriving DecidableEq, Repr

/-- How a computation ends that gives no result: with an error, or with an index outside a list. -/
inductive Failure where
  | error (error : MediaError)
  | panic
deriving DecidableEq, Repr

def sampleRate : Nat := 48000
def channels : Nat := 2
def maxAudioNodes : Nat := 128
def maxAudioEvents : Nat := 65536
def maxAudioFrames : Nat := sampleRate * 30
def maxAudioWorkUnits : Nat := 100000000
def maxDelayStorageSamples : Nat := maxAudioFrames
def maxFrequencyMillihz : Int := 24000000

/-- The limits of a document. -/
structure AudioLimits where
  maxNodes : Nat := maxAudioNodes
  maxEvents : Nat := maxAudioEvents
  maxFrames : Nat := maxAudioFrames
  maxWorkUnits : Nat := maxAudioWorkUnits

/-- The shapes of an oscillator. -/
inductive Waveform where
  | square
  | saw
  | triangle
  | noise
deriving DecidableEq

/-- A node of the graph; its input is an earlier node. -/
inductive AudioNode where
  | oscillator (id : UInt16) (waveform : Waveform) (frequencyMillihz : UInt32) (levelQ15 : Int16)
  | gain (id input : UInt16) (gainQ15 : Int16)
  | lowPass (id input : UInt16) (coefficientQ15 : UInt16)
  | delay (id input : UInt16) (delayFrames : UInt32) (feedbackQ15 : Int16) (mixQ15 : UInt16)
  | output (id input : UInt16)
deriving DecidableEq

/-- The number of a node. -/
def AudioNode.id : AudioNode → UInt16
  | .oscillator id .. | .gain id .. | .lowPass id .. | .delay id .. | .output id .. => id

/-- The node that a node reads. -/
def AudioNode.input : AudioNode → Option UInt16
  | .oscillator .. => none
  | .gain _ input .. | .lowPass _ input .. | .delay _ input .. | .output _ input => some input

/-- What an event can set. -/
inductive AudioParameter where
  | frequencyMillihz
  | levelQ15
  | gainQ15
  | coefficientQ15
  | feedbackQ15
  | mixQ15
deriving DecidableEq

/-- The name of a parameter in an error. -/
def AudioParameter.debug : AudioParameter → String
  | .frequencyMillihz => "FrequencyMillihz"
  | .levelQ15 => "LevelQ15"
  | .gainQ15 => "GainQ15"
  | .coefficientQ15 => "CoefficientQ15"
  | .feedbackQ15 => "FeedbackQ15"
  | .mixQ15 => "MixQ15"

/-- A parameter of a node is set before a frame. -/
structure ParameterEvent where
  frame : UInt64
  node : UInt16
  parameter : AudioParameter
  value : Int32
deriving DecidableEq

/-- A graph of nodes and its events. -/
structure AudioDocument where
  frames : UInt64
  seed : UInt64 := 0
  nodes : List AudioNode
  events : List ParameterEvent := []

/-- What is reported of a rendering. -/
structure AudioReceipt where
  frames : UInt64
  sampleRate : Nat
  channels : Nat
  nodeCount : Nat
  eventCount : Nat
  pcmSha256 : String
  wavSha256 : String
  peak : Int16

/-- The samples of a rendering and their file. -/
structure AudioRender where
  receipt : AudioReceipt
  pcm : List Int16
  wav : List UInt8

/-! ## Validation -/

/-- The values that fit a signed 16-bit number. -/
def fitsI16 (value : Int) : Prop := -32768 ≤ value ∧ value ≤ 32767

/-- The values of a fraction that is not negative. -/
def fitsQ15 (value : Int) : Prop := 0 ≤ value ∧ value ≤ 32767

/-- The frequencies that can be set. -/
def fitsFrequency (value : Int) : Prop := 0 ≤ value ∧ value ≤ maxFrequencyMillihz

instance (value : Int) : Decidable (fitsI16 value) := inferInstanceAs (Decidable (_ ∧ _))
instance (value : Int) : Decidable (fitsQ15 value) := inferInstanceAs (Decidable (_ ∧ _))
instance (value : Int) : Decidable (fitsFrequency value) := inferInstanceAs (Decidable (_ ∧ _))

/-- The test of a parameter of a node of a document. -/
def parameterValid (node : AudioNode) (parameter : AudioParameter) (value : Int) : Bool :=
  match node, parameter with
  | .oscillator .., .frequencyMillihz => fitsFrequency value
  | .oscillator .., .levelQ15 | .gain .., .gainQ15 | .delay .., .feedbackQ15 => fitsI16 value
  | .lowPass .., .coefficientQ15 | .delay .., .mixQ15 => fitsQ15 value
  | _, _ => false

/-- The error of a parameter that a node does not have, or of a value that it cannot take. -/
def parameterError (event : ParameterEvent) : MediaError :=
  .invalid s!"parameter {event.parameter.debug} is invalid for node {event.node.toNat}"

/-- The node has this parameter, and the value fits it. -/
def validateParameter (node : AudioNode) (event : ParameterEvent) : Except MediaError Unit :=
  rejectIf (parameterValid node event.parameter event.value.toInt = false) (parameterError event)

/-- One turn of the loop over the nodes, with the delay samples so far. -/
def validateNode (limits : AudioLimits) (delaySamples : Nat) :
    AudioNode × Nat → Except MediaError Nat
  | (node, index) => do
    rejectIf (node.id.toNat ≠ index)
      (.invalid "audio node ids must be contiguous and ordered from zero")
    rejectIf (∃ input ∈ node.input, index ≤ input.toNat)
      (.invalid s!"node {node.id.toNat} input must refer to an earlier node")
    match node with
    | .oscillator _ _ frequencyMillihz _ => do
      rejectIf (frequencyMillihz.toNat > sampleRate * 500)
        (.invalid "oscillator frequency exceeds Nyquist")
      pure delaySamples
    | .delay _ _ delayFrames _ _ => do
      rejectIf (delayFrames.toNat = 0 ∨ delayFrames.toNat > limits.maxFrames)
        (.limit "delay length is outside the audio limits")
      let delaySamples := min (delaySamples + delayFrames.toNat) wordMax
      rejectIf (delaySamples > maxDelayStorageSamples)
        (.limit "aggregate delay storage limit exceeded")
      pure delaySamples
    | _ => pure delaySamples

/-- One turn of the loop over the events, with the frame of the event before. -/
def validateEvent (graph : AudioDocument) (previous : UInt64) :
    ParameterEvent × Nat → Except MediaError UInt64
  | (event, index) => do
    rejectIf (event.frame ≥ graph.frames ∨ (index ≠ 0 ∧ event.frame < previous))
      (.invalid "audio events must be ordered and inside the render")
    let node ← okOr graph.nodes[event.node.toNat]?
      (.invalid s!"audio event refers to unknown node {event.node.toNat}")
    validateParameter node event
    pure event.frame

/-- The last node of a document is an output. -/
def endsInOutput (nodes : List AudioNode) : Bool :=
  match nodes.getLast? with
  | some (.output ..) => true
  | _ => false

/-- Check a document against its limits. -/
def validateGraph (graph : AudioDocument) (limits : AudioLimits) : Except MediaError Unit := do
  rejectIf (graph.frames.toNat = 0 ∨ graph.frames.toNat > limits.maxFrames
    ∨ graph.frames.toNat > maxAudioFrames) (.limit "audio frame limit exceeded")
  rejectIf (graph.nodes = [] ∨ graph.nodes.length > limits.maxNodes
    ∨ graph.nodes.length > maxAudioNodes) (.limit "audio node limit exceeded")
  rejectIf (graph.events.length > limits.maxEvents ∨ graph.events.length > maxAudioEvents)
    (.limit "audio event limit exceeded")
  rejectIf (graph.frames.toNat * graph.nodes.length > wordMax)
    (.limit "audio work estimate overflows")
  rejectIf (graph.frames.toNat * graph.nodes.length > limits.maxWorkUnits
    ∨ graph.frames.toNat * graph.nodes.length > maxAudioWorkUnits)
    (.limit "audio work budget exceeded")
  let _ ← graph.nodes.zipIdx.foldlM (validateNode limits) 0
  rejectIf (endsInOutput graph.nodes = false) (.invalid "the final audio node must be an output")
  let _ ← graph.events.zipIdx.foldlM (validateEvent graph) 0
  pure ()

/-! ## Nodes at work -/

/-- A node with what it keeps from frame to frame. -/
inductive NodeState where
  | oscillator (id : UInt16) (waveform : Waveform) (phase increment : UInt32) (level : Int16)
      (noise : UInt64)
  | gain (id : UInt16) (input : Nat) (gain : Int16)
  | lowPass (id : UInt16) (input : Nat) (coefficient : UInt16) (previous : Int)
  | delay (id : UInt16) (input : Nat) (samples : List Int) (cursor : Nat) (feedback : Int16)
      (mix : UInt16)
  | output (id : UInt16) (input : Nat)

/-- The number of the node. -/
def NodeState.id : NodeState → UInt16
  | .oscillator id .. | .gain id .. | .lowPass id .. | .delay id .. | .output id .. => id

/-- How far the phase moves in one sample. -/
def phaseIncrement (frequencyMillihz : Nat) : UInt32 :=
  .ofNat (frequencyMillihz * 2 ^ 32 / (sampleRate * 1000))

/-- The state of a node before the first frame. -/
def NodeState.new (seed : UInt64) : AudioNode → NodeState
  | .oscillator id waveform frequencyMillihz levelQ15 =>
    .oscillator id waveform 0 (phaseIncrement frequencyMillihz.toNat) levelQ15
      (seed ^^^ (id.toUInt64 * 0x9e3779b97f4a7c15))
  | .gain id input gainQ15 => .gain id input.toNat gainQ15
  | .lowPass id input coefficientQ15 => .lowPass id input.toNat coefficientQ15 0
  | .delay id input delayFrames feedbackQ15 mixQ15 =>
    .delay id input.toNat (List.replicate delayFrames.toNat 0) 0 feedbackQ15 mixQ15
  | .output id input => .output id input.toNat

/-- Scale a value by a fraction in 15 bits. -/
def q15 (value factor : Int) : Int := scaleQ15 value factor

/-- The noise register after one more sample. -/
def nextNoise (noise : UInt64) : UInt64 :=
  noise * 6364136223846793005 + 1442695040888963407

/-- The sample of a wave at a phase, before its level. -/
def Waveform.raw (waveform : Waveform) (phase : UInt32) (noise : UInt64) : Int :=
  let saw : Int := (phase >>> 16).toNat - 32768
  match waveform with
  | .square => if phase < 0x80000000 then 32767 else -32768
  | .saw => saw
  | .triangle => 32767 - saw.natAbs * 2
  | .noise => (noise >>> 48).toNat - 32768

/-- The filter's next output. -/
def lowPassStep (previous value : Int) (coefficient : UInt16) : Int :=
  saturatingAdd previous (q15 (saturatingSub value previous) coefficient.toNat)

/-- The next sample of a node, given the samples of the nodes before it. There is none if the node
reads outside of them. -/
def NodeState.sample (values : List Int) : NodeState → Option (NodeState × Int)
  | .oscillator id waveform phase increment level noise =>
    let noise := if waveform = .noise then nextNoise noise else noise
    some (.oscillator id waveform (phase + increment) increment level noise,
      q15 (waveform.raw phase noise) level.toInt)
  | .gain id input factor => do
    let value ← values[input]?
    some (.gain id input factor, q15 value factor.toInt)
  | .lowPass id input coefficient previous => do
    let value ← values[input]?
    let previous := lowPassStep previous value coefficient
    some (.lowPass id input coefficient previous, previous)
  | .delay id input samples cursor feedback mix => do
    let delayed ← samples[cursor]?
    let dry ← values[input]?
    let samples := samples.set cursor (saturatingAdd dry (q15 delayed feedback.toInt))
    let wet := q15 delayed mix.toNat
    let dryMix := q15 dry (32767 - min (mix.toNat : Int) 32767)
    some (.delay id input samples ((cursor + 1) % samples.length) feedback mix,
      saturatingAdd dryMix wet)
  | .output id input => do
    let value ← values[input]?
    some (.output id input, value)

/-! ## Events -/

/-- A value of 16 bits. -/
def checkedI16 (value : Int) (name : String) : Except MediaError Int16 := do
  rejectIf (¬ fitsI16 value) (.invalid s!"{name} parameter is outside i16 range")
  pure (.ofInt value)

/-- A fraction in 15 bits. -/
def checkedU15 (value : Int) (name : String) : Except MediaError UInt16 := do
  rejectIf (¬ fitsQ15 value) (.invalid s!"{name} parameter is outside q15 range")
  pure (.ofNat value.toNat)

/-- Set the parameter of an event in the state of its node. -/
def NodeState.setParameter (event : ParameterEvent) (state : NodeState) :
    Except MediaError NodeState :=
  let value := event.value.toInt
  match state, event.parameter with
  | .oscillator id waveform phase _ level noise, .frequencyMillihz => do
    rejectIf (¬ fitsFrequency value) (parameterError event)
    pure (.oscillator id waveform phase (phaseIncrement value.toNat) level noise)
  | .oscillator id waveform phase increment _ noise, .levelQ15 => do
    pure (.oscillator id waveform phase increment (← checkedI16 value "level") noise)
  | .gain id input _, .gainQ15 => do
    pure (.gain id input (← checkedI16 value "gain"))
  | .lowPass id input _ previous, .coefficientQ15 => do
    pure (.lowPass id input (← checkedU15 value "coefficient") previous)
  | .delay id input samples cursor _ mix, .feedbackQ15 => do
    pure (.delay id input samples cursor (← checkedI16 value "feedback") mix)
  | .delay id input samples cursor feedback _, .mixQ15 => do
    pure (.delay id input samples cursor feedback (← checkedU15 value "mix"))
  | _, _ => .error (parameterError event)

/-- An event goes to the first state with the number of its node. -/
def applyEvent (event : ParameterEvent) : List NodeState → Except MediaError (List NodeState)
  | [] => .error (.invalid "event node disappeared")
  | state :: rest =>
    if state.id = event.node then do
      pure ((← state.setParameter event) :: rest)
    else do
      pure (state :: (← applyEvent event rest))

/-! ## The frame loop -/

/-- What the frame loop does: it applies an event, or computes the samples of all nodes. -/
inductive Effect where
  | applied (event : ParameterEvent)
  | sampled (values : List Int)
deriving DecidableEq

/-- The variables of the loop. `pending` are the events from the event index on. -/
structure Renderer where
  states : List NodeState
  pending : List ParameterEvent
  peak : Int16 := 0
  pcm : List Int16 := []
  log : List Effect := []

/-- The nearest value of 16 bits. -/
def clampI16 (value : Int) : Int16 := .ofInt (max (-32768) (min value 32767))

/-- The absolute value, for the least number the largest one. -/
def saturatingAbs (sample : Int16) : Int16 :=
  if sample = -32768 then 32767 else if sample < 0 then -sample else sample

/-- The events at the event index that belong to this frame. -/
def Renderer.applyDue (frame : Nat) :
    List ParameterEvent → Renderer → Except Failure Renderer
  | [], renderer => pure renderer
  | event :: rest, renderer =>
    if event.frame.toNat = frame then do
      let states ← mapError .error (applyEvent event renderer.states)
      applyDue frame rest { renderer with
        states := states, pending := rest, log := renderer.log ++ [.applied event] }
    else pure renderer

/-- The samples of the nodes, one after the other. The array for them has a fixed size. -/
def evaluate : List NodeState → List Int → Option (List NodeState × List Int)
  | [], values => some ([], values)
  | state :: rest, values =>
    if values.length < maxAudioNodes then do
      let (state, value) ← state.sample values
      let (rest, values) ← evaluate rest (values ++ [value])
      some (state :: rest, values)
    else none

/-- One turn of the frame loop. -/
def Renderer.renderFrame (outputIndex : Nat) (renderer : Renderer) (frame : Nat) :
    Except Failure Renderer := do
  let renderer ← renderer.applyDue frame renderer.pending
  let (states, values) ← okOr (evaluate renderer.states []) .panic
  let value ← okOr values[outputIndex]? .panic
  let sample := clampI16 value
  pure { renderer with
    states := states
    peak := max renderer.peak (saturatingAbs sample)
    pcm := renderer.pcm ++ [sample, sample]
    log := renderer.log ++ [.sampled values] }

/-- The variables before the first frame. -/
def Renderer.start (graph : AudioDocument) : Renderer where
  states := graph.nodes.map (NodeState.new graph.seed)
  pending := graph.events

/-- Render every frame. -/
def renderLoop (graph : AudioDocument) : Except Failure Renderer :=
  (List.range graph.frames.toNat).foldlM (Renderer.renderFrame (graph.nodes.length - 1))
    (Renderer.start graph)

/-! ## The file -/

/-- The bytes of a number, the lowest first. -/
def leBytes (count n : Nat) : List UInt8 := (bigEndian count n).reverse

/-- The number of some bytes, the lowest first. -/
def ofLeBytes (bytes : List UInt8) : Nat := ofBigEndian bytes.reverse

/-- The bytes of the samples. -/
def pcmBytes (pcm : List Int16) : List UInt8 :=
  pcm.flatMap fun sample => leBytes 2 sample.toUInt16.toNat

/-- The head of a file with this many bytes of samples. -/
def wavHeader (dataLen : Nat) : List UInt8 :=
  utf8Bytes "RIFF" ++ leBytes 4 (36 + dataLen) ++ utf8Bytes "WAVEfmt " ++ leBytes 4 16
    ++ leBytes 2 1 ++ leBytes 2 channels ++ leBytes 4 sampleRate
    ++ leBytes 4 (sampleRate * channels * 2) ++ leBytes 2 (channels * 2) ++ leBytes 2 16
    ++ utf8Bytes "data" ++ leBytes 4 dataLen

/-- The file of some samples. -/
def encodeWav (pcm : List Int16) (frames : Nat) : Except MediaError (List UInt8) := do
  rejectIf (pcm.length * 2 > wordMax) (.limit "wav data length overflows")
  let dataLen := pcm.length * 2
  rejectIf (dataLen ≥ 2 ^ 32) (.limit "wav data exceeds 4 GiB")
  rejectIf (36 + dataLen ≥ 2 ^ 32) (.limit "wav length overflows")
  rejectIf (frames * channels * 2 > wordMax ∨ frames * channels * 2 ≠ dataLen)
    (.invalid "pcm length does not match frame count")
  pure (wavHeader dataLen ++ pcmBytes pcm)

section

variable [HexCodec] [Sha256]

/-- What is returned for the samples and their file. -/
def Renderer.render (renderer : Renderer) (graph : AudioDocument) (wav : List UInt8) :
    AudioRender where
  receipt :=
    { frames := graph.frames
      sampleRate := sampleRate
      channels := channels
      nodeCount := graph.nodes.length
      eventCount := graph.events.length
      pcmSha256 := sha256Hex (wav.drop 44)
      wavSha256 := sha256Hex wav
      peak := renderer.peak }
  pcm := renderer.pcm
  wav := wav

/-- Render a document that passes its checks. -/
def renderAudio (graph : AudioDocument) (limits : AudioLimits) : Except Failure AudioRender := do
  mapError .error (validateGraph graph limits)
  rejectIf (graph.frames.toNat * channels > wordMax)
    (.error (.limit "audio sample count overflows"))
  let renderer ← renderLoop graph
  let wav ← mapError .error (encodeWav renderer.pcm graph.frames.toNat)
  pure (renderer.render graph wav)

end

end CartridgeRuntime.Media
