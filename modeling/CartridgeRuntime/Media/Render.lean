import CartridgeRuntime.Media.Audio

/-!
# Rendering an accepted document

`renderAudio_complete`: a document that `validateGraph` accepts is rendered to its end. The events
of the document are applied once, in their order and before the samples of their frame, and every
node is evaluated once in a frame.

`Renders` says what the frames of a document are: an event sets one parameter of one node (`Sets`,
`Applies`), and the samples of a frame are computed from the states after its events. The frame loop
is followed by `Progress`, which holds after every frame (`exists_renderFrame`).
-/

namespace CartridgeRuntime.Media

open Checked Encoding Saturating
open Sha2 (length_bigEndian)

/-! ## What validation gives -/

/-- A node that can be at this place of a document. -/
structure GoodNode (index : Nat) (node : AudioNode) : Prop where
  id : node.id.toNat = index
  input : ∀ input ∈ node.input, input.toNat < index
  delay : ∀ id input frames feedback mix, node = .delay id input frames feedback mix →
    0 < frames.toNat

/-- An event that can be in a document. -/
structure GoodEvent (graph : AudioDocument) (event : ParameterEvent) : Prop where
  frame : event.frame.toNat < graph.frames.toNat
  node : ∃ node, graph.nodes[event.node.toNat]? = some node
    ∧ parameterValid node event.parameter event.value.toInt = true

/-- A document that passes validation. -/
structure Accepted (graph : AudioDocument) : Prop where
  frames : 0 < graph.frames.toNat ∧ graph.frames.toNat ≤ maxAudioFrames
  nodes : 0 < graph.nodes.length ∧ graph.nodes.length ≤ maxAudioNodes
  good : ∀ index node, graph.nodes[index]? = some node → GoodNode index node
  events : ∀ event ∈ graph.events, GoodEvent graph event
  ordered : graph.events.Pairwise fun a b => a.frame.toNat ≤ b.frame.toNat

variable {index frame : Nat} {node : AudioNode} {graph : AudioDocument} {event : ParameterEvent}
    {events : List ParameterEvent} {state : NodeState} {states : List NodeState}
    {renderer : Renderer} {pcm : List Int16} {sample : Int16}

theorem goodNode_of_validateNode {limits : AudioLimits} {delaySamples after : Nat}
    (h : validateNode limits delaySamples (node, index) = .ok after) : GoodNode index node := by
  simp only [validateNode, bind_eq_ok, rejectIf_eq_ok, exists_unit, ne_eq, not_not,
    not_exists, not_and, Nat.not_le] at h
  obtain ⟨hid, hinput, hrest⟩ := h
  refine ⟨hid, hinput, ?_⟩
  rintro id input frames feedback mix rfl
  simp only [bind_eq_ok, rejectIf_eq_ok, exists_unit] at hrest
  omega

/-- Every member of a list that a loop has passed was passed by a turn of it. -/
theorem forall_of_foldlM {α β ε : Type} {f : β → α → Except ε β} {P : α → Prop}
    (hstep : ∀ b a b', f b a = .ok b' → P a) {l : List α} {b b' : β} (h : l.foldlM f b = .ok b') :
    ∀ a ∈ l, P a := by
  induction l generalizing b with
  | nil => exact List.forall_mem_nil _
  | cons a l ih =>
    rw [List.foldlM_cons, bind_eq_ok] at h
    obtain ⟨c, hc, hrest⟩ := h
    exact List.forall_mem_cons.mpr ⟨hstep _ _ _ hc, ih hrest⟩

theorem validateEvent_eq_ok {previous after : UInt64}
    (h : validateEvent graph previous (event, index) = .ok after) :
    GoodEvent graph event ∧ (index ≠ 0 → previous.toNat ≤ event.frame.toNat)
      ∧ after = event.frame := by
  simp only [validateEvent, validateParameter, bind_eq_ok, rejectIf_eq_ok, exists_unit,
    okOr_eq_ok, pure_eq_ok, Except.ok.injEq, not_or, ge_iff_le, UInt64.not_le, not_and,
    UInt64.not_lt, Bool.not_eq_false] at h
  obtain ⟨⟨hframe, horder⟩, node, hnode, hvalid, hafter⟩ := h
  exact ⟨⟨UInt64.lt_iff_toNat_lt.mp hframe, node, hnode, hvalid⟩,
    fun hindex => UInt64.le_iff_toNat_le.mp (horder hindex), hafter.symm⟩

/-- The loop over the events keeps the frame of the event before. -/
theorem ordered_of_foldlM {previous last : UInt64}
    (h : (events.zipIdx index).foldlM (validateEvent graph) previous = .ok last) :
    (index ≠ 0 → ∀ event ∈ events, previous.toNat ≤ event.frame.toNat)
      ∧ events.Pairwise fun a b => a.frame.toNat ≤ b.frame.toNat := by
  induction events generalizing index previous with
  | nil => exact ⟨fun _ => List.forall_mem_nil _, .nil⟩
  | cons event events ih =>
    rw [List.zipIdx_cons, List.foldlM_cons, bind_eq_ok] at h
    obtain ⟨after, hafter, hrest⟩ := h
    obtain ⟨-, hprevious, rfl⟩ := validateEvent_eq_ok hafter
    obtain ⟨hlater, hordered⟩ := ih hrest
    have hlater := hlater (Nat.succ_ne_zero index)
    refine ⟨fun hindex => List.forall_mem_cons.mpr ⟨hprevious hindex, ?_⟩,
      List.pairwise_cons.mpr ⟨hlater, hordered⟩⟩
    intro later hmem
    exact (hprevious hindex).trans (hlater later hmem)

theorem accepted_of_validateGraph {limits : AudioLimits} (h : validateGraph graph limits = .ok ()) :
    Accepted graph := by
  simp only [validateGraph, bind_eq_ok, rejectIf_eq_ok, exists_unit, pure_eq_ok, and_true,
    not_or] at h
  obtain ⟨hframes, hnodes, -, -, -, delays, hgood, -, last, hevents⟩ := h
  refine ⟨by omega, ⟨List.length_pos_iff.mpr hnodes.1, by omega⟩, ?_, ?_,
    (ordered_of_foldlM hevents).2⟩
  · intro index node hnode
    have hmem : (node, index) ∈ graph.nodes.zipIdx := List.mk_mem_zipIdx_iff_getElem?.mpr hnode
    exact forall_of_foldlM (P := fun pair => GoodNode pair.2 pair.1)
      (fun _ pair _ => goodNode_of_validateNode) hgood _ hmem
  · intro event hevent
    obtain ⟨index, hindex⟩ := List.mem_iff_getElem?.mp hevent
    have hmem : (event, index) ∈ graph.events.zipIdx := List.mk_mem_zipIdx_iff_getElem?.mpr hindex
    exact forall_of_foldlM (P := fun pair => GoodEvent graph pair.1)
      (fun _ pair _ hstep => (validateEvent_eq_ok hstep).1) hevents _ hmem

/-! ## Nodes and their states -/

/-- The state belongs to the node: it has its kind, its number and its input, and the cursor of a
delay is inside its samples. -/
inductive Fits : AudioNode → NodeState → Prop where
  | oscillator {id waveform frequency level phase increment level' noise} :
      Fits (.oscillator id waveform frequency level)
        (.oscillator id waveform phase increment level' noise)
  | gain {id input gain gain'} : Fits (.gain id input gain) (.gain id input.toNat gain')
  | lowPass {id input coefficient coefficient' previous} :
      Fits (.lowPass id input coefficient) (.lowPass id input.toNat coefficient' previous)
  | delay {id input frames feedback mix samples cursor feedback' mix'}
      (hcursor : cursor < samples.length) :
      Fits (.delay id input frames feedback mix)
        (.delay id input.toNat samples cursor feedback' mix')
  | output {id input} : Fits (.output id input) (.output id input.toNat)

theorem Fits.id_eq (h : Fits node state) : state.id = node.id := by
  cases h <;> rfl

variable {nodes : List AudioNode} {value : Int}

/-- Each state belongs to the node at its place. -/
theorem exists_fits (h : List.Forall₂ Fits nodes states)
    (hstate : states[index]? = some state) : ∃ node, nodes[index]? = some node ∧ Fits node state := by
  induction h generalizing index with
  | nil => cases hstate
  | cons hhead _ ih =>
    cases index with
    | zero => exact ⟨_, rfl, Option.some.inj hstate ▸ hhead⟩
    | succ index => exact ih hstate

/-- The state at a place may be replaced by another one of its node. -/
theorem forall₂_fits_set (h : List.Forall₂ Fits nodes states) (hnode : nodes[index]? = some node)
    (hstate : Fits node state) : List.Forall₂ Fits nodes (states.set index state) := by
  induction h generalizing index with
  | nil => cases hnode
  | cons hhead htail ih =>
    cases index with
    | zero => exact .cons (Option.some.inj hnode ▸ hstate) htail
    | succ index => exact .cons hhead (ih hnode)

theorem fits_new (seed : UInt64) (h : GoodNode index node) : Fits node (.new seed node) := by
  cases node with
  | oscillator => exact .oscillator
  | gain => exact .gain
  | lowPass => exact .lowPass
  | delay id input frames feedback mix =>
    refine .delay ?_
    rw [List.length_replicate]
    exact h.delay _ _ _ _ _ rfl
  | output => exact .output

/-- A node whose input is computed has a sample. -/
theorem Fits.exists_sample {values : List Int} (h : Fits node state)
    (hinput : ∀ input ∈ node.input, input.toNat < values.length) :
    ∃ state' value, state.sample values = some (state', value) ∧ Fits node state' := by
  cases h with
  | oscillator => exact ⟨_, _, rfl, .oscillator⟩
  | @gain id input _ _ =>
    have hvalue := List.getElem?_eq_getElem (hinput input rfl)
    exact ⟨_, _, by rw [NodeState.sample, hvalue]; rfl, .gain⟩
  | @lowPass id input _ _ _ =>
    have hvalue := List.getElem?_eq_getElem (hinput input rfl)
    exact ⟨_, _, by rw [NodeState.sample, hvalue]; rfl, .lowPass⟩
  | @delay id input _ _ _ samples cursor _ _ hcursor =>
    have hvalue := List.getElem?_eq_getElem (hinput input rfl)
    have hdelayed := List.getElem?_eq_getElem hcursor
    refine ⟨_, _, by rw [NodeState.sample, hdelayed, hvalue]; rfl, .delay ?_⟩
    rw [List.length_set]
    exact Nat.mod_lt _ (Nat.zero_lt_of_lt hcursor)
  | @output id input =>
    have hvalue := List.getElem?_eq_getElem (hinput input rfl)
    exact ⟨_, _, by rw [NodeState.sample, hvalue]; rfl, .output⟩

/-- The nodes of a frame, from any place of the document on. -/
theorem exists_evaluate {values : List Int} (hfits : List.Forall₂ Fits nodes states)
    (hgood : ∀ index node, nodes[index]? = some node → GoodNode (values.length + index) node)
    (hroom : values.length + nodes.length ≤ maxAudioNodes) :
    ∃ states' values', evaluate states values = some (states', values')
      ∧ List.Forall₂ Fits nodes states' ∧ values'.length = values.length + nodes.length := by
  induction hfits generalizing values with
  | nil => exact ⟨_, _, rfl, .nil, rfl⟩
  | @cons node state nodes states hhead _ ih =>
    rw [List.length_cons] at hroom
    obtain ⟨state', value, hsample, hstate⟩ := hhead.exists_sample (hgood 0 node rfl).input
    obtain ⟨states', values', hrest, hstates, hlength⟩ := @ih (values ++ [value])
      (by
        intro index node hnode
        rw [List.length_append, List.length_singleton, Nat.add_assoc, Nat.add_comm 1]
        exact hgood (index + 1) node hnode)
      (by rw [List.length_append, List.length_singleton]; omega)
    refine ⟨state' :: states', values', ?_, .cons hstate hstates, ?_⟩
    · rw [evaluate, if_pos (by omega), hsample]
      simp only [Option.bind_eq_bind, Option.bind_some, hrest]
    · rw [hlength, List.length_append, List.length_singleton, List.length_cons]
      omega

/-! ## Events -/

theorem checkedI16_of (name : String) (h : fitsI16 value) :
    checkedI16 value name = .ok (.ofInt value) := by
  rw [checkedI16, rejectIf_of_not _ (not_not.mpr h)]
  rfl

theorem checkedU15_of (name : String) (h : fitsQ15 value) :
    checkedU15 value name = .ok (.ofNat value.toNat) := by
  rw [checkedU15, rejectIf_of_not _ (not_not.mpr h)]
  rfl

theorem toInt_ofInt (h : fitsI16 value) : (Int16.ofInt value).toInt = value := by
  unfold fitsI16 at h
  exact Int16.toInt_ofInt_of_le h.1 (by omega)

theorem toNat_ofNat (h : fitsQ15 value) : ((UInt16.ofNat value.toNat).toNat : Int) = value := by
  unfold fitsQ15 at h
  rw [UInt16.toNat_ofNat']
  omega

/-- A parameter of a node is set to a value, and the rest of its state is kept. -/
inductive Sets (value : Int) : AudioParameter → NodeState → NodeState → Prop where
  | frequency {id waveform phase increment level noise} :
      Sets value .frequencyMillihz (.oscillator id waveform phase increment level noise)
        (.oscillator id waveform phase (phaseIncrement value.toNat) level noise)
  | level {id waveform phase increment level level' noise} (hlevel : level'.toInt = value) :
      Sets value .levelQ15 (.oscillator id waveform phase increment level noise)
        (.oscillator id waveform phase increment level' noise)
  | gain {id input gain gain'} (hgain : gain'.toInt = value) :
      Sets value .gainQ15 (.gain id input gain) (.gain id input gain')
  | coefficient {id input coefficient coefficient' previous} (hfraction : coefficient'.toNat = value) :
      Sets value .coefficientQ15 (.lowPass id input coefficient previous)
        (.lowPass id input coefficient' previous)
  | feedback {id input samples cursor feedback feedback' mix} (hfactor : feedback'.toInt = value) :
      Sets value .feedbackQ15 (.delay id input samples cursor feedback mix)
        (.delay id input samples cursor feedback' mix)
  | mix {id input samples cursor feedback mix mix'} (hfraction : mix'.toNat = value) :
      Sets value .mixQ15 (.delay id input samples cursor feedback mix)
        (.delay id input samples cursor feedback mix')

/-- An event sets a parameter of its node, and the other nodes are kept. -/
def Applies (event : ParameterEvent) (states states' : List NodeState) : Prop :=
  ∃ state state', states[event.node.toNat]? = some state
    ∧ Sets event.value.toInt event.parameter state state'
    ∧ states' = states.set event.node.toNat state'

/-- Events are applied one after the other. -/
inductive AppliesAll : List ParameterEvent → List NodeState → List NodeState → Prop where
  | nil {states : List NodeState} : AppliesAll [] states states
  | cons {event : ParameterEvent} {events : List ParameterEvent} {states middle states' : List NodeState}
      (hevent : Applies event states middle) (hrest : AppliesAll events middle states') :
      AppliesAll (event :: events) states states'

/-- A value that validation accepts for a node is accepted by its state. -/
theorem Fits.exists_setParameter (h : Fits node state)
    (hvalid : parameterValid node event.parameter event.value.toInt = true) :
    ∃ state', state.setParameter event = .ok state' ∧ Fits node state'
      ∧ Sets event.value.toInt event.parameter state state' := by
  unfold NodeState.setParameter
  -- every other pair of a node and a parameter is rejected by validation
  cases h <;> cases hparameter : event.parameter <;> rw [hparameter] at hvalid <;>
    simp only [parameterValid, decide_eq_true_eq, Bool.false_eq_true] at hvalid <;> dsimp only
  case oscillator.frequencyMillihz =>
    exact ⟨_, by rw [rejectIf_of_not _ (not_not.mpr hvalid)]; rfl, .oscillator, .frequency⟩
  case oscillator.levelQ15 =>
    exact ⟨_, by rw [checkedI16_of _ hvalid]; rfl, .oscillator, .level (toInt_ofInt hvalid)⟩
  case gain.gainQ15 =>
    exact ⟨_, by rw [checkedI16_of _ hvalid]; rfl, .gain, .gain (toInt_ofInt hvalid)⟩
  case lowPass.coefficientQ15 =>
    exact ⟨_, by rw [checkedU15_of _ hvalid]; rfl, .lowPass, .coefficient (toNat_ofNat hvalid)⟩
  case delay.feedbackQ15 hcursor =>
    exact ⟨_, by rw [checkedI16_of _ hvalid]; rfl, .delay hcursor, .feedback (toInt_ofInt hvalid)⟩
  case delay.mixQ15 hcursor =>
    exact ⟨_, by rw [checkedU15_of _ hvalid]; rfl, .delay hcursor, .mix (toNat_ofNat hvalid)⟩

/-- The state at a place is the first with the number of the event's node. -/
theorem applyEvent_of_getElem? {state' : NodeState} (hstate : states[index]? = some state)
    (hid : state.id = event.node)
    (hearlier : ∀ place < index, ∀ other, states[place]? = some other → other.id ≠ event.node)
    (hset : state.setParameter event = .ok state') :
    applyEvent event states = .ok (states.set index state') := by
  induction states generalizing index with
  | nil => cases hstate
  | cons first rest ih =>
    cases index with
    | zero =>
      cases hstate
      rw [applyEvent, if_pos hid, hset]
      rfl
    | succ index =>
      rw [applyEvent, if_neg (hearlier 0 index.succ_pos first rfl), ih hstate ?_]
      · rfl
      · intro place hplace other hother
        exact hearlier (place + 1) (Nat.succ_lt_succ hplace) other hother

/-- The numbers of the nodes are their places, so that an event has one node only. -/
theorem Accepted.exists_applyEvent (h : Accepted graph) (hevent : event ∈ graph.events)
    (hfits : List.Forall₂ Fits graph.nodes states) :
    ∃ states', applyEvent event states = .ok states' ∧ List.Forall₂ Fits graph.nodes states'
      ∧ Applies event states states' := by
  have hnumber : ∀ place state, states[place]? = some state →
      ∃ node, graph.nodes[place]? = some node ∧ Fits node state ∧ state.id.toNat = place := by
    intro place state hstate
    obtain ⟨node, hnode, hfit⟩ := exists_fits hfits hstate
    exact ⟨node, hnode, hfit, hfit.id_eq ▸ (h.good place node hnode).id⟩
  obtain ⟨node, hnode, hvalid⟩ := (h.events event hevent).node
  obtain ⟨state, hstate⟩ : ∃ state, states[event.node.toNat]? = some state :=
    ⟨_, List.getElem?_eq_getElem (hfits.length_eq ▸ (List.getElem?_eq_some_iff.mp hnode).1)⟩
  obtain ⟨_, hnode', hfit, hid⟩ := hnumber _ _ hstate
  cases hnode.symm.trans hnode'
  obtain ⟨state', hset, hfit', hsets⟩ := hfit.exists_setParameter hvalid
  refine ⟨_, applyEvent_of_getElem? hstate (UInt16.toNat_inj.mp hid) ?_ hset, ?_,
    state, state', hstate, hsets, rfl⟩
  · intro place hplace other hother heq
    obtain ⟨-, -, -, hother⟩ := hnumber place other hother
    rw [heq] at hother
    omega
  · exact forall₂_fits_set hfits hnode hfit'

/-- The event belongs to a frame. -/
def isDue (frame : Nat) (event : ParameterEvent) : Bool := event.frame.toNat = frame

/-- The loop over the events of a frame. -/
theorem Accepted.exists_applyDue (h : Accepted graph) (frame : Nat) {pending : List ParameterEvent}
    (hmem : ∀ event ∈ pending, event ∈ graph.events) (hpending : renderer.pending = pending)
    (hfits : List.Forall₂ Fits graph.nodes renderer.states) :
    ∃ states, List.Forall₂ Fits graph.nodes states
      ∧ AppliesAll (pending.takeWhile (isDue frame)) renderer.states states
      ∧ renderer.applyDue frame pending = .ok { renderer with
          states := states
          pending := pending.dropWhile (isDue frame)
          log := renderer.log ++ (pending.takeWhile (isDue frame)).map .applied } := by
  induction pending generalizing renderer with
  | nil =>
    obtain ⟨states, _, peak, pcm, log⟩ := renderer
    cases hpending
    exact ⟨states, hfits, .nil, by simp [Renderer.applyDue]⟩
  | cons event rest ih =>
    rw [List.forall_mem_cons] at hmem
    by_cases hdue : event.frame.toNat = frame
    · obtain ⟨states, happly, hstates, happlies⟩ := h.exists_applyEvent hmem.1 hfits
      obtain ⟨states', hfits', happlied, hrest⟩ := @ih { renderer with
        states := states, pending := rest, log := renderer.log ++ [.applied event] }
        hmem.2 rfl hstates
      refine ⟨states', hfits', ?_, ?_⟩
      · rw [List.takeWhile_cons_of_pos (by simpa [isDue] using hdue)]
        exact .cons happlies happlied
      · rw [Renderer.applyDue, if_pos hdue, happly]
        simpa [isDue, hdue, mapError] using hrest
    · obtain ⟨states, _, peak, pcm, log⟩ := renderer
      cases hpending
      rw [List.takeWhile_cons_of_neg (by simpa [isDue] using hdue)]
      exact ⟨states, hfits, .nil, by simp [Renderer.applyDue, isDue, hdue]⟩

/-- The states of the nodes after some frames, and the samples of these frames. Before the samples of
a frame its events are applied, all of them and in their order. -/
inductive Renders (graph : AudioDocument) : Nat → List NodeState → List (List Int) → Prop where
  | start : Renders graph 0 (graph.nodes.map (.new graph.seed)) []
  | frame {frame : Nat} {states ready states' : List NodeState} {rows : List (List Int)}
      {values : List Int} (hbefore : Renders graph frame states rows)
      (hevents : AppliesAll (graph.events.filter (isDue frame)) states ready)
      (hvalues : evaluate ready [] = some (states', values)) :
      Renders graph (frame + 1) states' (rows ++ [values])

/-! ## The effects of the loop -/

/-- The events that were applied, in their order. -/
def appliedEvents (log : List Effect) : List ParameterEvent :=
  log.filterMap fun
    | .applied event => some event
    | .sampled _ => none

/-- The samples of all nodes, frame by frame. -/
def rows (log : List Effect) : List (List Int) :=
  log.filterMap fun
    | .applied _ => none
    | .sampled values => some values

/-- The number of node evaluations. -/
def evaluations (log : List Effect) : Nat := ((rows log).map List.length).sum

/-- From a frame on, every event is applied right before the samples of its own frame. -/
def OnTime : Nat → List Effect → Prop
  | _, [] => True
  | frame, .applied event :: log => event.frame.toNat = frame ∧ OnTime frame log
  | frame, .sampled _ :: log => OnTime (frame + 1) log

@[simp] theorem appliedEvents_append (log log' : List Effect) :
    appliedEvents (log ++ log') = appliedEvents log ++ appliedEvents log' :=
  List.filterMap_append

@[simp] theorem rows_append (log log' : List Effect) : rows (log ++ log') = rows log ++ rows log' :=
  List.filterMap_append

@[simp] theorem appliedEvents_map_applied (events : List ParameterEvent) :
    appliedEvents (events.map .applied) = events := by
  simp [appliedEvents]

@[simp] theorem rows_map_applied (events : List ParameterEvent) :
    rows (events.map .applied) = [] := by
  simp [rows]

@[simp] theorem appliedEvents_sampled (values : List Int) : appliedEvents [.sampled values] = [] :=
  rfl

@[simp] theorem rows_sampled (values : List Int) : rows [.sampled values] = [values] := rfl

theorem onTime_append {log log' : List Effect} (h : OnTime frame log)
    (h' : OnTime (frame + (rows log).length) log') : OnTime frame (log ++ log') := by
  induction log generalizing frame with
  | nil => exact h'
  | cons effect log ih =>
    cases effect with
    | applied event => exact ⟨h.1, ih h.2 h'⟩
    | sampled values =>
      refine @ih (frame + 1) h ?_
      rwa [Nat.add_assoc, Nat.add_comm 1]

theorem onTime_map_applied (h : ∀ event ∈ events, event.frame.toNat = frame) :
    OnTime frame (events.map .applied) := by
  induction events with
  | nil => trivial
  | cons event events ih =>
    rw [List.forall_mem_cons] at h
    exact ⟨h.1, ih h.2⟩

/-! ## The frame loop -/

theorem saturatingAbs_nonneg (sample : Int16) : 0 ≤ saturatingAbs sample := by
  unfold saturatingAbs
  split
  · decide
  · rename_i hleast
    split
    · rename_i hneg
      have hlow := sample.le_toInt
      have hne : sample.toInt ≠ -32768 := fun heq => hleast (Int16.toInt_inj.mp heq)
      have hneg : sample.toInt < 0 := Int16.lt_iff_toInt_lt.mp hneg
      rw [Int16.le_iff_toInt_le, Int16.toInt_neg, Int.bmod_eq_of_le (by omega) (by omega)]
      exact Int.neg_nonneg_of_nonpos hneg.le
    · rename_i hneg
      exact Int16.not_lt.mp hneg

theorem max_cases (a b : Int16) : (a ≤ b ∧ max a b = b) ∨ (b ≤ a ∧ max a b = a) := by
  by_cases hle : a ≤ b
  · exact .inl ⟨hle, if_pos hle⟩
  · exact .inr ⟨Int16.le_of_lt (Int16.not_le.mp hle), if_neg hle⟩

/-- The two samples of a frame are those of its last node. -/
def frameSamples (values : List Int) : List Int16 :=
  List.replicate 2 (clampI16 (values.getLast?.getD 0))

theorem getElem?_flatMap_frameSamples (rows : List (List Int)) (index : Nat) :
    (rows.flatMap frameSamples)[2 * index]?
        = rows[index]?.map (fun values => clampI16 (values.getLast?.getD 0))
      ∧ (rows.flatMap frameSamples)[2 * index + 1]? = (rows.flatMap frameSamples)[2 * index]? := by
  induction rows generalizing index with
  | nil => simp
  | cons values rows ih =>
    cases index with
    | zero => simp [frameSamples]
    | succ index => simpa [frameSamples, Nat.mul_succ] using ih index

/-- What holds after some frames. -/
structure Progress (graph : AudioDocument) (frame : Nat) (renderer : Renderer) : Prop where
  fits : List.Forall₂ Fits graph.nodes renderer.states
  events : appliedEvents renderer.log ++ renderer.pending = graph.events
  earlier : ∀ event ∈ appliedEvents renderer.log, event.frame.toNat < frame
  later : ∀ event ∈ renderer.pending, frame ≤ event.frame.toNat
  renders : Renders graph frame renderer.states (rows renderer.log)
  onTime : OnTime 0 renderer.log
  frames : (rows renderer.log).length = frame
  width : ∀ values ∈ rows renderer.log, values.length = graph.nodes.length
  samples : renderer.pcm = (rows renderer.log).flatMap frameSamples
  peak_le : ∀ sample ∈ renderer.pcm, saturatingAbs sample ≤ renderer.peak
  peak_mem : renderer.peak = 0 ∨ ∃ sample ∈ renderer.pcm, renderer.peak = saturatingAbs sample

theorem progress_start (h : Accepted graph) :
    Progress graph 0 (.start graph) where
  fits := by
    refine List.forall₂_map_right_iff.mpr (List.forall₂_same.mpr ?_)
    intro node hnode
    obtain ⟨index, hindex⟩ := List.mem_iff_getElem?.mp hnode
    exact fits_new graph.seed (h.good index node hindex)
  events := rfl
  earlier := List.forall_mem_nil _
  later := fun _ _ => Nat.zero_le _
  renders := .start
  onTime := trivial
  frames := rfl
  width := List.forall_mem_nil _
  samples := rfl
  peak_le := List.forall_mem_nil _
  peak_mem := .inl rfl

/-- In a list by frame, those of the first frame come first. -/
theorem lt_of_mem_dropWhile (hordered : events.Pairwise fun a b => a.frame.toNat ≤ b.frame.toNat)
    (hlater : ∀ event ∈ events, frame ≤ event.frame.toNat) :
    ∀ event ∈ events.dropWhile (isDue frame), frame + 1 ≤ event.frame.toNat := by
  induction events with
  | nil => exact List.forall_mem_nil _
  | cons event events ih =>
    rw [List.forall_mem_cons] at hlater
    rw [List.pairwise_cons] at hordered
    by_cases hdue : event.frame.toNat = frame
    · rw [List.dropWhile_cons_of_pos (by simpa [isDue] using hdue)]
      exact ih hordered.2 hlater.2
    · rw [List.dropWhile_cons_of_neg (by simpa [isDue] using hdue)]
      have hevent : frame + 1 ≤ event.frame.toNat := by omega
      refine List.forall_mem_cons.mpr ⟨hevent, ?_⟩
      intro other hother
      exact hevent.trans (hordered.1 other hother)

/-- In a list by frame, those of the first frame are all its events of that frame. -/
theorem filter_isDue (hordered : events.Pairwise fun a b => a.frame.toNat ≤ b.frame.toNat)
    (hlater : ∀ event ∈ events, frame ≤ event.frame.toNat) :
    events.filter (isDue frame) = events.takeWhile (isDue frame) := by
  have hrest : (events.dropWhile (isDue frame)).filter (isDue frame) = [] := by
    refine List.filter_eq_nil_iff.mpr fun event hevent hdue => ?_
    have := lt_of_mem_dropWhile hordered hlater event hevent
    have : event.frame.toNat = frame := of_decide_eq_true hdue
    omega
  conv_lhs => rw [← List.takeWhile_append_dropWhile (p := isDue frame) (l := events)]
  rw [List.filter_append, hrest, List.append_nil, List.filter_eq_self]
  exact List.all_eq_true.mp List.all_takeWhile

theorem peak_le_append {peak : Int16} (h : ∀ other ∈ pcm, saturatingAbs other ≤ peak) :
    ∀ other ∈ pcm ++ [sample, sample], saturatingAbs other ≤ max peak (saturatingAbs sample) := by
  intro other hother
  rw [List.mem_append, List.mem_pair] at hother
  rcases max_cases peak (saturatingAbs sample) with ⟨hle, hmax⟩ | ⟨hle, hmax⟩ <;> rw [hmax]
  · rcases hother with hother | rfl | rfl
    · exact Int16.le_trans (h other hother) hle
    · exact Int16.le_refl _
    · exact Int16.le_refl _
  · rcases hother with hother | rfl | rfl
    · exact h other hother
    · exact hle
    · exact hle

theorem peak_mem_append {peak : Int16} (h : peak = 0 ∨ ∃ other ∈ pcm, peak = saturatingAbs other) :
    max peak (saturatingAbs sample) = 0
      ∨ ∃ other ∈ pcm ++ [sample, sample], max peak (saturatingAbs sample) = saturatingAbs other := by
  rcases max_cases peak (saturatingAbs sample) with ⟨-, hmax⟩ | ⟨-, hmax⟩ <;> rw [hmax]
  · exact .inr ⟨sample, by simp, rfl⟩
  · rcases h with h | ⟨other, hother, hpeak⟩
    · exact .inl h
    · exact .inr ⟨other, List.mem_append_left _ hother, hpeak⟩

/-- One turn of the frame loop. -/
theorem exists_renderFrame (h : Accepted graph) (hprogress : Progress graph frame renderer) :
    ∃ renderer', renderer.renderFrame (graph.nodes.length - 1) frame = .ok renderer'
      ∧ Progress graph (frame + 1) renderer' := by
  have hmem : ∀ event ∈ renderer.pending, event ∈ graph.events := by
    intro event hevent
    rw [← hprogress.events]
    exact List.mem_append_right _ hevent
  have hordered : renderer.pending.Pairwise fun a b => a.frame.toNat ≤ b.frame.toNat := by
    have hall := h.ordered
    rw [← hprogress.events, List.pairwise_append] at hall
    exact hall.2.1
  obtain ⟨states, hstates, happlied, hdue⟩ := h.exists_applyDue frame hmem rfl hprogress.fits
  have hnow : graph.events.filter (isDue frame) = renderer.pending.takeWhile (isDue frame) := by
    have hnone : (appliedEvents renderer.log).filter (isDue frame) = [] := by
      refine List.filter_eq_nil_iff.mpr fun event hevent hdue => ?_
      exact (hprogress.earlier event hevent).ne (of_decide_eq_true hdue)
    rw [← hprogress.events, List.filter_append, hnone, List.nil_append,
      filter_isDue hordered hprogress.later]
  obtain ⟨states', values, hevaluate, hfits, hlength⟩ := @exists_evaluate _ _ [] hstates
    (by intro index node hnode; rw [List.length_nil, Nat.zero_add]; exact h.good index node hnode)
    (by rw [List.length_nil, Nat.zero_add]; exact h.nodes.2)
  rw [List.length_nil, Nat.zero_add] at hlength
  obtain ⟨value, hvalue⟩ : ∃ value, values[graph.nodes.length - 1]? = some value :=
    ⟨_, List.getElem?_eq_getElem (by have := h.nodes.1; omega)⟩
  have htaken : ∀ event ∈ renderer.pending.takeWhile (isDue frame), event.frame.toNat = frame := by
    intro event hevent
    exact of_decide_eq_true (List.all_eq_true.mp List.all_takeWhile event hevent)
  refine ⟨_, by rw [Renderer.renderFrame, hdue]; simp only [ok_bind, hevaluate, okOr, hvalue]; rfl,
    ?_⟩
  constructor
  case fits => exact hfits
  case events => simp [List.takeWhile_append_dropWhile, hprogress.events]
  case earlier =>
    simp only [appliedEvents_append, appliedEvents_map_applied, appliedEvents_sampled,
      List.append_nil]
    refine List.forall_mem_append.mpr ⟨fun event hevent => ?_, fun event hevent => ?_⟩
    · exact (hprogress.earlier event hevent).trans (Nat.lt_succ_self frame)
    · exact Nat.lt_succ_of_le (htaken event hevent).le
  case later => exact lt_of_mem_dropWhile hordered hprogress.later
  case renders =>
    simp only [rows_append, rows_map_applied, rows_sampled, List.append_nil]
    exact .frame hprogress.renders (hnow ▸ happlied) hevaluate
  case onTime =>
    refine onTime_append (onTime_append hprogress.onTime ?_) trivial
    rw [Nat.zero_add, hprogress.frames]
    exact onTime_map_applied htaken
  case frames => simp [hprogress.frames]
  case width =>
    simp only [rows_append, rows_map_applied, rows_sampled, List.append_nil]
    exact List.forall_mem_append.mpr ⟨hprogress.width, List.forall_mem_singleton.mpr hlength⟩
  case samples =>
    have hlast : values.getLast? = some value := by rw [List.getLast?_eq_getElem?, hlength, hvalue]
    simp [hprogress.samples, frameSamples, hlast]
  case peak_le => exact peak_le_append hprogress.peak_le
  case peak_mem => exact peak_mem_append hprogress.peak_mem

/-- A loop whose every turn can be taken comes to its end. -/
theorem exists_foldlM_range {β ε : Type} {f : β → Nat → Except ε β} {P : Nat → β → Prop}
    (hstep : ∀ i b, P i b → ∃ b', f b i = .ok b' ∧ P (i + 1) b') {b : β} (hb : P 0 b) (n : Nat) :
    ∃ b', (List.range n).foldlM f b = .ok b' ∧ P n b' := by
  induction n with
  | zero => exact ⟨b, rfl, hb⟩
  | succ n ih =>
    obtain ⟨middle, hmiddle, hP⟩ := ih
    obtain ⟨last, hlast, hP'⟩ := hstep n middle hP
    exact ⟨last, by rw [List.range_succ, List.foldlM_append, hmiddle]; simp [hlast], hP'⟩

/-- The frame loop of an accepted document comes to its end. -/
theorem exists_renderLoop (h : Accepted graph) :
    ∃ renderer, renderLoop graph = .ok renderer ∧ Progress graph graph.frames.toNat renderer :=
  exists_foldlM_range (fun _ _ => exists_renderFrame h) (progress_start h) _

/-- No event is left at the end. -/
theorem Progress.pending_eq_nil (h : Accepted graph)
    (hprogress : Progress graph graph.frames.toNat renderer) : renderer.pending = [] := by
  rw [List.eq_nil_iff_forall_not_mem]
  intro event hevent
  have hmem : event ∈ graph.events := by
    rw [← hprogress.events]
    exact List.mem_append_right _ hevent
  have hlater := hprogress.later event hevent
  have hinside := (h.events event hmem).frame
  omega

namespace Progress

theorem length_pcm (h : Progress graph frame renderer) : renderer.pcm.length = 2 * frame := by
  simp [h.samples, frameSamples, List.length_flatMap, ← h.frames, Nat.mul_comm]

theorem stereo (h : Progress graph frame renderer) (index : Nat) :
    renderer.pcm[2 * index]? = renderer.pcm[2 * index + 1]? := by
  rw [h.samples, (getElem?_flatMap_frameSamples _ index).2]

theorem output (h : Progress graph frame renderer) (hnodes : 0 < graph.nodes.length) {index : Nat}
    {values : List Int} (hvalues : (rows renderer.log)[index]? = some values) :
    ∃ value, values.getLast? = some value ∧ renderer.pcm[2 * index]? = some (clampI16 value) := by
  have hwidth := h.width values (List.mem_of_getElem? hvalues)
  obtain ⟨value, hvalue⟩ : ∃ value, values.getLast? = some value :=
    ⟨_, List.getLast?_eq_some_getLast (List.ne_nil_of_length_pos (hwidth ▸ hnodes))⟩
  refine ⟨value, hvalue, ?_⟩
  rw [h.samples, (getElem?_flatMap_frameSamples _ index).1, hvalues, Option.map_some, hvalue]
  rfl

end Progress

/-! ## The file -/

@[simp] theorem length_leBytes (count n : Nat) : (leBytes count n).length = count := by
  rw [leBytes, List.length_reverse, length_bigEndian]

theorem ofLeBytes_leBytes {count n : Nat} (h : n < 256 ^ count) :
    ofLeBytes (leBytes count n) = n := by
  rw [ofLeBytes, leBytes, List.reverse_reverse, ofBigEndian_bigEndian, Nat.mod_eq_of_lt h]

theorem length_pcmBytes (pcm : List Int16) : (pcmBytes pcm).length = 2 * pcm.length := by
  induction pcm with
  | nil => rfl
  | cons sample pcm ih =>
    rw [pcmBytes, List.flatMap_cons, List.length_append, length_leBytes, List.length_cons]
    exact congrArg (2 + ·) ih |>.trans (by omega)

/-- The file of some samples: the lengths in its head are those of the file and of the samples. -/
structure WavOf (pcm : List Int16) (wav : List UInt8) : Prop where
  length : wav.length = 44 + 2 * pcm.length
  riff : ofLeBytes ((wav.drop 4).take 4) + 8 = wav.length
  samples : ofLeBytes ((wav.drop 40).take 4) = (wav.drop 44).length
  bytes : wav.drop 44 = pcmBytes pcm

theorem wavOf_header (h : 36 + 2 * pcm.length < 2 ^ 32) :
    WavOf pcm (wavHeader (2 * pcm.length) ++ pcmBytes pcm) := by
  have hriff : (utf8Bytes "RIFF").length = 4 := rfl
  have hwave : (utf8Bytes "WAVEfmt ").length = 8 := rfl
  have hdata : (utf8Bytes "data").length = 4 := rfl
  have hheader : (wavHeader (2 * pcm.length)).length = 44 := by
    simp only [wavHeader, List.length_append, length_leBytes, hriff, hwave, hdata]
  have hlength : (wavHeader (2 * pcm.length) ++ pcmBytes pcm).length = 44 + 2 * pcm.length := by
    rw [List.length_append, hheader, length_pcmBytes]
  have hbytes : (wavHeader (2 * pcm.length) ++ pcmBytes pcm).drop 44 = pcmBytes pcm :=
    List.drop_left' hheader
  refine ⟨hlength, ?_, ?_, hbytes⟩
  · rw [hlength, wavHeader]
    simp only [List.append_assoc]
    rw [List.drop_left' hriff, List.take_left' (length_leBytes _ _), ofLeBytes_leBytes (by omega)]
    omega
  · rw [hbytes, length_pcmBytes, wavHeader, List.append_assoc, List.drop_left' ?_,
      List.take_left' (length_leBytes _ _), ofLeBytes_leBytes (by omega)]
    simp only [List.length_append, length_leBytes, hriff, hwave, hdata]

theorem exists_encodeWav {frames : Nat} (hpcm : pcm.length = 2 * frames)
    (hframes : frames ≤ maxAudioFrames) :
    ∃ wav, encodeWav pcm frames = .ok wav ∧ WavOf pcm wav := by
  unfold maxAudioFrames sampleRate at hframes
  refine ⟨wavHeader (2 * pcm.length) ++ pcmBytes pcm, ?_, wavOf_header (by omega)⟩
  unfold encodeWav wordMax channels
  dsimp only
  rw [rejectIf_of_not _ (by omega), rejectIf_of_not _ (by omega), rejectIf_of_not _ (by omega),
    rejectIf_of_not _ (by omega), Nat.mul_comm]
  rfl

/-- A document that validation accepts is rendered: two equal samples for each frame, the peak is
the largest of them, the file fits them, the events are applied once, in their order and right
before the samples of their frame, and the nodes are evaluated once in each frame. The samples are
those of the last node, computed from states in which the events have set their parameters. -/
theorem renderAudio_complete [HexCodec] [Sha256] {graph : AudioDocument} {limits : AudioLimits}
    (h : validateGraph graph limits = .ok ()) :
    ∃ renderer render, renderLoop graph = .ok renderer ∧ renderAudio graph limits = .ok render
      ∧ render.pcm = renderer.pcm ∧ render.pcm.length = 2 * graph.frames.toNat
      ∧ (∀ index, render.pcm[2 * index]? = render.pcm[2 * index + 1]?)
      ∧ (∀ sample ∈ render.pcm, saturatingAbs sample ≤ render.receipt.peak)
      ∧ (∃ sample ∈ render.pcm, saturatingAbs sample = render.receipt.peak)
      ∧ WavOf render.pcm render.wav
      ∧ appliedEvents renderer.log = graph.events ∧ OnTime 0 renderer.log
      ∧ Renders graph graph.frames.toNat renderer.states (rows renderer.log)
      ∧ (∀ index values, (rows renderer.log)[index]? = some values → ∃ value,
        values.getLast? = some value ∧ render.pcm[2 * index]? = some (clampI16 value))
      ∧ (rows renderer.log).length = graph.frames.toNat
      ∧ evaluations renderer.log ≤ graph.frames.toNat * graph.nodes.length := by
  have haccepted := accepted_of_validateGraph h
  obtain ⟨renderer, hloop, hprogress⟩ := exists_renderLoop haccepted
  obtain ⟨wav, hwav, hfile⟩ := exists_encodeWav hprogress.length_pcm haccepted.frames.2
  have hcount : ¬ graph.frames.toNat * channels > wordMax := by
    have hframes := haccepted.frames.2
    unfold maxAudioFrames sampleRate at hframes
    unfold channels wordMax
    omega
  have hrender : renderAudio graph limits = .ok (renderer.render graph wav) := by
    rw [renderAudio, h, rejectIf_of_not _ hcount, hloop]
    simp only [mapError, ok_bind, hwav]
    rfl
  refine ⟨renderer, _, hloop, hrender, rfl, hprogress.length_pcm, hprogress.stereo,
    hprogress.peak_le, ?_, hfile, ?_, hprogress.onTime, hprogress.renders,
    fun _ _ => hprogress.output haccepted.nodes.1,
    hprogress.frames, ?_⟩
  · obtain ⟨sample, hsample⟩ : ∃ sample, sample ∈ renderer.pcm := by
      refine List.exists_mem_of_length_pos ?_
      have hframes := haccepted.frames.1
      rw [hprogress.length_pcm]
      omega
    rcases hprogress.peak_mem with hzero | ⟨other, hother, hpeak⟩
    · refine ⟨sample, hsample, Int16.le_antisymm (hprogress.peak_le sample hsample) ?_⟩
      show renderer.peak ≤ saturatingAbs sample
      rw [hzero]
      exact saturatingAbs_nonneg sample
    · exact ⟨other, hother, hpeak.symm⟩
  · have hevents := hprogress.events
    rwa [hprogress.pending_eq_nil haccepted, List.append_nil] at hevents
  · rw [evaluations, List.map_congr_left hprogress.width, List.map_const', List.sum_replicate_nat,
      hprogress.frames]

/-- A square wave through a gain that an event of the second frame turns down. -/
def fadingGraph : AudioDocument where
  frames := 3
  nodes := [.oscillator 0 .square 1000000 16384, .gain 1 0 32767, .output 2 1]
  events := [⟨1, 1, .gainQ15, 16384⟩]

/-- The event halves the samples from its frame on. -/
theorem renderAudio_fadingGraph :
    validateGraph fadingGraph {} = .ok ()
      ∧ (let _ := nibbleCodec
        let _ := Sha2.sha256
        ∃ renderer render, renderLoop fadingGraph = .ok renderer
          ∧ renderAudio fadingGraph {} = .ok render
          ∧ render.pcm = [16382, 16382, 8191, 8191, 8191, 8191]
          ∧ appliedEvents renderer.log = [⟨1, 1, .gainQ15, 16384⟩]
          ∧ Renders fadingGraph 3 renderer.states
            [[16383, 16382, 16382], [16383, 8191, 8191], [16383, 8191, 8191]]) := by
  have haccepted : validateGraph fadingGraph {} = .ok () := by decide +kernel
  refine ⟨haccepted, ?_⟩
  let _ := nibbleCodec
  let _ := Sha2.sha256
  obtain ⟨renderer, render, hloop, hrender, hpcm, -, -, -, -, -, hevents, -, hrenders, -⟩ :=
    renderAudio_complete haccepted
  have hrun : (renderLoop fadingGraph).map (fun renderer => (renderer.pcm, rows renderer.log))
      = .ok ([16382, 16382, 8191, 8191, 8191, 8191],
        [[16383, 16382, 16382], [16383, 8191, 8191], [16383, 8191, 8191]]) := by decide +kernel
  rw [hloop] at hrun
  obtain ⟨hsamples, hrows⟩ := Prod.mk.inj (Except.ok.inj hrun)
  rw [hrows] at hrenders
  exact ⟨renderer, render, hloop, hrender, hpcm.trans hsamples, hevents, hrenders⟩

end CartridgeRuntime.Media
