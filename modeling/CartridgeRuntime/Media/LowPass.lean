import CartridgeRuntime.Media.Render

/-!
# Low-pass filters

A filter moves towards its input by a fraction of the way. `lowPassBounded_iff`: in an accepted
document its outputs can leave the range of zero and its inputs so far only in a frame in which the
fraction is above one. Events are checked for that and the coefficients of nodes are not, so that the
filters are bounded if the fraction that each has at the first sample is at most one.
-/

namespace CartridgeRuntime.Media

open Checked Saturating

/-- A 32-bit number. -/
def InI32 (value : Int) : Prop := -2147483648 ≤ value ∧ value ≤ 2147483647

/-- Between the smallest and the largest of zero and some inputs. -/
def Within (inputs : List Int) (value : Int) : Prop :=
  inputs.foldl min 0 ≤ value ∧ value ≤ inputs.foldl max 0

/-- What the node at a place has computed in some frames. -/
def column (index : Nat) (frames : List (List Int)) : List Int :=
  frames.filterMap (·[index]?)

/-- The output of the node at a place in a frame is between zero and the samples so far of the node
that it reads. -/
def BoundedAt (rows : List (List Int)) (index input frame : Nat) : Prop :=
  ∃ values value, rows[frame]? = some values ∧ values[index]? = some value
    ∧ Within (column input (rows.take (frame + 1))) value

/-- The outputs of every low-pass node, in every frame of the render. -/
def LowPassBounded (graph : AudioDocument) : Prop :=
  ∃ renderer, renderLoop graph = .ok renderer ∧ (rows renderer.log).length = graph.frames.toNat
    ∧ ∀ (index : Nat) (id input coefficient : UInt16),
      graph.nodes[index]? = some (.lowPass id input coefficient) →
      ∀ frame < graph.frames.toNat, BoundedAt (rows renderer.log) index input.toNat frame

/-- The coefficient of a filter after some events: that of the last of them that sets it. -/
def coefficientAfter (id : UInt16) (events : List ParameterEvent) (start : UInt16) : UInt16 :=
  events.foldl (fun coefficient event =>
    if event.node = id ∧ event.parameter = .coefficientQ15 then .ofNat event.value.toInt.toNat
    else coefficient) start

/-- The coefficient that a filter of a document uses in a frame. -/
def coefficientAt (graph : AudioDocument) (id start : UInt16) (frame : Nat) : UInt16 :=
  coefficientAfter id (graph.events.filter fun event => event.frame.toNat ≤ frame) start

/-! ## Bounds -/

theorem column_append (index : Nat) (frames : List (List Int)) (values : List Int) :
    column index (frames ++ [values]) = column index frames ++ (values[index]?).toList := by
  rw [column, List.filterMap_append]
  cases h : values[index]? <;> simp [column, h]

variable {inputs : List Int} {coefficient : UInt16} {frame : Nat} {renderer : Renderer}
    {graph : AudioDocument}

theorem within_append {value input : Int} (h : Within inputs value) :
    Within (inputs ++ [input]) value := by
  unfold Within at h ⊢
  simp only [List.foldl_append, List.foldl_cons, List.foldl_nil]
  omega

theorem inI32_foldl (h : ∀ input ∈ inputs, InI32 input) :
    -2147483648 ≤ inputs.foldl min 0 ∧ inputs.foldl max 0 ≤ 2147483647 := by
  induction inputs using List.reverseRecOn with
  | nil => decide
  | append_singleton inputs input ih =>
    rw [List.forall_mem_append, List.forall_mem_singleton] at h
    have hbefore := ih h.1
    have hinput := h.2
    unfold InI32 at hinput
    simp only [List.foldl_append, List.foldl_cons, List.foldl_nil]
    omega

/-- One step of a filter whose fraction is at most one. -/
theorem within_lowPassStep {previous input : Int}
    (hinputs : ∀ other ∈ inputs ++ [input], InI32 other) (hprevious : Within inputs previous)
    (hcoefficient : coefficient.toNat ≤ 32768) :
    Within (inputs ++ [input]) (lowPassStep previous input coefficient) := by
  have hrange := inI32_foldl hinputs
  have hplace : Within (inputs ++ [input]) previous := within_append hprevious
  refine step_mem hplace ?_ hrange.1 hrange.2 (Int.natCast_nonneg _) (by omega)
  simp only [List.foldl_append, List.foldl_cons, List.foldl_nil]
  omega

/-- Every sample is a 32-bit number. -/
theorem inI32_of_sample {values : List Int} {state state' : NodeState} {value : Int}
    (h : state.sample values = some (state', value)) (hvalues : ∀ v ∈ values, InI32 v) :
    InI32 value := by
  cases state with
  | oscillator =>
    obtain ⟨-, rfl⟩ := Prod.mk.inj (Option.some.inj h)
    exact clampI32_mem _
  | gain id input factor =>
    obtain ⟨_, -, hvalue⟩ := Option.bind_eq_some_iff.mp h
    obtain ⟨-, rfl⟩ := Prod.mk.inj (Option.some.inj hvalue)
    exact clampI32_mem _
  | lowPass id input coefficient previous =>
    obtain ⟨_, -, hvalue⟩ := Option.bind_eq_some_iff.mp h
    obtain ⟨-, rfl⟩ := Prod.mk.inj (Option.some.inj hvalue)
    exact clampI32_mem _
  | delay id input samples cursor feedback mix =>
    obtain ⟨_, -, hdelayed⟩ := Option.bind_eq_some_iff.mp h
    obtain ⟨_, -, hvalue⟩ := Option.bind_eq_some_iff.mp hdelayed
    obtain ⟨-, rfl⟩ := Prod.mk.inj (Option.some.inj hvalue)
    exact clampI32_mem _
  | output id input =>
    obtain ⟨read, hread, hvalue⟩ := Option.bind_eq_some_iff.mp h
    obtain ⟨-, rfl⟩ := Prod.mk.inj (Option.some.inj hvalue)
    exact hvalues _ (List.mem_of_getElem? hread)

/-! ## One frame -/

/-- What the samples of a frame are: each node takes its own from those before it. -/
theorem sample_of_evaluate {states states' : List NodeState} {values values' : List Int}
    (h : evaluate states values = some (states', values')) (hvalues : ∀ v ∈ values, InI32 v) :
    (∀ v ∈ values', InI32 v) ∧ values <+: values'
      ∧ ∀ index state, states[index]? = some state → ∃ state' value,
        states'[index]? = some state' ∧ values'[values.length + index]? = some value
        ∧ state.sample (values'.take (values.length + index)) = some (state', value) := by
  induction states generalizing values states' with
  | nil =>
    obtain ⟨rfl, rfl⟩ := Prod.mk.inj (Option.some.inj h)
    exact ⟨hvalues, List.prefix_refl _, by simp⟩
  | cons state states ih =>
    rw [evaluate] at h
    split at h
    · obtain ⟨⟨state', value⟩, hsample, hrest⟩ := Option.bind_eq_some_iff.mp h
      obtain ⟨⟨states'', values''⟩, hevaluate, hresult⟩ := Option.bind_eq_some_iff.mp hrest
      obtain ⟨rfl, rfl⟩ := Prod.mk.inj (Option.some.inj hresult)
      obtain ⟨hall, hpre, hnodes⟩ := ih hevaluate (List.forall_mem_append.mpr
        ⟨hvalues, List.forall_mem_singleton.mpr (inI32_of_sample hsample hvalues)⟩)
      have hstart : values <+: values'' := (List.prefix_append _ _).trans hpre
      refine ⟨hall, hstart, ?_⟩
      intro index other hother
      cases index with
      | zero =>
        cases hother
        refine ⟨state', value, rfl, ?_, ?_⟩
        · obtain ⟨rest, rfl⟩ := hpre
          simp
        · rwa [Nat.add_zero, ← List.prefix_iff_eq_take.mp hstart]
      | succ index =>
        obtain ⟨after, sample, hafter, hvalue, hsampled⟩ := hnodes index other hother
        rw [List.length_append, List.length_singleton, Nat.add_assoc, Nat.add_comm 1]
          at hvalue hsampled
        exact ⟨after, sample, hafter, hvalue, hsampled⟩
    · cases h

/-! ## Coefficients -/

theorem coefficientAfter_append (id : UInt16) (events events' : List ParameterEvent)
    (start : UInt16) : coefficientAfter id (events ++ events') start
      = coefficientAfter id events' (coefficientAfter id events start) :=
  List.foldl_append

/-- An event that sets a parameter of a filter sets its coefficient. -/
theorem applies_lowPass {event : ParameterEvent} {states states' : List NodeState} {id : UInt16}
    {index input : Nat} {previous : Int} (h : Applies event states states') (hid : id.toNat = index)
    (hstate : states[index]? = some (.lowPass id input coefficient previous)) :
    states'[index]?
      = some (.lowPass id input (coefficientAfter id [event] coefficient) previous) := by
  obtain ⟨state, state', hnode, hsets, rfl⟩ := h
  rw [coefficientAfter, List.foldl_cons, List.foldl_nil]
  by_cases hplace : event.node = id
  · rw [hplace, hid] at hnode ⊢
    cases hstate.symm.trans hnode
    rw [List.getElem?_set_self (List.getElem?_eq_some_iff.mp hstate).1]
    generalize event.parameter = parameter at hsets ⊢
    cases hsets with
    | coefficient hfraction =>
      rw [if_pos ⟨rfl, rfl⟩, ← hfraction, Int.toNat_natCast, UInt16.ofNat_toNat]
  · rw [if_neg fun h => hplace h.1, List.getElem?_set_ne, hstate]
    intro heq
    exact hplace (UInt16.toNat_inj.mp (heq.trans hid.symm))

theorem appliesAll_lowPass {events : List ParameterEvent} {states states' : List NodeState}
    {id : UInt16} {index input : Nat} {previous : Int} (h : AppliesAll events states states')
    (hid : id.toNat = index)
    (hstate : states[index]? = some (.lowPass id input coefficient previous)) :
    states'[index]?
      = some (.lowPass id input (coefficientAfter id events coefficient) previous) := by
  induction h generalizing coefficient with
  | nil => exact hstate
  | cons hevent _ ih => exact ih (applies_lowPass hevent hid hstate)

/-- The events up to a frame are those before it and its own. -/
theorem filter_le_eq {events : List ParameterEvent} (frame : Nat)
    (h : events.Pairwise fun a b => a.frame.toNat ≤ b.frame.toNat) :
    events.filter (fun event => event.frame.toNat ≤ frame)
      = events.filter (fun event => event.frame.toNat < frame) ++ events.filter (isDue frame) := by
  induction events with
  | nil => rfl
  | cons event events ih =>
    rw [List.pairwise_cons] at h
    rcases Nat.lt_trichotomy event.frame.toNat frame with hlt | heq | hgt
    · simp [hlt, hlt.le, hlt.ne, isDue, ih h.2]
    · have hnone : events.filter (fun event => event.frame.toNat < frame) = [] := by
        refine List.filter_eq_nil_iff.mpr fun other hother => ?_
        have := h.1 other hother
        simp only [decide_eq_true_eq]
        omega
      simp [heq, isDue, ih h.2, hnone]
    · simp [hgt.not_ge, hgt.not_gt, hgt.ne', isDue, ih h.2]

theorem coefficientAt_eq (h : Accepted graph) (id start : UInt16) (frame : Nat) :
    coefficientAt graph id start frame = coefficientAfter id (graph.events.filter (isDue frame))
      (coefficientAfter id (graph.events.filter fun event => event.frame.toNat < frame) start) := by
  rw [coefficientAt, filter_le_eq frame h.ordered, coefficientAfter_append]

/-- The events before the next frame are those up to this one. -/
theorem coefficientAfter_succ (id start : UInt16) (frame : Nat) :
    coefficientAfter id (graph.events.filter fun event => event.frame.toNat < frame + 1) start
      = coefficientAt graph id start frame := by
  simp only [coefficientAt, Nat.lt_succ_iff]

/-- An event sets the coefficient of a filter to less than one. -/
theorem Accepted.fitsQ15 (h : Accepted graph) {event : ParameterEvent} (hevent : event ∈ graph.events)
    (hparameter : event.parameter = .coefficientQ15) : fitsQ15 event.value.toInt := by
  obtain ⟨node, -, hvalid⟩ := (h.events event hevent).node
  rw [hparameter] at hvalid
  cases node with
  | lowPass => exact of_decide_eq_true hvalid
  | oscillator | gain | delay | output => cases hvalid

theorem coefficientAfter_le {id start : UInt16} {events : List ParameterEvent}
    (hevents : ∀ event ∈ events, event.parameter = .coefficientQ15 → fitsQ15 event.value.toInt)
    (hstart : start.toNat ≤ 32768) : (coefficientAfter id events start).toNat ≤ 32768 := by
  induction events generalizing start with
  | nil => exact hstart
  | cons event events ih =>
    rw [List.forall_mem_cons] at hevents
    refine ih hevents.2 ?_
    beta_reduce
    split
    · rename_i hsets
      have hfits := hevents.1 hsets.2
      have hvalue := toNat_ofNat hfits
      unfold fitsQ15 at hfits
      omega
    · exact hstart

/-- After the first sample no coefficient above one comes in. -/
theorem coefficientAt_le {id start : UInt16} (h : Accepted graph)
    (hfirst : (coefficientAt graph id start 0).toNat ≤ 32768) (frame : Nat) :
    (coefficientAt graph id start frame).toNat ≤ 32768 := by
  induction frame with
  | zero => exact hfirst
  | succ frame ih =>
    rw [coefficientAt_eq h, coefficientAfter_succ]
    refine coefficientAfter_le ?_ ih
    intro event hevent
    exact h.fitsQ15 (List.mem_of_mem_filter hevent)

/-! ## All frames -/

/-- The filters of a document after some frames: each output is a step from the one before, with the
coefficient of its frame. -/
structure Filtered (graph : AudioDocument) (frame : Nat) (states : List NodeState)
    (rows : List (List Int)) : Prop where
  inI32 : ∀ values ∈ rows, ∀ value ∈ values, InI32 value
  length : rows.length = frame
  filter : ∀ (index : Nat) (id input start : UInt16),
    graph.nodes[index]? = some (.lowPass id input start) →
    states[index]? = some (.lowPass id input.toNat
        (coefficientAfter id (graph.events.filter fun event => event.frame.toNat < frame) start)
        ((column index rows).getLastD 0))
      ∧ ∀ frame values, rows[frame]? = some values → ∃ read, values[input.toNat]? = some read
        ∧ values[index]? = some (lowPassStep ((column index (rows.take frame)).getLastD 0) read
          (coefficientAt graph id start frame))

theorem filtered_start : Filtered graph 0 (graph.nodes.map (.new graph.seed)) [] where
  inI32 := List.forall_mem_nil _
  length := rfl
  filter := by
    intro index id input start hnode
    refine ⟨?_, by simp⟩
    rw [List.getElem?_map, hnode]
    simp [NodeState.new, coefficientAfter, column]

/-- What is behind a list with one more member is that member. -/
theorem getElem?_snoc {α : Type} {l : List α} {a b : α} {index : Nat}
    (hge : l.length ≤ index) (h : (l ++ [a])[index]? = some b) : index = l.length ∧ b = a := by
  rw [List.getElem?_append_right hge, List.getElem?_singleton] at h
  split at h
  · exact ⟨by omega, (Option.some.inj h).symm⟩
  · cases h

/-- One turn of the frame loop. -/
theorem filtered_frame (h : Accepted graph) {states ready states' : List NodeState}
    {rows : List (List Int)} {values : List Int} (hbefore : Filtered graph frame states rows)
    (hevents : AppliesAll (graph.events.filter (isDue frame)) states ready)
    (hvalues : evaluate ready [] = some (states', values)) :
    Filtered graph (frame + 1) states' (rows ++ [values]) := by
  obtain ⟨hall, -, hnodes⟩ := sample_of_evaluate hvalues (List.forall_mem_nil _)
  refine ⟨List.forall_mem_append.mpr ⟨hbefore.inI32, List.forall_mem_singleton.mpr hall⟩,
    by rw [List.length_append, hbefore.length, List.length_singleton], ?_⟩
  intro index id input start hnode
  obtain ⟨hstate, hframes⟩ := hbefore.filter index id input start hnode
  have hid : id.toNat = index := (h.good index _ hnode).id
  have hready := appliesAll_lowPass hevents hid hstate
  rw [← coefficientAt_eq h] at hready
  obtain ⟨state', value, hstate', hvalue, hsample⟩ := hnodes index _ hready
  rw [List.length_nil, Nat.zero_add] at hvalue hsample
  obtain ⟨read, hread, hresult⟩ := Option.bind_eq_some_iff.mp hsample
  obtain ⟨rfl, rfl⟩ := Prod.mk.inj (Option.some.inj hresult)
  have hinput : values[input.toNat]? = some read := by
    rw [List.getElem?_take] at hread
    split at hread
    · exact hread
    · cases hread
  refine ⟨?_, ?_⟩
  · rw [hstate', coefficientAfter_succ, column_append, hvalue, Option.toList_some,
      List.getLastD_concat]
  · -- the last frame is the one of this turn
    intro number row hrow
    rcases Nat.lt_or_ge number rows.length with hlt | hge
    · rw [List.getElem?_append_left hlt] at hrow
      rw [List.take_append_of_le_length hlt.le]
      exact hframes number row hrow
    · obtain ⟨rfl, rfl⟩ := getElem?_snoc hge hrow
      rw [List.take_left, hbefore.length]
      exact ⟨read, hinput, hvalue⟩

theorem filtered_of_renders (h : Accepted graph) {states : List NodeState} {rows : List (List Int)}
    (hrenders : Renders graph frame states rows) : Filtered graph frame states rows := by
  induction hrenders with
  | start => exact filtered_start
  | frame _ hevents hvalues ih => exact filtered_frame h ih hevents hvalues

/-- The output before a frame, where those so far are bounded. -/
theorem within_previous {rows : List (List Int)} {index input : Nat}
    (h : ∀ earlier < frame, BoundedAt rows index input earlier) :
    Within (column input (rows.take frame)) ((column index (rows.take frame)).getLastD 0) := by
  cases frame with
  | zero => exact ⟨Int.le_refl 0, Int.le_refl 0⟩
  | succ frame =>
    obtain ⟨values, value, hrow, hvalue, hwithin⟩ := h frame (Nat.lt_succ_self frame)
    have hlast : (column index (rows.take (frame + 1))).getLastD 0 = value := by
      rw [List.take_add_one, hrow, Option.toList_some, column_append, hvalue, Option.toList_some,
        List.getLastD_concat]
    rw [hlast]
    exact hwithin

/-- A filter leaves its bounds first in a frame with a coefficient above one. -/
theorem boundedAt_of_filtered {states : List NodeState} {rows : List (List Int)} {frames index : Nat}
    {id input start : UInt16} (h : Filtered graph frames states rows)
    (hnode : graph.nodes[index]? = some (.lowPass id input start))
    (habove : ∀ frame < frames, 32768 < (coefficientAt graph id start frame).toNat →
      BoundedAt rows index input.toNat frame) :
    ∀ frame < frames, BoundedAt rows index input.toNat frame := by
  intro frame
  induction frame using Nat.strongRecOn with
  | ind frame ih =>
    intro hframe
    by_cases hcoefficient : 32768 < (coefficientAt graph id start frame).toNat
    · exact habove frame hframe hcoefficient
    · have hrow : rows[frame]? = some _ := List.getElem?_eq_getElem (h.length.symm ▸ hframe)
      obtain ⟨read, hread, hvalue⟩ := (h.filter index id input start hnode).2 frame _ hrow
      have hcolumn : column input.toNat (rows.take (frame + 1))
          = column input.toNat (rows.take frame) ++ [read] := by
        rw [List.take_add_one, hrow, Option.toList_some, column_append, hread, Option.toList_some]
      refine ⟨_, _, hrow, hvalue, ?_⟩
      rw [hcolumn]
      refine within_lowPassStep ?_ (within_previous fun earlier hearlier =>
        ih earlier hearlier (hearlier.trans hframe)) (Nat.not_lt.mp hcoefficient)
      rw [← hcolumn]
      intro other hother
      obtain ⟨row, hmem, hother⟩ := List.mem_filterMap.mp hother
      exact h.inI32 row (List.mem_of_mem_take hmem) other (List.mem_of_getElem? hother)

/-! ## Coefficients above one -/

/-- One frame of a saw wave at its full negative level, through a filter. -/
def filteredSaw (coefficient : UInt16) : AudioDocument where
  frames := 1
  nodes := [.oscillator 0 .saw 0 (-32768), .lowPass 1 0 coefficient, .output 2 1]

/-- The first sample of the wave is the largest there is, and the filter scales it. -/
theorem lowPassStep_saw (coefficient : UInt16) :
    lowPassStep 0 32768 coefficient = coefficient.toNat := by
  have hlt := coefficient.toNat_lt
  have hscaled : q15 32768 coefficient.toNat = coefficient.toNat := by
    unfold q15 scaleQ15
    rw [Int.mul_tdiv_cancel_left _ (by decide), clampI32_of_mem (by omega) (by omega)]
  have hway : Saturating.saturatingSub 32768 0 = 32768 := by decide
  unfold lowPassStep
  rw [hway, hscaled, Saturating.saturatingAdd, Int.zero_add, clampI32_of_mem (by omega) (by omega)]

theorem validateGraph_filteredSaw (coefficient : UInt16) :
    validateGraph (filteredSaw coefficient) {} = .ok () := rfl

theorem rows_filteredSaw (h : renderLoop (filteredSaw coefficient) = .ok renderer) :
    rows renderer.log
      = [[32768, lowPassStep 0 32768 coefficient, lowPassStep 0 32768 coefficient]] := by
  cases h
  rfl

theorem not_lowPassBounded_filteredSaw (h : 32768 < coefficient.toNat) :
    ¬ LowPassBounded (filteredSaw coefficient) := by
  rintro ⟨renderer, hloop, -, hbounded⟩
  obtain ⟨values, value, hrow, hvalue, -, hhigh⟩ := hbounded 1 1 0 coefficient rfl 0 Nat.one_pos
  rw [rows_filteredSaw hloop, lowPassStep_saw] at hrow hhigh
  cases hrow
  cases hvalue
  have hmax : List.foldl max 0 (column (UInt16.toNat 0)
      (List.take (0 + 1) [[32768, (coefficient.toNat : Int), (coefficient.toNat : Int)]]))
      = 32768 := rfl
  omega

/-- The outputs of the filters of an accepted document stay between zero and their inputs exactly if
they do in the frames with a coefficient above one. No such frame is there if the coefficient that
each filter has at the first sample, after the events of the first frame, is at most one. Any
coefficient above one can lead outside. -/
theorem lowPassBounded_iff {graph : AudioDocument} {limits : AudioLimits}
    (h : validateGraph graph limits = .ok ()) :
    (LowPassBounded graph ↔ ∃ renderer, renderLoop graph = .ok renderer
        ∧ ∀ (index : Nat) (id input start : UInt16),
          graph.nodes[index]? = some (.lowPass id input start) → ∀ frame < graph.frames.toNat,
          32768 < (coefficientAt graph id start frame).toNat →
          BoundedAt (rows renderer.log) index input.toNat frame)
      ∧ ((∀ id input start, .lowPass id input start ∈ graph.nodes →
        (coefficientAt graph id start 0).toNat ≤ 32768) → LowPassBounded graph)
      ∧ ∀ coefficient : UInt16, 32768 < coefficient.toNat →
        validateGraph (filteredSaw coefficient) {} = .ok ()
          ∧ coefficientAt (filteredSaw coefficient) 1 coefficient 0 = coefficient
          ∧ ¬ LowPassBounded (filteredSaw coefficient) := by
  have haccepted := accepted_of_validateGraph h
  obtain ⟨renderer, hloop, hprogress⟩ := exists_renderLoop haccepted
  have hfiltered := filtered_of_renders haccepted hprogress.renders
  have hiff : LowPassBounded graph ↔ ∃ renderer, renderLoop graph = .ok renderer
      ∧ ∀ (index : Nat) (id input start : UInt16),
        graph.nodes[index]? = some (.lowPass id input start) → ∀ frame < graph.frames.toNat,
        32768 < (coefficientAt graph id start frame).toNat →
        BoundedAt (rows renderer.log) index input.toNat frame := by
    constructor
    · rintro ⟨renderer, hloop, -, hbounded⟩
      refine ⟨renderer, hloop, ?_⟩
      intro index id input start hnode frame hframe _
      exact hbounded index id input start hnode frame hframe
    · rintro ⟨_, hloop', habove⟩
      cases hloop.symm.trans hloop'
      refine ⟨renderer, hloop, hprogress.frames, ?_⟩
      intro index id input start hnode
      exact boundedAt_of_filtered hfiltered hnode (habove index id input start hnode)
  refine ⟨hiff, ?_, ?_⟩
  · intro hfirst
    refine hiff.mpr ⟨renderer, hloop, ?_⟩
    intro index id input start hnode frame _ habove
    have hle := coefficientAt_le haccepted (hfirst id input start (List.mem_of_getElem? hnode)) frame
    omega
  · intro coefficient hcoefficient
    exact ⟨validateGraph_filteredSaw coefficient, rfl,
      not_lowPassBounded_filteredSaw hcoefficient⟩

/-- A coefficient of almost two that an event of the first frame replaces. -/
def replacedCoefficient : AudioDocument :=
  { filteredSaw 65535 with frames := 3, events := [⟨0, 1, .coefficientQ15, 16384⟩] }

/-- A filter is bounded whose coefficient is replaced before its first sample. -/
theorem lowPassBounded_replacedCoefficient :
    validateGraph replacedCoefficient {} = .ok () ∧ LowPassBounded replacedCoefficient := by
  have haccepted : validateGraph replacedCoefficient {} = .ok () := by decide +kernel
  refine ⟨haccepted, (lowPassBounded_iff haccepted).2.1 ?_⟩
  intro id input start hmem
  simp only [replacedCoefficient, filteredSaw, List.mem_cons, List.not_mem_nil,
    AudioNode.lowPass.injEq, reduceCtorEq, or_false, false_or] at hmem
  obtain ⟨rfl, rfl, rfl⟩ := hmem
  decide +kernel

/-- A document is accepted whose filter doubles its input. -/
theorem accepted_filter_amplifies :
    ∃ graph, validateGraph graph {} = .ok () ∧ ¬ LowPassBounded graph :=
  ⟨filteredSaw 65535, validateGraph_filteredSaw _, not_lowPassBounded_filteredSaw (by decide)⟩

end CartridgeRuntime.Media
