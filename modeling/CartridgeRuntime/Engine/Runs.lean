import CartridgeRuntime.Engine.Outcomes

/-!
# Runs of the engine

A run is a sequence of calls, each of which completes or is interrupted between two of its
operations. `Agrees.run` carries an invariant of views along a run on files, and
`EngineCall.outcome` says what a call does to the view of its stack.
-/

namespace CartridgeRuntime.Engine

open Checked CartridgeRuntime.Core Encoding Durable

variable [HexCodec] [Sha256] [Semver]

/-- A call that completes, or that is stopped after some of its operations. -/
inductive EngineStep where
  | complete (call : EngineCall)
  | interrupt (call : EngineCall) (count : Nat)

namespace EngineStep

section

variable {σ ω : Type} [Acts σ ω] [StackStore σ ω]

omit [HexCodec] [Sha256] [Semver] in
/-- The call of a step. -/
def call : EngineStep → EngineCall
  | .complete call | .interrupt call _ => call

/-- The operations that the step performs. -/
def operations (store : σ) : EngineStep → List ω
  | .complete call => (call.run store).operations
  | .interrupt call count => (call.run store).operations.take count

theorem operations_eq_take (store : σ) (step : EngineStep) :
    ∃ count, step.operations store = (step.call.run store).operations.take count := by
  cases step with
  | complete call => exact ⟨(call.run store).operations.length, (List.take_length).symm⟩
  | interrupt call count => exact ⟨count, rfl⟩

/-- The store after a step. -/
def perform (store : σ) (step : EngineStep) : σ :=
  after store (step.operations store)

end

/-- Both steps complete the call, or both interrupt it. -/
inductive Like : EngineStep → EngineStep → Prop where
  | complete (call) : Like (.complete call) (.complete call)
  | interrupt (call count count') : Like (.interrupt call count) (.interrupt call count')

end EngineStep

section

variable {σ ω : Type} [Acts σ ω] [StackStore σ ω]

/-- The store after some steps. -/
def run (store : σ) (steps : List EngineStep) : σ :=
  steps.foldl EngineStep.perform store

/-- Every step of a run is allowed in the state where it is taken. -/
def Along (allowed : σ → EngineStep → Prop) : σ → List EngineStep → Prop
  | _, [] => True
  | store, step :: steps => allowed store step ∧ Along allowed (step.perform store) steps

theorem along_append {allowed : σ → EngineStep → Prop} {store : σ} {steps later : List EngineStep}
    (h : Along allowed store steps) (hlater : Along allowed (run store steps) later) :
    Along allowed store (steps ++ later) := by
  induction steps generalizing store with
  | nil => exact hlater
  | cons step steps ih => exact ⟨h.1, ih h.2 hlater⟩

end

section

variable [FromJson EngineEvent] [FromJson RolloutRecord] [FromJson RolloutProgress]
variable {store : EngineStore} {engine : EngineView}

/-- A step on files is a step of the same kind on views. -/
theorem Agrees.perform (h : Agrees store engine) (step : EngineStep) :
    ∃ step', step.Like step' ∧ Agrees (step.perform store) (step'.perform engine) := by
  obtain ⟨-, htracks, -⟩ := step.call.simulates store engine h trivial
  cases step with
  | complete call => exact ⟨_, .complete call, htracks.last⟩
  | interrupt call count =>
    obtain ⟨count', hagrees⟩ := htracks.take count
    exact ⟨_, .interrupt call count count', hagrees⟩

/-- Wherever a call is stopped on views it can be stopped on files. -/
theorem Agrees.interrupt (h : Agrees store engine) (call : EngineCall) (count' : Nat) :
    ∃ count, Agrees ((EngineStep.interrupt call count).perform store)
      ((EngineStep.interrupt call count').perform engine) :=
  (call.simulates store engine h trivial).2.1.take_steps count'

/-- A call that completes does the same on files and on views. -/
theorem Agrees.complete (h : Agrees store engine) (call : EngineCall) :
    Agrees ((EngineStep.complete call).perform store) ((EngineStep.complete call).perform engine) :=
  (call.simulates store engine h trivial).2.1.last

/-- A call returns the same on files and on views. -/
theorem Agrees.result (h : Agrees store engine) (call : EngineCall) :
    (call.run store).result = (call.run engine).result :=
  (call.simulates store engine h trivial).1

/-- What allowed steps keep true of views holds after every run of allowed steps on files. -/
theorem Agrees.run {P : EngineView → Prop} {allowed : EngineStore → EngineStep → Prop}
    (hstep : ∀ store engine step step', Agrees store engine → P engine → allowed store step →
      step.Like step' → P (step'.perform engine)) (h : Agrees store engine) (hP : P engine)
    {steps : List EngineStep} (hallowed : Along allowed store steps) :
    ∃ engine', Agrees (Engine.run store steps) engine' ∧ P engine' := by
  induction steps generalizing store engine with
  | nil => exact ⟨engine, h, hP⟩
  | cons step steps ih =>
    obtain ⟨hfirst, hrest⟩ := hallowed
    obtain ⟨step', hlike, hagrees⟩ := h.perform step
    exact ih hagrees (hstep store engine step step' h hP hfirst hlike) hrest

/-- Every run leads to files that agree with a view. -/
theorem run_agrees (steps : List EngineStep) : ∃ engine, Agrees (run {} steps) engine := by
  induction steps using List.reverseRecOn with
  | nil => exact ⟨{}, .empty⟩
  | append_singleton steps step ih =>
    obtain ⟨engine, hagrees⟩ := ih
    obtain ⟨step', -, hnext⟩ := hagrees.perform step
    rw [Engine.run, List.foldl_append]
    exact ⟨_, hnext⟩

end

/-- The operations change one stack, and its view is as it should be wherever they are stopped. -/
def Through (stack : String) (P : StackView → Prop) (view : StackView)
    (operations : List ViewOperation) : Prop :=
  ∃ changes, operations = onStack stack changes ∧ Passes P view changes

variable {operations : List ViewOperation}

omit [HexCodec] [Sha256] [Semver] in
theorem Through.take {stack : String} {P : StackView → Prop} {engine : EngineView}
    (h : Through stack P (engine.view stack) operations) (count : Nat) :
    P ((after engine (operations.take count)).view stack)
      ∧ ∀ other, stack ≠ other →
        (after engine (operations.take count)).view other = engine.view other := by
  obtain ⟨changes, rfl, hpasses⟩ := h
  have htake : (onStack stack changes).take count = onStack stack (changes.take count) :=
    List.map_take.symm
  rw [htake]
  refine ⟨?_, fun other hne => view_onStack_of_ne engine hne _⟩
  rw [view_onStack]
  exact hpasses count

/-- What holds of every view wherever a call is stopped holds of every view after a step. -/
theorem EngineStep.perform_view {P : String → StackView → Prop} {engine : EngineView}
    {step : EngineStep} (hcall : Through step.call.stack (P step.call.stack)
      (engine.view step.call.stack) (step.call.run engine).operations)
    (h : ∀ stack, P stack (engine.view stack)) (stack : String) :
    P stack ((step.perform engine).view stack) := by
  obtain ⟨count, hcount⟩ := step.operations_eq_take engine
  obtain ⟨hown, hother⟩ := hcall.take count
  rw [EngineStep.perform, hcount]
  by_cases heq : step.call.stack = stack
  · subst heq
    exact hown
  · rw [hother stack heq]
    exact h stack

/-! ## What a call does -/

omit [HexCodec] [Sha256] [Semver] in
/-- The calls that a rollout keeps out while it is active. -/
def EngineCall.fenced : EngineCall → Bool
  | .apply .. | .stop .. | .remove .. => true
  | _ => false

/-- What a call does to the view of its stack, with what it returns. -/
inductive EngineCall.Effect (view : StackView) :
    EngineCall → Except EngineError EngineAnswer → List ViewOperation → Prop where
  | fails (call error operations) : Tends view call.stack operations →
      Effect view call (.error error) operations
  | journalled (call report operations) : call.fenced →
      Journalled view call.stack report operations →
      Effect view call (.ok (.report report)) operations
  | reads (stack read changes) : Reads view stack read changes →
      Effect view (.rollout stack) (.ok (.checkpoint read)) (onStack stack changes)
  | prepares (plan allowInsecure nowMs next operations) :
      Prepares view plan.stack plan nowMs next operations →
      Effect view (.prepareRollout plan allowInsecure nowMs) (.ok (.checkpoint (some next)))
        operations
  | prepareFails (plan allowInsecure nowMs error operations) :
      PrepareFails view plan.stack error operations →
      Effect view (.prepareRollout plan allowInsecure nowMs) (.error error) operations
  | activates (stack rolloutId nowMs clockMs next operations) :
      Activates view stack rolloutId nowMs clockMs next operations →
      Effect view (.activateRollout stack rolloutId nowMs clockMs) (.ok (.checkpoint (some next)))
        operations
  | commits (stack rolloutId nowMs observed next operations) :
      Commits view stack rolloutId nowMs next operations →
      Effect view (.commitRollout stack rolloutId nowMs observed) (.ok (.checkpoint (some next)))
        operations
  | rollsBack (stack rolloutId nowMs clockMs next operations) :
      RollsBack view stack rolloutId nowMs clockMs next operations →
      Effect view (.rollbackRollout stack rolloutId nowMs clockMs) (.ok (.checkpoint (some next)))
        operations
  | begins (stack rolloutId nowMs progress operations) : Tends view stack operations →
      Effect view (.beginRolloutProgress stack rolloutId nowMs) (.ok (.progress progress))
        operations
  | saves (progress operations) : Tends view progress.stack operations →
      Effect view (.saveRolloutProgress progress) (.ok (.progress progress)) operations

theorem EngineCall.outcome {engine : EngineView} (hsound : engine.Sound) (call : EngineCall) :
    Outcome (call.run : Keeping _) engine
      (fun answer => call.Effect (engine.view call.stack) (.ok answer))
      (fun error => call.Effect (engine.view call.stack) (.error error)) := by
  cases call with
  | apply plan allowInsecure clockMs =>
    exact .map ((apply_outcome plan allowInsecure clockMs).mono
      (fun report _ h => .journalled _ report _ rfl h) fun error _ h => .fails _ error _ h.tends)
  | stop stack clockMs =>
    exact .map ((stop_outcome (hsound stack) clockMs).mono
      (fun report _ h => .journalled _ report _ rfl h) fun error _ h => .fails _ error _ h.tends)
  | remove stack clockMs =>
    exact .map ((remove_outcome (hsound stack) clockMs).mono
      (fun report _ h => .journalled _ report _ rfl h) fun error _ h => .fails _ error _ h.tends)
  | rollout stack =>
    refine .map (rollout_outcome.mono (fun read _ h => ?_) fun error _ h => .fails _ error _ (.inl h.1))
    obtain ⟨-, changes, rfl, hreads⟩ := h
    exact .reads stack read changes hreads
  | prepareRollout plan allowInsecure nowMs =>
    exact .map ((prepareRollout_outcome hsound plan allowInsecure nowMs).mono
      (fun next _ h => .prepares _ _ _ next _ h) fun error _ h => .prepareFails _ _ _ error _ h)
  | activateRollout stack rolloutId nowMs clockMs =>
    exact .map ((activateRollout_outcome (hsound stack) rolloutId nowMs clockMs).mono
      (fun next _ h => .activates _ _ _ _ next _ h) fun error _ h => .fails _ error _ h.tends)
  | commitRollout stack rolloutId nowMs observed =>
    exact .map ((commitRollout_outcome rolloutId nowMs observed).mono
      (fun next _ h => .commits _ _ _ _ next _ h) fun error _ h => .fails _ error _ h.tends)
  | rollbackRollout stack rolloutId nowMs clockMs =>
    exact .map ((rollbackRollout_outcome (hsound stack) rolloutId nowMs clockMs).mono
      (fun next _ h => .rollsBack _ _ _ _ next _ h) fun error _ h => .fails _ error _ h.tends)
  | beginRolloutProgress stack rolloutId nowMs =>
    exact .map ((beginRolloutProgress_outcome rolloutId nowMs).mono
      (fun progress _ h => .begins _ _ _ progress _ h) fun error _ h => .fails _ error _ h)
  | saveRolloutProgress progress =>
    exact .map ((saveRolloutProgress_outcome progress).mono (fun _ _ h => .saves progress _ h)
      fun error _ h => .fails _ error _ h)

/-- What a call does is one of its effects. -/
theorem EngineCall.effect {engine : EngineView} (hsound : engine.Sound) (call : EngineCall) :
    call.Effect (engine.view call.stack) (call.run engine).result
      (call.run engine).operations := by
  have houtcome := call.outcome hsound
  cases hrun : call.run engine with
  | mk operations result =>
    cases result with
    | ok answer => exact houtcome.ok hrun
    | error error => exact houtcome.error hrun

end CartridgeRuntime.Engine
