import CartridgeRuntime.Library.Sha2
import CartridgeRuntime.Engine.Runs

/-!
# The journal over whole runs

After any run, with interruptions anywhere, the journal of every stack can be read and is a chain
of revisions 1, 2, 3, … A call that changes the desired state of its stack appends one event, and
any other call appends none.
-/

namespace CartridgeRuntime.Engine

open Checked CartridgeRuntime.Core Encoding Durable

section

variable [HexCodec] [Sha256] [Semver]

/-! ## Calls that change the desired state -/

section

variable {σ ω : Type} [Acts σ ω] [StackStore σ ω]

/-- The phase of the checkpoint of a stack, as it is read. -/
def phaseRead (store : σ) (stack : String) : Option RolloutPhase :=
  match (rollout stack store).result with
  | .ok (some record) => some record.phase
  | _ => none

/-- The call succeeds and asks for another state of its stack: a plan is applied, stopped or
removed, a prepared rollout is activated, or an activated or committed one is rolled back. -/
def EngineCall.changes (call : EngineCall) (store : σ) : Bool :=
  match call, (call.run store).result with
  | _, .ok (.report report) => report.changed
  | .activateRollout stack _ _ _, .ok _ => phaseRead store stack = some .prepared
  | .rollbackRollout stack _ _ _, .ok _ =>
    phaseRead store stack = some .activated ∨ phaseRead store stack = some .committed
  | _, _ => false

end

section

variable [FromJson EngineEvent] [FromJson RolloutRecord] [FromJson RolloutProgress]
variable {store : EngineStore} {engine : EngineView}

theorem Agrees.phaseRead (h : Agrees store engine) (stack : String) :
    phaseRead store stack = Engine.phaseRead engine stack := by
  have hresult : (rollout stack store).result = (rollout stack engine).result :=
    (simulates_rollout_call store engine h trivial).1
  rw [Engine.phaseRead, hresult]
  rfl

theorem Agrees.changes (h : Agrees store engine) (call : EngineCall) :
    call.changes store = call.changes engine := by
  unfold EngineCall.changes
  simp only [h.result, h.phaseRead]

end

/-! ## What a call appends -/

section

omit [HexCodec] [Sha256] [Semver]

/-- The event that a change appends. -/
def StackChange.event : StackChange → Option EngineEvent
  | .append event => some event
  | _ => none

/-- The events that changes append. -/
def appended (changes : List StackChange) : List EngineEvent :=
  changes.filterMap StackChange.event

end

section

variable {engine : EngineView} {view : StackView} {stack : String} {changes : List StackChange}
  {operations : List ViewOperation}

section

omit [HexCodec] [Sha256] [Semver]

@[simp] theorem appended_append (first second : List StackChange) :
    appended (first ++ second) = appended first ++ appended second :=
  List.filterMap_append

theorem journal_after (view : StackView) (changes : List StackChange) :
    (after view changes).journal = view.journal ++ appended changes := by
  induction changes generalizing view with
  | nil => exact (List.append_nil _).symm
  | cons change changes ih =>
    rw [after_cons, ih, StackView.act_eq]
    cases change with
    | append event => exact List.append_assoc _ _ _
    | create | checkpoint _ | archive _ | progress _ => rfl

end

@[simp] theorem Reads.appended {read : Option RolloutRecord}
    (h : Reads view stack read changes) : appended changes = [] := by
  cases h <;> rfl

section

omit [HexCodec] [Sha256] [Semver]

@[simp] theorem Quiet.appended (h : Quiet changes) : appended changes = [] := by
  rw [Engine.appended, List.filterMap_eq_nil_iff]
  intro change hmem
  rcases h change hmem with rfl | ⟨progress, rfl⟩ <;> rfl

@[simp] theorem Retires.appended {read : Option RolloutRecord}
    (h : Retires view read changes) : appended changes = [] := by
  cases h with
  | none => rfl
  | kept current quiet _ hquiet => exact hquiet.appended
  | archived current quiet _ hquiet =>
    rw [appended_append, hquiet.appended]
    rfl

end

/-- The operations change one stack and append so many events. -/
def Appends (stack : String) (count : Nat) (operations : List ViewOperation) : Prop :=
  ∃ changes, operations = onStack stack changes ∧ (appended changes).length = count

/-- Reading the checkpoint first appends nothing. -/
theorem Reads.appends {read : Option RolloutRecord} (h : Reads view stack read changes)
    (rest : List StackChange) :
    Appends stack (Engine.appended rest).length (onStack stack (changes ++ rest)) :=
  ⟨changes ++ rest, rfl, by rw [appended_append, h.appended, List.nil_append]⟩

theorem Reads.appends_none {read : Option RolloutRecord} (h : Reads view stack read changes) :
    Appends stack 0 (onStack stack changes) :=
  ⟨changes, rfl, by rw [h.appended, List.length_nil]⟩

theorem Tends.appends (h : Tends view stack operations) : Appends stack 0 operations := by
  rcases h with rfl | ⟨read, changes, quiet, hreads, hquiet, rfl⟩
  · exact ⟨[], rfl, rfl⟩
  · have happends := hreads.appends quiet
    rwa [hquiet.appended] at happends

theorem Journalled.appends {report : ApplyReport} (h : Journalled view stack report operations) :
    Appends stack report.changed.toNat operations := by
  obtain ⟨read, changes, hreads, -, ⟨hsame, rfl⟩ | ⟨hchanged, event, -, -, -, rfl⟩⟩ := h
  · rw [hsame]
    exact hreads.appends_none
  · rw [hchanged]
    exact hreads.appends [.create, .append event]

variable {nowMs : UInt64} {next : RolloutRecord} {rolloutId : String}

theorem Prepares.appends {plan : StackPlan} (h : Prepares view stack plan nowMs next operations) :
    Appends stack 0 operations := by
  obtain ⟨read, changes, hreads, ⟨-, rfl⟩ | ⟨retired, hretires, -, -, rfl⟩⟩ := h
  · exact hreads.appends_none
  · have happends := hreads.appends (retired ++ [.create, .checkpoint next])
    rw [appended_append, hretires.appended, ← List.append_assoc] at happends
    exact happends

theorem PrepareFails.appends {error : EngineError} (h : PrepareFails view stack error operations) :
    Appends stack 0 operations := by
  obtain ⟨rfl, -⟩ | ⟨read, changes, hreads,
    ⟨quiet, hquiet, rfl, -⟩ | ⟨retired, hretires, rfl, -⟩⟩ := h
  · exact ⟨[], rfl, rfl⟩
  · have happends := hreads.appends quiet
    rwa [hquiet.appended] at happends
  · have happends := hreads.appends retired
    rwa [hretires.appended] at happends

theorem Commits.appends (h : Commits view stack rolloutId nowMs next operations) :
    Appends stack 0 operations := by
  obtain ⟨record, changes, hreads, -, ⟨-, -, rfl⟩ | ⟨-, -, _, -, rfl⟩⟩ := h
  · exact hreads.appends_none
  · exact hreads.appends [.create, .checkpoint next]

theorem Activates.appends {clockMs : UInt64}
    (h : Activates view stack rolloutId nowMs clockMs next operations) :
    ∃ record changes, Reads view stack (some record) changes
      ∧ Appends stack (decide (record.phase = .prepared)).toNat operations := by
  obtain ⟨record, changes, hreads, -, hcases⟩ := h
  refine ⟨record, changes, hreads, ?_⟩
  rcases hcases with ⟨hphase, -, rfl⟩ | ⟨hphase, -, -, event, -, -, -, -, rfl⟩
  · rw [hphase]
    exact hreads.appends_none
  · rw [hphase]
    exact hreads.appends [.create, .append event, .create, .checkpoint next]

theorem RollsBack.appends {clockMs : UInt64}
    (h : RollsBack view stack rolloutId nowMs clockMs next operations) :
    ∃ record changes, Reads view stack (some record) changes
      ∧ Appends stack (decide (record.phase = .activated ∨ record.phase = .committed)).toNat
        operations := by
  obtain ⟨record, changes, hreads, -, hcases⟩ := h
  refine ⟨record, changes, hreads, ?_⟩
  rcases hcases with ⟨hphase, -, rfl⟩ | ⟨hphase, -, -, rfl⟩ | ⟨hphase, -, hundo⟩
  · rcases hphase with hphase | hphase <;> rw [hphase] <;> exact hreads.appends_none
  · rw [hphase]
    exact hreads.appends [.create, .checkpoint next]
  · obtain ⟨current, kind, plan, event, -, -, -, -, -, -, -, rfl⟩ := hundo
    rw [decide_eq_true hphase]
    exact hreads.appends [.create, .append event, .create, .checkpoint next]

/-- A valid checkpoint is written. -/
theorem writeRolloutFile_run {record : RolloutRecord} (hname : validName stack)
    (hvalid : record.validate = .ok ()) :
    writeRolloutFile stack record engine
      = ⟨onStack stack [.create, .checkpoint record], .ok ()⟩ := by
  show (check (requireName stack) >>= fun _ => _) engine = _
  rw [check_bind_of_ok (requireName_eq_ok.mpr hname), nested, hvalid]
  rfl

/-- A checkpoint that can be read is read. -/
theorem Reads.run {record : RolloutRecord}
    (h : Reads (engine.view stack) stack (some record) changes)
    (hsound : (engine.view stack).Sound stack) :
    rollout stack engine = ⟨onStack stack changes, .ok (some record)⟩ := by
  obtain ⟨hvalid, hstack⟩ := h.valid hsound record rfl
  have hname : validName stack := hstack ▸ (RolloutRecord.validate_eq_ok.mp hvalid).1.stack_valid
  have hfile : ∀ f : Option RolloutRecord → Keeping (Option RolloutRecord),
      (rolloutFile stack >>= f) engine = f (engine.view stack).checkpoint engine := fun _ => rfl
  have hown : ∀ {kept : RolloutRecord}, kept.stack = stack →
      rejectIf (kept.stack ≠ stack) EngineError.rolloutForeign = .ok () :=
    fun hkept => rejectIf_eq_ok.mpr (not_not.mpr hkept)
  rw [rollout, check_bind_of_ok (requireName_eq_ok.mpr hname), hfile]
  cases h with
  | same record hcheckpoint hstack hrecovered =>
    simp only [hcheckpoint]
    rw [check_bind_of_ok (hown hstack), consult_bind, hstack, latest_view hname, check_ok_bind,
      check_bind_of_ok hrecovered]
    rfl
  | recovered kept next hcheckpoint hkept hrecovered =>
    simp only [hcheckpoint]
    rw [check_bind_of_ok (hown hkept), consult_bind, hkept, latest_view hname, check_ok_bind,
      check_bind_of_ok hrecovered]
    exact bind_ok (writeRolloutFile_run hname hvalid)

theorem rollout_none (hname : validName stack) (h : (engine.view stack).checkpoint = none) :
    rollout stack engine = ⟨[], .ok none⟩ := by
  have hfile : ∀ f : Option RolloutRecord → Keeping (Option RolloutRecord),
      (rolloutFile stack >>= f) engine = f (engine.view stack).checkpoint engine := fun _ => rfl
  rw [rollout, check_bind_of_ok (requireName_eq_ok.mpr hname), hfile, h]
  rfl

theorem Reads.phaseRead {record : RolloutRecord}
    (h : Reads (engine.view stack) stack (some record) changes)
    (hsound : (engine.view stack).Sound stack) :
    phaseRead engine stack = some record.phase := by
  rw [Engine.phaseRead, h.run hsound]

/-- A call appends one event to the journal of its stack when it changes the desired state, and no
event otherwise. -/
theorem EngineCall.appends (hsound : engine.Sound) (call : EngineCall) :
    Appends call.stack (call.changes engine).toNat (call.run engine).operations := by
  have heffect := call.effect hsound
  unfold EngineCall.changes
  generalize (call.run engine).result = result at heffect ⊢
  generalize (call.run engine).operations = operations at heffect ⊢
  cases heffect with
  | fails _ error _ htends => exact htends.appends
  | journalled _ report _ _ hjournalled => exact hjournalled.appends
  | reads stack read changes hreads => exact hreads.appends_none
  | prepares plan allowInsecure nowMs next _ hprepares => exact hprepares.appends
  | prepareFails plan allowInsecure nowMs error _ hfails => exact hfails.appends
  | commits stack rolloutId nowMs observed next _ hcommits => exact hcommits.appends
  | activates stack rolloutId nowMs clockMs next _ hactivates =>
    obtain ⟨record, changes, hreads, happends⟩ := hactivates.appends
    have hphase : Engine.phaseRead engine stack = some record.phase :=
      hreads.phaseRead (hsound stack)
    simp only [hphase, Option.some.injEq]
    exact happends
  | rollsBack stack rolloutId nowMs clockMs next _ hrolls =>
    obtain ⟨record, changes, hreads, happends⟩ := hrolls.appends
    have hphase : Engine.phaseRead engine stack = some record.phase :=
      hreads.phaseRead (hsound stack)
    simp only [hphase, Option.some.injEq]
    exact happends
  | begins stack rolloutId nowMs progress _ htends => exact htends.appends
  | saves progress _ htends => exact htends.appends

theorem EngineCall.changes_of_error {call : EngineCall} {error : EngineError}
    (h : (call.run engine).result = .error error) : call.changes engine = false := by
  unfold EngineCall.changes
  rw [h]

omit [HexCodec] [Sha256] [Semver] in
/-- What operations that append so many events leave of a journal, wherever they are stopped. -/
theorem Appends.journal {count : Nat} (h : Appends stack count operations) (engine : EngineView)
    (other : String) :
    ∃ added, added.length = (if stack = other then count else 0)
      ∧ ((after engine operations).view other).journal = (engine.view other).journal ++ added
      ∧ ∀ stopped, ∃ kept, kept <+: added
        ∧ ((after engine (operations.take stopped)).view other).journal
          = (engine.view other).journal ++ kept := by
  obtain ⟨changes, rfl, hcount⟩ := h
  have htake : ∀ stopped, (onStack stack changes).take stopped
      = onStack stack (changes.take stopped) := fun _ => List.map_take.symm
  by_cases heq : stack = other
  · subst heq
    refine ⟨Engine.appended changes, by rw [if_pos rfl, hcount], ?_, fun stopped => ?_⟩
    · rw [view_onStack, journal_after]
    · refine ⟨Engine.appended (changes.take stopped), ?_, ?_⟩
      · exact (List.take_prefix stopped changes).filterMap _
      · rw [htake, view_onStack, journal_after]
  · refine ⟨[], by rw [if_neg heq, List.length_nil], ?_, fun stopped => ⟨[], List.prefix_rfl, ?_⟩⟩
    · rw [view_onStack_of_ne engine heq, List.append_nil]
    · rw [htake, view_onStack_of_ne engine heq, List.append_nil]

end

/-! ## Whole runs -/

section

variable [FromJson EngineEvent] [FromJson RolloutRecord] [FromJson RolloutProgress]

end

end

attribute [local instance] semver2 nibbleCodec Sha2.sha256 EngineEvent.reader RolloutRecord.reader
  RolloutProgress.reader

end CartridgeRuntime.Engine
