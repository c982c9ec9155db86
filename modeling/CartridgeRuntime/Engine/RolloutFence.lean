import CartridgeRuntime.Engine.JournalRuns

/-!
# Rollouts and the journal

What the checkpoint of a stack says about its journal over runs of completed calls: a prepared
rollout is prepared for the journal as it is, an activated one has added its activation only, and
going back adds one event that restores what the rollout was prepared for.
-/

namespace CartridgeRuntime.Engine

open Checked CartridgeRuntime.Core Encoding Durable

section

variable [HexCodec] [Sha256] [Semver]

namespace RolloutRecord

variable {record next : RolloutRecord} {journal before : List EngineEvent}

/-- The record describes the end of the journal that it was prepared for. -/
structure Recorded (record : RolloutRecord) (before : List EngineEvent) : Prop where
  revision : record.previousRevision = before.getLast?.map EngineEvent.revision
  generation : record.previousGeneration = before.getLast?.map EngineEvent.eventSha256
  state : record.previousState = before.getLast?.map EngineEvent.state
  plan : record.previousPlan = before.getLast?.bind EngineEvent.plan

omit [HexCodec] [Sha256] [Semver] in
theorem Recorded.of_same (h : record.Recorded before) (hsame : SameRollout record next) :
    next.Recorded before where
  revision := hsame.previousRevision.trans h.revision
  generation := hsame.previousGeneration.trans h.generation
  state := hsame.previousState.trans h.state
  plan := hsame.previousPlan.trans h.plan

/-- How a journal goes on from the one that a rollout was prepared for. -/
def Extends (record : RolloutRecord) (before journal : List EngineEvent) : Prop :=
  match record.phase with
  | .prepared => journal = before
  | .activated => ∃ event, journal = before ++ [event] ∧ record.IsActivation event
      ∧ event.plan = some record.candidatePlan
  | .committed | .rolledBack | .cancelled => before <+: journal

/-- The record belongs to the journal: its candidate was not applied when it was prepared, and the
journal went on as its phase says. -/
structure Fits (record : RolloutRecord) (before journal : List EngineEvent) : Prop where
  recorded : record.Recorded before
  not_applied : ¬ before.getLast?.any (·.applies record.candidatePlan)
  goes_on : record.Extends before journal

section

omit [HexCodec] [Sha256] [Semver]

theorem Extends.isPrefix (h : record.Extends before journal) : before <+: journal := by
  unfold Extends at h
  split at h
  · exact h ▸ List.prefix_rfl
  · obtain ⟨event, rfl, -⟩ := h
    exact List.prefix_append before [event]
  all_goals exact h

/-- The journal may go on while no rollout is active. -/
theorem Fits.append (h : record.Fits before journal) (hinactive : ¬ record.active)
    (event : EngineEvent) : record.Fits before (journal ++ [event]) where
  recorded := h.recorded
  not_applied := h.not_applied
  goes_on := by
    have hbefore := h.goes_on.isPrefix.trans (List.prefix_append journal [event])
    unfold Extends
    cases hphase : record.phase with
    | prepared => simp [active, hphase] at hinactive
    | activated => simp [active, hphase] at hinactive
    | committed | rolledBack | cancelled => exact hbefore

theorem Fits.prepared (h : record.Fits before journal) (hphase : record.phase = .prepared) :
    journal = before := by
  have hgoes := h.goes_on
  rwa [Extends, hphase] at hgoes

theorem Fits.activated (h : record.Fits before journal) (hphase : record.phase = .activated) :
    ∃ event, journal = before ++ [event] ∧ record.IsActivation event
      ∧ event.plan = some record.candidatePlan := by
  have hgoes := h.goes_on
  rwa [Extends, hphase] at hgoes

theorem Fits.of_same (h : record.Fits before journal) (hsame : SameRollout record next)
    {later : List EngineEvent} (hgoes : next.Extends before later) : next.Fits before later where
  recorded := h.recorded.of_same hsame
  not_applied := by
    rw [hsame.candidatePlan]
    exact h.not_applied
  goes_on := hgoes

theorem Recorded.matchesPrevious (h : record.Recorded before) :
    matchesPrevious record before.getLast? := by
  rw [matchesPrevious_iff]
  cases hlast : before.getLast? with
  | none => exact .inl ⟨by rw [h.revision, hlast]; rfl, rfl⟩
  | some event =>
    refine .inr ⟨event, rfl, ?_, ?_, ?_, ?_⟩
    · rw [h.revision, hlast]; rfl
    · rw [h.generation, hlast]; rfl
    · rw [h.state, hlast]; rfl
    · rw [h.plan, hlast]; rfl

/-- The event before a rollout is not taken for its activation. -/
theorem Fits.not_matchesCandidate (h : record.Fits before journal) :
    ¬ matchesCandidate record before.getLast? := by
  intro hcandidate
  refine h.not_applied ?_
  rw [matchesCandidate, Option.any_eq_true] at hcandidate
  obtain ⟨event, hlast, hmatches⟩ := hcandidate
  rw [decide_eq_true_eq] at hmatches
  rw [hlast, Option.any_some, EngineEvent.applies, decide_eq_true_eq]
  exact ⟨hmatches.1, hmatches.2.1⟩

/-- The activation of a rollout is not taken for its rollback. -/
theorem Fits.not_matchesRollback {event : EngineEvent} (h : record.Fits before journal)
    (hactivation : record.IsActivation event) : ¬ matchesRollback record (some event) := by
  obtain ⟨hkind, hplan, -⟩ := hactivation
  simp only [matchesRollback, h.recorded.state, Bool.and_eq_true, not_and, Bool.not_eq_true]
  intro _
  cases hlast : before.getLast? with
  | none => simp [hkind]
  | some previous =>
    cases hprevious : previous.kind with
    | stop | remove => simp [EngineEvent.state, hprevious, hkind]
    | apply =>
      -- going back to the applied plan would be applying the candidate again
      have hother := h.not_applied
      rw [hlast, Option.any_some, EngineEvent.applies, decide_eq_true_eq] at hother
      simp only [hprevious, true_and] at hother
      simp only [EngineEvent.state, hprevious, Option.map_some, h.recorded.plan, hlast,
        Option.bind_some, decide_eq_false_iff_not, not_and]
      intro _ hsame
      exact hother (hsame.symm.trans hplan)

end

/-- The journal implies nothing else than what the record says. -/
theorem Fits.recover (h : record.Fits before journal) :
    recoverRolloutCheckpoint record journal.getLast? = .ok none := by
  unfold recoverRolloutCheckpoint
  cases hphase : record.phase with
  | prepared =>
    obtain rfl := h.prepared hphase
    rw [if_neg h.not_matchesCandidate, nested,
      ensureMatchesPrevious_eq_ok.mpr h.recorded.matchesPrevious]
    rfl
  | activated =>
    obtain ⟨event, rfl, hactivation, -⟩ := h.activated hphase
    rw [List.getLast?_concat, if_neg (h.not_matchesRollback hactivation), nested,
      ensureMatchesActivation_eq_ok.mpr ⟨event, rfl, hactivation⟩]
    rfl
  | committed | rolledBack | cancelled => rfl

/-- The kind and plan of the event that restores what was before. -/
def restored (before : List EngineEvent) : EngineEventKind × Option StackPlan :=
  before.getLast?.elim (.remove, none) fun event => (event.kind, event.plan)

/-- A rollback asks for what was before the rollout. -/
theorem Recorded.rollbackTarget {stack : String} (h : record.Recorded before)
    (hchain : ∀ event ∈ before, event.validate = .ok () ∧ event.stack = stack) :
    rollbackTarget record = .ok (restored before) := by
  unfold Engine.rollbackTarget restored
  rw [h.state, h.plan]
  cases hlast : before.getLast? with
  | none => rfl
  | some event =>
    have hvalid := (hchain event (List.mem_of_getLast? hlast)).1
    rcases EngineEvent.plan_of_validate hvalid with ⟨hkind, hplan⟩ | ⟨hkind, plan, hplan, -⟩
    · simp [EngineEvent.state, hkind, hplan]
    · cases hevent : event.kind with
      | remove => exact absurd hevent hkind
      | apply => simp [EngineEvent.state, hevent, hplan, okOr]
      | stop => simp [EngineEvent.state, hevent, hplan, okOr]

end RolloutRecord

/-! ## What a call keeps -/

/-- The checkpoint of a stack belongs to its journal. -/
def StackView.Fits (stack : String) (view : StackView) : Prop :=
  ∀ record ∈ view.checkpoint, record.stack = stack ∧ ∃ before, record.Fits before view.journal

/-- The operations change one stack and lead to a view. -/
def Reaches (stack : String) (view : StackView) (P : StackView → Prop)
    (operations : List ViewOperation) : Prop :=
  ∃ changes, operations = onStack stack changes ∧ P (after view changes)

variable {nowMs clockMs : UInt64} {rolloutId : String}

section

variable {view : StackView} {stack : String} {changes : List StackChange}
  {read : Option RolloutRecord} {operations : List ViewOperation}

/-- Reading the checkpoint changes nothing. -/
theorem StackView.Fits.reads (h : view.Fits stack) (hreads : Reads view stack read changes) :
    read = view.checkpoint ∧ changes = [] := by
  cases hreads with
  | none hcheckpoint => exact ⟨hcheckpoint.symm, rfl⟩
  | same record hcheckpoint => exact ⟨hcheckpoint.symm, rfl⟩
  | recovered record next hcheckpoint _ hrecovered =>
    obtain ⟨hstack, before, hfits⟩ := h record hcheckpoint
    rw [hfits.recover] at hrecovered
    cases hrecovered

section

omit [HexCodec] [Sha256] [Semver]

/-- What only concerns the archive and the progress changes neither journal nor checkpoint. -/
theorem StackView.Fits.of_eq {other : StackView} (h : view.Fits stack)
    (hjournal : other.journal = view.journal) (hcheckpoint : other.checkpoint = view.checkpoint) :
    other.Fits stack := by
  unfold Fits
  rwa [hjournal, hcheckpoint]

theorem Quiet.fits (hquiet : Quiet changes) (h : view.Fits stack) :
    (Durable.after view changes).Fits stack := by
  obtain ⟨progress, hafter⟩ := hquiet.after view
  exact h.of_eq (by rw [hafter]) (by rw [hafter])

end

theorem Tends.fits (htends : Tends view stack operations) (h : view.Fits stack) :
    Reaches stack view (StackView.Fits stack) operations := by
  rcases htends with rfl | ⟨read, changes, quiet, hreads, hquiet, rfl⟩
  · exact ⟨[], rfl, h⟩
  · obtain ⟨-, rfl⟩ := h.reads hreads
    exact ⟨quiet, rfl, hquiet.fits h⟩

theorem Journalled.fits {report : ApplyReport}
    (hjournalled : Journalled view stack report operations) (h : view.Fits stack) :
    Reaches stack view (StackView.Fits stack) operations := by
  obtain ⟨read, changes, hreads, hinactive, hcases⟩ := hjournalled
  obtain ⟨rfl, rfl⟩ := h.reads hreads
  rcases hcases with ⟨-, rfl⟩ | ⟨-, event, -, -, -, rfl⟩
  · exact ⟨[], rfl, h⟩
  · refine ⟨[.create, .append event], rfl, fun record hrecord => ?_⟩
    have hcheckpoint : view.checkpoint = some record := hrecord
    obtain ⟨hstack, before, hfits⟩ := h record hcheckpoint
    rw [hcheckpoint, Option.any_some] at hinactive
    exact ⟨hstack, before, hfits.append hinactive event⟩

theorem Prepares.fits {plan : StackPlan} {next : RolloutRecord}
    (hprepares : Prepares view plan.stack plan nowMs next operations) (h : view.Fits plan.stack) :
    Reaches plan.stack view (StackView.Fits plan.stack) operations := by
  obtain ⟨read, changes, hreads, hcases⟩ := hprepares
  obtain ⟨rfl, rfl⟩ := h.reads hreads
  rcases hcases with ⟨-, rfl⟩ | ⟨retired, hretires, hother, hnew, rfl⟩
  · exact ⟨[], rfl, h⟩
  · obtain ⟨archive, progress, hafter⟩ := hretires.after
    obtain ⟨-, hstack, hphase, hcandidate, hrevision, hgeneration, hstate, hplan, -⟩ :=
      RolloutRecord.new_eq_ok hnew
    refine ⟨_, rfl, ?_⟩
    rw [List.nil_append, after_append, hafter]
    rintro _ ⟨⟩
    refine ⟨hstack, view.journal, ⟨hrevision, hgeneration, hstate, hplan⟩, ?_, ?_⟩
    · rw [hcandidate]
      exact hother
    · rw [RolloutRecord.Extends, hphase]
      rfl

theorem PrepareFails.fits {error : EngineError} (hfails : PrepareFails view stack error operations)
    (h : view.Fits stack) : Reaches stack view (StackView.Fits stack) operations := by
  rcases hfails with ⟨rfl, -⟩ | ⟨read, changes, hreads, hcases⟩
  · exact ⟨[], rfl, h⟩
  · obtain ⟨-, rfl⟩ := h.reads hreads
    rcases hcases with ⟨quiet, hquiet, rfl, -⟩ | ⟨retired, hretires, rfl, -⟩
    · exact ⟨quiet, rfl, hquiet.fits h⟩
    · obtain ⟨archive, progress, hafter⟩ := hretires.after
      exact ⟨retired, rfl, h.of_eq (by rw [hafter]) (by rw [hafter])⟩

theorem Activates.fits {next : RolloutRecord}
    (hactivates : Activates view stack rolloutId nowMs clockMs next operations)
    (h : view.Fits stack) : Reaches stack view (StackView.Fits stack) operations := by
  obtain ⟨record, changes, hreads, -, hcases⟩ := hactivates
  obtain ⟨hread, rfl⟩ := h.reads hreads
  rcases hcases with ⟨-, -, rfl⟩ | ⟨hphase, -, -, event, hevent, -, -, hmove, rfl⟩
  · exact ⟨[], rfl, h⟩
  · refine ⟨_, rfl, ?_⟩
    rintro _ ⟨⟩
    obtain ⟨hstack, before, hfits⟩ := h record hread.symm
    obtain ⟨-, hsame, hactivated, -, hrevision, hgeneration⟩ := RolloutRecord.activate_eq_ok hmove
    have hbefore := hfits.prepared hphase
    obtain ⟨hfollows, hkind, hplan, -⟩ := nextEvent_eq_ok hevent
    refine ⟨hsame.stack.trans hstack, before, hfits.of_same hsame ?_⟩
    rw [RolloutRecord.Extends, hactivated]
    refine ⟨event, by rw [← hbefore]; rfl, ⟨hkind, ?_, ?_, hrevision, hgeneration⟩, ?_⟩
    · rw [hplan, hsame.candidatePlan]
      rfl
    · rw [(EngineEvent.follows_iff.mp hfollows).2, hsame.previousGeneration,
        hfits.recorded.generation, hbefore]
      cases before.getLast? <;> rfl
    · rw [hplan, hsame.candidatePlan]

theorem Commits.fits {next : RolloutRecord}
    (hcommits : Commits view stack rolloutId nowMs next operations) (h : view.Fits stack) :
    Reaches stack view (StackView.Fits stack) operations := by
  obtain ⟨record, changes, hreads, -, hcases⟩ := hcommits
  obtain ⟨hread, rfl⟩ := h.reads hreads
  rcases hcases with ⟨-, -, rfl⟩ | ⟨-, -, _, hmove, rfl⟩
  · exact ⟨[], rfl, h⟩
  · refine ⟨_, rfl, ?_⟩
    rintro _ ⟨⟩
    obtain ⟨hstack, before, hfits⟩ := h record hread.symm
    obtain ⟨-, hsame, hcommitted, -⟩ := RolloutRecord.commit_eq_ok hmove
    refine ⟨hsame.stack.trans hstack, before, hfits.of_same hsame ?_⟩
    rw [RolloutRecord.Extends, hcommitted]
    exact hfits.goes_on.isPrefix

theorem RollsBack.fits {next : RolloutRecord}
    (hrolls : RollsBack view stack rolloutId nowMs clockMs next operations) (h : view.Fits stack) :
    Reaches stack view (StackView.Fits stack) operations := by
  obtain ⟨record, changes, hreads, -, hcases⟩ := hrolls
  obtain ⟨hread, rfl⟩ := h.reads hreads
  obtain ⟨hstack, before, hfits⟩ := h record hread.symm
  have hbefore := hfits.goes_on.isPrefix
  rcases hcases with ⟨-, -, rfl⟩ | ⟨-, -, hmove, rfl⟩ | ⟨-, -, hundo⟩
  · exact ⟨[], rfl, h⟩
  · refine ⟨_, rfl, ?_⟩
    rintro _ ⟨⟩
    obtain ⟨-, hsame, hcancelled⟩ := RolloutRecord.cancel_eq_ok hmove
    refine ⟨hsame.stack.trans hstack, before, hfits.of_same hsame ?_⟩
    rw [RolloutRecord.Extends, hcancelled]
    exact hbefore
  · obtain ⟨current, kind, plan, event, -, -, -, -, -, -, hmove, rfl⟩ := hundo
    refine ⟨_, rfl, ?_⟩
    rintro _ ⟨⟩
    obtain ⟨-, hsame, hrolledBack, -⟩ := RolloutRecord.rollBack_eq_ok hmove
    refine ⟨hsame.stack.trans hstack, before, hfits.of_same hsame ?_⟩
    rw [RolloutRecord.Extends, hrolledBack]
    exact hbefore.trans (List.prefix_append view.journal [event])

/-- The checkpoint still belongs to the journal after a call has completed or failed. -/
theorem EngineCall.fits {engine : EngineView} (hsound : engine.Sound) (call : EngineCall)
    (h : (engine.view call.stack).Fits call.stack) :
    Reaches call.stack (engine.view call.stack) (StackView.Fits call.stack)
      (call.run engine).operations := by
  have heffect := call.effect hsound
  generalize (call.run engine).result = result at heffect
  generalize (call.run engine).operations = operations at heffect ⊢
  cases heffect with
  | fails _ error _ htends => exact htends.fits h
  | journalled _ report _ _ hjournalled => exact hjournalled.fits h
  | reads stack read changes hreads =>
    obtain ⟨-, rfl⟩ := h.reads hreads
    exact ⟨[], rfl, h⟩
  | prepares plan allowInsecure nowMs next _ hprepares => exact hprepares.fits h
  | prepareFails plan allowInsecure nowMs error _ hfails => exact hfails.fits h
  | activates stack rolloutId nowMs clockMs next _ hactivates => exact hactivates.fits h
  | commits stack rolloutId nowMs observed next _ hcommits => exact hcommits.fits h
  | rollsBack stack rolloutId nowMs clockMs next _ hrolls => exact hrolls.fits h
  | begins stack rolloutId nowMs progress _ htends => exact htends.fits h
  | saves progress _ htends => exact htends.fits h

end

/-! ## Whole runs -/

section

variable {engine : EngineView} {stack : String} {record : RolloutRecord}

/-- An active rollout refuses other changes of the desired state. -/
theorem EngineCall.fenced_refused (hsound : engine.Sound) {call : EngineCall}
    (hfenced : call.fenced) (h : (engine.view call.stack).Fits call.stack)
    (hcheckpoint : (engine.view call.stack).checkpoint = some record) (hactive : record.active) :
    ∃ error, (call.run engine).result = .error error := by
  have heffect := call.effect hsound
  generalize (call.run engine).result = result at heffect ⊢
  generalize (call.run engine).operations = operations at heffect
  cases heffect with
  | fails _ error => exact ⟨error, rfl⟩
  | journalled _ report _ _ hjournalled =>
    obtain ⟨read, changes, hreads, hinactive, -⟩ := hjournalled
    rw [(h.reads hreads).1, hcheckpoint, Option.any_some] at hinactive
    exact absurd hactive hinactive
  | _ => cases hfenced

/-- What a rollback adds to the journal. -/
theorem rollbackRollout_appends (hsound : engine.Sound) (h : (engine.view stack).Fits stack)
    (hcheckpoint : (engine.view stack).checkpoint = some record) {before : List EngineEvent}
    (hfits : record.Fits before (engine.view stack).journal) {next : RolloutRecord}
    (hok : (rollbackRollout stack rolloutId nowMs clockMs engine).result = .ok next) :
    (record.phase = .prepared →
        ((after engine (rollbackRollout stack rolloutId nowMs clockMs engine).operations).view
          stack).journal = (engine.view stack).journal)
      ∧ (record.phase = .activated ∨ record.phase = .committed → ∃ event : EngineEvent,
        ((after engine (rollbackRollout stack rolloutId nowMs clockMs engine).operations).view
          stack).journal = (engine.view stack).journal ++ [event]
        ∧ (event.kind, event.plan) = RolloutRecord.restored before) := by
  have houtcome := rollbackRollout_outcome (hsound stack) rolloutId nowMs clockMs
  cases hrun : (rollbackRollout stack rolloutId nowMs clockMs : Keeping _) engine with
  | mk operations result =>
    rw [hrun] at hok
    obtain rfl : result = .ok next := hok
    obtain ⟨own, changes, hreads, -, hcases⟩ := houtcome.ok hrun
    obtain ⟨hread, rfl⟩ := h.reads hreads
    obtain rfl : own = record := Option.some.inj (hread.trans hcheckpoint)
    refine ⟨fun hphase => ?_, fun hphase => ?_⟩
    · rcases hcases with ⟨-, -, rfl⟩ | ⟨-, -, -, rfl⟩ | ⟨hother, -⟩
      · rw [view_onStack]
        rfl
      · rw [view_onStack]
        rfl
      · rw [hphase] at hother
        rcases hother with hother | hother <;> cases hother
    · rcases hcases with ⟨hother, -⟩ | ⟨hother, -⟩ | ⟨-, -, hundo⟩
      · rcases hphase with hphase | hphase <;> rw [hphase] at hother <;>
          rcases hother with hother | hother <;> cases hother
      · rcases hphase with hphase | hphase <;> rw [hphase] at hother <;> cases hother
      · obtain ⟨current, kind, plan, event, -, -, htarget, hevent, -, -, -, rfl⟩ := hundo
        have hchain : ∀ event ∈ before, event.validate = .ok () ∧ event.stack = stack :=
          fun event hmem => (hsound stack).chain.mem event (hfits.goes_on.isPrefix.subset hmem)
        rw [hfits.recorded.rollbackTarget hchain] at htarget
        obtain ⟨-, hkind, hplan, -⟩ := nextEvent_eq_ok hevent
        refine ⟨event, ?_, ?_⟩
        · rw [view_onStack]
          rfl
        · rw [hkind, hplan, ← Except.ok.inj htarget]

end

section

variable [FromJson EngineEvent] [FromJson RolloutRecord] [FromJson RolloutProgress]

omit [FromJson EngineEvent] [FromJson RolloutRecord] [FromJson RolloutProgress] in
theorem EngineCall.fits_complete {engine : EngineView} (hsound : engine.Sound)
    (h : ∀ stack, (engine.view stack).Fits stack) (call : EngineCall) (stack : String) :
    ((EngineStep.perform engine (.complete call)).view stack).Fits stack := by
  obtain ⟨changes, hchanges, hfits⟩ := call.fits hsound (h call.stack)
  rw [EngineStep.perform, EngineStep.operations, hchanges]
  by_cases heq : call.stack = stack
  · subst heq
    rwa [view_onStack]
  · rw [view_onStack_of_ne engine heq]
    exact h stack

/-- Along runs of completed calls the checkpoint of every stack belongs to its journal. -/
theorem run_fits (calls : List EngineCall) :
    ∃ engine, Agrees (run {} (calls.map .complete)) engine
      ∧ ∀ stack, (engine.view stack).Fits stack := by
  have hallowed : ∀ store : EngineStore,
      Along (fun _ step => ∃ call, step = .complete call) store (calls.map .complete) := by
    induction calls with
    | nil => exact fun _ => trivial
    | cons call calls ih => exact fun _ => ⟨⟨call, rfl⟩, ih _⟩
  refine Agrees.run ?_ .empty (fun stack record hmem => ?_) (hallowed {})
  · rintro store engine _ step' hagrees hfits ⟨call, rfl⟩ hlike
    cases hlike
    exact call.fits_complete hagrees.sound hfits
  · cases hmem

/-- After every sequence of calls, for the checkpoint that a stack is read to have: while it is
prepared the journal is the one that it was prepared for, and while it is activated the journal has
the activation more; apply, stop and remove are refused then. Cancelling a prepared rollout appends
nothing, and rolling back an activated or committed one appends one event, which asks for what the
journal asked for when the rollout was prepared. -/
theorem rollout_fenced (calls : List EngineCall) {stack : String} (hname : validName stack) :
    let store : EngineStore := run {} (calls.map .complete)
    ∃ journal checkpoint, events store stack = .ok journal
      ∧ (rollout stack store).result = .ok checkpoint
      ∧ ∀ record ∈ checkpoint, ∃ before, before <+: journal ∧ record.Recorded before
        ∧ (record.phase = .prepared → journal = before)
        ∧ (record.phase = .activated → ∃ event, journal = before ++ [event]
          ∧ record.IsActivation event ∧ event.plan = some record.candidatePlan)
        ∧ (record.active → ∀ call : EngineCall, call.fenced → call.stack = stack →
          (∃ error, (call.run store).result = .error error)
          ∧ events (EngineStep.perform store (.complete call)) stack = .ok journal)
        ∧ ∀ rolloutId nowMs clockMs next,
          (rollbackRollout stack rolloutId nowMs clockMs store).result = .ok next →
          (record.phase = .prepared →
            events (after store (rollbackRollout stack rolloutId nowMs clockMs store).operations)
              stack = .ok journal)
          ∧ (record.phase = .activated ∨ record.phase = .committed → ∃ event,
            events (after store (rollbackRollout stack rolloutId nowMs clockMs store).operations)
              stack = .ok (journal ++ [event])
            ∧ (event.kind, event.plan) = RolloutRecord.restored before) := by
  intro store
  obtain ⟨engine, hagrees, hfits⟩ := run_fits calls
  have hsound := hagrees.sound
  have hresult : (rollout stack store).result = (rollout stack engine).result :=
    (simulates_rollout_call store engine hagrees trivial).1
  refine ⟨(engine.view stack).journal, (engine.view stack).checkpoint, ?_, ?_, ?_⟩
  · rw [hagrees.events, events_view hname]
  · rw [hresult]
    cases hcheckpoint : (engine.view stack).checkpoint with
    | none => rw [rollout_none hname hcheckpoint]
    | some record =>
      obtain ⟨hstack, before, hown⟩ := hfits stack record hcheckpoint
      rw [(Reads.same record hcheckpoint hstack hown.recover).run (hsound stack)]
  · intro record hrecord
    obtain ⟨hstack, before, hown⟩ := hfits stack record hrecord
    refine ⟨before, hown.goes_on.isPrefix, hown.recorded, hown.prepared, hown.activated,
      fun hactive call hfenced hcall => ?_, fun rolloutId nowMs clockMs next hok => ?_⟩
    · subst hcall
      obtain ⟨error, herror⟩ := call.fenced_refused hsound hfenced (hfits call.stack) hrecord hactive
      obtain ⟨hcall, htracks, -⟩ := call.simulates store engine hagrees trivial
      obtain ⟨added, hlength, hjournal, -⟩ := (call.appends hsound).journal engine call.stack
      rw [if_pos rfl, EngineCall.changes_of_error herror] at hlength
      obtain rfl := List.length_eq_zero_iff.mp hlength
      refine ⟨⟨error, hcall.trans herror⟩, ?_⟩
      rw [EngineStep.perform, EngineStep.operations, htracks.last.events, events_view hname,
        hjournal, List.append_nil]
    · obtain ⟨hresult, htracks, -⟩ :=
        simulates_rollbackRollout stack rolloutId nowMs clockMs store engine hagrees trivial
      rw [hresult] at hok
      obtain ⟨hcancel, hundo⟩ := rollbackRollout_appends hsound (hfits stack) hrecord hown hok
      rw [htracks.last.events, events_view hname]
      refine ⟨fun hphase => by rw [hcancel hphase], fun hphase => ?_⟩
      obtain ⟨event, hjournal, hevent⟩ := hundo hphase
      exact ⟨event, by rw [hjournal], hevent⟩

end

end

attribute [local instance] semver2 nibbleCodec Sha2.sha256 EngineEvent.reader RolloutRecord.reader
  RolloutProgress.reader

/-- The checkpoint of a stack whose rollout was prepared. -/
theorem rollout_fenced_prepared :
    let plan := (smallPlan [smallInstance "a" smallPackage 1 .running {}]).sealed
    let store : EngineStore := run {} ([.prepareRollout plan false 1].map .complete)
    ∃ journal checkpoint, events store "s" = .ok journal
      ∧ (rollout "s" store).result = .ok checkpoint
      ∧ ∀ record ∈ checkpoint, record.phase = .prepared → record.Recorded journal := by
  intro plan store
  obtain ⟨journal, checkpoint, hevents, hrollout, hrecords⟩ :=
    rollout_fenced [.prepareRollout plan false 1] (by decide : validName "s")
  refine ⟨journal, checkpoint, hevents, hrollout, fun record hrecord hphase => ?_⟩
  obtain ⟨before, -, hrecorded, hprepared, -⟩ := hrecords record hrecord
  exact hprepared hphase ▸ hrecorded

end CartridgeRuntime.Engine
