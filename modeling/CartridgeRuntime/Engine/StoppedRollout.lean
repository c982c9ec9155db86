import CartridgeRuntime.Engine.HealthTotal
import CartridgeRuntime.Engine.RolloutFence

/-!
# Rollouts that succeed

When the calls of a rollout succeed. A candidate whose instances are all stopped needs no runtime:
it can be prepared, activated and committed on a stack that the engine does not know.
-/

namespace CartridgeRuntime.Engine

open Checked CartridgeRuntime.Core Encoding Codec Fields Durable

section

variable [HexCodec] [Sha256] [Semver]

/-! ## Records -/

namespace RolloutRecord

variable {record : RolloutRecord} {plan : StackPlan} {nowMs : UInt64}

/-- A rollout of a valid plan can begin on a new stack. -/
theorem new_succeeds (hplan : plan.validate = .ok ()) (hnow : nowMs ≠ 0) :
    ∃ next, new plan none nowMs = .ok next := by
  rw [new, rejectIf_of_not _ hnow, ok_bind]
  refine ⟨_, refresh_eq_ok.mpr ⟨?_, rfl⟩⟩
  exact
    { candidate_valid := hplan
      format := rfl
      rolloutId_digest := isDigest_sha256Hex _
      stack_valid := (StackPlan.valid_of_validate hplan).stack_valid
      candidate_stack := rfl
      created_pos := hnow
      created_le_updated := UInt64.le_refl _
      rolloutId_eq := rfl
      previous_valid := rfl
      phase_valid := rfl }

theorem updatedAtMs_new {previous : Option EngineEvent} (h : new plan previous nowMs = .ok record) :
    record.updatedAtMs = nowMs := by
  simp only [new, bind_eq_ok, exists_unit] at h
  obtain ⟨-, h⟩ := h
  obtain ⟨-, rfl⟩ := refresh_eq_ok.mp h
  rfl

/-- An activated rollout can be committed with a health report. -/
theorem commit_succeeds (hvalid : record.validate = .ok ()) (hphase : record.phase = .activated)
    (htime : record.updatedAtMs ≤ nowMs) {digest : String} (hdigest : isDigest digest) :
    ∃ next, record.commit digest nowMs = .ok next := by
  obtain ⟨hparts, -, -⟩ := validate_eq_ok.mp hvalid
  obtain ⟨revision, generation, hrevision, hgeneration, hpos, hisDigest, hnext, hrollback,
    hrollbackGeneration, -⟩ := reversible_fields hparts.phase_valid (.inl hphase)
  refine ⟨_, refresh_eq_ok.mpr ⟨{ hparts with
    created_le_updated := UInt64.le_trans hparts.created_le_updated htime
    phase_valid := ?_ }, rfl⟩⟩
  rw [validatePhase, rejectIf_eq_ok, not_not]
  rw [hnext, gt_iff_lt] at hpos
  simp [validPhaseFields, hrevision, hgeneration, hrollback, hrollbackGeneration, hpos, hisDigest,
    hdigest, hnext]

end RolloutRecord

/-! ## Health -/

/-- A valid plan whose sandbox is not switched off. -/
structure StackPlan.Sandboxed (plan : StackPlan) : Prop where
  valid : plan.validate = .ok ()
  secure : plan.security.sandbox ≠ .disabled

/-- All instances of the plan are stopped. -/
structure StackPlan.Dormant (plan : StackPlan) : Prop extends plan.Sandboxed where
  stopped : ∀ planned ∈ plan.instances, planned.desired = .stopped

/-- A stack whose instances are all stopped is reported as stopped. -/
theorem StackHealthReport.fromStatus_stopped {event : EngineEvent} {plan : StackPlan}
    {nowMs : UInt64} (hvalid : event.validate = .ok ()) (hkind : event.kind = .apply)
    (hplan : event.plan = some plan)
    (hstopped : ∀ planned ∈ plan.instances, planned.desired = .stopped) (hnow : nowMs ≠ 0) :
    ∃ report, fromStatus event.status none nowMs = .ok report ∧ report.state = .stopped
      ∧ report.desiredReplicas = 0 ∧ isDigest report.reportSha256 := by
  have hreplicas : event.status.desiredReplicas = 0 := by
    rw [EngineEvent.status, hplan]
    exact StackPlan.desiredReplicas_stopped hstopped
  have hstate : event.status.state = .applied := by rw [EngineEvent.status, EngineEvent.state, hkind]
  refine ⟨_, fromStatus_none hvalid hnow, ?_, hreplicas, isDigest_sha256Hex _⟩
  simp [draft, hstate, hreplicas]

/-! ## Calls that succeed -/

section

variable {engine : EngineView} {stack : String} {record next : RolloutRecord}
  {event : EngineEvent} {plan : StackPlan} {nowMs clockMs : UInt64}

omit [HexCodec] [Sha256] [Semver] in
theorem nested_ok {α : Type} {result : Except String α} {value : α} (h : result = .ok value) :
    nested result = .ok value :=
  mapError_eq_ok.mpr h

/-- The checkpoint of a stack is read as it is, and the time of a call is not before it. -/
structure Stands (engine : EngineView) (stack : String) (record : RolloutRecord) (nowMs : UInt64) :
    Prop where
  reads : Reads (engine.view stack) stack (some record) []
  sound : (engine.view stack).Sound stack
  now : nowMs ≠ 0
  time : record.updatedAtMs ≤ nowMs

namespace Stands

theorem valid (h : Stands engine stack record nowMs) : record.validate = .ok () :=
  (h.reads.valid h.sound record rfl).1

theorem name (h : Stands engine stack record nowMs) : validName stack :=
  (h.reads.valid h.sound record rfl).2 ▸ (RolloutRecord.validate_eq_ok.mp h.valid).1.stack_valid

theorem require (h : Stands engine stack record nowMs) :
    requireRollout stack record.rolloutId engine = ⟨[], .ok record⟩ := by
  have hdigest := (RolloutRecord.validate_eq_ok.mp h.valid).1.rolloutId_digest
  rw [requireRollout, check_bind_of_ok (rejectIf_of_not _ (not_not.mpr hdigest)),
    bind_ok (h.reads.run h.sound)]
  show (check (.ok record) >>= fun _ => _) engine = _
  rw [check_ok_bind, check_bind_of_ok (rejectIf_of_not _ (not_not.mpr rfl))]
  rfl

theorem advances (h : Stands engine stack record nowMs) :
    nested (ensureTimeAdvances record nowMs) = .ok () :=
  nested_ok (RolloutRecord.ensureTimeAdvances_eq_ok.mpr ⟨h.now, h.time⟩)

end Stands

theorem append_run (hvalid : event.validate = .ok ())
    (haccepted : acceptEvent (engine.view event.stack).journal event = .ok ()) :
    append event engine = ⟨onStack event.stack [.create, .append event], .ok ()⟩ := by
  have hname := (EngineEvent.partsValid_of_validate hvalid).1.stack_valid
  show (check (nested event.validate) >>= fun _ => _) engine = _
  rw [check_bind_of_ok (nested_ok hvalid), check_bind_of_ok (requireName_eq_ok.mpr hname)]
  show (perform _ >>= fun _ => _) engine = _
  rw [perform_bind, consult_bind, EngineView.view_create, check_bind_of_ok haccepted]
  rfl

/-- Append an event and record the move that it makes. -/
theorem appendMove_run {move : Except String RolloutRecord} (hstack : event.stack = stack)
    (hvalid : event.validate = .ok ())
    (haccepted : acceptEvent (engine.view stack).journal event = .ok ())
    (hmove : move = .ok next) (hnext : next.validate = .ok ()) :
    (do
      append event
      let record ← check (nested move)
      writeRolloutFile stack record
      pure record : Keeping _) engine
        = ⟨onStack stack [.create, .append event, .create, .checkpoint next], .ok next⟩ := by
  subst hstack
  have hname := (EngineEvent.partsValid_of_validate hvalid).1.stack_valid
  rw [bind_ok (append_run hvalid haccepted), check_bind_of_ok (nested_ok hmove),
    bind_ok (writeRolloutFile_run hname hnext)]
  rfl

/-- A prepared rollout is activated by the event that its journal accepts. -/
theorem activateRollout_run (hstands : Stands engine stack record nowMs)
    (hphase : record.phase = .prepared)
    (hprevious : matchesPrevious record (engine.view stack).journal.getLast?)
    (hevent : nextEvent (engine.view stack).journal.getLast? .apply (some record.candidatePlan)
      clockMs = .ok event)
    (haccepted : acceptEvent (engine.view stack).journal event = .ok ())
    (hnext : record.activate event nowMs = .ok next) :
    activateRollout stack record.rolloutId nowMs clockMs engine
      = ⟨onStack stack [.create, .append event, .create, .checkpoint next], .ok next⟩ := by
  obtain ⟨hvalid, hstack⟩ := hstands.reads.valid hstands.sound record rfl
  obtain ⟨hparts, -, -⟩ := RolloutRecord.validate_eq_ok.mp hvalid
  obtain ⟨-, -, -, -, hevalid, hown⟩ := nextEvent_eq_ok hevent
  have hown : event.stack = stack := by
    rw [← Option.some.inj hown, hparts.candidate_stack, hstack]
  rw [activateRollout, bind_ok hstands.require, after_nil, hphase, if_neg (by decide),
    check_bind_of_ok (rejectIf_of_not _ (not_not.mpr rfl)), check_bind_of_ok hstands.advances,
    consult_bind, latest_view hstands.name, check_ok_bind,
    check_bind_of_ok (nested_ok (RolloutRecord.ensureMatchesPrevious_eq_ok.mpr hprevious)),
    check_bind_of_ok hevent,
    appendMove_run hown hevalid haccepted hnext (RolloutRecord.activate_eq_ok hnext).1]
  rfl

/-- An activated rollout is committed when its health allows it. -/
theorem commitRollout_run {observed : Except String (Option StackRuntimeStatus)}
    {report : StackHealthReport} (hstands : Stands engine stack record nowMs)
    (hphase : record.phase = .activated)
    (hactivation : ensureMatchesActivation record (engine.view stack).journal.getLast? = .ok ())
    (hhealth : health engine stack observed nowMs = .ok report)
    (hcommits : ensureCommits record report observed nowMs = .ok ())
    (hnext : record.commit report.reportSha256 nowMs = .ok next) :
    commitRollout stack record.rolloutId nowMs observed engine
      = ⟨onStack stack [.create, .checkpoint next], .ok next⟩ := by
  rw [commitRollout, bind_ok hstands.require, after_nil, hphase, if_neg (by decide),
    check_bind_of_ok (rejectIf_of_not _ (not_not.mpr rfl)), check_bind_of_ok hstands.advances,
    consult_bind, latest_view hstands.name, check_ok_bind, check_bind_of_ok (nested_ok hactivation),
    consult_bind, check_bind_of_ok hhealth, check_bind_of_ok hcommits,
    check_bind_of_ok (nested_ok hnext),
    bind_ok (writeRolloutFile_run hstands.name (RolloutRecord.commit_eq_ok hnext).1)]
  rfl

/-- An activated or committed rollout is rolled back by the event that its journal accepts. -/
theorem rollbackRollout_run {kind : EngineEventKind} {target : Option StackPlan}
    (hstands : Stands engine stack record nowMs)
    (hphase : record.phase = .activated ∨ record.phase = .committed)
    (hactivation : ensureMatchesActivation record (engine.view stack).journal.getLast? = .ok ())
    (htarget : rollbackTarget record = .ok (kind, target))
    (hevent : nextEvent (engine.view stack).journal.getLast? kind target clockMs = .ok event)
    (hown : event.stack = stack)
    (haccepted : acceptEvent (engine.view stack).journal event = .ok ())
    (hnext : record.rollBack event nowMs = .ok next) :
    rollbackRollout stack record.rolloutId nowMs clockMs engine
      = ⟨onStack stack [.create, .append event, .create, .checkpoint next], .ok next⟩ := by
  obtain ⟨-, -, -, -, hevalid, -⟩ := nextEvent_eq_ok hevent
  have hundo : (do
      check (nested (ensureTimeAdvances record nowMs))
      undoRollout stack record nowMs clockMs : Keeping _) engine
        = ⟨onStack stack [.create, .append event, .create, .checkpoint next], .ok next⟩ := by
    rw [check_bind_of_ok hstands.advances, undoRollout, consult_bind, latest_view hstands.name,
      check_ok_bind,
      check_bind_of_ok (nested_ok hactivation), check_bind_of_ok (nested_ok htarget),
      check_bind_of_ok hevent]
    exact appendMove_run hown hevalid haccepted hnext (RolloutRecord.rollBack_eq_ok hnext).1
  rw [rollbackRollout, bind_ok hstands.require, after_nil]
  rcases hphase with hphase | hphase
  · simp only [hphase]
    rw [hundo]
    rfl
  · simp only [hphase]
    rw [hundo]
    rfl

/-- A short journal accepts every event that follows its last one. -/
theorem acceptEvent_of_short {journal : List EngineEvent}
    (hevents : ∀ event ∈ journal, event.validate = .ok ()) (hvalid : event.validate = .ok ())
    (hfollows : event.follows journal.getLast?) (hlength : journal.length ≤ 2) :
    acceptEvent journal event = .ok () := by
  have hsize := EngineEvent.length_encode_le hvalid
  have hjournal : journalSize journal ≤ journal.length * (maxStackPlanBytes + 1024) := by
    rw [journalSize, ← List.length_map fun event : EngineEvent => (encode event).length]
    refine List.sum_le_card_nsmul _ _ fun size hmem => ?_
    obtain ⟨other, hother, rfl⟩ := List.mem_map.mp hmem
    exact EngineEvent.length_encode_le (hevents other hother)
  refine acceptEvent_eq_ok.mpr ⟨Nat.lt_of_le_of_lt hlength (by decide), hfollows,
    hsize.trans (by decide), ?_⟩
  calc journalSize journal + (encode event).length
      ≤ 2 * (maxStackPlanBytes + 1024) + (maxStackPlanBytes + 1024) :=
        Nat.add_le_add (hjournal.trans (Nat.mul_le_mul_right _ hlength)) hsize
    _ ≤ maxEngineEventHistoryBytes := by decide

/-- A rollout begins on a stack that has none. -/
theorem prepareRollout_fresh {allowInsecure : Bool} (hplan : plan.validate = .ok ())
    (hsecure : ¬ (plan.security.sandbox = .disabled ∧ ¬ allowInsecure))
    (hcheckpoint : (engine.view plan.stack).checkpoint = none)
    (hadmission : admitStack engine (engine.view plan.stack).journal.getLast? = .ok ())
    (hother : ¬ (engine.view plan.stack).journal.getLast?.any (·.applies plan))
    (hnew : RolloutRecord.new plan (engine.view plan.stack).journal.getLast? nowMs = .ok next) :
    prepareRollout plan allowInsecure nowMs engine
      = ⟨onStack plan.stack [.create, .checkpoint next], .ok next⟩ := by
  have hname := (StackPlan.valid_of_validate hplan).stack_valid
  rw [prepareRollout, check_bind_of_ok (nested_ok hplan),
    check_bind_of_ok (rejectIf_of_not _ hsecure), bind_ok (rollout_none hname hcheckpoint)]
  show startRollout plan nowMs engine = _
  rw [startRollout, consult_bind, latest_view hname, check_ok_bind, consult_bind,
    check_bind_of_ok hadmission, check_bind_of_ok (rejectIf_of_not _ hother),
    check_bind_of_ok (nested_ok hnew),
    bind_ok (writeRolloutFile_run hname (RolloutRecord.new_eq_ok hnew).1)]
  rfl

/-- A terminal rollout that is not in the archive is put there. -/
theorem archiveRollout_run (hterminal : record.terminal)
    (hmissing : archiveDecision (engine.view record.stack).archive record = .ok true) :
    archiveRollout record engine
      = ⟨onStack record.stack [.create, .archive record], .ok ()⟩ := by
  show (check (rejectIf (¬ record.terminal) EngineError.archiveActive) >>= fun _ => _) engine = _
  rw [check_bind_of_ok (rejectIf_of_not _ (not_not.mpr hterminal))]
  show (perform _ >>= fun _ => _) engine = _
  rw [perform_bind, consult_bind, EngineView.view_create, check_bind_of_ok hmissing]
  rfl

/-- A terminal rollout is not put into an archive that has another copy of it. -/
theorem archiveRollout_error {error : EngineError} (hterminal : record.terminal)
    (hcollides : archiveDecision (engine.view record.stack).archive record = .error error) :
    archiveRollout record engine = ⟨onStack record.stack [.create], .error error⟩ := by
  show (check (rejectIf (¬ record.terminal) EngineError.archiveActive) >>= fun _ => _) engine = _
  rw [check_bind_of_ok (rejectIf_of_not _ (not_not.mpr hterminal))]
  show (perform _ >>= fun _ => _) engine = _
  rw [perform_bind, consult_bind, EngineView.view_create, hcollides, check_error_bind]
  rfl

/-- Another plan puts a terminal rollout aside before it begins. -/
theorem prepareRollout_retires {allowInsecure : Bool} (hplan : plan.validate = .ok ())
    (hsecure : ¬ (plan.security.sandbox = .disabled ∧ ¬ allowInsecure))
    (hreads : Reads (engine.view plan.stack) plan.stack (some record) [])
    (hsound : (engine.view plan.stack).Sound plan.stack) (hterminal : record.terminal)
    (hother : record.candidatePlan.planSha256 ≠ plan.planSha256)
    (hprogress : (engine.view plan.stack).progress = none) :
    prepareRollout plan allowInsecure nowMs engine
      = (archiveRollout record >>= fun _ => startRollout plan nowMs) engine := by
  have hinactive : ¬ record.active := by simpa [RolloutRecord.terminal] using hterminal
  have hstack := (hreads.valid hsound record rfl).2
  have hname := (StackPlan.valid_of_validate hplan).stack_valid
  have hremove : removeTerminalRolloutProgress record engine = ⟨[], .ok ()⟩ := by
    rw [removeTerminalRolloutProgress, check_bind_of_ok (rejectIf_of_not _ (not_not.mpr hterminal)),
      hstack, check_bind_of_ok (requireName_eq_ok.mpr hname)]
    show (inspect (fun engine : EngineView => (engine.view plan.stack).progress) >>= _) engine = _
    rw [inspect_bind, hprogress]
    rfl
  have hsettle : settleRollout plan record = (retireRollout record : Keeping _) := by
    rw [settleRollout, if_neg hinactive, if_neg fun h => hother h.2]
  rw [prepareRollout, check_bind_of_ok (nested_ok hplan),
    check_bind_of_ok (rejectIf_of_not _ hsecure), bind_ok (hreads.run hsound)]
  show (settleRollout plan record >>= fun _ => _) engine = _
  rw [hsettle]
  cases harchive : (archiveRollout record : Keeping Unit) engine with
  | mk operations result =>
    cases result with
    | error error =>
      have hretire : retireRollout record engine = ⟨operations, .error error⟩ := by
        rw [retireRollout, bind_ok hremove, after_nil, bind_error harchive]
        rfl
      rw [bind_error hretire, bind_error harchive]
    | ok value =>
      have hretire : retireRollout record engine = ⟨operations, .ok none⟩ := by
        rw [retireRollout, bind_ok hremove, after_nil, bind_ok harchive]
        simp
      rw [bind_ok hretire, bind_ok harchive]

end

/-! ## A committed rollout -/

section

variable [FromJson EngineEvent] [FromJson RolloutRecord] [FromJson RolloutProgress]
variable {store : EngineStore} {engine : EngineView}

omit [FromJson EngineEvent] [FromJson RolloutRecord] [FromJson RolloutProgress] in
/-- The view of a stack after a call that completes. -/
theorem EngineStep.view_complete {call : EngineCall} {stack : String} {changes : List StackChange}
    {answer : EngineAnswer} (hrun : call.run engine = ⟨onStack stack changes, .ok answer⟩) :
    ((EngineStep.complete call).perform engine).view stack
      = Durable.after (engine.view stack) changes := by
  rw [EngineStep.perform, EngineStep.operations, hrun, view_onStack]

/-- The identity of the first rollout of a stack. -/
def firstRolloutId (plan : StackPlan) (nowMs : UInt64) : String :=
  rolloutId plan.stack nowMs none none plan.planSha256

/-- The event that activates the first rollout of a stack. -/
def firstEvent (plan : StackPlan) (nowMs : UInt64) : EngineEvent :=
  EngineEvent.sealed
    { formatVersion := engineEventFormatVersion
      revision := 1
      stack := plan.stack
      kind := .apply
      previousEventSha256 := ""
      createdAtMs := nowMs
      plan := some plan
      eventSha256 := "" }

/-- The calls that prepare, activate and commit the first rollout of a stack. -/
def commitSteps (plan : StackPlan) (nowMs : UInt64) : List EngineStep :=
  [.complete (.prepareRollout plan false nowMs),
    .complete (.activateRollout plan.stack (firstRolloutId plan nowMs) nowMs nowMs),
    .complete (.commitRollout plan.stack (firstRolloutId plan nowMs) nowMs (.ok none))]

/-- The first rollout of a stack, in a phase that the event of its candidate led to. -/
structure FirstRollout (plan : StackPlan) (nowMs : UInt64) (phase : RolloutPhase)
    (view : StackView) (record : RolloutRecord) (event : EngineEvent) : Prop where
  journal : view.journal = [event]
  checkpoint : view.checkpoint = some record
  progress : view.progress = none
  phase_eq : record.phase = phase
  stack : record.stack = plan.stack
  rolloutId : record.rolloutId = firstRolloutId plan nowMs
  candidate : record.candidatePlan = plan
  recorded : record.Recorded []
  activation : record.IsActivation event
  event_eq : event = firstEvent plan nowMs
  updated : record.updatedAtMs = nowMs

variable {plan : StackPlan} {nowMs : UInt64} {phase : RolloutPhase} {record : RolloutRecord}
  {event : EngineEvent}

omit [FromJson EngineEvent] [FromJson RolloutRecord] [FromJson RolloutProgress] in
theorem nextEvent_first (h : nextEvent none .apply (some plan) nowMs = .ok event) :
    event = firstEvent plan nowMs := by
  simp only [nextEvent, EngineEvent.new, nested, bind_eq_ok, okOr_eq_ok, mapError_eq_ok,
    exists_unit, pure_eq_ok] at h
  obtain ⟨stack, hstack, -, hevent⟩ := h
  cases hstack
  exact (Except.ok.inj hevent).symm

omit [Semver] [FromJson EngineEvent] [FromJson RolloutRecord] [FromJson RolloutProgress] in
theorem FirstRollout.event_plan {view : StackView}
    (h : FirstRollout plan nowMs phase view record event) : event.plan = some plan := by
  rw [h.event_eq]
  rfl

section

omit [FromJson EngineEvent] [FromJson RolloutRecord] [FromJson RolloutProgress]

/-- Reading the checkpoint of the first rollout leaves it as it is. -/
theorem FirstRollout.reads
    (h : FirstRollout plan nowMs phase (engine.view plan.stack) record event)
    (hphase : phase = .activated ∨ phase = .committed) :
    Reads (engine.view plan.stack) plan.stack (some record) [] := by
  have hfits : record.Fits [] [event] := by
    refine ⟨h.recorded, Bool.false_ne_true, ?_⟩
    rw [RolloutRecord.Extends, h.phase_eq]
    rcases hphase with rfl | rfl
    · exact ⟨event, rfl, h.activation, h.candidate ▸ h.event_plan⟩
    · exact List.nil_prefix
  refine .same record h.checkpoint h.stack ?_
  rw [h.journal]
  exact hfits.recover

/-- The first rollout of a stack is undone by removing the stack. -/
theorem FirstRollout.rollback
    (h : FirstRollout plan nowMs phase (engine.view plan.stack) record event)
    (hphase : phase = .activated ∨ phase = .committed)
    (hsound : (engine.view plan.stack).Sound plan.stack) (hnow : nowMs ≠ 0) :
    ∃ undo next, record.rollBack undo nowMs = .ok next
      ∧ (EngineCall.rollbackRollout plan.stack (firstRolloutId plan nowMs) nowMs nowMs).run engine
        = ⟨onStack plan.stack [.create, .append undo, .create, .checkpoint next],
          .ok (.checkpoint (some next))⟩ := by
  have hlast : (engine.view plan.stack).journal.getLast? = some event := by rw [h.journal]; rfl
  obtain ⟨hevent, hstack⟩ := hsound.latest hlast
  have hstands : Stands engine plan.stack record nowMs :=
    ⟨h.reads hphase, hsound, hnow, h.updated ▸ UInt64.le_refl _⟩
  have hrevision : event.revision + 1 ≠ 0 := by
    intro hzero
    have hnext := hsound.chain.toNat_next (by rw [h.journal]; exact (by decide : 1 ≤ maxEngineEventsPerStack))
    rw [hlast, Option.elim_some, hzero, h.journal] at hnext
    cases hnext
  have htarget : rollbackTarget record = .ok (.remove, none) :=
    h.recorded.rollbackTarget (Chain.mem (.nil : Chain plan.stack []))
  obtain ⟨undo, hundo, hown⟩ : ∃ undo, nextEvent (some event) .remove none nowMs = .ok undo
      ∧ undo.stack = plan.stack := by
    refine nextEvent_succeeds hnow hstands.name ?_ (.inl ⟨rfl, rfl, rfl⟩)
    rintro _ ⟨⟩
    exact ⟨hevent, hstack, hrevision⟩
  obtain ⟨hfollows, -, -, -, huvalid, -⟩ := nextEvent_eq_ok hundo
  have hreversible : record.phase = .activated ∨ record.phase = .committed := h.phase_eq ▸ hphase
  obtain ⟨next, hnext⟩ := RolloutRecord.rollBack_succeeds hstands.valid hreversible
    hstands.time h.activation.2.2.2.1 huvalid hfollows
  refine ⟨undo, next, hnext, ?_⟩
  rw [← h.rolloutId]
  refine map_ok (rollbackRollout_run hstands hreversible ?_ htarget ?_ hown ?_ hnext)
  · rw [hlast]
    exact RolloutRecord.ensureMatchesActivation_eq_ok.mpr ⟨event, rfl, h.activation⟩
  · rw [hlast]
    exact hundo
  · rw [h.journal]
    refine acceptEvent_of_short ?_ huvalid hfollows (by decide : 1 ≤ 2)
    exact List.forall_mem_singleton.mpr hevent

end

/-- The first rollout of a stack, after it was prepared and activated. -/
theorem activated_first (hplan : plan.Sandboxed) (hnow : nowMs ≠ 0) :
    ∃ engine record event, Agrees (run {} ((commitSteps plan nowMs).take 2)) engine
      ∧ FirstRollout plan nowMs .activated (engine.view plan.stack) record event
      ∧ (engine.view plan.stack).archive = [] := by
  have hname := (StackPlan.valid_of_validate hplan.valid).stack_valid
  have hempty : Agrees ({} : EngineStore) {} := .empty
  -- preparing
  obtain ⟨prepared, hnew⟩ := RolloutRecord.new_succeeds hplan.valid hnow
  obtain ⟨hvalid, hstack, hphase, hcandidate, hrevision, hgeneration, hstate, hprevious, hid⟩ :=
    RolloutRecord.new_eq_ok hnew
  have hearly : prepared.updatedAtMs ≤ nowMs :=
    RolloutRecord.updatedAtMs_new hnew ▸ UInt64.le_refl _
  have hprepare : (EngineCall.prepareRollout plan false nowMs).run ({} : EngineView)
      = ⟨onStack plan.stack [.create, .checkpoint prepared], .ok (.checkpoint (some prepared))⟩ :=
    map_ok (prepareRollout_fresh hplan.valid (fun h => hplan.secure h.1) rfl rfl
      Bool.false_ne_true hnew)
  have hagrees := hempty.complete (.prepareRollout plan false nowMs)
  have hview := EngineStep.view_complete hprepare
  generalize (EngineStep.complete (.prepareRollout plan false nowMs)).perform ({} : EngineView)
    = engine at hagrees hview
  change engine.view plan.stack = { checkpoint := some prepared } at hview
  -- activating
  have hrecorded : prepared.Recorded [] := ⟨hrevision, hgeneration, hstate, hprevious⟩
  have hfits : prepared.Fits [] [] := by
    refine ⟨hrecorded, Bool.false_ne_true, ?_⟩
    rw [RolloutRecord.Extends, hphase]
  have hreads : Reads (engine.view plan.stack) plan.stack (some prepared) [] :=
    .same prepared (by rw [hview]) hstack (by rw [hview]; exact hfits.recover)
  obtain ⟨event, hevent, hown⟩ : ∃ event, nextEvent none .apply (some plan) nowMs = .ok event
      ∧ event.stack = plan.stack :=
    nextEvent_succeeds hnow hname (by simp)
      (.inr ⟨by decide, plan, rfl, hplan.valid, rfl, by simp⟩)
  obtain ⟨hfollows, hkind, heplan, -, hevalid, -⟩ := nextEvent_eq_ok hevent
  obtain ⟨activated, hnext⟩ :=
    RolloutRecord.activate_succeeds hvalid hphase hearly hrevision hevalid hfollows
  obtain ⟨-, hsame, hactivated, htime, hactivatedRevision, hactivatedGeneration⟩ :=
    RolloutRecord.activate_eq_ok hnext
  have hactivate : (EngineCall.activateRollout plan.stack (firstRolloutId plan nowMs) nowMs
      nowMs).run engine = ⟨onStack plan.stack [.create, .append event, .create,
        .checkpoint activated], .ok (.checkpoint (some activated))⟩ := by
    have hjournal : (engine.view plan.stack).journal = [] := by rw [hview]
    rw [firstRolloutId, show rolloutId plan.stack nowMs none none plan.planSha256
      = prepared.rolloutId from hid.symm]
    refine map_ok (activateRollout_run ⟨hreads, hagrees.sound _, hnow, hearly⟩ hphase ?_ ?_ ?_
      hnext)
    · rw [hjournal]
      exact hrecorded.matchesPrevious
    · rw [hjournal, hcandidate]
      exact hevent
    · rw [hjournal]
      exact acceptEvent_of_short (by simp) hevalid hfollows (Nat.zero_le 2)
  have hview' := EngineStep.view_complete hactivate
  rw [hview] at hview'
  refine ⟨_, activated, event, hagrees.complete _, ?_, by rw [hview']; rfl⟩
  rw [hview']
  exact
    { journal := rfl
      checkpoint := rfl
      progress := rfl
      phase_eq := hactivated
      stack := hsame.stack.trans hstack
      rolloutId := hsame.rolloutId.trans hid
      candidate := hsame.candidatePlan.trans hcandidate
      recorded := hrecorded.of_same hsame
      activation := by
        refine ⟨hkind, ?_, ?_, hactivatedRevision, hactivatedGeneration⟩
        · rw [heplan, hsame.candidatePlan, hcandidate]
          rfl
        · rw [(hrecorded.of_same hsame).generation]
          exact (EngineEvent.follows_iff.mp hfollows).2
      event_eq := nextEvent_first hevent
      updated := htime }

/-- A rollout whose candidate is stopped is committed without a runtime. -/
theorem committed_first (hplan : plan.Dormant) (hnow : nowMs ≠ 0) :
    ∃ engine record event, Agrees (run {} (commitSteps plan nowMs)) engine
      ∧ FirstRollout plan nowMs .committed (engine.view plan.stack) record event
      ∧ (engine.view plan.stack).archive = [] := by
  obtain ⟨engine, activated, event, hagrees, hfirst, harchive⟩ :=
    activated_first hplan.toSandboxed hnow
  have hstands : Stands engine plan.stack activated nowMs :=
    ⟨hfirst.reads (.inl rfl), hagrees.sound _, hnow, hfirst.updated ▸ UInt64.le_refl _⟩
  have hlast : (engine.view plan.stack).journal.getLast? = some event := by
    rw [hfirst.journal]
    rfl
  obtain ⟨hevent, -⟩ := (hagrees.sound plan.stack).latest hlast
  -- the health of a stopped stack
  obtain ⟨report, hreport, hstate, hnone, hdigest⟩ :=
    StackHealthReport.fromStatus_stopped hevent hfirst.activation.1 hfirst.event_plan
      hplan.stopped hnow
  have hhealth : health engine plan.stack (.ok none) nowMs = .ok report := by
    rw [health, latest_view hstands.name, hlast]
    exact nested_ok hreport
  have hcommits : ensureCommits activated report (.ok none) nowMs = .ok () := by
    have hready : ¬ (¬ report.ready ∧ ¬ (report.state = .stopped ∧ report.desiredReplicas = 0
        ∧ ∀ planned ∈ activated.candidatePlan.instances, planned.desired = .stopped)) :=
      fun h => h.2 ⟨hstate, hnone, hfirst.candidate ▸ hplan.stopped⟩
    rw [ensureCommits, rejectIf_of_not _ hready, ok_bind, if_neg (by rw [hstate]; decide)]
    rfl
  obtain ⟨committed, hnext⟩ :=
    RolloutRecord.commit_succeeds hstands.valid hfirst.phase_eq hstands.time hdigest
  obtain ⟨-, hsame, hcommitted, hupdated, hrevision, hgeneration⟩ :=
    RolloutRecord.commit_eq_ok hnext
  have hcommit : (EngineCall.commitRollout plan.stack (firstRolloutId plan nowMs) nowMs
      (.ok none)).run engine = ⟨onStack plan.stack [.create, .checkpoint committed],
        .ok (.checkpoint (some committed))⟩ := by
    rw [← hfirst.rolloutId]
    refine map_ok (commitRollout_run hstands hfirst.phase_eq ?_ hhealth hcommits hnext)
    rw [hlast]
    exact RolloutRecord.ensureMatchesActivation_eq_ok.mpr ⟨event, rfl, hfirst.activation⟩
  have hview := EngineStep.view_complete hcommit
  refine ⟨_, committed, event, hagrees.complete _, ?_, by rw [hview]; exact harchive⟩
  rw [hview]
  exact
    { journal := hfirst.journal
      checkpoint := rfl
      progress := hfirst.progress
      phase_eq := hcommitted
      stack := hsame.stack.trans hfirst.stack
      rolloutId := hsame.rolloutId.trans hfirst.rolloutId
      candidate := hsame.candidatePlan.trans hfirst.candidate
      recorded := hfirst.recorded.of_same hsame
      activation := by
        obtain ⟨hkind, hown, hlink, hactivated, hgenerated⟩ := hfirst.activation
        rw [← hsame.candidatePlan] at hown
        rw [← hsame.previousGeneration] at hlink
        exact ⟨hkind, hown, hlink, hrevision.trans hactivated, hgeneration.trans hgenerated⟩
      event_eq := hfirst.event_eq
      updated := hupdated }

end

/-! ## Small stopped plans -/

omit [Semver] in
/-- A plan of one instance that is stopped. -/
def stoppedPlan (stack name : String) : StackPlan :=
  StackPlan.sealed { smallPlan [smallInstance name smallPackage 1 .stopped {}] with stack }

/-- The plan is valid for every stack when its instance is. -/
theorem stoppedPlan_valid {stack name : String} (names : Finset String) (hstack : validName stack)
    (hsize : PlannedInstance.codec.list.size [smallInstance name smallPackage 1 .stopped {}] ≤ 4096)
    (hnames : validatePlannedInstances [smallInstance name smallPackage 1 .stopped {}] .strict []
      = .ok names) :
    (stoppedPlan stack name).validate = .ok () := by
  refine StackPlan.validate_sealed rfl hstack (by simp [smallPlan]) (by simp [smallPlan]; decide) ?_
    hnames rfl rfl rfl
  refine Nat.le_trans (size_record_le (size_member_le (by decide : natural.size stackPlanFormatVersion ≤ 1) <|
    size_member_le (size_validName_le hstack) <|
    size_member_le (by decide : PlannedSecurity.codec.size ⟨.strict, .required⟩ ≤ 64) <|
    size_member_le hsize <|
    size_member_le (by decide : PlannedResource.codec.list.size [] ≤ 2) <|
    size_member_le (by decide : PlannedSecret.codec.list.size [] ≤ 2) <|
    size_member_le (by decide : string.list.size [] ≤ 2) <|
    size_required_le (by decide : string.size "" ≤ 2))) ?_
  decide +kernel

end

attribute [local instance] semver2 nibbleCodec Sha2.sha256

theorem stoppedPlan_a_dormant {stack : String} (hstack : validName stack) :
    (stoppedPlan stack "a").Dormant := by
  refine ⟨⟨stoppedPlan_valid {"a"} hstack (by decide +kernel) (by decide +kernel), ?_⟩,
    List.forall_mem_singleton.mpr rfl⟩
  exact (by decide : SandboxPolicy.required ≠ .disabled)

end CartridgeRuntime.Engine
