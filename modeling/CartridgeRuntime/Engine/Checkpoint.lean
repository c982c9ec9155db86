import CartridgeRuntime.Engine.Journal
import CartridgeRuntime.Engine.ValidRecord

/-!
# Moves of a checkpoint

What each move of a rollout record keeps and sets, and that the moves that follow an appended event
cannot fail: `RolloutRecord.activate_succeeds` and `RolloutRecord.rollBack_succeeds`.
-/

namespace CartridgeRuntime.Engine

open Checked CartridgeRuntime.Core Encoding

variable [HexCodec] [Sha256] [Semver]

/-! ## Events -/

theorem EngineEvent.identity_of_validate {event : EngineEvent} (h : event.validate = .ok ()) :
    event.revision ≠ 0 ∧ event.createdAtMs ≠ 0 ∧ validName event.stack
      ∧ isDigest event.eventSha256 := by
  simp only [EngineEvent.validate, bind_eq_ok, exists_unit] at h
  obtain ⟨hidentity, -⟩ := h
  rw [rejectIf_eq_ok] at hidentity
  simp only [not_or, not_not] at hidentity
  obtain ⟨-, hrevision, hcreated, hname, -, -, hdigest, -⟩ := hidentity
  exact ⟨hrevision, hcreated, hname, hdigest⟩

/-- An event carries the plan that its kind needs. -/
theorem EngineEvent.plan_of_validate {event : EngineEvent} (h : event.validate = .ok ()) :
    event.kind = .remove ∧ event.plan = none
      ∨ event.kind ≠ .remove ∧ ∃ plan, event.plan = some plan ∧ plan.validate = .ok ()
        ∧ plan.stack = event.stack
        ∧ (event.kind = .stop → ∀ planned ∈ plan.instances, planned.desired = .stopped) := by
  simp only [EngineEvent.validate, bind_eq_ok, exists_unit] at h
  obtain ⟨-, hkind⟩ := h
  cases heq : event.kind with
  | apply =>
    simp only [heq, EngineEvent.requirePlan, bind_eq_ok, okOr_eq_ok, exists_unit] at hkind
    obtain ⟨plan, hplan, hvalid, hstack⟩ := hkind
    rw [rejectIf_eq_ok, not_not] at hstack
    exact .inr ⟨by simp, plan, hplan, hvalid, hstack, by simp⟩
  | stop =>
    simp only [heq, EngineEvent.requirePlan, bind_eq_ok, okOr_eq_ok, exists_unit] at hkind
    obtain ⟨plan, hplan, hvalid, hstack⟩ := hkind
    rw [rejectIf_eq_ok] at hstack
    simp only [not_or, not_not, not_exists, not_and] at hstack
    exact .inr ⟨by simp, plan, hplan, hvalid, hstack.1, fun _ => hstack.2⟩
  | remove =>
    simp only [heq] at hkind
    rw [rejectIf_eq_ok, Option.not_isSome_iff_eq_none] at hkind
    exact .inl ⟨rfl, hkind⟩

theorem nextEvent_eq_ok {previous : Option EngineEvent} {kind : EngineEventKind}
    {plan : Option StackPlan} {clockMs : UInt64} {event : EngineEvent}
    (h : nextEvent previous kind plan clockMs = .ok event) :
    event.follows previous ∧ event.kind = kind ∧ event.plan = plan ∧ event.createdAtMs = clockMs
      ∧ event.validate = .ok ()
      ∧ (plan.map StackPlan.stack).or (previous.map EngineEvent.stack) = some event.stack := by
  simp only [nextEvent, EngineEvent.new, nested, bind_eq_ok, okOr_eq_ok, mapError_eq_ok,
    exists_unit, pure_eq_ok, Except.ok.injEq] at h
  obtain ⟨stack, hstack, hvalid, rfl⟩ := h
  exact ⟨EngineEvent.follows_iff.mpr ⟨rfl, rfl⟩, rfl, rfl, rfl, hvalid, hstack⟩

omit [HexCodec] [Sha256] [Semver] in
/-- A revision after another one is not 0, so that it did not overflow. -/
theorem saturatingAdd_one {revision : UInt64} (h : revision + 1 ≠ 0) :
    saturatingAdd revision 1 = revision + 1 := by
  rw [saturatingAdd, if_pos]
  rw [Ne, ← UInt64.toNat_inj, UInt64.toNat_add] at h
  have hlt := revision.toNat_lt
  simp only [UInt64.toNat_ofNat, Nat.reducePow] at h hlt ⊢
  unfold wordMax
  omega

/-! ## Records -/

namespace RolloutRecord

variable {record next : RolloutRecord} {event : EngineEvent} {nowMs : UInt64}

/-- Two checkpoints of the same rollout. -/
structure SameRollout (record next : RolloutRecord) : Prop where
  rolloutId : next.rolloutId = record.rolloutId
  stack : next.stack = record.stack
  previousRevision : next.previousRevision = record.previousRevision
  previousGeneration : next.previousGeneration = record.previousGeneration
  previousState : next.previousState = record.previousState
  previousPlan : next.previousPlan = record.previousPlan
  candidatePlan : next.candidatePlan = record.candidatePlan

theorem new_eq_ok {plan : StackPlan} {previous : Option EngineEvent}
    (h : new plan previous nowMs = .ok next) :
    next.validate = .ok () ∧ next.stack = plan.stack ∧ next.phase = .prepared
      ∧ next.candidatePlan = plan ∧ next.previousRevision = previous.map EngineEvent.revision
      ∧ next.previousGeneration = previous.map EngineEvent.eventSha256
      ∧ next.previousState = previous.map EngineEvent.state
      ∧ next.previousPlan = previous.bind EngineEvent.plan
      ∧ next.rolloutId = Engine.rolloutId plan.stack nowMs (previous.map EngineEvent.revision)
        (previous.map EngineEvent.eventSha256) plan.planSha256 := by
  simp only [new, bind_eq_ok, exists_unit] at h
  obtain ⟨-, h⟩ := h
  obtain ⟨hparts, rfl⟩ := refresh_eq_ok.mp h
  exact ⟨hparts.validate_sealed, rfl, rfl, rfl, rfl, rfl, rfl, rfl, rfl⟩

theorem activate_eq_ok (h : record.activate event nowMs = .ok next) :
    next.validate = .ok () ∧ SameRollout record next ∧ next.phase = .activated
      ∧ next.updatedAtMs = nowMs ∧ next.activatedRevision = some event.revision
      ∧ next.activatedGeneration = some event.eventSha256 := by
  obtain ⟨hparts, rfl⟩ := refresh_eq_ok.mp h
  exact ⟨hparts.validate_sealed, ⟨rfl, rfl, rfl, rfl, rfl, rfl, rfl⟩, rfl, rfl, rfl, rfl⟩

theorem commit_eq_ok {reportSha256 : String} (h : record.commit reportSha256 nowMs = .ok next) :
    next.validate = .ok () ∧ SameRollout record next ∧ next.phase = .committed
      ∧ next.updatedAtMs = nowMs ∧ next.activatedRevision = record.activatedRevision
      ∧ next.activatedGeneration = record.activatedGeneration := by
  obtain ⟨hparts, rfl⟩ := refresh_eq_ok.mp h
  exact ⟨hparts.validate_sealed, ⟨rfl, rfl, rfl, rfl, rfl, rfl, rfl⟩, rfl, rfl, rfl, rfl⟩

theorem rollBack_eq_ok (h : record.rollBack event nowMs = .ok next) :
    next.validate = .ok () ∧ SameRollout record next ∧ next.phase = .rolledBack
      ∧ next.updatedAtMs = nowMs ∧ next.rollbackRevision = some event.revision
      ∧ next.rollbackGeneration = some event.eventSha256 := by
  obtain ⟨hparts, rfl⟩ := refresh_eq_ok.mp h
  exact ⟨hparts.validate_sealed, ⟨rfl, rfl, rfl, rfl, rfl, rfl, rfl⟩, rfl, rfl, rfl, rfl⟩

theorem cancel_eq_ok (h : record.cancel nowMs = .ok next) :
    next.validate = .ok () ∧ SameRollout record next ∧ next.phase = .cancelled := by
  obtain ⟨hparts, rfl⟩ := refresh_eq_ok.mp h
  exact ⟨hparts.validate_sealed, ⟨rfl, rfl, rfl, rfl, rfl, rfl, rfl⟩, rfl⟩

section

omit [HexCodec] [Sha256] [Semver]

/-- A prepared record names nothing that comes after its preparation. -/
theorem prepared_fields (h : record.validatePhase = .ok ()) (hphase : record.phase = .prepared) :
    record.activatedRevision = none ∧ record.activatedGeneration = none
      ∧ record.rollbackRevision = none ∧ record.rollbackGeneration = none
      ∧ record.healthReportSha256 = none := by
  rw [validatePhase, rejectIf_eq_ok, not_not] at h
  simp only [validPhaseFields, hphase, Bool.and_eq_true, Option.isNone_iff_eq_none] at h
  obtain ⟨⟨⟨⟨hactivation, hrollback⟩, hhealth⟩, -⟩, -⟩ := h
  exact ⟨hactivation.1, hactivation.2, hrollback.1, hrollback.2, hhealth⟩

/-- An activated or committed record names the activation that follows its previous generation. -/
theorem reversible_fields (h : record.validatePhase = .ok ())
    (hphase : record.phase = .activated ∨ record.phase = .committed) :
    ∃ revision generation, record.activatedRevision = some revision
      ∧ record.activatedGeneration = some generation ∧ revision > 0 ∧ isDigest generation
      ∧ revision = record.previousRevision.elim 1 (saturatingAdd · 1)
      ∧ record.rollbackRevision = none ∧ record.rollbackGeneration = none
      ∧ ∀ digest ∈ record.healthReportSha256, isDigest digest := by
  have hdigests := phase_digests h
  rw [validatePhase, rejectIf_eq_ok, not_not] at h
  rcases hphase with hphase | hphase
  all_goals
    simp only [validPhaseFields, hphase, Bool.and_eq_true, Option.any_eq_true,
      Option.isNone_iff_eq_none, Option.all_eq_true, beq_iff_eq, decide_eq_true_eq] at h
    obtain ⟨⟨⟨⟨⟨⟨revision, hrevision, hpos⟩, generation, hgeneration, hdigest⟩, hrollback⟩, -⟩,
      hnext⟩, -⟩ := h
    exact ⟨revision, generation, hrevision, hgeneration, hpos, hdigest, hnext revision hrevision,
      hrollback.1, hrollback.2, hdigests.2.2⟩

end

variable {current : Option EngineEvent}

section

omit [HexCodec] [Sha256] [Semver]

theorem matchesPrevious_iff :
    matchesPrevious record current ↔ record.previousRevision = none ∧ current = none
      ∨ ∃ event, current = some event ∧ record.previousRevision = some event.revision
        ∧ record.previousGeneration = some event.eventSha256
        ∧ record.previousState = some event.state
        ∧ record.previousPlan.map StackPlan.planSha256 = event.plan.map StackPlan.planSha256 := by
  unfold matchesPrevious
  cases record.previousRevision with
  | none => cases current <;> simp
  | some revision =>
    cases current with
    | none => simp
    | some event =>
      have hcomm : some revision = some event.revision ↔ event.revision = revision := by
        rw [Option.some.injEq, eq_comm]
      simp only [decide_eq_true_eq, reduceCtorEq, false_and, false_or, Option.some.injEq,
        exists_eq_left', eq_comm (a := revision)]

theorem ensureTimeAdvances_eq_ok :
    ensureTimeAdvances record nowMs = .ok () ↔ nowMs ≠ 0 ∧ record.updatedAtMs ≤ nowMs := by
  rw [ensureTimeAdvances, rejectIf_eq_ok, not_or, UInt64.not_lt]

theorem ensureMatchesPrevious_eq_ok :
    ensureMatchesPrevious record current = .ok () ↔ matchesPrevious record current := by
  rw [ensureMatchesPrevious, rejectIf_eq_ok, not_not]

end

/-- The latest event is the activation of the rollout. -/
def IsActivation (record : RolloutRecord) (event : EngineEvent) : Prop :=
  event.kind = .apply
    ∧ event.plan.map StackPlan.planSha256 = some record.candidatePlan.planSha256
    ∧ event.previousEventSha256 = record.previousGeneration.getD ""
    ∧ record.activatedRevision = some event.revision
    ∧ record.activatedGeneration = some event.eventSha256

omit [HexCodec] [Sha256] [Semver] in
theorem ensureMatchesActivation_eq_ok :
    ensureMatchesActivation record current = .ok ()
      ↔ ∃ event, current = some event ∧ IsActivation record event := by
  rw [ensureMatchesActivation, rejectIf_eq_ok, not_not]
  cases current with
  | none => simp [matchesCandidate]
  | some event =>
    simp only [matchesCandidate, Option.any_some, decide_eq_true_eq, Option.some.injEq,
      exists_eq_left', IsActivation, and_assoc]
    simp only [eq_comm]

/-- The activation that follows the previous generation can be recorded. -/
theorem activate_succeeds {previous : Option EngineEvent} (hvalid : record.validate = .ok ())
    (hphase : record.phase = .prepared) (htime : record.updatedAtMs ≤ nowMs)
    (hprevious : record.previousRevision = previous.map EngineEvent.revision)
    (hevent : event.validate = .ok ()) (hfollows : event.follows previous) :
    ∃ next, record.activate event nowMs = .ok next := by
  obtain ⟨hparts, -, -⟩ := validate_eq_ok.mp hvalid
  obtain ⟨hrevision, -, -, hdigest⟩ := EngineEvent.identity_of_validate hevent
  obtain ⟨-, -, hrollbackRevision, hrollbackGeneration, hhealth⟩ :=
    prepared_fields hparts.phase_valid hphase
  have hnext : event.revision = record.previousRevision.elim 1 (saturatingAdd · 1) := by
    have hexpected := (EngineEvent.follows_iff.mp hfollows).1
    rw [hprevious]
    cases previous with
    | none => exact hexpected
    | some last =>
      simp only [Option.elim_some] at hexpected
      rw [hexpected] at hrevision ⊢
      exact (saturatingAdd_one hrevision).symm
  have hpos : event.revision > 0 := UInt64.pos_iff_ne_zero.mpr hrevision
  refine ⟨_, refresh_eq_ok.mpr ⟨{ hparts with
    created_le_updated := UInt64.le_trans hparts.created_le_updated htime
    phase_valid := ?_ }, rfl⟩⟩
  rw [validatePhase, rejectIf_eq_ok, not_not]
  simp [validPhaseFields, hrollbackRevision, hrollbackGeneration, hhealth, hdigest, hpos, ← hnext]

/-- The event that undoes an activation can be recorded. -/
theorem rollBack_succeeds {current : EngineEvent} (hvalid : record.validate = .ok ())
    (hphase : record.phase = .activated ∨ record.phase = .committed)
    (htime : record.updatedAtMs ≤ nowMs)
    (hcurrent : record.activatedRevision = some current.revision) (hevent : event.validate = .ok ())
    (hfollows : event.follows (some current)) : ∃ next, record.rollBack event nowMs = .ok next := by
  obtain ⟨hparts, -, -⟩ := validate_eq_ok.mp hvalid
  obtain ⟨hrevision, -, -, hdigest⟩ := EngineEvent.identity_of_validate hevent
  obtain ⟨revision, generation, hactivated, hgeneration, hpos, hactivation, hnext, -, -, hhealth⟩ :=
    reversible_fields hparts.phase_valid hphase
  obtain rfl : revision = current.revision :=
    Option.some.inj (hactivated.symm.trans hcurrent)
  have hexpected : event.revision = current.revision + 1 :=
    (EngineEvent.follows_iff.mp hfollows).1
  have hrollback : event.revision = saturatingAdd current.revision 1 := by
    rw [hexpected] at hrevision ⊢
    exact (saturatingAdd_one hrevision).symm
  have hpos' : event.revision > 0 := UInt64.pos_iff_ne_zero.mpr hrevision
  have hhealth' : record.healthReportSha256.all isDigest :=
    Option.all_eq_true _ _ |>.mpr hhealth
  refine ⟨_, refresh_eq_ok.mpr ⟨{ hparts with
    created_le_updated := UInt64.le_trans hparts.created_le_updated htime
    phase_valid := ?_ }, rfl⟩⟩
  rw [validatePhase, rejectIf_eq_ok, not_not]
  simp [validPhaseFields, hactivated, hgeneration, hdigest, hactivation, hpos, hpos', hhealth',
    ← hnext, ← hrollback]

end RolloutRecord

/-! ## Recovery -/

/-- What recovery makes of a checkpoint: the move that the latest event implies. -/
theorem recoverRolloutCheckpoint_eq_some {record recovered : RolloutRecord}
    {current : Option EngineEvent}
    (h : recoverRolloutCheckpoint record current = .ok (some recovered)) :
    ∃ event, current = some event ∧
      (record.phase = .prepared ∧ matchesCandidate record current
          ∧ record.activate event (max record.updatedAtMs event.createdAtMs) = .ok recovered
        ∨ record.phase = .activated ∧ matchesRollback record current
          ∧ record.rollBack event (max record.updatedAtMs event.createdAtMs) = .ok recovered) := by
  have hmove : ∀ {move : Except String RolloutRecord},
      some <$> nested move = .ok (some recovered) → move = .ok recovered := by
    intro move hmove
    obtain ⟨value, hvalue, heq⟩ := map_eq_ok.mp hmove
    rw [← Option.some.inj heq]
    exact mapError_eq_ok.mp hvalue
  unfold recoverRolloutCheckpoint at h
  cases hphase : record.phase with
  | prepared =>
    simp only [hphase] at h
    split_ifs at h with hmatches
    · rw [bind_eq_ok] at h
      obtain ⟨event, hcurrent, hevent⟩ := h
      exact ⟨event, okOr_eq_ok.mp hcurrent, .inl ⟨rfl, hmatches, hmove hevent⟩⟩
    · rw [bind_eq_ok] at h
      obtain ⟨_, -, hnone⟩ := h
      cases hnone
  | activated =>
    simp only [hphase] at h
    split_ifs at h with hmatches
    · rw [bind_eq_ok] at h
      obtain ⟨event, hcurrent, hevent⟩ := h
      exact ⟨event, okOr_eq_ok.mp hcurrent, .inr ⟨rfl, hmatches, hmove hevent⟩⟩
    · rw [bind_eq_ok] at h
      obtain ⟨_, -, hnone⟩ := h
      cases hnone
  | committed | rolledBack | cancelled =>
    simp only [hphase] at h
    cases h

/-- Recovery keeps the rollout and makes its checkpoint valid. -/
theorem sameRollout_of_recover {record recovered : RolloutRecord} {current : Option EngineEvent}
    (h : recoverRolloutCheckpoint record current = .ok (some recovered)) :
    record.SameRollout recovered := by
  obtain ⟨event, -, ⟨-, -, hmove⟩ | ⟨-, -, hmove⟩⟩ := recoverRolloutCheckpoint_eq_some h
  · exact (RolloutRecord.activate_eq_ok hmove).2.1
  · exact (RolloutRecord.rollBack_eq_ok hmove).2.1

end CartridgeRuntime.Engine
