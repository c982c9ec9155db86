import CartridgeRuntime.Engine.ValidPlan
import CartridgeRuntime.Engine.Runtime

/-!
# Valid replicas

The checks of a replica and of a status as equivalences. `validateReplica_iff` says phase by phase
which fields a replica has, and `StackRuntimeStatus.fromPlan_eq_ok` that the status of a valid plan
passes its own checks.
-/

namespace CartridgeRuntime.Engine

open Checked CartridgeRuntime.Core Encoding

/-! ## Replicas -/

namespace ReplicaRuntime

/-- The fields that a replica has in its phase. -/
def PhaseFields (replica : ReplicaRuntime) : Prop :=
  match replica.phase with
  | .pending => replica.attempt = 0 ∧ replica.runId = none ∧ replica.startedAtMs = none
      ∧ replica.finishedAtMs = none ∧ replica.nextStartAtMs = none ∧ replica.lastExitCode = none
      ∧ replica.detail = none
  | .starting | .running => replica.attempt ≠ 0 ∧ replica.runId.any isDigest
      ∧ replica.startedAtMs.isSome ∧ replica.finishedAtMs = none ∧ replica.nextStartAtMs = none
      ∧ replica.lastExitCode = none ∧ replica.detail = none
  | .backoff => replica.attempt ≠ 0 ∧ replica.runId = none ∧ replica.startedAtMs.isSome
      ∧ replica.finishedAtMs.isSome ∧ replica.nextStartAtMs.isSome ∧ replica.detail.isSome
  | .succeeded | .failed | .exhausted => replica.attempt ≠ 0 ∧ replica.runId = none
      ∧ replica.startedAtMs.isSome ∧ replica.finishedAtMs.isSome ∧ replica.nextStartAtMs = none
      ∧ replica.detail.isSome
  | .stopped => replica.PlannedStopped ∨ replica.Drained

/-- What the checks of a replica say, phase by phase. -/
structure Sound (replica : ReplicaRuntime) : Prop where
  name : validName replica.id.instanceName
  ordinal : replica.id.ordinal ≠ 0
  maxRestarts : replica.maxRestarts ≤ maxStackRestarts
  attempt : replica.attempt ≤ replica.maxRestarts + 1
  detail : ∀ value ∈ replica.detail, validText value 512 false
  probe : ∀ probe ∈ replica.probe, validateProbeRuntime probe replica.phase = .ok ()
  fields : replica.PhaseFields
  desired : replica.desired = .running ∨ replica.PlannedStopped
  policy : replica.PolicyAllowsPhase
  finished : ∀ finished ∈ replica.finishedAtMs, ∀ started ∈ replica.startedAtMs,
    started ≤ finished
  next : ∀ next ∈ replica.nextStartAtMs, ∀ finished ∈ replica.finishedAtMs, finished < next

end ReplicaRuntime

/-- The conditions on the fields of a replica, phase by phase. -/
theorem ReplicaRuntime.phaseFields_iff {replica : ReplicaRuntime} :
    (¬ (replica.Active ∧ (replica.attempt = 0 ∨ ¬ replica.runId.any isDigest
        ∨ replica.startedAtMs = none ∨ replica.finishedAtMs.isSome ∨ replica.nextStartAtMs.isSome
        ∨ replica.lastExitCode.isSome ∨ replica.detail.isSome))
      ∧ ¬ (replica.phase = .backoff ∧ (replica.attempt = 0 ∨ replica.runId.isSome
        ∨ replica.startedAtMs = none ∨ replica.finishedAtMs = none ∨ replica.nextStartAtMs = none
        ∨ replica.detail = none))
      ∧ ¬ (replica.phase = .pending ∧ (replica.attempt ≠ 0 ∨ replica.runId.isSome
        ∨ replica.startedAtMs.isSome ∨ replica.finishedAtMs.isSome ∨ replica.nextStartAtMs.isSome
        ∨ replica.lastExitCode.isSome ∨ replica.detail.isSome))
      ∧ ¬ (replica.phase = .stopped ∧ ¬ replica.PlannedStopped ∧ ¬ replica.Drained)
      ∧ ¬ (replica.Terminal ∧ (replica.attempt = 0 ∨ replica.startedAtMs = none
        ∨ replica.finishedAtMs = none ∨ replica.nextStartAtMs.isSome ∨ replica.detail = none))
      ∧ ¬ (¬ replica.Active ∧ replica.phase ≠ .backoff ∧ replica.phase ≠ .pending
        ∧ replica.runId.isSome)) ↔ replica.PhaseFields := by
  unfold PhaseFields Active Terminal
  cases hphase : replica.phase with
  | stopped =>
    simp only [PlannedStopped, Drained, hphase]
    grind
  | _ => simp [Option.isSome_iff_ne_none] <;> grind

theorem validateReplica_iff {replica : ReplicaRuntime} :
    validateReplica replica = .ok () ↔ replica.Sound := by
  simp only [validateReplica, bind_eq_ok, exists_unit]
  rw [rejectIf_eq_ok, rejectIf_eq_ok]
  have hprobe : (replica.probe.elim (.ok ()) fun probe => validateProbeRuntime probe replica.phase)
      = .ok () ↔ ∀ probe ∈ replica.probe, validateProbeRuntime probe replica.phase = .ok () := by
    cases replica.probe <;> simp
  have hdesired : ¬ (replica.desired = .stopped ∧ ¬ replica.PlannedStopped)
      ↔ replica.desired = .running ∨ replica.PlannedStopped := by
    cases replica.desired <;> simp
  rw [hprobe]
  simp only [not_or]
  constructor
  · rintro ⟨⟨hname, hordinal, hmax, hattempt, hdetail⟩, hprobe, hactive, hbackoff, hpending,
      hstopped, hkept, hterminal, hrun, hpolicy, hfinished, hnext⟩
    refine ⟨not_not.mp hname, hordinal, not_lt.mp hmax, not_lt.mp hattempt, fun value hvalue => ?_,
      hprobe, ReplicaRuntime.phaseFields_iff.mp
        ⟨hactive, hbackoff, hpending, hstopped, hterminal, hrun⟩, hdesired.mp hkept,
      not_not.mp hpolicy, fun finished hf started hs => ?_, fun next hn finished hf => ?_⟩
    · exact by_contra fun hnot => hdetail ⟨value, hvalue, hnot⟩
    · exact UInt64.not_lt.mp fun hlt => hfinished ⟨finished, hf, started, hs, hlt⟩
    · exact UInt64.not_le.mp fun hle => hnext ⟨next, hn, finished, hf, hle⟩
  · intro h
    obtain ⟨hactive, hbackoff, hpending, hstopped, hterminal, hrun⟩ :=
      ReplicaRuntime.phaseFields_iff.mpr h.fields
    refine ⟨⟨not_not.mpr h.name, h.ordinal, not_lt.mpr h.maxRestarts, not_lt.mpr h.attempt, ?_⟩,
      h.probe, hactive, hbackoff, hpending, hstopped, hdesired.mpr h.desired, hterminal, hrun,
      not_not.mpr h.policy, ?_, ?_⟩
    · rintro ⟨value, hvalue, hnot⟩
      exact hnot (h.detail value hvalue)
    · rintro ⟨finished, hf, started, hs, hlt⟩
      exact UInt64.not_lt.mpr (h.finished finished hf started hs) hlt
    · rintro ⟨next, hn, finished, hf, hle⟩
      exact UInt64.not_le.mpr (h.next next hn finished hf) hle

/-! ## Statuses -/

/-- The loop over the replicas succeeds when each of them is sound and their identities are in
strict order. -/
theorem foldlM_scanReplica_iff {replicas : List ReplicaRuntime} {previous : Option ReplicaId} :
    (∃ last, replicas.foldlM scanReplica previous = .ok last)
      ↔ (∀ replica ∈ replicas, replica.Sound)
        ∧ (∀ id ∈ previous, ∀ replica ∈ replicas, id.Before replica.id)
        ∧ replicas.Pairwise fun left right => left.id.Before right.id := by
  induction replicas generalizing previous with
  | nil => simp
  | cons replica rest ih =>
    have hstep : (∃ last, (replica :: rest).foldlM scanReplica previous = .ok last)
        ↔ replica.Sound ∧ (∀ id ∈ previous, id.Before replica.id)
          ∧ ∃ last, rest.foldlM scanReplica (some replica.id) = .ok last := by
      simp only [List.foldlM_cons, scanReplica, bind_eq_ok, exists_unit, pure_eq_ok,
        Except.ok.injEq, validateReplica_iff]
      rw [rejectIf_eq_ok]
      simp only [not_exists, not_and, not_not]
      constructor
      · rintro ⟨last, _, ⟨hsound, hbefore, rfl⟩, hrest⟩
        exact ⟨hsound, hbefore, last, hrest⟩
      · rintro ⟨hsound, hbefore, last, hrest⟩
        exact ⟨last, _, ⟨hsound, hbefore, rfl⟩, hrest⟩
    rw [hstep, ih, List.forall_mem_cons, List.pairwise_cons]
    constructor
    · rintro ⟨hsound, hbefore, hrest, hfirst, hsorted⟩
      refine ⟨⟨hsound, hrest⟩, fun id hid => ?_, hfirst _ rfl, hsorted⟩
      exact List.forall_mem_cons.mpr ⟨hbefore id hid, fun other hother =>
        (hbefore id hid).trans (hfirst _ rfl other hother)⟩
    · rintro ⟨⟨hsound, hrest⟩, hbefore, hfirst, hsorted⟩
      refine ⟨hsound, fun id hid => hbefore id hid replica List.mem_cons_self, hrest, ?_, hsorted⟩
      rintro _ ⟨rfl⟩
      exact hfirst

namespace StackRuntimeStatus

/-- What the checks of a status say, its digest apart. -/
structure PartsValid (status : StackRuntimeStatus) : Prop where
  format : status.formatVersion ∈ [legacySupervisorStatusFormatVersion,
    supervisorStatusFormatVersion]
  legacy : status.formatVersion = legacySupervisorStatusFormatVersion →
    ∀ replica ∈ status.replicas, replica.probe = none
  stack : validName status.stack
  revision : status.revision ≠ 0
  generation : isDigest status.generation
  observedAtMs : status.observedAtMs ≠ 0
  length : status.replicas.length ≤ maxStackTotalReplicas
  sound : ∀ replica ∈ status.replicas, replica.Sound
  sorted : status.replicas.Pairwise fun left right => left.id.Before right.id

variable [HexCodec] [Sha256]

variable {status : StackRuntimeStatus} {plan : StackPlan} {revision : UInt64} {generation : String}

theorem validate_iff :
    status.validate = .ok () ↔ status.PartsValid ∧ status.computedSha256 = status.statusSha256 := by
  simp only [validate, bind_eq_ok, exists_unit]
  rw [rejectIf_eq_ok, discard_eq_ok, foldlM_scanReplica_iff]
  simp only [not_or, not_not, not_and, not_exists, gt_iff_lt, not_lt]
  constructor
  · rintro ⟨⟨hformat, hlegacy, hstack, hrevision, hgeneration, hobserved, hlength, -, hcomputed⟩,
      hsound, -, hsorted⟩
    exact ⟨⟨hformat, fun h replica hmem => Option.not_isSome_iff_eq_none.mp
      (hlegacy h replica hmem), hstack, hrevision, hgeneration, hobserved, hlength, hsound,
      hsorted⟩, hcomputed⟩
  · rintro ⟨h, hcomputed⟩
    refine ⟨⟨h.format, fun hf replica hmem => ?_, h.stack, h.revision, h.generation,
      h.observedAtMs, h.length, ?_, hcomputed⟩, h.sound, by simp, h.sorted⟩
    · rw [h.legacy hf replica hmem]
      exact Bool.false_ne_true
    · rw [← hcomputed]
      exact isDigest_sha256Hex _

/-- A refresh succeeds when the parts of the status are valid. -/
theorem refresh_fst_eq_ok : status.refresh.1 = .ok () ↔ status.PartsValid := by
  show validate { status with statusSha256 := status.computedSha256 } = .ok () ↔ _
  rw [validate_iff]
  constructor
  · rintro ⟨h, -⟩
    exact ⟨h.format, h.legacy, h.stack, h.revision, h.generation, h.observedAtMs, h.length,
      h.sound, h.sorted⟩
  · intro h
    exact ⟨⟨h.format, h.legacy, h.stack, h.revision, h.generation, h.observedAtMs, h.length,
      h.sound, h.sorted⟩, rfl⟩

/-! ## The status of a plan -/

section

omit [HexCodec] [Sha256]

/-- A replica as planned, before its first start. -/
theorem sound_of_mem_plannedReplicas [Semver] {planned : PlannedInstance} (h : planned.Valid)
    {replica : ReplicaRuntime} (hmem : replica ∈ plannedReplicas planned) : replica.Sound := by
  simp only [plannedReplicas, List.mem_map, List.mem_range'_1] at hmem
  obtain ⟨ordinal, ⟨hordinal, -⟩, rfl⟩ := hmem
  have hplanned : ∀ desired : DesiredState, desired = .running ∨ desired = .stopped :=
    fun desired => by cases desired <;> simp
  rcases hplanned planned.desired with hdesired | hdesired
  all_goals
    refine ⟨h.name_valid, Nat.pos_iff_ne_zero.mp hordinal, h.maxRestarts_le, Nat.zero_le _, ?_, ?_,
      ?_, ?_, ?_, ?_, ?_⟩
    all_goals simp [hdesired, ReplicaRuntime.PhaseFields, ReplicaRuntime.PlannedStopped,
      ReplicaRuntime.PolicyAllowsPhase, validateProbeRuntime]

theorem sorted_plannedReplicas {instances : List PlannedInstance}
    (h : instances.Pairwise fun left right => left.name < right.name) :
    (instances.flatMap plannedReplicas).Pairwise fun left right => left.id.Before right.id := by
  refine List.pairwise_flatMap.mpr ⟨fun planned _ => ?_,
    h.imp fun hname left hleft right hright => ?_⟩
  · have hordinals : (List.range' 1 planned.replicas).Pairwise (· < ·) := List.pairwise_lt_range'
    exact List.pairwise_map.mpr (hordinals.imp fun hlt => .inr ⟨rfl, hlt⟩)
  · simp only [plannedReplicas, List.mem_map] at hleft hright
    obtain ⟨_, -, rfl⟩ := hleft
    obtain ⟨_, -, rfl⟩ := hright
    exact .inl hname

end

/-- The status of a plan before anything has started. -/
def plannedStatus (plan : StackPlan) (revision : UInt64) (generation : String) (nowMs : UInt64) :
    StackRuntimeStatus :=
  (refresh { formatVersion := supervisorStatusFormatVersion
             stack := plan.stack
             revision
             generation
             observedAtMs := nowMs
             replicas := plan.instances.flatMap plannedReplicas
             statusSha256 := "" }).2

/-- The status of a valid plan passes its own checks. -/
theorem fromPlan_eq_ok [Semver] {nowMs : UInt64} :
    fromPlan plan revision generation nowMs = .ok status
      ↔ (plan.validate = .ok () ∧ revision ≠ 0 ∧ isDigest generation ∧ nowMs ≠ 0)
        ∧ status = plannedStatus plan revision generation nowMs := by
  simp only [fromPlan, bind_eq_ok, exists_unit]
  rw [rejectIf_eq_ok]
  simp only [not_or, not_not]
  constructor
  · rintro ⟨hplan, ⟨hrevision, hgeneration, hnow⟩, -, ⟨rfl⟩⟩
    exact ⟨⟨hplan, hrevision, hgeneration, hnow⟩, rfl⟩
  · rintro ⟨⟨hplan, hrevision, hgeneration, hnow⟩, rfl⟩
    have hvalid := StackPlan.valid_of_validate hplan
    have hinstances := hvalid.instances_valid
    refine ⟨hplan, ⟨hrevision, hgeneration, hnow⟩, refresh_fst_eq_ok.mpr ?_, rfl⟩
    have hformat : supervisorStatusFormatVersion ∈ [legacySupervisorStatusFormatVersion,
      supervisorStatusFormatVersion] := by decide
    have hcurrent : supervisorStatusFormatVersion ≠ legacySupervisorStatusFormatVersion := by decide
    refine ⟨hformat, fun hlegacy => absurd hlegacy hcurrent, hvalid.stack_valid, hrevision,
      hgeneration, hnow, ?_, fun replica hmem => ?_, sorted_plannedReplicas hinstances.sorted⟩
    · show (plan.instances.flatMap plannedReplicas).length ≤ _
      simpa [List.length_flatMap, plannedReplicas] using hinstances.replicas_le
    · obtain ⟨planned, hplanned, hmem⟩ := List.mem_flatMap.mp hmem
      exact sound_of_mem_plannedReplicas (hinstances.valid planned hplanned) hmem

/-- The replica belongs to the same plan as the expected one. -/
structure SamePlan (actual expected : ReplicaRuntime) : Prop where
  id_eq : actual.id = expected.id
  desired_eq : actual.desired = expected.desired
  restart_eq : actual.restart = expected.restart
  maxRestarts_eq : actual.maxRestarts = expected.maxRestarts
  probe_eq : actual.probe.isSome = expected.probe.isSome

section

omit [HexCodec] [Sha256]

theorem SamePlan.trans {a b c : ReplicaRuntime} (hab : SamePlan a b) (hbc : SamePlan b c) :
    SamePlan a c :=
  ⟨hab.id_eq.trans hbc.id_eq, hab.desired_eq.trans hbc.desired_eq,
    hab.restart_eq.trans hbc.restart_eq, hab.maxRestarts_eq.trans hbc.maxRestarts_eq,
    hab.probe_eq.trans hbc.probe_eq⟩

theorem not_mismatch_iff {actual expected : ReplicaRuntime} :
    ¬ Mismatch actual expected ↔ SamePlan actual expected := by
  simp only [Mismatch, not_or, not_not]
  exact ⟨fun ⟨hid, hdesired, hrestart, hmax, hprobe⟩ => ⟨hid, hdesired, hrestart, hmax, hprobe⟩,
    fun h => ⟨h.id_eq, h.desired_eq, h.restart_eq, h.maxRestarts_eq, h.probe_eq⟩⟩

end

theorem validateAgainst_iff [Semver] :
    status.validateAgainst plan revision generation = .ok ()
      ↔ status.validate = .ok () ∧ plan.validate = .ok () ∧ status.stack = plan.stack
        ∧ status.revision = revision ∧ status.generation = generation
        ∧ List.Forall₂ SamePlan status.replicas (plan.instances.flatMap plannedReplicas) := by
  simp only [validateAgainst, bind_eq_ok, exists_unit, fromPlan_eq_ok]
  constructor
  · rintro ⟨hvalid, _, ⟨⟨hplan, -, -, -⟩, rfl⟩, hmatch⟩
    rw [rejectIf_eq_ok] at hmatch
    simp only [not_or, not_not, not_exists, not_and] at hmatch
    obtain ⟨hstack, hrevision, hgeneration, hlength, hpairs⟩ := hmatch
    refine ⟨hvalid, hplan, hstack, hrevision, hgeneration, List.forall₂_iff_zip.mpr ⟨hlength, ?_⟩⟩
    exact fun hpair => not_mismatch_iff.mp (hpairs _ hpair)
  · rintro ⟨hvalid, hplan, hstack, rfl, rfl, hreplicas⟩
    have hparts := (validate_iff.mp hvalid).1
    obtain ⟨hlength, hpairs⟩ := List.forall₂_iff_zip.mp hreplicas
    refine ⟨hvalid, _, ⟨⟨hplan, hparts.revision, hparts.generation, hparts.observedAtMs⟩, rfl⟩, ?_⟩
    rw [rejectIf_eq_ok]
    simp only [not_or, not_not, not_exists, not_and]
    exact ⟨hstack, trivial, trivial, hlength, fun pair hpair => not_mismatch_iff.mpr (hpairs hpair)⟩

/-- The replicas of a status are those of the plan that it is checked against. -/
theorem planned_of_validateAgainst [Semver]
    (h : status.validateAgainst plan revision generation = .ok ()) {replica : ReplicaRuntime}
    (hmem : replica ∈ status.replicas) :
    ∃ planned ∈ plan.instances, planned.name = replica.id.instanceName
      ∧ replica.desired = planned.desired ∧ replica.maxRestarts = planned.maxRestarts
      ∧ replica.id.ordinal ∈ ordinals planned.replicas := by
  obtain ⟨-, -, -, -, -, hreplicas⟩ := validateAgainst_iff.mp h
  obtain ⟨other, hother, hsame⟩ := exists_of_forall₂ hreplicas.flip hmem
  obtain ⟨planned, hplanned, hreplica⟩ := List.mem_flatMap.mp hother
  obtain ⟨ordinal, hordinal, rfl⟩ := List.mem_map.mp hreplica
  rw [List.mem_range'_1] at hordinal
  refine ⟨planned, hplanned, by rw [hsame.id_eq], hsame.desired_eq, hsame.maxRestarts_eq, ?_⟩
  rw [hsame.id_eq, mem_ordinals]
  show 1 ≤ ordinal ∧ ordinal ≤ planned.replicas
  omega

/-- The status of a plan is a status of that plan. -/
theorem validateAgainst_of_fromPlan [Semver] {nowMs : UInt64}
    (h : fromPlan plan revision generation nowMs = .ok status) :
    status.validateAgainst plan revision generation = .ok () := by
  have hvalid : status.validate = .ok () := by
    simp only [fromPlan, bind_eq_ok, exists_unit] at h
    obtain ⟨-, -, hvalid, ⟨rfl⟩⟩ := h
    exact hvalid
  obtain ⟨⟨hplan, -⟩, rfl⟩ := fromPlan_eq_ok.mp h
  exact validateAgainst_iff.mpr ⟨hvalid, hplan, rfl, rfl, rfl,
    List.forall₂_same.mpr fun replica _ => ⟨rfl, rfl, rfl, rfl, rfl⟩⟩

end StackRuntimeStatus

end CartridgeRuntime.Engine
