import CartridgeRuntime.Engine.Lifecycle
import CartridgeRuntime.Engine.ValidEvent

/-!
# When a health report can be made

A report derives its state from the counts of its replicas and then checks it against them. The two
agree except for a replica that ended before its application was ready: `fromStatus_succeeds_iff`.
-/

namespace CartridgeRuntime.Engine

open Checked CartridgeRuntime.Core Encoding

namespace StackHealthReport

variable {report : StackHealthReport}

/-! ## Counting -/

/-- What a report counts: the replicas in a phase, and those with a probe in a phase. -/
inductive Tally where
  | phase (phase : ReplicaPhase)
  | probe (phase : ProbePhase)
deriving DecidableEq

/-- A count of the report. -/
def count (report : StackHealthReport) : Tally → Nat
  | .phase .pending => report.pending
  | .phase .starting => report.starting
  | .phase .running => report.running
  | .phase .backoff => report.backoff
  | .phase .succeeded => report.succeeded
  | .phase .failed => report.failed
  | .phase .exhausted => report.exhausted
  | .phase .stopped => report.stopped
  | .probe .waiting => report.probeWaiting
  | .probe .ready => report.probeReady
  | .probe .unhealthy => report.probeUnhealthy

/-- The report without the counts of its replicas. -/
def header (report : StackHealthReport) : StackHealthReport :=
  { report with
    pending := 0, starting := 0, running := 0, backoff := 0, succeeded := 0, failed := 0
    exhausted := 0, stopped := 0, probeWaiting := 0, probeReady := 0, probeUnhealthy := 0 }

theorem countPhase_eq_some (phase : ReplicaPhase) (h : report.count (.phase phase) < 65535) :
    ∃ next, report.countPhase phase = some next
      ∧ (∀ tally, next.count tally = report.count tally + if .phase phase = tally then 1 else 0)
      ∧ next.header = report.header := by
  have hadd : checkedAddShort (report.count (.phase phase)) 1 = some _ :=
    checkedAddShort_eq_some.mpr ⟨h, rfl⟩
  cases phase <;> simp only [count] at hadd <;> simp only [countPhase, hadd] <;>
    refine ⟨_, rfl, fun tally => ?_, rfl⟩ <;> rcases tally with other | other <;> cases other <;> rfl

theorem countProbe_eq_some (phase : ProbePhase) (h : report.count (.probe phase) < 65535) :
    ∃ next, report.countProbe phase = some next
      ∧ (∀ tally, next.count tally = report.count tally + if .probe phase = tally then 1 else 0)
      ∧ next.header = report.header := by
  have hadd : checkedAddShort (report.count (.probe phase)) 1 = some _ :=
    checkedAddShort_eq_some.mpr ⟨h, rfl⟩
  cases phase <;> simp only [count] at hadd <;> simp only [countProbe, hadd] <;>
    refine ⟨_, rfl, fun tally => ?_, rfl⟩ <;> rcases tally with other | other <;> cases other <;> rfl

/-- The replicas in a phase. -/
def inPhase (replicas : List ReplicaRuntime) (phase : ReplicaPhase) : Nat :=
  replicas.countP fun replica => replica.phase = phase

/-- The replicas with a probe in a phase. -/
def inProbe (replicas : List ReplicaRuntime) (phase : ProbePhase) : Nat :=
  replicas.countP fun replica => replica.probe.any fun probe => probe.phase = phase

/-- The replicas that a report is to count. -/
def tallied (replicas : List ReplicaRuntime) : Tally → Nat
  | .phase phase => inPhase replicas phase
  | .probe phase => inProbe replicas phase

theorem tallied_append (replicas others : List ReplicaRuntime) (tally : Tally) :
    tallied (replicas ++ others) tally = tallied replicas tally + tallied others tally := by
  cases tally <;> exact List.countP_append

theorem tallied_le (replicas : List ReplicaRuntime) (tally : Tally) :
    tallied replicas tally ≤ replicas.length := by
  cases tally <;> exact List.countP_le_length

theorem countReplica_eq_ok (replica : ReplicaRuntime) (hroom : ∀ tally, report.count tally < 65535) :
    ∃ next, report.countReplica replica = .ok next
      ∧ (∀ tally, next.count tally = report.count tally + tallied [replica] tally)
      ∧ next.header = report.header := by
  obtain ⟨counted, hcounted, hphases, hheader⟩ := countPhase_eq_some replica.phase (hroom _)
  simp only [countReplica, hcounted, okOr, ok_bind]
  cases hreplica : replica.probe with
  | none =>
    refine ⟨counted, rfl, fun tally => ?_, hheader⟩
    rw [hphases]
    cases tally <;> simp [tallied, inPhase, inProbe, List.countP_singleton, hreplica]
  | some probe =>
    have hroom' : counted.count (.probe probe.phase) < 65535 := by
      rw [hphases]
      exact hroom _
    obtain ⟨next, hnext, hprobes, hheader'⟩ := countProbe_eq_some probe.phase hroom'
    refine ⟨next, by simp only [hnext], fun tally => ?_, hheader'.trans hheader⟩
    rw [hprobes, hphases]
    cases tally <;> simp [tallied, inPhase, inProbe, List.countP_singleton, hreplica]

/-- Counting replicas adds up their phases and those of their probes. -/
theorem foldlM_countReplica {replicas : List ReplicaRuntime}
    (hroom : ∀ tally, report.count tally + replicas.length ≤ 65535) :
    ∃ counted, replicas.foldlM countReplica report = .ok counted
      ∧ (∀ tally, counted.count tally = report.count tally + tallied replicas tally)
      ∧ counted.header = report.header := by
  induction replicas generalizing report with
  | nil => exact ⟨report, rfl, fun tally => by cases tally <;> rfl, rfl⟩
  | cons replica replicas ih =>
    rw [List.length_cons] at hroom
    have hone : ∀ tally, report.count tally < 65535 := fun tally =>
      Nat.lt_of_lt_of_le (by omega) (hroom tally)
    obtain ⟨next, hnext, hcount, hheader⟩ := countReplica_eq_ok replica hone
    have hrest : ∀ tally, next.count tally + replicas.length ≤ 65535 := fun tally => by
      have hle := hroom tally
      have hone : tallied [replica] tally ≤ 1 := tallied_le _ _
      rw [hcount]
      omega
    obtain ⟨counted, hcounted, hcount', hheader'⟩ := ih hrest
    refine ⟨counted, ?_, fun tally => ?_, hheader'.trans hheader⟩
    · rw [List.foldlM_cons, hnext, ok_bind, hcounted]
    · rw [hcount', hcount, Nat.add_assoc, ← tallied_append]
      rfl

/-- The counts of a report are those of some replicas. -/
def Counts (report : StackHealthReport) (replicas : List ReplicaRuntime) : Prop :=
  ∀ tally, report.count tally = tallied replicas tally

theorem Counts.phases {replicas : List ReplicaRuntime} (h : report.Counts replicas) :
    report.pending = inPhase replicas .pending ∧ report.starting = inPhase replicas .starting
      ∧ report.running = inPhase replicas .running ∧ report.backoff = inPhase replicas .backoff
      ∧ report.succeeded = inPhase replicas .succeeded ∧ report.failed = inPhase replicas .failed
      ∧ report.exhausted = inPhase replicas .exhausted
      ∧ report.stopped = inPhase replicas .stopped :=
  ⟨h (.phase .pending), h (.phase .starting), h (.phase .running), h (.phase .backoff),
    h (.phase .succeeded), h (.phase .failed), h (.phase .exhausted), h (.phase .stopped)⟩

theorem Counts.probes {replicas : List ReplicaRuntime} (h : report.Counts replicas) :
    report.probeWaiting = inProbe replicas .waiting ∧ report.probeReady = inProbe replicas .ready
      ∧ report.probeUnhealthy = inProbe replicas .unhealthy :=
  ⟨h (.probe .waiting), h (.probe .ready), h (.probe .unhealthy)⟩

/-- Every replica is in one phase. -/
theorem inPhase_total (replicas : List ReplicaRuntime) :
    inPhase replicas .pending + inPhase replicas .starting + inPhase replicas .running
      + inPhase replicas .backoff + inPhase replicas .succeeded + inPhase replicas .failed
      + inPhase replicas .exhausted + inPhase replicas .stopped = replicas.length := by
  induction replicas with
  | nil => rfl
  | cons replica replicas ih =>
    simp only [inPhase, List.countP_cons, List.length_cons] at ih ⊢
    cases replica.phase <;> simp <;> omega

/-- A replica has one probe at most. -/
theorem inProbe_total (replicas : List ReplicaRuntime) :
    inProbe replicas .waiting + inProbe replicas .ready + inProbe replicas .unhealthy
      ≤ replicas.length := by
  induction replicas with
  | nil => exact Nat.le_refl 0
  | cons replica replicas ih =>
    simp only [inProbe, List.countP_cons, List.length_cons] at ih ⊢
    cases replica.probe with
    | none => simp; omega
    | some probe => cases hphase : probe.phase <;> simp [hphase] <;> omega

/-! ## Checking -/

theorem checkedSum_eq_some {counts : List Nat} (h : counts.sum ≤ 65535) :
    checkedSum counts = some counts.sum := by
  have hfold : ∀ (counts : List Nat) (start : Nat), start + counts.sum ≤ 65535 →
      counts.foldlM checkedAddShort start = some (start + counts.sum) := by
    intro counts
    induction counts with
    | nil => exact fun _ _ => rfl
    | cons count counts ih =>
      intro start hle
      rw [List.sum_cons, ← Nat.add_assoc] at hle ⊢
      have hadd : checkedAddShort start count = some (start + count) :=
        checkedAddShort_eq_some.mpr ⟨by omega, rfl⟩
      rw [List.foldlM_cons, hadd]
      exact ih (start + count) hle
  have hsum := hfold counts 0 (by rwa [Nat.zero_add])
  rwa [Nat.zero_add] at hsum

/-- The report is in order apart from the digest of its own document and from its state. -/
structure PartsValid (report : StackHealthReport) : Prop where
  format : report.formatVersion = engineHealthFormatVersion
  stack_valid : validName report.stack
  revision_pos : report.revision ≠ 0
  observed_pos : report.observedAtMs ≠ 0
  desired_le : report.desiredReplicas ≤ maxStackTotalReplicas
  total_le : report.replicasTotal ≤ maxStackTotalReplicas
  total_eq : report.pending + report.starting + report.running + report.backoff + report.succeeded
    + report.failed + report.exhausted + report.stopped = report.replicasTotal
  probes_le : report.probeWaiting + report.probeReady + report.probeUnhealthy
    ≤ report.replicasTotal
  runtime : ∀ observed ∈ report.runtimeObservedAtMs,
    observed ≠ 0 ∧ observed ≤ report.observedAtMs

/-- The derived state does not match the counts when all replicas that should run are up or done,
and one of them is still waiting for its application. -/
theorem derivedAppliedState_matches {nowMs observed : UInt64} (hdesired : report.desiredState = .applied)
    (hpos : 0 < report.desiredReplicas) (hle : report.successful ≤ report.desiredReplicas)
    (hnow : report.observedAtMs = nowMs) (hobserved : report.runtimeObservedAtMs = some observed)
    (hstate : report.state = report.derivedAppliedState nowMs observed) :
    report.stateMatchesCounts ↔ ¬ (report.successful = report.desiredReplicas ∧ report.waiting = 0
      ∧ report.failures = 0 ∧ report.probeUnhealthy = 0 ∧ 0 < report.probeWaiting
      ∧ (0 < report.running → saturatingSub nowMs observed ≤ supervisorStaleAfterMs)) := by
  have hsuccessful : report.successful = report.running + report.succeeded := rfl
  simp only [stateMatchesCounts, hdesired, if_neg (Nat.pos_iff_ne_zero.mp hpos)]
  unfold derivedAppliedState at hstate
  split at hstate
  · rename_i hstale
    obtain ⟨hlive, hstale⟩ := hstale
    simp only [hstate, hobserved, hnow, Option.any_some, decide_eq_true_eq]
    refine iff_of_true ⟨hlive, hstale⟩ ?_
    rintro ⟨-, hwaiting, -, -, -, hfresh⟩
    have hrunning : 0 < report.running := by omega
    exact UInt64.not_le.mpr hstale (hfresh hrunning)
  rename_i hfresh
  have hfresh' : report.waiting = 0 → 0 < report.running →
      saturatingSub nowMs observed ≤ supervisorStaleAfterMs := fun _ hrunning =>
    UInt64.not_lt.mp fun hstale => hfresh ⟨.inl hrunning, hstale⟩
  split at hstate
  · simp only [hstate, decide_eq_true_eq]
    omega
  split at hstate
  · split at hstate
    · simp only [hstate, decide_eq_true_eq]
      omega
    · simp only [hstate, decide_eq_true_eq]
      omega
  split at hstate
  · simp only [hstate, decide_eq_true_eq]
    omega
  rename_i hunhealthy hfailures hwaiting
  have hready := iff_true_intro (hfresh' (by omega))
  split at hstate
  · simp only [hstate, decide_eq_true_eq, hready, and_true]
    omega
  · simp only [hstate, decide_eq_true_eq, hready, and_true]
    omega

variable [HexCodec] [Sha256]

/-- A report whose parts are in order can be made exactly when its state matches its counts. -/
theorem PartsValid.refresh (h : report.PartsValid) :
    report.refresh = if report.stateMatchesCounts
      then .ok { report with reportSha256 := report.computedSha256 }
      else .error "stack health report is invalid" := by
  have hlimit : maxStackTotalReplicas ≤ 65535 := by decide
  have htotal := h.total_eq
  have hle := h.total_le
  have hprobes := h.probes_le
  have hsum : checkedSum [report.pending, report.starting, report.running, report.backoff,
      report.succeeded, report.failed, report.exhausted, report.stopped]
        = some report.replicasTotal := by
    rw [checkedSum_eq_some] <;> simp only [List.sum_cons, List.sum_nil]
    · congr 1
      omega
    · omega
  have hprobed : checkedSum [report.probeWaiting, report.probeReady, report.probeUnhealthy]
      = some (report.probeWaiting + report.probeReady + report.probeUnhealthy) := by
    rw [checkedSum_eq_some] <;> simp only [List.sum_cons, List.sum_nil]
    · congr 1
      omega
    · omega
  have hdigest : isDigest report.computedSha256 := isDigest_sha256Hex _
  simp only [StackHealthReport.refresh, validate, hsum, hprobed, okOr, ok_bind]
  split
  · rename_i hmatches
    rw [rejectIf_of_not]
    · rfl
    · simp only [not_or, not_exists, not_and]
      exact ⟨not_not.mpr h.format, not_not.mpr h.stack_valid, h.revision_pos, h.observed_pos,
        Nat.not_lt.mpr h.desired_le, Nat.not_lt.mpr h.total_le, not_not.mpr rfl,
        Nat.not_lt.mpr h.probes_le, fun observed hmem => ⟨(h.runtime observed hmem).1,
          UInt64.not_lt.mpr (h.runtime observed hmem).2⟩,
        not_not.mpr hdigest, not_not.mpr rfl, not_not.mpr hmatches⟩
  · rename_i hmismatch
    rw [rejectIf_of]
    · rfl
    · exact .inr (.inr (.inr (.inr (.inr (.inr (.inr (.inr (.inr (.inr (.inr hmismatch))))))))))

end StackHealthReport

/-! ## The replicas that should run -/

section

open StackRuntimeStatus StackHealthReport

/-- The replicas that a plan wants to run. -/
def desiredRunning (replicas : List ReplicaRuntime) : Nat :=
  replicas.countP fun replica => replica.desired = .running

theorem desiredRunning_planned (instances : List PlannedInstance) :
    desiredRunning (instances.flatMap plannedReplicas)
      = ((instances.filter (·.desired = .running)).map PlannedInstance.replicas).sum := by
  induction instances with
  | nil => rfl
  | cons planned instances ih =>
    have hown : desiredRunning (plannedReplicas planned)
        = if planned.desired = .running then planned.replicas else 0 := by
      simp only [desiredRunning, plannedReplicas, List.countP_map]
      split
      · rename_i hrunning
        rw [List.countP_eq_length.mpr (by simp [hrunning]), List.length_range']
      · rename_i hstopped
        exact List.countP_eq_zero.mpr (by simp [hstopped])
    rw [List.flatMap_cons, desiredRunning, List.countP_append, ← desiredRunning,
      ← desiredRunning, hown, ih, List.filter_cons]
    simp only [decide_eq_true_eq]
    split
    · rw [List.map_cons, List.sum_cons]
    · rw [Nat.zero_add]

theorem StackPlan.desiredReplicas_le (plan : StackPlan) :
    plan.desiredReplicas ≤ (plan.instances.map PlannedInstance.replicas).sum :=
  (List.filter_sublist.map _).sum_le_sum fun _ _ => Nat.zero_le _

theorem StackPlan.desiredReplicas_stopped {plan : StackPlan}
    (h : ∀ planned ∈ plan.instances, planned.desired = .stopped) : plan.desiredReplicas = 0 := by
  have hnone : plan.instances.filter (·.desired = .running) = [] := by
    rw [List.filter_eq_nil_iff]
    intro planned hmem
    simp [h planned hmem]
  rw [StackPlan.desiredReplicas, hnone]
  rfl

theorem desiredRunning_eq {replicas expected : List ReplicaRuntime}
    (h : List.Forall₂ SamePlan replicas expected) :
    desiredRunning replicas = desiredRunning expected := by
  induction h with
  | nil => rfl
  | cons hsame _ ih =>
    simp only [desiredRunning, List.countP_cons, hsame.desired_eq] at ih ⊢
    rw [ih]

variable {replicas : List ReplicaRuntime}

/-- A replica that should not run is stopped, so that the others are those that should run. -/
theorem inPhase_desired (h : ∀ replica ∈ replicas, replica.Sound) :
    inPhase replicas .pending + inPhase replicas .starting + inPhase replicas .running
        + inPhase replicas .backoff + inPhase replicas .succeeded + inPhase replicas .failed
        + inPhase replicas .exhausted ≤ desiredRunning replicas
      ∧ (inPhase replicas .running + inPhase replicas .succeeded = desiredRunning replicas
        ↔ ∀ replica ∈ replicas, replica.desired = .running →
          replica.phase = .running ∨ replica.phase = .succeeded) := by
  induction replicas with
  | nil => simp [inPhase, desiredRunning]
  | cons replica replicas ih =>
    obtain ⟨hreplica, hrest⟩ := List.forall_mem_cons.mp h
    obtain ⟨hle, hiff⟩ := ih hrest
    rw [List.forall_mem_cons, ← hiff]
    simp only [inPhase, desiredRunning, List.countP_cons] at hle ⊢
    rcases hreplica.desired with hrunning | hstopped
    · cases replica.phase <;> simp [hrunning] <;> omega
    · simp [hstopped.1, hstopped.2.1]
      omega

end

/-! ## Reports of valid events -/

section

variable [HexCodec] [Sha256] [Semver] {event : EngineEvent}

theorem validateStackStatus_of_validate (h : event.validate = .ok ()) :
    validateStackStatus event.status = .ok ()
      ∧ (event.kind = .stop → event.status.desiredReplicas = 0)
      ∧ event.status.desiredReplicas ≤ maxStackTotalReplicas := by
  obtain ⟨hrevision, -, hname, hdigest⟩ := EngineEvent.identity_of_validate h
  rcases EngineEvent.plan_of_validate h with ⟨hkind, hplan⟩ | ⟨hkind, plan, hplan, hvalid, -, hstop⟩
  · simp [validateStackStatus, rejectIf_eq_ok, StackStatus.stateMatchesPlan, EngineEvent.status,
      EngineEvent.state, hkind, hplan, hname, hrevision, hdigest]
  · have hparts := StackPlan.valid_of_validate hvalid
    have hreplicas : plan.desiredReplicas ≤ maxStackTotalReplicas :=
      plan.desiredReplicas_le.trans hparts.instances_valid.replicas_le
    have hmatches : event.status.stateMatchesPlan := by
      cases heq : event.kind <;>
        simp [StackStatus.stateMatchesPlan, EngineEvent.status, EngineEvent.state, heq, hplan]
      exact hkind heq
    refine ⟨?_, fun hstopped => ?_, by simpa [EngineEvent.status, hplan]⟩
    · rw [validateStackStatus, rejectIf_eq_ok]
      simp [hmatches]
      simp [EngineEvent.status, hplan, hname, hrevision, hdigest, hreplicas, hparts.instances_le,
        hparts.sha256_digest]
    · simp only [EngineEvent.status, hplan, Option.elim_some]
      exact StackPlan.desiredReplicas_stopped (hstop hstopped)

omit [HexCodec] [Sha256] [Semver] in
/-- Every replica that should run is up or has ended well, none is unhealthy, and one has ended
without its application having become ready. While replicas run, they were observed lately. -/
def StackRuntimeStatus.EndedUnready (status : StackRuntimeStatus) (nowMs : UInt64) : Prop :=
  (∀ replica ∈ status.replicas, replica.desired = .running →
      replica.phase = .running ∨ replica.phase = .succeeded)
    ∧ (∀ replica ∈ status.replicas, ∀ probe ∈ replica.probe, probe.phase ≠ .unhealthy)
    ∧ (∃ replica ∈ status.replicas, replica.phase = .succeeded
      ∧ ∃ probe ∈ replica.probe, probe.phase = .waiting)
    ∧ ((∃ replica ∈ status.replicas, replica.phase = .running) →
      saturatingSub nowMs status.observedAtMs ≤ supervisorStaleAfterMs)

namespace StackHealthReport

section

omit [HexCodec] [Sha256] [Semver]

theorem inPhase_pos {replicas : List ReplicaRuntime} {phase : ReplicaPhase} :
    0 < inPhase replicas phase ↔ ∃ replica ∈ replicas, replica.phase = phase := by
  simp [inPhase, List.countP_pos_iff]

theorem inProbe_pos {replicas : List ReplicaRuntime} {phase : ProbePhase} :
    0 < inProbe replicas phase
      ↔ ∃ replica ∈ replicas, ∃ probe ∈ replica.probe, probe.phase = phase := by
  simp [inProbe, List.countP_pos_iff, Option.any_eq_true]

/-- The counts say that a replica has ended unready. -/
theorem endedUnready_iff {status : StackRuntimeStatus} {nowMs : UInt64}
    (hsound : ∀ replica ∈ status.replicas, replica.Sound)
    (hplanned : ∀ replica ∈ status.replicas, replica.desired = .stopped → replica.probe = none) :
    status.EndedUnready nowMs ↔
      inPhase status.replicas .running + inPhase status.replicas .succeeded
          = desiredRunning status.replicas
        ∧ inProbe status.replicas .unhealthy = 0 ∧ 0 < inProbe status.replicas .waiting
        ∧ (0 < inPhase status.replicas .running →
          saturatingSub nowMs status.observedAtMs ≤ supervisorStaleAfterMs) := by
  have hunhealthy : inProbe status.replicas .unhealthy = 0 ↔ ∀ replica ∈ status.replicas,
      ∀ probe ∈ replica.probe, probe.phase ≠ .unhealthy := by
    rw [← Nat.le_zero, ← Nat.not_lt, inProbe_pos]
    push Not
    rfl
  rw [(inPhase_desired hsound).2, inPhase_pos, inProbe_pos, hunhealthy]
  constructor
  · rintro ⟨hup, hhealthy, ⟨replica, hmem, -, hprobe⟩, hfresh⟩
    exact ⟨hup, hhealthy, ⟨replica, hmem, hprobe⟩, hfresh⟩
  · rintro ⟨hup, hhealthy, ⟨replica, hmem, probe, hprobe, hwaiting⟩, hfresh⟩
    have hdesired : replica.desired = .running := by
      rcases (hsound replica hmem).desired with hrunning | hstopped
      · exact hrunning
      · rw [hplanned replica hmem hstopped.2.1] at hprobe
        cases hprobe
    refine ⟨hup, hhealthy, ⟨replica, hmem, ?_, probe, hprobe, hwaiting⟩, hfresh⟩
    rcases hup replica hmem hdesired with hrunning | hsucceeded
    · -- a running replica is not waiting for its application
      have hvalid := (hsound replica hmem).probe probe hprobe
      rw [validateProbeRuntime, rejectIf_eq_ok, hrunning, hwaiting] at hvalid
      simp at hvalid
    · exact hsucceeded

/-- The derived state matches the counts unless a replica has ended unready. -/
theorem matches_iff_of_applied {report : StackHealthReport} {status : StackRuntimeStatus}
    {nowMs : UInt64}
    (hsound : ∀ replica ∈ status.replicas, replica.Sound)
    (hplanned : ∀ replica ∈ status.replicas, replica.desired = .stopped → replica.probe = none)
    (hcounts : report.Counts status.replicas)
    (hdesired : report.desiredReplicas = desiredRunning status.replicas)
    (hpos : 0 < report.desiredReplicas) (happlied : report.desiredState = .applied)
    (hnow : report.observedAtMs = nowMs)
    (hobserved : report.runtimeObservedAtMs = some status.observedAtMs)
    (hstate : report.state = report.derivedAppliedState nowMs status.observedAtMs) :
    report.stateMatchesCounts ↔ ¬ status.EndedUnready nowMs := by
  obtain ⟨hpending, hstarting, hrunning, hbackoff, hsucceeded, hfailed, hexhausted, -⟩ :=
    hcounts.phases
  obtain ⟨hwaiting, -, hunhealthy⟩ := hcounts.probes
  have hle := (inPhase_desired hsound).1
  have hsuccessful : report.successful ≤ report.desiredReplicas := by
    unfold successful
    omega
  rw [derivedAppliedState_matches happlied hpos hsuccessful hnow hobserved hstate,
    endedUnready_iff hsound hplanned, ← hdesired, ← hunhealthy, ← hwaiting, ← hrunning,
    ← hsucceeded]
  unfold successful waiting failures
  constructor
  · rintro hnot ⟨hall, hhealthy, hprobe, hfresh⟩
    exact hnot ⟨hall, by omega, by omega, hhealthy, hprobe, hfresh⟩
  · rintro hnot ⟨hall, -, -, hhealthy, hprobe, hfresh⟩
    exact hnot ⟨hall, hhealthy, hprobe, hfresh⟩

/-- While nothing should run, the stack is stopped and its counts say so. -/
theorem matches_of_idle {report : StackHealthReport} {replicas : List ReplicaRuntime}
    (hsound : ∀ replica ∈ replicas, replica.Sound) (hidle : desiredRunning replicas = 0)
    (hcounts : report.Counts replicas) (hdesired : report.desiredReplicas = 0)
    (hstate : report.state = .stopped) (hkept : report.desiredState ≠ .removed) :
    report.stateMatchesCounts := by
  obtain ⟨hpending, hstarting, hrunning, hbackoff, hsucceeded, hfailed, hexhausted, -⟩ :=
    hcounts.phases
  have hle := (inPhase_desired hsound).1
  cases hwanted : report.desiredState with
  | removed => exact absurd hwanted hkept
  | applied => simp [stateMatchesCounts, hwanted, hdesired, hstate]
  | stopped =>
    simp only [stateMatchesCounts, hwanted, hdesired, hstate, decide_eq_true_eq, waiting,
      successful, failures, true_and]
    omega

end

/-- A valid event passes the checks that come before the replicas are counted. -/
theorem fromStatus_eq (hevent : event.validate = .ok ()) {nowMs : UInt64} (hnow : nowMs ≠ 0)
    (runtime : Option StackRuntimeStatus) :
    fromStatus event.status runtime nowMs
      = (runtime.elim (.ok (draft event.status runtime nowMs))
        ((draft event.status runtime nowMs).countRuntime event.status nowMs) >>= refresh) := by
  obtain ⟨hstatus, -, hdesired⟩ := validateStackStatus_of_validate hevent
  have hlimit : maxStackTotalReplicas ≤ 65535 := by decide
  rw [fromStatus, hstatus, ok_bind, rejectIf_of_not _ hnow, ok_bind,
    rejectIf_of_not _ (Nat.not_lt.mpr (hdesired.trans hlimit)), ok_bind]
  cases runtime <;> rfl

/-- A stack without a runtime has a report. -/
theorem fromStatus_none (hevent : event.validate = .ok ()) {nowMs : UInt64} (hnow : nowMs ≠ 0) :
    fromStatus event.status none nowMs = .ok { draft event.status none nowMs with
      reportSha256 := (draft event.status none nowMs).computedSha256 } := by
  obtain ⟨-, hstop, hdesired⟩ := validateStackStatus_of_validate hevent
  obtain ⟨hrevision, -, hname, -⟩ := EngineEvent.identity_of_validate hevent
  have hparts : (draft event.status none nowMs).PartsValid :=
    { format := rfl
      stack_valid := hname
      revision_pos := hrevision
      observed_pos := hnow
      desired_le := hdesired
      total_le := Nat.zero_le _
      total_eq := rfl
      probes_le := Nat.le_refl 0
      runtime := by simp [draft] }
  have hmatches : (draft event.status none nowMs).stateMatchesCounts := by
    have hstate : event.status.state = event.state := rfl
    cases hkind : event.kind with
    | apply =>
      by_cases hzero : event.status.desiredReplicas = 0 <;>
        simp [stateMatchesCounts, draft, hstate, EngineEvent.state, hkind, hzero, failures, waiting,
          successful]
      omega
    | stop =>
      simp [stateMatchesCounts, draft, hstate, EngineEvent.state, hkind, hstop hkind, failures,
        waiting, successful]
    | remove => simp [stateMatchesCounts, draft, hstate, EngineEvent.state, hkind]
  rw [fromStatus_eq hevent hnow, Option.elim_none, ok_bind, hparts.refresh, if_pos hmatches]

variable {plan : StackPlan} {status : StackRuntimeStatus} {nowMs : UInt64}

/-- A replica that should not run has no probe. -/
theorem probe_of_validateAgainst {revision : UInt64} {generation : String}
    (h : status.validateAgainst plan revision generation = .ok ()) :
    ∀ replica ∈ status.replicas, replica.desired = .stopped → replica.probe = none := by
  obtain ⟨-, -, -, -, -, hsame⟩ := StackRuntimeStatus.validateAgainst_iff.mp h
  intro replica hmem hstopped
  obtain ⟨expected, hexpected, hreplica⟩ := exists_of_forall₂ hsame.flip hmem
  obtain ⟨planned, -, hexpected⟩ := List.mem_flatMap.mp hexpected
  obtain ⟨ordinal, -, rfl⟩ := List.mem_map.mp hexpected
  have hplanned : planned.desired = .stopped := hreplica.desired_eq.symm.trans hstopped
  have hprobe := hreplica.probe_eq
  simp only [hplanned] at hprobe
  exact Option.isSome_eq_false_iff.mp hprobe |> Option.isNone_iff_eq_none.mp

/-- An event with a plan keeps its stack. -/
theorem kept_of_plan (hevent : event.validate = .ok ()) (hplan : event.plan = some plan) :
    event.kind ≠ .remove ∧ plan.stack = event.stack := by
  rcases EngineEvent.plan_of_validate hevent with ⟨-, hnone⟩ | ⟨hkind, own, hsome, -, hown, -⟩
  · rw [hplan] at hnone
    cases hnone
  · rw [hplan] at hsome
    exact ⟨hkind, Option.some.inj hsome ▸ hown⟩

/-- The report of a stack with a runtime, before its state is checked. -/
theorem countRuntime_eq_ok (nowMs : UInt64) (hevent : event.validate = .ok ())
    (hplan : event.plan = some plan)
    (hagainst : status.validateAgainst plan event.revision event.eventSha256 = .ok ()) :
    ∃ report, (draft event.status (some status) nowMs).countRuntime event.status nowMs status
        = .ok report
      ∧ report.Counts status.replicas ∧ report.header = { draft event.status (some status) nowMs with
        replicasTotal := status.replicas.length
        state := report.state }
      ∧ report.state = if event.status.state = .applied ∧ event.status.desiredReplicas > 0
        then report.derivedAppliedState nowMs status.observedAtMs
        else (draft event.status (some status) nowMs).state := by
  obtain ⟨hvalid, -, hstack, hrevision, hgeneration, -⟩ :=
    StackRuntimeStatus.validateAgainst_iff.mp hagainst
  obtain ⟨hparts, -⟩ := StackRuntimeStatus.validate_iff.mp hvalid
  have hlength : status.replicas.length ≤ 65535 := hparts.length.trans (by decide)
  let start : StackHealthReport :=
    { draft event.status (some status) nowMs with replicasTotal := status.replicas.length }
  have hzero : ∀ tally, start.count tally = 0 := by
    rintro (phase | phase) <;> cases phase <;> rfl
  have hroom : ∀ tally, start.count tally + status.replicas.length ≤ 65535 := fun tally => by
    rwa [hzero, Nat.zero_add]
  obtain ⟨counted, hfold, hcounts, hheader⟩ := foldlM_countReplica hroom
  simp only [hzero, Nat.zero_add] at hcounts
  have hsame : ¬ (status.stack ≠ event.status.stack ∨ status.revision ≠ event.status.revision
      ∨ status.generation ≠ event.status.eventSha256) := by
    simp [EngineEvent.status, hstack, (kept_of_plan hevent hplan).2, hrevision, hgeneration]
  have hrun : (draft event.status (some status) nowMs).countRuntime event.status nowMs status
      = if event.status.state = .applied ∧ event.status.desiredReplicas > 0
        then .ok { counted with state := counted.derivedAppliedState nowMs status.observedAtMs }
        else .ok counted := by
    rw [countRuntime, hvalid, ok_bind, rejectIf_of_not _ hsame, ok_bind,
      rejectIf_of_not _ (Nat.not_lt.mpr hlength), ok_bind, hfold, ok_bind]
    rfl
  rw [hrun]
  split
  · refine ⟨_, rfl, fun tally => ?_, congrArg (fun report : StackHealthReport =>
      { report with state := counted.derivedAppliedState nowMs status.observedAtMs }) hheader, rfl⟩
    rw [← hcounts]
    rcases tally with phase | phase <;> cases phase <;> rfl
  · have hstate : counted.header.state = start.header.state := by rw [hheader]
    refine ⟨counted, rfl, hcounts, ?_, hstate⟩
    rw [hheader]
    exact congrArg (fun state => { start with state }) hstate.symm

/-- The replicas of the plan that should run are those of the event. -/
theorem desiredRunning_of_validateAgainst {revision : UInt64} {generation : String}
    (hplan : event.plan = some plan)
    (hagainst : status.validateAgainst plan revision generation = .ok ()) :
    desiredRunning status.replicas = event.status.desiredReplicas := by
  obtain ⟨-, -, -, -, -, hsame⟩ := StackRuntimeStatus.validateAgainst_iff.mp hagainst
  rw [desiredRunning_eq hsame, desiredRunning_planned]
  simp only [EngineEvent.status, hplan, Option.elim_some]
  rfl

/-- A stack with a runtime has a report unless a replica has ended unready. -/
theorem fromStatus_some (hevent : event.validate = .ok ()) (hplan : event.plan = some plan)
    (hagainst : status.validateAgainst plan event.revision event.eventSha256 = .ok ())
    (hnow : nowMs ≠ 0) (hobserved : status.observedAtMs ≤ nowMs) :
    ∃ report : StackHealthReport, fromStatus event.status (some status) nowMs = report.refresh
      ∧ report.PartsValid ∧ (report.stateMatchesCounts ↔ ¬ status.EndedUnready nowMs) := by
  obtain ⟨-, hstop, hdesired⟩ := validateStackStatus_of_validate hevent
  obtain ⟨hrevision, -, hname, -⟩ := EngineEvent.identity_of_validate hevent
  obtain ⟨hvalid, -⟩ := StackRuntimeStatus.validateAgainst_iff.mp hagainst
  obtain ⟨hruntime, -⟩ := StackRuntimeStatus.validate_iff.mp hvalid
  obtain ⟨report, hcount, hcounts, hheader, hstate⟩ :=
    countRuntime_eq_ok nowMs hevent hplan hagainst
  have hrunning := desiredRunning_of_validateAgainst hplan hagainst
  have htotal : report.replicasTotal = status.replicas.length :=
    (congrArg StackHealthReport.replicasTotal hheader :)
  have hreplicas : report.desiredReplicas = event.status.desiredReplicas :=
    (congrArg StackHealthReport.desiredReplicas hheader :)
  have hlast : report.runtimeObservedAtMs = some status.observedAtMs :=
    (congrArg StackHealthReport.runtimeObservedAtMs hheader :)
  have htime : report.observedAtMs = nowMs := (congrArg StackHealthReport.observedAtMs hheader :)
  have hwanted : report.desiredState = event.state :=
    (congrArg StackHealthReport.desiredState hheader :)
  have hstack : report.stack = event.stack := (congrArg StackHealthReport.stack hheader :)
  have hown : report.revision = event.revision := (congrArg StackHealthReport.revision hheader :)
  refine ⟨report, by rw [fromStatus_eq hevent hnow, Option.elim_some, hcount, ok_bind], ?_, ?_⟩
  · obtain ⟨hpending, hstarting, hup, hbackoff, hsucceeded, hfailed, hexhausted, hended⟩ :=
      hcounts.phases
    obtain ⟨hprobeWaiting, hprobeReady, hunhealthy⟩ := hcounts.probes
    have hphaseTotal := inPhase_total status.replicas
    have hprobeTotal := inProbe_total status.replicas
    exact
      { format := (congrArg StackHealthReport.formatVersion hheader :)
        stack_valid := hstack ▸ hname
        revision_pos := hown ▸ hrevision
        observed_pos := htime ▸ hnow
        desired_le := hreplicas ▸ hdesired
        total_le := htotal ▸ hruntime.length
        total_eq := by omega
        probes_le := by omega
        runtime := by
          rw [hlast, htime]
          rintro _ ⟨⟩
          exact ⟨hruntime.observedAtMs, hobserved⟩ }
  by_cases hactive : event.status.state = .applied ∧ event.status.desiredReplicas > 0
  · rw [if_pos hactive] at hstate
    exact matches_iff_of_applied hruntime.sound (probe_of_validateAgainst hagainst) hcounts
      (hreplicas.trans hrunning.symm) (hreplicas ▸ hactive.2) (hwanted.trans hactive.1) htime hlast
      hstate
  · rw [if_neg hactive] at hstate
    have hidle : event.state ≠ .removed ∧ event.status.desiredReplicas = 0 := by
      have happlied : event.status.state = event.state := rfl
      rw [happlied, EngineEvent.state] at hactive
      rw [EngineEvent.state]
      cases hkind : event.kind with
      | apply =>
        rw [hkind] at hactive
        exact ⟨by decide, Nat.eq_zero_of_not_pos fun hpos => hactive ⟨rfl, hpos⟩⟩
      | stop => exact ⟨by decide, hstop hkind⟩
      | remove => exact absurd hkind (kept_of_plan hevent hplan).1
    have hstopped : report.state = .stopped := by
      rw [hstate, draft]
      cases hevery : event.status.state with
      | removed => exact absurd hevery hidle.1
      | _ => simp [hidle.2]
    refine iff_of_true (matches_of_idle hruntime.sound (hrunning.trans hidle.2) hcounts
      (hreplicas.trans hidle.2) hstopped (hwanted ▸ hidle.1)) ?_
    rintro ⟨-, -, ⟨replica, hmem, hphase, -⟩, -⟩
    have hended := inPhase_pos.mpr ⟨replica, hmem, hphase⟩
    have hle := (inPhase_desired hruntime.sound).1
    omega

/-- The health of a stack can be reported, with or without the status of its runtime, exactly when
no replica of a generation that is up has ended before its application was ready. -/
theorem fromStatus_succeeds_iff (hevent : event.validate = .ok ())
    {runtime : Option StackRuntimeStatus} (hnow : nowMs ≠ 0)
    (hruntime : ∀ status ∈ runtime, status.observedAtMs ≤ nowMs
      ∧ ∃ plan, event.plan = some plan
        ∧ status.validateAgainst plan event.revision event.eventSha256 = .ok ()) :
    (∃ report, fromStatus event.status runtime nowMs = .ok report)
      ↔ ∀ status ∈ runtime, ¬ status.EndedUnready nowMs := by
  cases runtime with
  | none => exact iff_of_true ⟨_, fromStatus_none hevent hnow⟩ fun _ hmem => nomatch hmem
  | some status =>
    obtain ⟨hobserved, plan, hplan, hagainst⟩ := hruntime status rfl
    obtain ⟨report, hreport, hparts, hmatches⟩ :=
      fromStatus_some hevent hplan hagainst hnow hobserved
    rw [hreport, hparts.refresh]
    constructor
    · rintro ⟨made, hmade⟩ _ ⟨⟩ hended
      rw [if_neg fun hyes => hmatches.mp hyes hended] at hmade
      cases hmade
    · exact fun hall => ⟨_, if_pos (hmatches.mpr (hall status rfl))⟩

end StackHealthReport

end

/-- A job that is asked for its health. -/
def probedInstance : PlannedInstance :=
  { smallInstance "a" smallPackage 1 .running {} with health := some {} }

attribute [local instance] semver2 nibbleCodec Sha2.sha256

theorem probedPlan_valid :
    (smallPlan [probedInstance]).sealed.validate = .ok () := by
  exact smallPlan_valid {"a"} (by simp) (by decide) (by decide +kernel) (by decide +kernel)

open StackRuntimeStatus in
/-- Before its first start a job can be reported on. -/
theorem StackHealthReport.fromStatus_succeeds_pending :
    let plan := (smallPlan [probedInstance]).sealed
    let event := EngineEvent.firstApply plan
    ∃ status, fromPlan plan event.revision event.eventSha256 1 = .ok status
      ∧ ∃ report, fromStatus event.status (some status) 1 = .ok report := by
  intro plan event
  have hplan : plan.validate = .ok () := probedPlan_valid
  have hdigest : isDigest event.eventSha256 := isDigest_sha256Hex _
  have hstart := fromPlan_eq_ok.mpr
    ⟨⟨hplan, (by decide : event.revision ≠ 0), hdigest, (by decide : (1 : UInt64) ≠ 0)⟩, rfl⟩
  refine ⟨_, hstart, (fromStatus_succeeds_iff (EngineEvent.firstApply_valid hplan) (by decide)
    ?_).mpr ?_⟩
  · rintro _ ⟨⟩
    exact ⟨UInt64.le_refl _, plan, rfl, validateAgainst_of_fromPlan hstart⟩
  · rintro _ ⟨⟩ ⟨hup, -⟩
    have hphase := hup _ List.mem_cons_self rfl
    exact absurd hphase (by decide)

open StackRuntimeStatus in
/-- A job that ends well before it calls itself ready cannot be reported on. -/
theorem StackHealthReport.fromStatus_fails_unready :
    let plan := (smallPlan [probedInstance]).sealed
    let event := EngineEvent.firstApply plan
    ∃ start status, fromPlan plan event.revision event.eventSha256 1 = .ok start
      ∧ OkRun start [(.beginStart ⟨"a", 1⟩ zeroDigest, 1),
        (.markExit ⟨"a", 1⟩ zeroDigest true (some 0) "exited", 1)] status
      ∧ event.validate = .ok ()
      ∧ status.validateAgainst plan event.revision event.eventSha256 = .ok ()
      ∧ fromStatus event.status (some status) 1 = .error "stack health report is invalid" := by
  intro plan event
  have hplan : plan.validate = .ok () := probedPlan_valid
  have hevent := EngineEvent.firstApply_valid hplan
  have hdigest : isDigest event.eventSha256 := isDigest_sha256Hex _
  have hstart := fromPlan_eq_ok.mpr
    ⟨⟨hplan, (by decide : event.revision ≠ 0), hdigest, (by decide : (1 : UInt64) ≠ 0)⟩, rfl⟩
  let planned := plannedStatus plan event.revision event.eventSha256 1
  have hvalid : planned.validate = .ok () :=
    (validateAgainst_iff.mp (validateAgainst_of_fromPlan hstart)).1
  have hbegin : planned.beginStart ⟨"a", 1⟩ zeroDigest 1 = (.ok 1, _) :=
    transition_head hvalid rfl (by decide) (UInt64.le_refl _) rfl ⟨rfl, rfl, rfl, rfl, rfl⟩
      (validateReplica_iff.mp (by decide))
  have hstarted : planned.outcome (.beginStart ⟨"a", 1⟩ zeroDigest) 1 = .ok () := by
    rw [outcome, hbegin]
    rfl
  let started := planned.after (.beginStart ⟨"a", 1⟩ zeroDigest) 1
  have hexit : started.markExit ⟨"a", 1⟩ zeroDigest true (some 0) "exited" 1 = (.ok (), _) :=
    transition_head (validate_after hvalid hstarted) rfl (by decide) (UInt64.le_refl _) rfl
      ⟨rfl, rfl, rfl, rfl, rfl⟩ (validateReplica_iff.mp (by decide))
  have hended : started.outcome (.markExit ⟨"a", 1⟩ zeroDigest true (some 0) "exited") 1
      = .ok () := by
    rw [outcome, hexit]
  have hrun := OkRun.snoc (OkRun.snoc (.nil planned) hstarted) hended
  have hagainst := hrun.validateAgainst (validateAgainst_of_fromPlan hstart)
  refine ⟨_, _, hstart, hrun, hevent, hagainst, ?_⟩
  obtain ⟨report, hreport, hparts, hmatches⟩ :=
    fromStatus_some hevent rfl hagainst (by decide : (1 : UInt64) ≠ 0) (UInt64.le_refl _)
  rw [hreport, hparts.refresh, if_neg fun hyes => hmatches.mp hyes ?_]
  refine ⟨List.forall_mem_singleton.mpr fun _ => .inr rfl, List.forall_mem_singleton.mpr ?_,
      ⟨_, List.mem_cons_self, rfl, _, rfl, rfl⟩,
      fun _ => (by decide : saturatingSub 1 1 ≤ supervisorStaleAfterMs)⟩
  rintro _ ⟨⟩
  decide

end CartridgeRuntime.Engine
