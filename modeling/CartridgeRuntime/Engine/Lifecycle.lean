import CartridgeRuntime.Engine.Replica
import CartridgeRuntime.Library.Keyed
import CartridgeRuntime.Library.Sha2

/-!
# The lifecycle of replicas

What runs of successful calls do to the status of a plan. `StackRuntimeStatus.lifecycle` says that
the status stays one of its plan, that no replica is started more often than its restart budget
allows, and that a replica that has ended, or was never meant to run, does not start.
-/

namespace CartridgeRuntime.Engine

open Checked CartridgeRuntime.Core Encoding Keyed

/-! ## Calls -/

instance (event : StatusEvent) (id : ReplicaId) : Decidable (event.Starts id) := by
  unfold StatusEvent.Starts
  split <;> infer_instance

namespace StackRuntimeStatus

variable [HexCodec] [Sha256]

/-- Whether the method of an event succeeds. -/
def outcome (event : StatusEvent) (nowMs : UInt64) (status : StackRuntimeStatus) :
    Except String Unit :=
  match event with
  | .beginStart id runId => discard (status.beginStart id runId nowMs).1
  | .markRunning id runId => (status.markRunning id runId nowMs).1
  | .markProbeSignal id runId sequence kind =>
    (status.markProbeSignal id runId sequence kind nowMs).1
  | .markProbeTimeout id runId => discard (status.markProbeTimeout id runId nowMs).1
  | .markExit id runId success exitCode detail =>
    (status.markExit id runId success exitCode detail nowMs).1
  | .markDrained id runId => (status.markDrained id runId nowMs).1
  | .recoverInterrupted => discard (status.recoverInterrupted nowMs).1
  | .heartbeat => (status.heartbeat nowMs).1

/-- A run of calls that all succeed. -/
inductive OkRun : StackRuntimeStatus → List (StatusEvent × UInt64) → StackRuntimeStatus → Prop where
  | nil (status : StackRuntimeStatus) : OkRun status [] status
  | snoc {start status : StackRuntimeStatus} {calls : List (StatusEvent × UInt64)}
      {event : StatusEvent} {nowMs : UInt64} (hrun : OkRun start calls status)
      (hok : status.outcome event nowMs = .ok ()) :
      OkRun start (calls ++ [(event, nowMs)]) (status.after event nowMs)

/-! ## Calls for one replica -/

variable {α : Type} {nowMs : UInt64}

/-- What a method for one replica can do: nothing, or the step of the first replica with that
identity, after which the status is refreshed. -/
theorem transition_cases (invalid : Prop) [Decidable invalid] (error : String) (id : ReplicaId)
    (step : ReplicaRuntime → Except String α × ReplicaRuntime) (nowMs : UInt64)
    (status : StackRuntimeStatus) :
    ((invalid ∨ ∀ replica ∈ status.replicas, replica.id ≠ id)
        ∧ ∃ error', status.transition invalid error id step nowMs = (.error error', status))
      ∨ ∃ before replica rest, ¬ invalid ∧ status.replicas = before ++ replica :: rest
        ∧ (∀ other ∈ before, other.id ≠ id) ∧ replica.id = id
        ∧ status.transition invalid error id step nowMs = observe nowMs (step replica).1
            { status with replicas := before ++ (step replica).2 :: rest } := by
  unfold transition
  split
  · rename_i hinvalid
    exact .inl ⟨.inl hinvalid, error, rfl⟩
  · rename_i hinvalid
    rcases updateFirst_cases (fun replica => replica.id = id)
      "replica is not part of this runtime generation" step status.replicas with ⟨hnone, heq⟩ | ⟨before, replica, rest, hsplit, hbefore, hid, heq⟩
    · exact .inl ⟨.inr hnone, _, by rw [heq]; rfl⟩
    · exact .inr ⟨before, replica, rest, hinvalid, hsplit, hbefore, hid, by rw [heq]⟩

/-- A status that was refreshed without an error is valid. -/
theorem validate_of_observe {result : Except String α} {value : α} {status : StackRuntimeStatus}
    (h : (observe nowMs result status).1 = .ok value) :
    (observe nowMs result status).2.validate = .ok () := by
  cases result with
  | error error => cases h
  | ok _ =>
    have hmap : (refresh { status with observedAtMs := nowMs }).1.map (fun _ => _) = .ok value := h
    show (refresh { status with observedAtMs := nowMs }).2.validate = .ok ()
    cases hrefresh : (refresh { status with observedAtMs := nowMs }).1 with
    | error error =>
      rw [hrefresh] at hmap
      cases hmap
    | ok _ => exact hrefresh

/-- The generation that a status belongs to. -/
structure SameGeneration (before after : StackRuntimeStatus) : Prop where
  stack_eq : after.stack = before.stack
  revision_eq : after.revision = before.revision
  generation_eq : after.generation = before.generation

theorem sameGeneration_observe (nowMs : UInt64) (result : Except String α)
    (before status : StackRuntimeStatus) (h : SameGeneration before status) :
    SameGeneration before (observe nowMs result status).2 := by
  cases result with
  | error error => exact h
  | ok value => exact ⟨h.stack_eq, h.revision_eq, h.generation_eq⟩

theorem sameGeneration_transition (invalid : Prop) [Decidable invalid] (error : String)
    (id : ReplicaId) (step : ReplicaRuntime → Except String α × ReplicaRuntime) (nowMs : UInt64)
    (status : StackRuntimeStatus) :
    SameGeneration status (status.transition invalid error id step nowMs).2 := by
  rcases transition_cases invalid error id step nowMs status with
    ⟨-, _, heq⟩ | ⟨before, replica, rest, -, -, -, -, heq⟩
  · rw [heq]
    exact ⟨rfl, rfl, rfl⟩
  · rw [heq]
    exact sameGeneration_observe _ _ _ _ ⟨rfl, rfl, rfl⟩

theorem validate_of_transition {invalid : Prop} [Decidable invalid] {error : String}
    {id : ReplicaId} {step : ReplicaRuntime → Except String α × ReplicaRuntime}
    {status : StackRuntimeStatus} {value : α}
    (h : (status.transition invalid error id step nowMs).1 = .ok value) :
    (status.transition invalid error id step nowMs).2.validate = .ok () := by
  rcases transition_cases invalid error id step nowMs status with
    ⟨-, _, heq⟩ | ⟨before, replica, rest, -, -, -, -, heq⟩
  · rw [heq] at h
    cases h
  · rw [heq] at h ⊢
    exact validate_of_observe h

theorem sameGeneration_after (event : StatusEvent) (nowMs : UInt64) (status : StackRuntimeStatus) :
    SameGeneration status (status.after event nowMs) := by
  cases event with
  | recoverInterrupted =>
    unfold after recoverInterrupted
    dsimp only
    split_ifs
    · exact ⟨rfl, rfl, rfl⟩
    · exact sameGeneration_observe _ _ _ _ ⟨rfl, rfl, rfl⟩
    · exact ⟨rfl, rfl, rfl⟩
  | heartbeat =>
    unfold after heartbeat
    dsimp only
    split_ifs
    · exact ⟨rfl, rfl, rfl⟩
    · exact sameGeneration_observe _ _ _ _ ⟨rfl, rfl, rfl⟩
  | _ => exact sameGeneration_transition _ _ _ _ _ _

/-- A successful call leaves a valid status valid. -/
theorem validate_after {event : StatusEvent} {status : StackRuntimeStatus}
    (hvalid : status.validate = .ok ()) (h : status.outcome event nowMs = .ok ()) :
    (status.after event nowMs).validate = .ok () := by
  cases event with
  | beginStart id runId =>
    obtain ⟨_, h⟩ := discard_eq_ok.mp h
    exact validate_of_transition h
  | markProbeTimeout id runId =>
    obtain ⟨_, h⟩ := discard_eq_ok.mp h
    exact validate_of_transition h
  | recoverInterrupted =>
    obtain ⟨value, h⟩ := discard_eq_ok.mp h
    unfold recoverInterrupted at h
    unfold after recoverInterrupted
    dsimp only at h ⊢
    split_ifs at h ⊢ with hback hactive
    · exact validate_of_observe h
    · -- nothing was active, so no replica has changed
      have hreplicas : (status.replicas.map fun replica => if replica.Active then
          replica.finishReplica false none "previous supervisor exited before the worker" nowMs
          else replica) = status.replicas := by
        have hnone : ∀ replica ∈ status.replicas, ¬ replica.Active := by
          simpa [List.countP_eq_zero] using hactive
        calc _ = status.replicas.map id :=
              List.map_congr_left fun replica hmem => if_neg (hnone replica hmem)
          _ = status.replicas := List.map_id _
      rw [hreplicas]
      exact hvalid
  | heartbeat =>
    have h : (status.heartbeat nowMs).1 = .ok () := h
    unfold heartbeat at h
    unfold after heartbeat
    dsimp only
    split_ifs at h ⊢
    exact validate_of_observe h
  | _ => exact validate_of_transition h

end StackRuntimeStatus

/-! ## What a call keeps of a replica -/

namespace ReplicaRuntime

open StackRuntimeStatus

/-- The replica is the same one of its plan, and was not started. -/
structure Kept (before after : ReplicaRuntime) : Prop where
  samePlan : SamePlan after before
  attempt_eq : after.attempt = before.attempt

theorem Kept.refl (replica : ReplicaRuntime) : Kept replica replica :=
  ⟨⟨rfl, rfl, rfl, rfl, rfl⟩, rfl⟩

/-- A move that is not a start keeps the replica. -/
theorem Moves.kept {event : StatusEvent} {before after : ReplicaRuntime}
    (h : Moves event before after) (hstarts : ¬ event.Starts before.id) : Kept before after := by
  cases h with
  | keep => exact .refl _
  | start runId hstart => exact absurd hstart hstarts
  | run | leave => exact ⟨⟨rfl, rfl, rfl, rfl, rfl⟩, rfl⟩
  | signal hactive hprobe => exact ⟨⟨rfl, rfl, rfl, rfl, by rw [hprobe]; rfl⟩, rfl⟩

end ReplicaRuntime

namespace StackRuntimeStatus

open ReplicaRuntime

variable [HexCodec] [Sha256]

/-- What a successful call does to a replica of the status. -/
structure Advances (starts : ReplicaId → Prop) (before after : ReplicaRuntime) : Prop where
  samePlan : SamePlan after before
  started : starts before.id → after.attempt = before.attempt + 1 ∧ before.desired = .running
  kept : ¬ starts before.id → after.attempt = before.attempt

omit [HexCodec] [Sha256] in
theorem Advances.of_kept {starts : ReplicaId → Prop} {before after : ReplicaRuntime}
    (h : Kept before after) (hstarts : ¬ starts before.id) : Advances starts before after :=
  ⟨h.samePlan, fun hstart => absurd hstart hstarts, fun _ => h.attempt_eq⟩

variable {id : ReplicaId} {nowMs : UInt64}

/-- A successful start begins the next attempt of one replica. -/
theorem beginStart_advances {runId : String} {status : StackRuntimeStatus}
    (hsorted : status.replicas.Pairwise fun left right =>
      left.id.Before right.id) {attempt : Nat}
    (h : (status.beginStart id runId nowMs).1 = .ok attempt) :
    List.Forall₂ (Advances (· = id)) status.replicas
      (status.beginStart id runId nowMs).2.replicas := by
  unfold beginStart at h ⊢
  rcases transition_cases (¬ isDigest runId ∨ nowMs < status.observedAtMs)
    "replica run identity is invalid" id (ReplicaRuntime.beginStart runId nowMs) nowMs status with
    ⟨-, _, heq⟩ | ⟨before, replica, rest, -, hsplit, hbefore, hid, heq⟩
  · rw [heq] at h
    cases h
  · rw [heq] at h ⊢
    rw [replicas_observe, hsplit]
    rcases replica.beginStart_cases runId nowMs with
      ⟨error, hstep⟩ | ⟨-, hdesired, -, hstep⟩
    · rw [hstep] at h
      cases h
    · -- identities are in order, so no other replica has this one
      have hrest : ∀ other ∈ rest, other.id ≠ id := by
        intro other hother hsame
        rw [hsplit, List.pairwise_append, List.pairwise_cons] at hsorted
        exact (hsorted.2.1.1 other hother).ne (hid.trans hsame.symm)
      rw [hstep]
      refine List.rel_append (List.forall₂_same.mpr fun other hother =>
        .of_kept (.refl other) (hbefore other hother)) (.cons ?_ (List.forall₂_same.mpr
          fun other hother => .of_kept (.refl other) (hrest other hother)))
      exact ⟨⟨rfl, rfl, rfl, rfl, by simp [ReplicaRuntime.started]⟩, fun _ => ⟨rfl, hdesired⟩,
        fun hnot => absurd hid hnot⟩

theorem after_advances {event : StatusEvent} {status : StackRuntimeStatus}
    (hvalid : status.validate = .ok ()) (h : status.outcome event nowMs = .ok ()) :
    List.Forall₂ (Advances event.Starts) status.replicas
      (status.after event nowMs).replicas := by
  by_cases hevent : ∀ id, ¬ event.Starts id
  · exact (after_moves event nowMs status).imp fun _ _ hmoves =>
      .of_kept (hmoves.kept (hevent _)) (hevent _)
  · cases event with
    | beginStart id runId =>
      obtain ⟨_, h⟩ := discard_eq_ok.mp h
      exact beginStart_advances (validate_iff.mp hvalid).1.sorted h
    | _ => exact absurd (fun _ hstart => hstart) hevent

omit [HexCodec] [Sha256] in
/-- A status with other replicas of the same plan is valid when these are sound. -/
theorem PartsValid.replace_iff {status : StackRuntimeStatus} (h : status.PartsValid)
    {replicas : List ReplicaRuntime} (hsame : List.Forall₂ SamePlan replicas status.replicas)
    (hnow : status.observedAtMs ≤ nowMs) :
    PartsValid { status with replicas, observedAtMs := nowMs }
      ↔ ∀ replica ∈ replicas, replica.Sound := by
  refine ⟨fun hparts => hparts.sound, fun hsound => ?_⟩
  have hids : replicas.map ReplicaRuntime.id = status.replicas.map ReplicaRuntime.id :=
    (map_eq_of_forall₂ (fun _ _ hab => hab.id_eq.symm) hsame).symm
  refine ⟨h.format, fun hlegacy replica hmem => ?_, h.stack, h.revision, h.generation,
    fun hzero => h.observedAtMs ?_, hsame.length_eq.trans_le h.length, hsound, ?_⟩
  · obtain ⟨other, hother, hplan⟩ := exists_of_forall₂ hsame.flip hmem
    rw [← Option.not_isSome_iff_eq_none, hplan.probe_eq, h.legacy hlegacy other hother]
    exact Bool.false_ne_true
  · exact UInt64.le_zero_iff.mp (hzero ▸ hnow)
  · have hsorted := List.pairwise_map.mpr h.sorted
    rw [← hids] at hsorted
    exact List.pairwise_map.mp hsorted

/-- A step of the first replica succeeds when it leaves that replica sound. -/
theorem transition_head {α : Type} {invalid : Prop} [Decidable invalid] {error : String}
    {step : ReplicaRuntime → Except String α × ReplicaRuntime}
    {status : StackRuntimeStatus} {replica next : ReplicaRuntime} {rest : List ReplicaRuntime}
    {value : α} (hvalid : status.validate = .ok ()) (hreplicas : status.replicas = replica :: rest)
    (hinvalid : ¬ invalid) (hnow : status.observedAtMs ≤ nowMs)
    (hstep : step replica = (.ok value, next)) (hplan : SamePlan next replica)
    (hsound : next.Sound) :
    status.transition invalid error replica.id step nowMs
      = (.ok value,
        (refresh { status with replicas := next :: rest, observedAtMs := nowMs }).2) := by
  obtain ⟨hparts, -⟩ := validate_iff.mp hvalid
  have hsame : List.Forall₂ SamePlan (next :: rest) status.replicas :=
    hreplicas ▸ .cons hplan (List.forall₂_same.mpr fun _ _ => ⟨rfl, rfl, rfl, rfl, rfl⟩)
  have hall : ∀ other ∈ next :: rest, other.Sound := by
    intro other hmem
    rcases List.mem_cons.mp hmem with rfl | hmem
    · exact hsound
    · exact hparts.sound other (hreplicas ▸ List.mem_cons_of_mem _ hmem)
  have hrefresh : (refresh { status with replicas := next :: rest, observedAtMs := nowMs }).1
      = .ok () :=
    refresh_fst_eq_ok.mpr ((hparts.replace_iff hsame hnow).mpr hall)
  rw [transition, if_neg hinvalid, hreplicas]
  simp only [updateFirst, if_pos, hstep, observe, hrefresh]
  rfl

/-! ## Runs -/

/-- How often a run starts a replica. -/
def starts (id : ReplicaId) (calls : List (StatusEvent × UInt64)) : Nat :=
  calls.countP fun call => call.1.Starts id

omit [HexCodec] [Sha256] in
theorem starts_snoc (id : ReplicaId) (calls : List (StatusEvent × UInt64)) (event : StatusEvent)
    (nowMs : UInt64) :
    starts id (calls ++ [(event, nowMs)]) = starts id calls + if event.Starts id then 1 else 0 := by
  simp [starts, List.countP_append, List.countP_singleton]

variable {start status : StackRuntimeStatus} {calls : List (StatusEvent × UInt64)}

theorem OkRun.validateAgainst [Semver] {plan : StackPlan} {revision : UInt64} {generation : String}
    (hrun : OkRun start calls status)
    (hstart : start.validateAgainst plan revision generation = .ok ()) :
    status.validateAgainst plan revision generation = .ok () := by
  induction hrun with
  | nil => exact hstart
  | @snoc status _ event nowMs _ hok ih =>
    obtain ⟨hvalid, hplan, hstack, hrevision, hgeneration, hreplicas⟩ :=
      validateAgainst_iff.mp ih
    have hsame := sameGeneration_after event nowMs status
    have hadvances := after_advances hvalid hok
    refine validateAgainst_iff.mpr ⟨validate_after hvalid hok, hplan, hsame.stack_eq.trans hstack,
      hsame.revision_eq.trans hrevision, hsame.generation_eq.trans hgeneration, ?_⟩
    exact forall₂_trans (R := SamePlan) (fun _ _ _ => SamePlan.trans)
      (hadvances.imp fun _ _ hadvance => hadvance.samePlan).flip hreplicas

/-- A replica that starts the run with no attempt has as many attempts as it was started. -/
theorem OkRun.attempt_eq_starts (hrun : OkRun start calls status)
    (hvalid : start.validate = .ok ()) (hzero : ∀ replica ∈ start.replicas, replica.attempt = 0) :
    status.validate = .ok () ∧ ∀ replica ∈ status.replicas,
      replica.attempt = starts replica.id calls
        ∧ (replica.desired = .stopped → starts replica.id calls = 0) := by
  induction hrun with
  | nil => exact ⟨hvalid, fun replica hmem => ⟨hzero replica hmem, fun _ => rfl⟩⟩
  | @snoc status _ event nowMs _ hok ih =>
    obtain ⟨hvalid, hcount⟩ := ih
    refine ⟨validate_after hvalid hok, fun replica hmem => ?_⟩
    obtain ⟨before, hbefore, hadvances⟩ := exists_of_forall₂ (after_advances hvalid hok) hmem
    obtain ⟨hattempt, hstopped⟩ := hcount before hbefore
    rw [hadvances.samePlan.id_eq, hadvances.samePlan.desired_eq, starts_snoc]
    by_cases hstart : event.Starts before.id
    · obtain ⟨hnext, hrunning⟩ := hadvances.started hstart
      rw [if_pos hstart, hnext, hattempt]
      exact ⟨rfl, fun hdesired => absurd (hrunning.symm.trans hdesired) (by decide)⟩
    · rw [if_neg hstart, hadvances.kept hstart]
      exact ⟨hattempt, hstopped⟩

/-- A successful start is one of a replica of the status. -/
theorem exists_of_starts {event : StatusEvent} (hok : status.outcome event nowMs = .ok ())
    (h : event.Starts id) : ∃ replica ∈ status.replicas, replica.id = id := by
  cases event with
  | beginStart id' runId =>
    obtain rfl : id = id' := h
    obtain ⟨_, hok⟩ := discard_eq_ok.mp hok
    unfold beginStart at hok
    rcases transition_cases (¬ isDigest runId ∨ nowMs < status.observedAtMs)
      "replica run identity is invalid" id (ReplicaRuntime.beginStart runId nowMs) nowMs status
      with ⟨-, _, heq⟩ | ⟨before, replica, rest, -, hsplit, -, hid, -⟩
    · rw [heq] at hok
      cases hok
    · exact ⟨replica, by simp [hsplit], hid⟩
  | _ => exact h.elim

/-- What is not a replica of the status is not started. -/
theorem OkRun.starts_eq_zero (hrun : OkRun start calls status)
    (hid : ∀ replica ∈ status.replicas, replica.id ≠ id) : starts id calls = 0 := by
  induction hrun with
  | nil => rfl
  | @snoc status _ event nowMs _ hok ih =>
    have hbefore : ∀ replica ∈ status.replicas, replica.id ≠ id := by
      intro replica hmem hsame
      obtain ⟨after, hafter, hfollows⟩ :=
        exists_of_forall₂ (after_follows event nowMs status).flip hmem
      exact hid after hafter (hfollows.id_eq.trans hsame)
    have hstart : ¬ event.Starts id := by
      intro hstart
      obtain ⟨replica, hmem, hsame⟩ := exists_of_starts hok hstart
      exact hbefore replica hmem hsame
    rw [starts_snoc, ih hbefore, if_neg hstart]

/-- A replica that has given up its place does not take it again. -/
theorem OkRun.not_occupying (hrun : OkRun start calls status)
    (hended : ∀ replica ∈ start.replicas, replica.id = id → ¬ replica.Occupying) :
    ∀ replica ∈ status.replicas, replica.id = id → ¬ replica.Occupying := by
  induction hrun with
  | nil => exact hended
  | @snoc status _ event nowMs _ _ ih =>
    intro replica hmem hid hoccupying
    obtain ⟨before, hbefore, hfollows⟩ := exists_of_forall₂ (after_follows event nowMs status) hmem
    exact ih before hbefore (hfollows.id_eq.symm.trans hid) (hfollows.occupying hoccupying)

/-- In every run of successful calls from the status of a plan, the status stays one of that plan,
every replica is started at most once and once more for each restart it may have, and not at all if
it is meant to be stopped; and whatever happens after a replica has ended or was drained, it has no
worker again. -/
theorem lifecycle [Semver] {plan : StackPlan} {revision : UInt64} {generation : String}
    {nowMs : UInt64} (hstart : fromPlan plan revision generation nowMs = .ok start)
    (hrun : OkRun start calls status) :
    status.validateAgainst plan revision generation = .ok ()
      ∧ (∀ planned ∈ plan.instances, ∀ ordinal,
          starts ⟨planned.name, ordinal⟩ calls ≤ planned.maxRestarts + 1
            ∧ (planned.desired = .stopped → starts ⟨planned.name, ordinal⟩ calls = 0))
      ∧ ∀ replica ∈ status.replicas, replica.Terminal ∨ replica.phase = .stopped →
          ∀ later final, OkRun status later final →
            ∀ replica' ∈ final.replicas, replica'.id = replica.id → ¬ replica'.Active := by
  have hagainst := hrun.validateAgainst (validateAgainst_of_fromPlan hstart)
  refine ⟨hagainst, fun planned hplanned ordinal => ?_, fun replica hmem hended later final hlater
    replica' hmem' hid hactive => ?_⟩
  · obtain ⟨⟨hplan, -⟩, hplanned_eq⟩ := fromPlan_eq_ok.mp hstart
    have hsorted := (StackPlan.valid_of_validate hplan).instances_valid.sorted
    have hzero : ∀ replica ∈ start.replicas, replica.attempt = 0 := by
      intro replica hmem
      rw [hplanned_eq] at hmem
      obtain ⟨_, -, hmem⟩ := List.mem_flatMap.mp hmem
      obtain ⟨_, -, rfl⟩ := List.mem_map.mp hmem
      rfl
    obtain ⟨hvalid, hcount⟩ := hrun.attempt_eq_starts
      (validateAgainst_iff.mp (validateAgainst_of_fromPlan hstart)).1 hzero
    by_cases hexists : ∃ replica ∈ status.replicas, replica.id = ⟨planned.name, ordinal⟩
    · obtain ⟨replica, hmem, hid⟩ := hexists
      obtain ⟨other, hother, hname, hdesired, hrestarts, -⟩ :=
        planned_of_validateAgainst hagainst hmem
      -- names are distinct, so the replica belongs to this instance
      obtain rfl : other = planned :=
        (Distinct.of_lt hsorted).eq_of_key hother hplanned (by rw [hname, hid])
      obtain ⟨hattempt, hstopped⟩ := hcount replica hmem
      rw [← hid, ← hdesired, ← hattempt, ← hrestarts]
      exact ⟨((validate_iff.mp hvalid).1.sound replica hmem).attempt, fun h => hattempt ▸ hstopped h⟩
    · have hnone : starts ⟨planned.name, ordinal⟩ calls = 0 :=
        hrun.starts_eq_zero fun replica hmem hid => hexists ⟨replica, hmem, hid⟩
      rw [hnone]
      exact ⟨Nat.zero_le _, fun _ => rfl⟩
  · have hvalid := validate_eq_ok (validateAgainst_iff.mp hagainst).1
    refine hlater.not_occupying (fun other hother hsame => ?_) replica' hmem' hid
      (.inr (hactive.imp_right .inl))
    rw [hvalid.eq_of_id hother hmem hsame]
    rcases hended with (h | h | h) | h <;> simp [ReplicaRuntime.Occupying, h]

omit [HexCodec] [Sha256] in
/-- A replica is started once. -/
theorem lifecycle_one_start :
    let _ := semver2
    let _ := nibbleCodec
    let _ := Sha2.sha256
    let plan := (smallPlan [smallInstance "a" smallPackage 1 .running {}]).sealed
    ∃ start status, fromPlan plan 1 zeroDigest 1 = .ok start
      ∧ OkRun start [(.beginStart ⟨"a", 1⟩ zeroDigest, 1)] status
      ∧ status.validateAgainst plan 1 zeroDigest = .ok () := by
  intro _ _ _ plan
  have hplan : plan.validate = .ok () :=
    smallPlan_valid {"a"} (by simp) (by decide) (by decide +kernel) (by decide +kernel)
  have hstart := fromPlan_eq_ok.mpr
    ⟨⟨hplan, (by decide : (1 : UInt64) ≠ 0), isDigest_zeroDigest, (by decide : (1 : UInt64) ≠ 0)⟩,
      rfl⟩
  have hvalid := (validateAgainst_iff.mp (validateAgainst_of_fromPlan hstart)).1
  have hstep : (plannedStatus plan 1 zeroDigest 1).beginStart ⟨"a", 1⟩ zeroDigest 1 = (.ok 1, _) :=
    transition_head hvalid rfl (by decide) (UInt64.le_refl _) rfl ⟨rfl, rfl, rfl, rfl, rfl⟩
      (validateReplica_iff.mp (by decide))
  have hok : (plannedStatus plan 1 zeroDigest 1).outcome (.beginStart ⟨"a", 1⟩ zeroDigest) 1
      = .ok () := by
    rw [outcome, hstep]
    rfl
  have hrun := OkRun.snoc (.nil _) hok
  exact ⟨_, _, hstart, hrun, (lifecycle hstart hrun).1⟩

end StackRuntimeStatus

end CartridgeRuntime.Engine
