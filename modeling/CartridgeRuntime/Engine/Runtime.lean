import CartridgeRuntime.Engine.Progress

/-!
# Runtime statuses

What the checks of a runtime status establish, and how its replicas change: a transition keeps the
identities of the replicas, and a replica that has given up its place never takes it again
(`ReplicaRuntime.Follows`).
-/

namespace CartridgeRuntime.Engine

open Checked CartridgeRuntime.Core Encoding

/-! ## What the checks establish -/

theorem ReplicaId.Before.trans {a b c : ReplicaId} (hab : a.Before b) (hbc : b.Before c) :
    a.Before c := by
  rcases hab with hab | ⟨hab, hab'⟩ <;> rcases hbc with hbc | ⟨hbc, hbc'⟩
  · exact .inl (hab.trans hbc)
  · exact .inl (hbc ▸ hab)
  · exact .inl (hab ▸ hbc)
  · exact .inr ⟨hab.trans hbc, hab'.trans hbc'⟩

theorem ReplicaId.Before.ne {a b : ReplicaId} (h : a.Before b) : a ≠ b := by
  rintro rfl
  rcases h with h | ⟨-, h⟩
  · exact lt_irrefl _ h
  · exact lt_irrefl _ h

/-- The replica occupies a place of its generation. -/
def ReplicaRuntime.Occupying (replica : ReplicaRuntime) : Prop :=
  replica.phase = .pending ∨ replica.phase = .starting ∨ replica.phase = .running
    ∨ replica.phase = .backoff

/-- What the checks of a replica give. -/
structure ReplicaRuntime.Valid (replica : ReplicaRuntime) : Prop where
  ordinal_pos : 1 ≤ replica.id.ordinal
  started : replica.Active → replica.startedAtMs.isSome
  stopped : replica.desired = .stopped → replica.phase = .stopped

theorem validateReplica_eq_ok {replica : ReplicaRuntime} (h : validateReplica replica = .ok ()) :
    replica.Valid := by
  simp only [validateReplica, bind_eq_ok, exists_unit] at h
  obtain ⟨hidentity, -, hphase⟩ := h
  rw [rejectIf_eq_ok] at hidentity hphase
  simp only [not_or] at hidentity hphase
  refine ⟨Nat.pos_of_ne_zero hidentity.2.1, fun hactive => ?_, fun hdesired => ?_⟩
  · have hfields := fun hbad => hphase.1 ⟨hactive, hbad⟩
    exact Option.isSome_iff_ne_none.mpr fun hnone => hfields (.inr (.inr (.inl hnone)))
  · by_contra hnot
    exact hphase.2.2.2.2.1 ⟨hdesired, fun hplanned => hnot hplanned.1⟩

/-- The loop over the replicas checks each of them, and their order. -/
theorem foldlM_scanReplica {replicas : List ReplicaRuntime} {previous result : Option ReplicaId}
    (h : replicas.foldlM scanReplica previous = .ok result) :
    (∀ replica ∈ replicas, replica.Valid)
      ∧ (∀ id ∈ previous, ∀ replica ∈ replicas, id.Before replica.id)
      ∧ replicas.Pairwise fun left right => left.id.Before right.id := by
  induction replicas generalizing previous with
  | nil => simp
  | cons replica rest ih =>
    simp only [List.foldlM_cons, scanReplica, bind_eq_ok, exists_unit, pure_eq_ok] at h
    obtain ⟨_, ⟨hreplica, hbefore, ⟨rfl⟩⟩, hrest⟩ := h
    obtain ⟨hvalid, hfirst, hsorted⟩ := ih hrest
    rw [rejectIf_eq_ok] at hbefore
    have hprevious : ∀ id ∈ previous, id.Before replica.id := fun id hid => by
      by_contra hnot
      exact hbefore ⟨id, hid, hnot⟩
    refine ⟨List.forall_mem_cons.mpr ⟨validateReplica_eq_ok hreplica, hvalid⟩, fun id hid => ?_,
      List.pairwise_cons.mpr ⟨hfirst _ rfl, hsorted⟩⟩
    exact List.forall_mem_cons.mpr ⟨hprevious id hid, fun other hother =>
      (hprevious id hid).trans (hfirst _ rfl other hother)⟩

/-- What the checks of a status give. -/
structure StackRuntimeStatus.Valid (status : StackRuntimeStatus) : Prop where
  replicas_valid : ∀ replica ∈ status.replicas, replica.Valid
  sorted : status.replicas.Pairwise fun left right => left.id.Before right.id

/-- A status has one replica for each identity. -/
theorem StackRuntimeStatus.Valid.eq_of_id {status : StackRuntimeStatus} (h : status.Valid)
    {left right : ReplicaRuntime} (hleft : left ∈ status.replicas)
    (hright : right ∈ status.replicas) (hid : left.id = right.id) : left = right := by
  have hnodup : (status.replicas.map ReplicaRuntime.id).Nodup :=
    List.pairwise_map.mpr (h.sorted.imp fun hbefore => hbefore.ne)
  exact List.inj_on_of_nodup_map hnodup hleft hright hid

variable [HexCodec] [Sha256]

theorem StackRuntimeStatus.validate_eq_ok {status : StackRuntimeStatus}
    (h : status.validate = .ok ()) : status.Valid := by
  simp only [validate, bind_eq_ok, exists_unit] at h
  obtain ⟨-, hscan⟩ := h
  cases hfold : status.replicas.foldlM scanReplica none with
  | error error =>
    rw [hfold] at hscan
    cases hscan
  | ok last =>
    obtain ⟨hvalid, -, hsorted⟩ := foldlM_scanReplica hfold
    exact ⟨hvalid, hsorted⟩

/-! ## Events of a status -/

/-- A call of one of the methods that change a status. -/
inductive StatusEvent where
  | beginStart (id : ReplicaId) (runId : String)
  | markRunning (id : ReplicaId) (runId : String)
  | markProbeSignal (id : ReplicaId) (runId : String) (sequence : UInt64) (kind : ProbeSignalKind)
  | markProbeTimeout (id : ReplicaId) (runId : String)
  | markExit (id : ReplicaId) (runId : String) (success : Bool) (exitCode : Option Int)
      (detail : String)
  | markDrained (id : ReplicaId) (runId : Option String)
  | recoverInterrupted
  | heartbeat

/-- The replica that an event starts. -/
def StatusEvent.Starts : StatusEvent → ReplicaId → Prop
  | .beginStart id _, other => other = id
  | _, _ => False

/-! ## Transitions -/

namespace ReplicaRuntime

/-- The replica has a worker, or has had one and waits for the next. -/
def Live (replica : ReplicaRuntime) : Prop :=
  replica.phase = .starting ∨ replica.phase = .running ∨ replica.phase = .backoff

/-- What a transition does to a replica: its identity stays, a place that it has given up is not
taken again, and it comes to life by a start only. -/
structure Follows (starts : ReplicaId → Prop) (before after : ReplicaRuntime) : Prop where
  id_eq : after.id = before.id
  occupying : after.Occupying → before.Occupying
  live : after.Live → before.Live ∨ starts before.id

variable {starts : ReplicaId → Prop} {before after : ReplicaRuntime}

section

omit [HexCodec] [Sha256]

theorem Follows.refl (replica : ReplicaRuntime) : Follows starts replica replica :=
  ⟨rfl, fun h => h, .inl⟩

/-- Whatever happens to a replica with a worker, it occupied its place before. -/
theorem Follows.of_active (h : before.Active) (hid : after.id = before.id) :
    Follows starts before after :=
  ⟨hid, fun _ => .inr (h.imp_right .inl), fun _ => .inl (h.imp_right .inl)⟩

theorem Follows.of_stopped (hid : after.id = before.id) (hphase : after.phase = .stopped) :
    Follows starts before after :=
  ⟨hid, fun h => by simp [Occupying, hphase] at h, fun h => by simp [Live, hphase] at h⟩

/-- A replica that may be started occupies its place. -/
theorem Eligible.occupying {replica : ReplicaRuntime} {nowMs : UInt64}
    (h : replica.Eligible nowMs) : replica.Occupying := by
  unfold Eligible at h
  unfold Occupying
  split at h <;> simp_all

/-- The replica after the start of a run. -/
def started (runId : String) (nowMs : UInt64) (replica : ReplicaRuntime) : ReplicaRuntime :=
  { replica with
    attempt := replica.attempt + 1, phase := .starting, runId := some runId
    startedAtMs := some nowMs, finishedAtMs := none, nextStartAtMs := none, lastExitCode := none
    detail := none, probe := replica.probe.map fun _ => {} }

/-- What an event can do to a replica. -/
inductive Moves (event : StatusEvent) (replica : ReplicaRuntime) : ReplicaRuntime → Prop where
  | keep : Moves event replica replica
  | start (runId : String) {nowMs : UInt64} (hstarts : event.Starts replica.id)
      (heligible : replica.Eligible nowMs) : Moves event replica (replica.started runId nowMs)
  | run (hphase : replica.phase = .starting) :
      Moves event replica { replica with phase := .running }
  | signal {phase : ReplicaPhase} {before after : ReplicaProbeRuntime} (hactive : replica.Active)
      (hprobe : replica.probe = some before) (hsequence : before.lastSequence ≤ after.lastSequence) :
      Moves event replica { replica with phase, probe := some after }
  | leave {phase : ReplicaPhase} {finishedAtMs nextStartAtMs : Option UInt64}
      {lastExitCode : Option Int} {detail : Option String}
      (hplace : replica.Active ∨ phase = .stopped) :
      Moves event replica { replica with
        phase, runId := none, finishedAtMs, nextStartAtMs, lastExitCode, detail }

/-- A move is a transition of the replica. -/
theorem Moves.follows {event : StatusEvent} (h : Moves event before after) :
    Follows event.Starts before after := by
  cases h with
  | keep => exact .refl _
  | start runId hstarts heligible =>
    exact ⟨rfl, fun _ => heligible.occupying, fun _ => .inr hstarts⟩
  | run hphase => exact .of_active (.inl hphase) rfl
  | signal hactive => exact .of_active hactive rfl
  | leave hplace =>
    rcases hplace with hactive | rfl
    · exact .of_active hactive rfl
    · exact .of_stopped rfl rfl

variable {event : StatusEvent}

/-- A start changes nothing, or begins the next attempt of a replica that is meant to run. -/
theorem beginStart_cases (runId : String) (nowMs : UInt64) (replica : ReplicaRuntime) :
    (∃ error, replica.beginStart runId nowMs = (.error error, replica))
      ∨ replica.Eligible nowMs ∧ replica.desired = .running
        ∧ replica.attempt + 1 ≤ replica.maxRestarts + 1
        ∧ replica.beginStart runId nowMs
          = (.ok (replica.attempt + 1), replica.started runId nowMs) := by
  unfold beginStart
  split
  · exact .inl ⟨_, rfl⟩
  · rename_i heligible
    simp only [not_or, not_not] at heligible
    cases hattempt : checkedAddShort replica.attempt 1 with
    | none => exact .inl ⟨_, rfl⟩
    | some attempt =>
      obtain ⟨-, rfl⟩ := checkedAddShort_eq_some.mp hattempt
      dsimp only
      split_ifs with hbudget
      · exact .inl ⟨_, rfl⟩
      · exact .inr ⟨heligible.1, heligible.2, not_lt.mp hbudget, rfl⟩

theorem beginStart_moves (runId : String) (nowMs : UInt64) (replica : ReplicaRuntime)
    (hstarts : event.Starts replica.id) :
    Moves event replica (replica.beginStart runId nowMs).2 := by
  rcases replica.beginStart_cases runId nowMs with ⟨error, hstep⟩ | ⟨heligible, -, -, hstep⟩
  · rw [hstep]
    exact .keep
  · rw [hstep]
    exact .start runId hstarts heligible

theorem markRunning_moves (runId : String) (replica : ReplicaRuntime) :
    Moves event replica (replica.markRunning runId).2 := by
  unfold markRunning
  split_ifs with hstale hprobe
  · exact .keep
  · exact .keep
  · exact .run (by_contra fun hphase => hstale (.inl hphase))

/-- A failure is counted in the health record. -/
theorem countFailure_probe (replica : ReplicaRuntime) (probe : ReplicaProbeRuntime) :
    ∃ after, (replica.countFailure probe).2 = { replica with probe := some after }
      ∧ after.lastSequence = probe.lastSequence := by
  unfold countFailure
  split
  · exact ⟨_, rfl, rfl⟩
  · dsimp only
    split <;> exact ⟨_, rfl, rfl⟩

theorem countFailure_moves {replica : ReplicaRuntime} {before probe : ReplicaProbeRuntime}
    (hactive : replica.Active) (hprobe : replica.probe = some before)
    (hsequence : before.lastSequence ≤ probe.lastSequence) :
    Moves event replica (replica.countFailure probe).2 := by
  obtain ⟨after, heq, hafter⟩ := replica.countFailure_probe probe
  rw [heq]
  exact .signal hactive hprobe (hafter ▸ hsequence)

theorem markProbeSignal_moves (runId : String) (sequence : UInt64) (kind : ProbeSignalKind)
    (nowMs : UInt64) (replica : ReplicaRuntime) :
    Moves event replica (replica.markProbeSignal runId sequence kind nowMs).2 := by
  unfold markProbeSignal
  split_ifs with hactive
  · cases hprobe : replica.probe with
    | none => exact .keep
    | some probe =>
      dsimp only
      split_ifs with hreplay
      · exact .keep
      · have hsequence : probe.lastSequence ≤ sequence :=
          UInt64.le_of_lt (UInt64.not_le.mp hreplay)
        cases kind with
        | unhealthy => exact countFailure_moves hactive.1 hprobe hsequence
        | _ => exact .signal hactive.1 hprobe hsequence
  · exact .keep

theorem markProbeTimeout_moves (runId : String) (replica : ReplicaRuntime) :
    Moves event replica (replica.markProbeTimeout runId).2 := by
  unfold markProbeTimeout
  split_ifs with hactive
  · cases hprobe : replica.probe with
    | none => exact .keep
    | some probe => exact countFailure_moves hactive.1 hprobe (UInt64.le_refl _)
  · exact .keep

theorem markDrained_moves (runId : Option String) (nowMs : UInt64) (replica : ReplicaRuntime) :
    Moves event replica (replica.markDrained runId nowMs).2 := by
  unfold markDrained
  split_ifs
  · exact .keep
  · exact .leave (.inr rfl)

end

omit [HexCodec]

theorem finishReplica_moves {event : StatusEvent} (replica : ReplicaRuntime)
    (hactive : replica.Active) (success : Bool) (exitCode : Option Int) (detail : String)
    (nowMs : UInt64) : Moves event replica (replica.finishReplica success exitCode detail nowMs) := by
  unfold finishReplica
  dsimp only
  split <;> split <;> exact .leave (.inl hactive)

theorem markExit_moves {event : StatusEvent} (runId : String) (success : Bool)
    (exitCode : Option Int) (detail : String) (nowMs : UInt64) (replica : ReplicaRuntime) :
    Moves event replica (replica.markExit runId success exitCode detail nowMs).2 := by
  unfold markExit
  split_ifs with hactive
  · exact replica.finishReplica_moves hactive.1 _ _ _ _
  · exact .keep

end ReplicaRuntime

namespace StackRuntimeStatus

/-- The status after an event, whether or not the method succeeded. -/
def after (event : StatusEvent) (nowMs : UInt64) (status : StackRuntimeStatus) :
    StackRuntimeStatus :=
  match event with
  | .beginStart id runId => (status.beginStart id runId nowMs).2
  | .markRunning id runId => (status.markRunning id runId nowMs).2
  | .markProbeSignal id runId sequence kind =>
    (status.markProbeSignal id runId sequence kind nowMs).2
  | .markProbeTimeout id runId => (status.markProbeTimeout id runId nowMs).2
  | .markExit id runId success exitCode detail =>
    (status.markExit id runId success exitCode detail nowMs).2
  | .markDrained id runId => (status.markDrained id runId nowMs).2
  | .recoverInterrupted => (status.recoverInterrupted nowMs).2
  | .heartbeat => (status.heartbeat nowMs).2

theorem replicas_observe {α : Type} (nowMs : UInt64) (result : Except String α)
    (status : StackRuntimeStatus) : (observe nowMs result status).2.replicas = status.replicas := by
  cases result <;> rfl

/-- A method for one replica changes that replica at most. -/
theorem forall₂_transition {α : Type} {R : ReplicaRuntime → ReplicaRuntime → Prop} (invalid : Prop)
    [Decidable invalid] (error : String) (id : ReplicaId)
    (step : ReplicaRuntime → Except String α × ReplicaRuntime) (nowMs : UInt64)
    (status : StackRuntimeStatus) (hrefl : ∀ replica, R replica replica)
    (hstep : ∀ replica, replica.id = id → R replica (step replica).2) :
    List.Forall₂ R status.replicas
      (status.transition invalid error id step nowMs).2.replicas := by
  unfold transition
  split
  · exact List.forall₂_same.mpr fun replica _ => hrefl replica
  · dsimp only
    rw [replicas_observe]
    exact forall₂_updateFirst hrefl hstep _

/-- A recovery finishes the replicas that have a worker. -/
theorem forall₂_recoverInterrupted {R : ReplicaRuntime → ReplicaRuntime → Prop} (nowMs : UInt64)
    (status : StackRuntimeStatus) (hrefl : ∀ replica, R replica replica)
    (hfinish : ∀ replica : ReplicaRuntime, replica.Active → R replica (replica.finishReplica false
      none "previous supervisor exited before the worker" nowMs)) :
    List.Forall₂ R status.replicas (status.recoverInterrupted nowMs).2.replicas := by
  have hmap : List.Forall₂ R status.replicas (status.replicas.map fun replica =>
      if replica.Active then
        replica.finishReplica false none "previous supervisor exited before the worker" nowMs
      else replica) := by
    rw [List.forall₂_map_right_iff, List.forall₂_same]
    intro replica _
    split_ifs with hactive
    · exact hfinish replica hactive
    · exact hrefl replica
  unfold recoverInterrupted
  dsimp only
  split_ifs
  · exact List.forall₂_same.mpr fun replica _ => hrefl replica
  · rw [replicas_observe]
    exact hmap
  · exact hmap

theorem replicas_heartbeat (nowMs : UInt64) (status : StackRuntimeStatus) :
    (status.heartbeat nowMs).2.replicas = status.replicas := by
  unfold heartbeat
  split_ifs
  · rfl
  · exact replicas_observe _ _ _

open ReplicaRuntime in
/-- Every event of a status moves each of its replicas. -/
theorem after_moves (event : StatusEvent) (nowMs : UInt64) (status : StackRuntimeStatus) :
    List.Forall₂ (Moves event) status.replicas (status.after event nowMs).replicas := by
  have hkeep : ∀ replica, Moves event replica replica := fun _ => .keep
  cases event with
  | beginStart id runId =>
    exact forall₂_transition _ _ _ _ _ _ hkeep fun replica hid =>
      replica.beginStart_moves runId nowMs hid
  | markRunning id runId =>
    exact forall₂_transition _ _ _ _ _ _ hkeep fun replica _ => replica.markRunning_moves runId
  | markProbeSignal id runId sequence kind =>
    exact forall₂_transition _ _ _ _ _ _ hkeep fun replica _ =>
      replica.markProbeSignal_moves runId sequence kind nowMs
  | markProbeTimeout id runId =>
    exact forall₂_transition _ _ _ _ _ _ hkeep fun replica _ => replica.markProbeTimeout_moves runId
  | markExit id runId success exitCode detail =>
    exact forall₂_transition _ _ _ _ _ _ hkeep fun replica _ =>
      replica.markExit_moves runId success exitCode detail nowMs
  | markDrained id runId =>
    exact forall₂_transition _ _ _ _ _ _ hkeep fun replica _ =>
      replica.markDrained_moves runId nowMs
  | recoverInterrupted =>
    exact forall₂_recoverInterrupted _ _ hkeep fun replica hactive =>
      replica.finishReplica_moves hactive _ _ _ _
  | heartbeat =>
    show List.Forall₂ _ _ (status.heartbeat nowMs).2.replicas
    rw [replicas_heartbeat]
    exact List.forall₂_same.mpr fun replica _ => hkeep replica

open ReplicaRuntime in
/-- Every event of a status is a transition of each of its replicas. -/
theorem after_follows (event : StatusEvent) (nowMs : UInt64) (status : StackRuntimeStatus) :
    List.Forall₂ (Follows event.Starts) status.replicas (status.after event nowMs).replicas :=
  (after_moves event nowMs status).imp fun _ _ hmoves => hmoves.follows

end StackRuntimeStatus

end CartridgeRuntime.Engine
