import CartridgeRuntime.Engine.Lifecycle

/-!
# Run fencing

Messages of the workers are labelled with the run that they belong to, and may arrive in any order.
`StackRuntimeStatus.run_fencing` says that after any calls, whether or not they have succeeded, a
message of another run than the current one is rejected and changes nothing, and that the sequence
numbers of the signals that are accepted for one run increase.
-/

namespace CartridgeRuntime.Engine

open Checked CartridgeRuntime.Core Encoding

/-- The replica and the run that a message is labelled with. -/
def StatusEvent.label : StatusEvent → Option (ReplicaId × String)
  | .markRunning id runId => some (id, runId)
  | .markProbeSignal id runId _ _ => some (id, runId)
  | .markProbeTimeout id runId => some (id, runId)
  | .markExit id runId _ _ _ => some (id, runId)
  | .markDrained id runId => runId.map fun run => (id, run)
  | _ => none

namespace StackRuntimeStatus

variable [HexCodec] [Sha256]

/-- The status after a sequence of calls, whether or not they have succeeded. -/
def run (status : StackRuntimeStatus) (calls : List (StatusEvent × UInt64)) : StackRuntimeStatus :=
  calls.foldl (fun status call => status.after call.1 call.2) status

omit [HexCodec] [Sha256] in
/-- The replica with an identity. -/
def replica? (status : StackRuntimeStatus) (id : ReplicaId) : Option ReplicaRuntime :=
  status.replicas.find? fun replica => replica.id = id

/-- The runs of a replica that begin during a sequence of calls: those that it has when its attempts
have been counted up. -/
def newRuns (id : ReplicaId) : StackRuntimeStatus → List (StatusEvent × UInt64) → List String
  | _, [] => []
  | status, (event, nowMs) :: rest =>
    let next := status.after event nowMs
    if (next.replica? id).map (·.attempt) = (status.replica? id).map (·.attempt) then
      newRuns id next rest
    else ((next.replica? id).bind (·.runId)).toList ++ newRuns id next rest

/-- The runs of a replica: the one that it is in, and those that begin. -/
def runs (id : ReplicaId) (status : StackRuntimeStatus) (calls : List (StatusEvent × UInt64)) :
    List String :=
  ((status.replica? id).bind (·.runId)).toList ++ newRuns id status calls

/-- The sequence numbers of the signals of one run that are accepted during a sequence of calls. -/
def acceptedSignals (id : ReplicaId) (runId : String) :
    StackRuntimeStatus → List (StatusEvent × UInt64) → List UInt64
  | _, [] => []
  | status, (event, nowMs) :: rest =>
    let later := acceptedSignals id runId (status.after event nowMs) rest
    match event with
    | .markProbeSignal id' runId' sequence _ =>
      if id' = id ∧ runId' = runId ∧ status.outcome event nowMs = .ok () then sequence :: later
      else later
    | _ => later

end StackRuntimeStatus

/-! ## Messages of another run -/

namespace ReplicaRuntime

variable {replica : ReplicaRuntime} {runId : String}

theorem markRunning_stale (h : replica.runId ≠ some runId) :
    ∃ error, replica.markRunning runId = (.error error, replica) := by
  rw [markRunning, if_pos (.inr h)]
  exact ⟨_, rfl⟩

theorem markProbeSignal_stale (h : replica.runId ≠ some runId) (sequence : UInt64)
    (kind : ProbeSignalKind) (nowMs : UInt64) :
    ∃ error, replica.markProbeSignal runId sequence kind nowMs = (.error error, replica) := by
  rw [markProbeSignal, if_pos fun hactive => h hactive.2]
  exact ⟨_, rfl⟩

theorem markProbeTimeout_stale (h : replica.runId ≠ some runId) :
    ∃ error, replica.markProbeTimeout runId = (.error error, replica) := by
  rw [markProbeTimeout, if_pos fun hactive => h hactive.2]
  exact ⟨_, rfl⟩

theorem markExit_stale [Sha256] (h : replica.runId ≠ some runId) (success : Bool)
    (exitCode : Option Int) (detail : String) (nowMs : UInt64) :
    ∃ error, replica.markExit runId success exitCode detail nowMs = (.error error, replica) := by
  rw [markExit, if_pos fun hactive => h hactive.2]
  exact ⟨_, rfl⟩

theorem markDrained_stale (h : replica.runId ≠ some runId) (nowMs : UInt64) :
    ∃ error, replica.markDrained (some runId) nowMs = (.error error, replica) := by
  unfold markDrained
  split
  · exact ⟨_, rfl⟩
  · rename_i haccepted
    simp only [not_or, not_and, not_not] at haccepted
    obtain ⟨-, -, hactive, hrun⟩ := haccepted
    exact absurd (hrun (hactive.mpr rfl)) h

end ReplicaRuntime

namespace StackRuntimeStatus

variable [HexCodec] [Sha256] {status : StackRuntimeStatus}

variable {id : ReplicaId}

/-- A call for one replica does nothing if the step of that replica does nothing. -/
theorem transition_rejected {α : Type} {invalid : Prop} [Decidable invalid] {error : String}
    {step : ReplicaRuntime → Except String α × ReplicaRuntime} {nowMs : UInt64}
    (h : ∀ replica ∈ status.replicas, replica.id = id →
      ∃ error, step replica = (.error error, replica)) :
    (∃ error', (status.transition invalid error id step nowMs).1 = .error error')
      ∧ (status.transition invalid error id step nowMs).2 = status := by
  rcases transition_cases invalid error id step nowMs status with
    ⟨-, error', heq⟩ | ⟨before, replica, rest, -, hsplit, -, hid, heq⟩
  · rw [heq]
    exact ⟨⟨error', rfl⟩, rfl⟩
  · obtain ⟨error', hstep⟩ := h replica (by simp [hsplit]) hid
    rw [heq, hstep]
    refine ⟨⟨error', rfl⟩, ?_⟩
    show { status with replicas := before ++ replica :: rest } = status
    rw [← hsplit]

open ReplicaRuntime in
/-- A message of another run than the current one is rejected and changes nothing. -/
theorem stale_rejected {event : StatusEvent} {runId : String}
    (hlabel : event.label = some (id, runId))
    (hstale : ∀ replica ∈ status.replicas, replica.id = id → replica.runId ≠ some runId)
    (nowMs : UInt64) :
    (∃ error, status.outcome event nowMs = .error error) ∧ status.after event nowMs = status := by
  cases event with
  | markRunning id' runId' =>
    obtain ⟨rfl, rfl⟩ := Prod.mk.inj (Option.some.inj hlabel)
    exact transition_rejected fun replica hmem hid => markRunning_stale (hstale replica hmem hid)
  | markProbeSignal id' runId' sequence kind =>
    obtain ⟨rfl, rfl⟩ := Prod.mk.inj (Option.some.inj hlabel)
    exact transition_rejected fun replica hmem hid =>
      markProbeSignal_stale (hstale replica hmem hid) sequence kind nowMs
  | markProbeTimeout id' runId' =>
    obtain ⟨rfl, rfl⟩ := Prod.mk.inj (Option.some.inj hlabel)
    have hrejected : (∃ error, (status.markProbeTimeout id' runId' nowMs).1 = .error error)
        ∧ (status.markProbeTimeout id' runId' nowMs).2 = status :=
      transition_rejected fun replica hmem hid => markProbeTimeout_stale (hstale replica hmem hid)
    obtain ⟨⟨error, herror⟩, hsame⟩ := hrejected
    exact ⟨⟨error, discard_eq_error.mpr herror⟩, hsame⟩
  | markExit id' runId' success exitCode detail =>
    obtain ⟨rfl, rfl⟩ := Prod.mk.inj (Option.some.inj hlabel)
    exact transition_rejected fun replica hmem hid =>
      markExit_stale (hstale replica hmem hid) success exitCode detail nowMs
  | markDrained id' runId' =>
    obtain ⟨run, rfl, hpair⟩ := Option.map_eq_some_iff.mp hlabel
    obtain ⟨rfl, rfl⟩ := Prod.mk.inj hpair
    exact transition_rejected fun replica hmem hid =>
      markDrained_stale (hstale replica hmem hid) nowMs
  | beginStart | recoverInterrupted | heartbeat => cases hlabel

/-- A signal that was replayed or comes too late is rejected and changes nothing. -/
theorem replayed_rejected {sequence : UInt64} (hold : ∀ replica ∈ status.replicas, replica.id = id →
      ∀ probe ∈ replica.probe, sequence ≤ probe.lastSequence) (runId : String)
    (kind : ProbeSignalKind) (nowMs : UInt64) :
    (∃ error, status.outcome (.markProbeSignal id runId sequence kind) nowMs = .error error)
      ∧ status.after (.markProbeSignal id runId sequence kind) nowMs = status := by
  refine transition_rejected fun replica hmem hid => ?_
  unfold ReplicaRuntime.markProbeSignal
  split
  · exact ⟨_, rfl⟩
  · cases hprobe : replica.probe with
    | none => exact ⟨_, rfl⟩
    | some probe =>
      dsimp only
      rw [if_pos (hold replica hmem hid probe hprobe)]
      exact ⟨_, rfl⟩

end StackRuntimeStatus

/-! ## Signals of one run -/

namespace ReplicaRuntime

/-- What a call leaves of a replica that it does not start: the run, or none, and at least as high a
sequence number. -/
structure Continues (before after : ReplicaRuntime) : Prop where
  run : after.runId = before.runId ∨ after.runId = none
  sequence : ∀ probe ∈ before.probe, ∃ later ∈ after.probe,
    probe.lastSequence ≤ later.lastSequence

variable {replica : ReplicaRuntime}

/-- A change of other fields. -/
theorem Continues.of_probe {after : ReplicaRuntime}
    (hrun : after.runId = replica.runId ∨ after.runId = none)
    (hprobe : after.probe = replica.probe) : Continues replica after :=
  ⟨hrun, fun probe hmem => ⟨probe, hprobe ▸ hmem, UInt64.le_refl _⟩⟩

theorem Continues.refl (replica : ReplicaRuntime) : Continues replica replica :=
  .of_probe (.inl rfl) rfl

/-- A change of the health record. -/
theorem Continues.of_signal {before after : ReplicaProbeRuntime} {phase : ReplicaPhase}
    (hprobe : replica.probe = some before) (hsequence : before.lastSequence ≤ after.lastSequence) :
    Continues replica { replica with phase, probe := some after } := by
  refine ⟨.inl rfl, fun probe hmem => ⟨after, rfl, ?_⟩⟩
  obtain rfl : before = probe := Option.some.inj (hprobe.symm.trans hmem)
  exact hsequence

/-- A signal that is accepted is one of the current run, is newer than those before it, and is
recorded. -/
theorem markProbeSignal_accepted {runId : String} {sequence : UInt64} {kind : ProbeSignalKind}
    {nowMs : UInt64} (h : (replica.markProbeSignal runId sequence kind nowMs).1 = .ok ()) :
    replica.runId = some runId ∧ (∃ probe ∈ replica.probe, probe.lastSequence < sequence)
      ∧ ∃ probe ∈ (replica.markProbeSignal runId sequence kind nowMs).2.probe,
        probe.lastSequence = sequence := by
  unfold markProbeSignal at h ⊢
  split_ifs at h ⊢ with hactive
  · refine ⟨hactive.2, ?_⟩
    cases hprobe : replica.probe with
    | none => simp [hprobe] at h
    | some probe =>
      simp only [hprobe] at h ⊢
      split_ifs at h ⊢ with hreplay
      · refine ⟨⟨probe, rfl, UInt64.not_le.mp hreplay⟩, ?_⟩
        cases kind with
        | unhealthy =>
          obtain ⟨after, heq, hafter⟩ := replica.countFailure_probe _
          exact ⟨after, congrArg ReplicaRuntime.probe heq, hafter⟩
        | _ => exact ⟨_, rfl, rfl⟩

/-- What a call does to a replica: it goes on, or its next attempt begins. -/
structure Proceeds (before after : ReplicaRuntime) : Prop where
  id_eq : after.id = before.id
  next : after.attempt = before.attempt ∧ Continues before after
    ∨ after.attempt = before.attempt + 1

/-- A move goes on with the run, or begins the next attempt. -/
theorem Moves.proceeds {event : StatusEvent} {before after : ReplicaRuntime}
    (h : Moves event before after) : Proceeds before after := by
  cases h with
  | keep => exact ⟨rfl, .inl ⟨rfl, .refl _⟩⟩
  | start => exact ⟨rfl, .inr rfl⟩
  | run => exact ⟨rfl, .inl ⟨rfl, .of_probe (.inl rfl) rfl⟩⟩
  | signal hactive hprobe hsequence => exact ⟨rfl, .inl ⟨rfl, .of_signal hprobe hsequence⟩⟩
  | leave => exact ⟨rfl, .inl ⟨rfl, .of_probe (.inr rfl) rfl⟩⟩

end ReplicaRuntime

namespace StackRuntimeStatus

open ReplicaRuntime

variable [HexCodec] [Sha256] {status : StackRuntimeStatus}

/-- The replica with an identity after a call. -/
theorem replica?_after (id : ReplicaId) (event : StatusEvent) (nowMs : UInt64)
    (status : StackRuntimeStatus) :
    (status.replica? id = none ∧ (status.after event nowMs).replica? id = none)
      ∨ ∃ before after, status.replica? id = some before
        ∧ (status.after event nowMs).replica? id = some after ∧ Proceeds before after :=
  find?_of_forall₂ (fun _ _ hproceeds => by rw [hproceeds.id_eq])
    ((after_moves event nowMs status).imp fun _ _ hmoves => hmoves.proceeds)

/-- The replica is in another run, or has signalled at least this sequence number. -/
def SignalledTo (id : ReplicaId) (runId : String) (sequence : UInt64)
    (status : StackRuntimeStatus) : Prop :=
  ∀ replica ∈ status.replica? id, replica.runId = some runId →
    ∃ probe ∈ replica.probe, sequence ≤ probe.lastSequence

variable {id : ReplicaId}

/-- A signal that is accepted is one of the current run, and newer than those before it. -/
theorem signal_accepted {runId : String} {sequence : UInt64} {kind : ProbeSignalKind}
    {nowMs : UInt64} (h : status.outcome (.markProbeSignal id runId sequence kind) nowMs = .ok ()) :
    (∃ replica ∈ status.replica? id, replica.runId = some runId
        ∧ ∃ probe ∈ replica.probe, probe.lastSequence < sequence)
      ∧ SignalledTo id runId sequence
          (status.after (.markProbeSignal id runId sequence kind) nowMs) := by
  have h : (status.markProbeSignal id runId sequence kind nowMs).1 = .ok () := h
  show _ ∧ SignalledTo id runId sequence (status.markProbeSignal id runId sequence kind nowMs).2
  unfold markProbeSignal at h ⊢
  rcases transition_cases (nowMs < status.observedAtMs)
    "runtime observation time cannot move backwards" id
    (ReplicaRuntime.markProbeSignal runId sequence kind nowMs) nowMs status with
    ⟨-, _, heq⟩ | ⟨before, replica, rest, -, hsplit, hbefore, hid, heq⟩
  · rw [heq] at h
    cases h
  · rw [heq] at h ⊢
    have hstep : (replica.markProbeSignal runId sequence kind nowMs).1 = .ok () := by
      cases hresult : (replica.markProbeSignal runId sequence kind nowMs).1 with
      | ok _ => rfl
      | error error =>
        rw [hresult] at h
        cases h
    obtain ⟨hrun, hprobe, later, hlater, hsequence⟩ := markProbeSignal_accepted hstep
    have hfind : ∀ found : ReplicaRuntime, found.id = id →
        (before ++ found :: rest).find? (fun replica => replica.id = id) = some found := by
      intro found hfound
      have hnone : before.find? (fun replica => replica.id = id) = none :=
        List.find?_eq_none.mpr fun other hother => by simpa using hbefore other hother
      simp [List.find?_append, hnone, hfound]
    refine ⟨⟨replica, ?_, hrun, hprobe⟩, fun found hfound _ =>
      ⟨later, ?_, hsequence ▸ UInt64.le_refl _⟩⟩
    · rw [Option.mem_def, replica?, hsplit]
      exact hfind replica hid
    · have hmoves : Moves (.markProbeSignal id runId sequence kind) replica _ :=
        replica.markProbeSignal_moves runId sequence kind nowMs
      rw [Option.mem_def, replica?, replicas_observe] at hfound
      rw [hfind _ (hmoves.proceeds.id_eq.trans hid)] at hfound
      rw [← Option.some.inj hfound]
      exact hlater

/-- What a call does to the replica with an identity and to the list of its runs: there is none, it
goes on, or a run begins. -/
theorem newRuns_cons (id : ReplicaId) (event : StatusEvent) (nowMs : UInt64)
    (status : StackRuntimeStatus) (rest : List (StatusEvent × UInt64)) :
    let next := status.after event nowMs
    (next.replica? id = none ∧ newRuns id status ((event, nowMs) :: rest) = newRuns id next rest)
      ∨ ∃ before after, status.replica? id = some before ∧ next.replica? id = some after
        ∧ ((Continues before after
            ∧ newRuns id status ((event, nowMs) :: rest) = newRuns id next rest)
          ∨ newRuns id status ((event, nowMs) :: rest)
            = after.runId.toList ++ newRuns id next rest) := by
  intro next
  rcases replica?_after id event nowMs status with
    ⟨hbefore, hafter⟩ | ⟨before, after, hbefore, hafter, hproceeds⟩
  · refine .inl ⟨hafter, ?_⟩
    simp [newRuns, hbefore, hafter, next]
  · refine .inr ⟨before, after, hbefore, hafter, ?_⟩
    rcases hproceeds.next with ⟨hattempt, hcontinues⟩ | hattempt
    · exact .inl ⟨hcontinues, by simp [newRuns, hbefore, hafter, hattempt, next]⟩
    · exact .inr (by simp [newRuns, hbefore, hafter, hattempt, next])

theorem newRuns_sublist (id : ReplicaId) (event : StatusEvent) (nowMs : UInt64)
    (status : StackRuntimeStatus) (rest : List (StatusEvent × UInt64)) :
    (newRuns id (status.after event nowMs) rest).Sublist
      (newRuns id status ((event, nowMs) :: rest)) := by
  rcases newRuns_cons id event nowMs status rest with
    ⟨-, hruns⟩ | ⟨before, after, -, -, ⟨-, hruns⟩ | hruns⟩
  · rw [hruns]
  · rw [hruns]
  · rw [hruns]
    exact List.sublist_append_right _ _

/-- A call keeps the sequence number that was reached, unless the run begins again. -/
theorem SignalledTo.after {id : ReplicaId} {runId : String} {sequence : UInt64}
    {event : StatusEvent} {nowMs : UInt64} {rest : List (StatusEvent × UInt64)}
    (h : SignalledTo id runId sequence status)
    (hnew : runId ∉ newRuns id status ((event, nowMs) :: rest)) :
    SignalledTo id runId sequence (status.after event nowMs) := by
  intro replica hmem hrun
  rcases newRuns_cons id event nowMs status rest with
    ⟨hafter, hruns⟩ | ⟨before, after, hbefore, hafter, ⟨hcontinues, hruns⟩ | hruns⟩
  · rw [hafter] at hmem
    cases hmem
  · obtain rfl : after = replica := Option.some.inj (hafter.symm.trans hmem)
    have hcurrent : before.runId = some runId := by
      rcases hcontinues.run with hsame | hnone
      · exact hsame.symm.trans hrun
      · rw [hnone] at hrun
        cases hrun
    obtain ⟨probe, hprobe, hle⟩ := h before hbefore hcurrent
    obtain ⟨later, hlater, hle'⟩ := hcontinues.sequence probe hprobe
    exact ⟨later, hlater, UInt64.le_trans hle hle'⟩
  · obtain rfl : after = replica := Option.some.inj (hafter.symm.trans hmem)
    -- a new attempt in the same run is excluded
    exact absurd (by simp [hruns, hrun]) hnew

/-- The signals of a call and those of the calls after it. -/
theorem acceptedSignals_cons (id : ReplicaId) (runId : String) (event : StatusEvent)
    (nowMs : UInt64) (status : StackRuntimeStatus) (rest : List (StatusEvent × UInt64)) :
    acceptedSignals id runId status ((event, nowMs) :: rest)
        = acceptedSignals id runId (status.after event nowMs) rest
      ∨ ∃ sequence kind, event = .markProbeSignal id runId sequence kind
        ∧ status.outcome event nowMs = .ok ()
        ∧ acceptedSignals id runId status ((event, nowMs) :: rest)
          = sequence :: acceptedSignals id runId (status.after event nowMs) rest := by
  cases event with
  | markProbeSignal id' runId' sequence kind =>
    by_cases haccepted : id' = id ∧ runId' = runId
        ∧ status.outcome (.markProbeSignal id' runId' sequence kind) nowMs = .ok ()
    · obtain ⟨rfl, rfl, hok⟩ := haccepted
      exact .inr ⟨sequence, kind, rfl, hok, if_pos ⟨rfl, rfl, hok⟩⟩
    · exact .inl (if_neg haccepted)
  | _ => exact .inl rfl

/-- Later signals of a run have higher numbers, unless the run begins again. -/
theorem lt_of_mem_acceptedSignals {runId : String} {sequence : UInt64}
    {calls : List (StatusEvent × UInt64)} (hsignalled : SignalledTo id runId sequence status)
    (hnew : runId ∉ newRuns id status calls) :
    ∀ later ∈ acceptedSignals id runId status calls, sequence < later := by
  induction calls generalizing status with
  | nil =>
    intro later hlater
    cases hlater
  | cons call rest ih =>
    obtain ⟨event, nowMs⟩ := call
    have hafter := hsignalled.after hnew
    have hrest := fun hmem => hnew ((newRuns_sublist id event nowMs status rest).subset hmem)
    rcases acceptedSignals_cons id runId event nowMs status rest with
      heq | ⟨number, kind, rfl, hok, heq⟩
    · rw [heq]
      exact ih hafter hrest
    · rw [heq]
      obtain ⟨⟨replica, hmem, hrun, probe, hprobe, hlt⟩, -⟩ := signal_accepted hok
      obtain ⟨reached, hreached, hle⟩ := hsignalled replica hmem hrun
      obtain rfl : reached = probe := Option.some.inj (hreached.symm.trans hprobe)
      exact List.forall_mem_cons.mpr ⟨UInt64.lt_of_le_of_lt hle hlt, ih hafter hrest⟩

/-- The accepted signals of a run have increasing numbers when the runs of the replica are
distinct. -/
theorem acceptedSignals_increasing {runId : String} {calls : List (StatusEvent × UInt64)}
    (h : (runs id status calls).Nodup) :
    (acceptedSignals id runId status calls).Pairwise (· < ·) := by
  induction calls generalizing status with
  | nil => exact .nil
  | cons call rest ih =>
    obtain ⟨event, nowMs⟩ := call
    have hrest : (runs id (status.after event nowMs) rest).Nodup := by
      refine h.sublist ?_
      unfold runs
      rcases newRuns_cons id event nowMs status rest with
        ⟨hafter, hruns⟩ | ⟨before, after, hbefore, hafter, ⟨hcontinues, hruns⟩ | hruns⟩
      · rw [hruns, hafter]
        exact List.sublist_append_right _ _
      · rw [hruns, hbefore, hafter]
        refine List.Sublist.append_right ?_ _
        show after.runId.toList.Sublist before.runId.toList
        rcases hcontinues.run with hsame | hnone
        · rw [hsame]
        · rw [hnone]
          exact List.nil_sublist _
      · rw [hruns, hafter]
        exact List.sublist_append_right _ _
    rcases acceptedSignals_cons id runId event nowMs status rest with
      heq | ⟨sequence, kind, rfl, hok, heq⟩
    · rw [heq]
      exact ih hrest
    · rw [heq]
      obtain ⟨⟨replica, hmem, hrun, -⟩, hsignalled⟩ := signal_accepted hok
      refine List.pairwise_cons.mpr ⟨lt_of_mem_acceptedSignals hsignalled fun hagain => ?_,
        ih hrest⟩
      -- the run is the current one, so it does not begin again
      rw [runs, Option.mem_def.mp hmem, Option.bind_some, hrun] at h
      exact (List.nodup_cons.mp h).1 ((newRuns_sublist _ _ _ _ _).subset hagain)

/-- After any calls, a message of another run than the current one is rejected and changes nothing,
as is a signal with a sequence number that was reached before; and the sequence numbers of the
signals that are accepted for one run increase, if every attempt of the replica is another run. -/
theorem run_fencing (start : StackRuntimeStatus) (calls : List (StatusEvent × UInt64))
    (id : ReplicaId) (runId : String) :
    (∀ event nowMs, event.label = some (id, runId) →
        (∀ replica ∈ (start.run calls).replicas, replica.id = id → replica.runId ≠ some runId) →
        (∃ error, (start.run calls).outcome event nowMs = .error error)
          ∧ (start.run calls).after event nowMs = start.run calls)
      ∧ (∀ sequence kind nowMs,
        (∀ replica ∈ (start.run calls).replicas, replica.id = id →
          ∀ probe ∈ replica.probe, sequence ≤ probe.lastSequence) →
        (∃ error, (start.run calls).outcome (.markProbeSignal id runId sequence kind) nowMs
          = .error error)
          ∧ (start.run calls).after (.markProbeSignal id runId sequence kind) nowMs
            = start.run calls)
      ∧ ((runs id start calls).Nodup →
        (acceptedSignals id runId start calls).Pairwise (· < ·)) :=
  ⟨fun _ nowMs hlabel hstale => stale_rejected hlabel hstale nowMs,
    fun _ kind nowMs hold => replayed_rejected hold runId kind nowMs, acceptedSignals_increasing⟩

/-- A replica that runs since time 1. -/
def runningReplica (name : String) (ordinal : Nat) : ReplicaRuntime :=
  { id := ⟨name, ordinal⟩
    desired := .running
    restart := .onFailure
    maxRestarts := 3
    attempt := 1
    phase := .running
    runId := some zeroDigest
    startedAtMs := some 1
    finishedAtMs := none
    nextStartAtMs := none
    lastExitCode := none
    detail := none
    probe := none }

/-- The status of a generation of the stack at time 1. -/
def statusOf (revision : UInt64) (replicas : List ReplicaRuntime) :
    StackRuntimeStatus :=
  let unsigned : StackRuntimeStatus :=
    { formatVersion := supervisorStatusFormatVersion
      stack := "s"
      revision
      generation := zeroDigest
      observedAtMs := 1
      replicas
      statusSha256 := "" }
  { unsigned with statusSha256 := unsigned.computedSha256 }

omit [HexCodec] [Sha256] in
/-- A replica in its first run: the exit of an earlier run is rejected, and its signals count up. -/
theorem run_fencing_first_run :
    let _ := nibbleCodec
    let _ := Sha2.sha256
    let start := statusOf 1
      [{ runningReplica "a" 1 with phase := .starting, probe := some {} }]
    let calls : List (StatusEvent × UInt64) :=
      [(.markProbeSignal ⟨"a", 1⟩ zeroDigest 1 .started, 2),
        (.markProbeSignal ⟨"a", 1⟩ zeroDigest 2 .ready, 3)]
    (start.run calls).after (.markExit ⟨"a", 1⟩ "earlier" false none "exited") 4 = start.run calls
      ∧ (runs ⟨"a", 1⟩ start calls).Nodup
      ∧ (acceptedSignals ⟨"a", 1⟩ zeroDigest start calls).Pairwise (· < ·) := by
  intro _ _ start calls
  let probe : ReplicaProbeRuntime :=
    { phase := .ready, lastSequence := 2, lastSignalAtMs := some 3, readyAtMs := some 3 }
  have hreplicas : (start.run calls).replicas = [{ runningReplica "a" 1 with probe := some probe }] :=
    rfl
  have hruns : runs ⟨"a", 1⟩ start calls = [zeroDigest] := rfl
  have hnodup : (runs ⟨"a", 1⟩ start calls).Nodup := hruns ▸ List.nodup_singleton _
  refine ⟨((run_fencing start calls ⟨"a", 1⟩ "earlier").1 _ 4 rfl fun replica hmem _ => ?_).2,
    hnodup, (run_fencing start calls ⟨"a", 1⟩ zeroDigest).2.2 hnodup⟩
  rw [hreplicas] at hmem
  rw [List.mem_singleton.mp hmem]
  exact (by decide : some zeroDigest ≠ some "earlier")

end StackRuntimeStatus

end CartridgeRuntime.Engine
