import CartridgeRuntime.Engine.RollingSafety

/-!
# Rolling updates of one instance do not get stuck

`next_progresses`: when every active candidate is available, no candidate has failed and the deadline
is not reached, the scheduler starts, drains or completes. The surge and the unavailable budget of a
policy are not both zero, so the capacity and the availability cannot both be used up. The scheduler
waits only for a candidate that is not ready or not available.
-/

namespace CartridgeRuntime.Engine

namespace RollingObservation

variable {observation : RollingObservation} {policy : RollingUpdatePolicy}

/-- Nothing is started exactly when all candidates are active or the capacity is used up. -/
theorem startAction_eq_none_iff (hvalid : observation.Valid policy)
    (hterminal : observation.candidateTerminal = ∅) :
    observation.startAction policy = none ↔
      observation.candidateReplicas ≤ observation.candidateActive.card ∨
        observation.policyReplicas + policy.maxSurge
          ≤ observation.previousActive.card + observation.candidateActive.card := by
  have hlength := length_startable hvalid.candidateActive_subset hterminal
  rw [startAction_eq]
  simp only [ite_eq_left_iff, reduceCtorEq, imp_false, not_not]
  rw [← List.length_eq_zero_iff, List.length_take, hlength, startCount]
  omega

/-- Nothing is drained exactly when every active replica is ready and either there is none or the
availability is used up. -/
theorem drainAction_eq_none_iff (hvalid : observation.Valid policy) :
    observation.drainAction policy = none ↔
      observation.previousActive ⊆ observation.previousReady ∧
        (observation.previousReady = ∅ ∨ observation.readyBudget policy = 0) := by
  rw [drainAction_eq policy hvalid.previousReady_subset, ← drainable_eq_nil]
  simp only [ite_eq_left_iff, reduceCtorEq, imp_false, not_not]

theorem orderedAction_eq_none_iff :
    observation.orderedAction policy = none ↔
      observation.startAction policy = none ∧ observation.drainAction policy = none := by
  unfold orderedAction
  split
  · exact Option.or_eq_none_iff
  · exact Option.or_eq_none_iff.trans and_comm

/-- The action of an order is a start or a drain. -/
theorem action_of_orderedAction (hvalid : observation.Valid policy) {action : RollingAction}
    (h : observation.orderedAction policy = some action) :
    action = .startCandidate (observation.startable.take (observation.startCount policy)) ∨
      action = .drainPrevious ((observation.drainable policy).insertionSort (· ≤ ·))
        policy.drainTimeoutMs := by
  have hready := hvalid.previousReady_subset
  unfold orderedAction at h
  split at h
  · rcases Option.or_eq_some_iff.mp h with hstart | ⟨-, hdrain⟩
    · exact .inl (startAction_eq_some hstart).1
    · exact .inr (drainAction_eq_some hready hdrain).1
  · rcases Option.or_eq_some_iff.mp h with hdrain | ⟨-, hstart⟩
    · exact .inr (drainAction_eq_some hready hdrain).1
    · exact .inl (startAction_eq_some hstart).1

/-- If the active candidates are all available and the update is not complete, something can be
started or drained. -/
theorem orderedAction_ne_none (hvalid : observation.Valid policy)
    (hterminal : observation.candidateTerminal = ∅)
    (havailable : observation.candidateActive ⊆ observation.candidateAvailable)
    (hincomplete : ¬ (observation.previousActive = ∅
      ∧ observation.candidateAvailable.card = observation.candidateReplicas)) :
    observation.orderedAction policy ≠ none := by
  intro hnone
  obtain ⟨hstart, hdrain⟩ := orderedAction_eq_none_iff.mp hnone
  obtain ⟨hready, hbudget⟩ := (drainAction_eq_none_iff hvalid).mp hdrain
  have hsame : observation.candidateAvailable = observation.candidateActive :=
    (hvalid.candidateAvailable_subset.trans hvalid.candidateReady_subset).antisymm havailable
  have hcandidates := card_le_of_subset_ordinals hvalid.candidateActive_subset
  have hlarge : observation.candidateReplicas ≤ observation.policyReplicas := le_max_right _ _
  have hcapacity := (startAction_eq_none_iff hvalid hterminal).mp hstart
  have hpolicy := hvalid.policy_valid.budget
  rw [hsame] at hincomplete
  by_cases hempty : observation.previousActive = ∅
  · -- without previous replicas the candidates alone do not use up the capacity
    have hmissing : observation.candidateActive.card ≠ observation.candidateReplicas :=
      fun hcard => hincomplete ⟨hempty, hcard⟩
    rw [hempty, Finset.card_empty] at hcapacity
    omega
  · -- a ready replica that cannot be drained is within the minimum, so the surge has room
    have hprevious : observation.previousReady = observation.previousActive :=
      hvalid.previousReady_subset.antisymm hready
    have hpositive : 0 < observation.previousActive.card := by
      rwa [Finset.card_pos, Finset.nonempty_iff_ne_empty]
    rw [hprevious, readyBudget, hprevious, hsame] at hbudget
    have hspent := hbudget.resolve_left hempty
    omega

/-- The decision when no candidate failed and the deadline is not reached. -/
theorem decision_progresses (hvalid : observation.Valid policy)
    (hterminal : observation.candidateTerminal = ∅)
    (hdeadline : observation.elapsedSinceProgressMs < policy.progressDeadlineMs)
    (havailable : observation.candidateActive ⊆ observation.candidateAvailable) :
    (∃ ordinals, observation.decision policy = .startCandidate ordinals) ∨
      (∃ ordinals timeoutMs, observation.decision policy = .drainPrevious ordinals timeoutMs) ∨
        observation.decision policy = .complete := by
  unfold decision
  rw [if_neg (not_not.mpr hterminal)]
  split
  · exact .inr (.inr rfl)
  · rename_i hincomplete
    rw [if_neg (UInt64.not_le.mpr hdeadline)]
    obtain ⟨action, haction⟩ := Option.ne_none_iff_exists'.mp
      (orderedAction_ne_none hvalid hterminal havailable hincomplete)
    rw [haction, Option.getD_some]
    rcases action_of_orderedAction hvalid haction with rfl | rfl
    · exact .inl ⟨_, rfl⟩
    · exact .inr (.inl ⟨_, _, rfl⟩)

/-- A decision to wait means that no candidate failed and the deadline is not reached. -/
theorem decision_eq_wait {reason : RollingWaitReason} (h : observation.decision policy = .wait reason) :
    observation.candidateTerminal = ∅
      ∧ observation.elapsedSinceProgressMs < policy.progressDeadlineMs := by
  unfold decision at h
  split at h
  · cases h
  · rename_i hterminal
    split at h
    · cases h
    · split at h
      · cases h
      · rename_i hdeadline
        exact ⟨not_not.mp hterminal, UInt64.not_le.mp hdeadline⟩

end RollingObservation

/-- For every policy and observation that pass their checks: if no candidate failed, the deadline is
not reached and every active candidate is available, something is started or drained or the update
is complete; and if the scheduler waits, some active candidate is not ready or not available. -/
theorem next_progresses (observation : RollingObservation) (policy : RollingUpdatePolicy)
    (h : observation.validate policy = .ok ()) :
    (observation.candidateTerminal = ∅ →
      observation.elapsedSinceProgressMs < policy.progressDeadlineMs →
      observation.candidateActive ⊆ observation.candidateAvailable →
      (∃ ordinals, observation.next policy = .ok (.startCandidate ordinals)) ∨
        (∃ ordinals timeoutMs,
          observation.next policy = .ok (.drainPrevious ordinals timeoutMs)) ∨
          observation.next policy = .ok .complete) ∧
      ∀ reason, observation.next policy = .ok (.wait reason) →
        ∃ ordinal ∈ observation.candidateActive,
          ordinal ∉ observation.candidateReady ∨ ordinal ∉ observation.candidateAvailable := by
  have hvalid := RollingObservation.validate_eq_ok.mp h
  rw [RollingObservation.next_of_valid hvalid]
  simp only [Except.ok.injEq]
  refine ⟨RollingObservation.decision_progresses hvalid, fun reason hwait => ?_⟩
  by_contra hnone
  obtain ⟨hterminal, hdeadline⟩ := RollingObservation.decision_eq_wait hwait
  have havailable : observation.candidateActive ⊆ observation.candidateAvailable := by
    intro ordinal hmem
    by_contra hnot
    exact hnone ⟨ordinal, hmem, .inr hnot⟩
  rcases RollingObservation.decision_progresses hvalid hterminal hdeadline havailable with
    ⟨_, hstart⟩ | ⟨_, _, hdrain⟩ | hcomplete
  · cases hwait.symm.trans hstart
  · cases hwait.symm.trans hdrain
  · cases hwait.symm.trans hcomplete

/-- The first of three candidates is available: a previous replica is drained, with the capacity used
up and no replica to spare. -/
theorem next_progresses_drain :
    let observation : RollingObservation := {
      previousReplicas := 3, candidateReplicas := 3
      previousActive := {1, 2, 3}, previousReady := {1, 2, 3}
      candidateActive := {1}, candidateReady := {1}, candidateAvailable := {1} }
    observation.validate {} = .ok () ∧ observation.next {} = .ok (.drainPrevious [1] 30000) ∧
      ((∃ ordinals, observation.next {} = .ok (.startCandidate ordinals)) ∨
        (∃ ordinals timeoutMs, observation.next {} = .ok (.drainPrevious ordinals timeoutMs)) ∨
          observation.next {} = .ok .complete) := by
  intro observation
  have hvalid : observation.validate {} = .ok () := by decide
  exact ⟨hvalid, by decide,
    (next_progresses observation {} hvalid).1 rfl (by decide) (Finset.Subset.refl _)⟩

end CartridgeRuntime.Engine
