import CartridgeRuntime.Engine.Rolling

/-!
# What one decision may do

`next_safe` says what each action of `RollingObservation.next` guarantees: starting keeps the number
of active replicas within the surge, draining keeps the availability or drains nothing that is
ready, and the update is completed or rolled back only for the reasons that the actions name.
-/

namespace CartridgeRuntime.Engine

open Checked Ascending

/-! ## What the checks establish -/

/-- A policy that is valid for so many replicas. -/
structure RollingUpdatePolicy.Valid (policy : RollingUpdatePolicy) (replicas : Nat) : Prop where
  replicas_pos : 0 < replicas
  replicas_le : replicas ≤ 32
  surge_le : policy.maxSurge ≤ replicas
  unavailable_le : policy.maxUnavailable ≤ replicas
  budget : 0 < policy.maxSurge ∨ 0 < policy.maxUnavailable
  minReady_le : policy.minReadyMs ≤ maxRollingMinReadyMs
  le_deadline : minRollingProgressDeadlineMs ≤ policy.progressDeadlineMs
  deadline_le : policy.progressDeadlineMs ≤ maxRollingProgressDeadlineMs
  minReady_lt : policy.minReadyMs < policy.progressDeadlineMs
  drain_le : policy.drainTimeoutMs ≤ maxRollingDrainTimeoutMs
  drain_lt : policy.drainTimeoutMs < policy.progressDeadlineMs

theorem RollingUpdatePolicy.validate_eq_ok {policy : RollingUpdatePolicy} {replicas : Nat} :
    policy.validate replicas = .ok () ↔ policy.Valid replicas := by
  unfold validate
  rw [rejectIf_eq_ok]
  simp only [not_or, not_and, gt_iff_lt, UInt64.not_lt, UInt64.not_le, maxStackReplicas]
  constructor
  · rintro ⟨h₁, h₂, h₃, h₄, h₅, h₆, h₇, h₈, h₉, h₁₀, h₁₁⟩
    exact ⟨by omega, by omega, by omega, by omega, by omega, h₆, h₇, h₈, h₉, h₁₀, h₁₁⟩
  · rintro ⟨h₁, h₂, h₃, h₄, h₅, h₆, h₇, h₈, h₉, h₁₀, h₁₁⟩
    exact ⟨by omega, by omega, by omega, by omega, by omega, h₆, h₇, h₈, h₉, h₁₀, h₁₁⟩

/-- The ordinals of a generation with so many replicas. -/
def ordinals (replicas : Nat) : Finset Nat :=
  Finset.Icc 1 replicas

@[simp] theorem mem_ordinals {replicas ordinal : Nat} :
    ordinal ∈ ordinals replicas ↔ 1 ≤ ordinal ∧ ordinal ≤ replicas :=
  Finset.mem_Icc

@[simp] theorem card_ordinals (replicas : Nat) : (ordinals replicas).card = replicas := by
  simp [ordinals]

namespace RollingObservation

theorem not_hasForeignOrdinal {s : Finset Nat} {replicas : Nat} :
    ¬ HasForeignOrdinal s replicas ↔ s ⊆ ordinals replicas := by
  simp only [HasForeignOrdinal, not_exists, not_and, Finset.subset_iff, mem_ordinals]
  exact forall_congr' fun ordinal => by constructor <;> (intro h hmem; have := h hmem; omega)

/-- An observation that passes its checks. -/
structure Valid (observation : RollingObservation) (policy : RollingUpdatePolicy) : Prop where
  policy_valid : policy.Valid observation.policyReplicas
  previousActive_subset : observation.previousActive ⊆ ordinals observation.previousReplicas
  candidateActive_subset : observation.candidateActive ⊆ ordinals observation.candidateReplicas
  candidateTerminal_subset : observation.candidateTerminal ⊆ ordinals observation.candidateReplicas
  previousReady_subset : observation.previousReady ⊆ observation.previousActive
  candidateReady_subset : observation.candidateReady ⊆ observation.candidateActive
  candidateAvailable_subset : observation.candidateAvailable ⊆ observation.candidateReady
  terminal_disjoint : Disjoint observation.candidateTerminal observation.candidateActive
  active_le : observation.previousActive.card + observation.candidateActive.card
    ≤ observation.policyReplicas + policy.maxSurge

theorem card_le_of_subset_ordinals {s : Finset Nat} {replicas : Nat} (h : s ⊆ ordinals replicas) :
    s.card ≤ replicas := by
  simpa using Finset.card_le_card h

theorem validate_eq_ok {observation : RollingObservation} {policy : RollingUpdatePolicy} :
    observation.validate policy = .ok () ↔ observation.Valid policy := by
  simp only [validate, bind_eq_ok, exists_unit, RollingUpdatePolicy.validate_eq_ok, okOr_eq_ok,
    checkedAdd_eq_some]
  constructor
  · rintro ⟨hpolicy, hsets, active, ⟨-, rfl⟩, limit, ⟨-, rfl⟩, hlimit⟩
    rw [rejectIf_eq_ok] at hsets hlimit
    simp only [not_or, not_not, not_hasForeignOrdinal] at hsets
    obtain ⟨h₁, -, h₃, -, -, h₆, h₇, h₈, h₉, h₁₀⟩ := hsets
    exact ⟨hpolicy, h₁, h₃, h₆, h₇, h₈, h₉, h₁₀, by omega⟩
  · intro h
    have hready := h.candidateReady_subset.trans h.candidateActive_subset
    have hprevious := card_le_of_subset_ordinals h.previousActive_subset
    have hcandidate := card_le_of_subset_ordinals h.candidateActive_subset
    have hreplicas := h.policy_valid.replicas_le
    have hsurge := h.policy_valid.surge_le
    have hmax : observation.policyReplicas
      = max observation.previousReplicas observation.candidateReplicas := rfl
    refine ⟨h.policy_valid, ?_, _, ⟨?_, rfl⟩, _, ⟨?_, rfl⟩, ?_⟩
    · rw [rejectIf_eq_ok]
      simp only [not_or, not_not, not_hasForeignOrdinal]
      exact ⟨h.previousActive_subset, h.previousReady_subset.trans h.previousActive_subset,
        h.candidateActive_subset, hready, h.candidateAvailable_subset.trans hready,
        h.candidateTerminal_subset, h.previousReady_subset, h.candidateReady_subset,
        h.candidateAvailable_subset, h.terminal_disjoint⟩
    · unfold wordMax
      omega
    · unfold wordMax
      omega
    · rw [rejectIf_eq_ok]
      exact Nat.not_lt.mpr h.active_le

/-! ## Starting -/

/-- The candidates that can be started. -/
def startable (observation : RollingObservation) : List Nat :=
  (List.range' 1 observation.candidateReplicas).filter fun ordinal =>
    ordinal ∉ observation.candidateActive ∧ ordinal ∉ observation.candidateTerminal

theorem mem_startable {observation : RollingObservation} {ordinal : Nat} :
    ordinal ∈ observation.startable ↔ ordinal ∈ ordinals observation.candidateReplicas ∧
      ordinal ∉ observation.candidateActive ∧ ordinal ∉ observation.candidateTerminal := by
  simp only [startable, List.mem_filter, List.mem_range'_1, decide_eq_true_eq, mem_ordinals]
  exact and_congr_left fun _ => by omega

theorem nodup_startable (observation : RollingObservation) : observation.startable.Nodup :=
  List.Nodup.filter _ List.nodup_range'

/-- The number of candidates that are started. -/
def startCount (observation : RollingObservation) (policy : RollingUpdatePolicy) : Nat :=
  min (observation.candidateReplicas - observation.candidateActive.card)
    (observation.policyReplicas + policy.maxSurge
      - (observation.previousActive.card + observation.candidateActive.card))

variable {observation : RollingObservation} {policy : RollingUpdatePolicy}

/-- Starting in closed form. -/
theorem startAction_eq (observation : RollingObservation) (policy : RollingUpdatePolicy) :
    observation.startAction policy =
      if observation.startable.take (observation.startCount policy) = [] then none
      else some (.startCandidate
        (observation.startable.take (observation.startCount policy))) := by
  have hunfold : observation.startAction policy =
      if observation.startCount policy = 0 then none
      else if (observation.startable.take (observation.startCount policy)).isEmpty then none
      else some (.startCandidate
        (observation.startable.take (observation.startCount policy))) := rfl
  rw [hunfold]
  by_cases hcount : observation.startCount policy = 0
  · rw [if_pos hcount, hcount, List.take_zero, if_pos rfl]
  · simp only [if_neg hcount, List.isEmpty_iff]

variable {action : RollingAction}

theorem startAction_eq_some (h : observation.startAction policy = some action) :
    action = .startCandidate (observation.startable.take (observation.startCount policy)) ∧
      observation.startable.take (observation.startCount policy) ≠ [] := by
  rw [startAction_eq] at h
  split at h
  · cases h
  · rename_i hne
    exact ⟨(Option.some.inj h).symm, hne⟩

/-- Without failed candidates, those that are not active can be started. -/
theorem length_startable (hactive : observation.candidateActive
    ⊆ ordinals observation.candidateReplicas) (hterminal : observation.candidateTerminal = ∅) :
    observation.startable.length
      = observation.candidateReplicas - observation.candidateActive.card := by
  have hset : observation.startable.toFinset
      = ordinals observation.candidateReplicas \ observation.candidateActive := by
    ext ordinal
    simp [mem_startable, hterminal]
  rw [← List.toFinset_card_of_nodup observation.nodup_startable, hset,
    Finset.card_sdiff_of_subset hactive, card_ordinals]

/-! ## Draining -/

/-- How many ready replicas may be drained. -/
def readyBudget (observation : RollingObservation) (policy : RollingUpdatePolicy) : Nat :=
  observation.previousReady.card + observation.candidateAvailable.card
    - (observation.candidateReplicas - policy.maxUnavailable)

/-- The previous replicas that are drained, those that are not ready first. -/
def drainable (observation : RollingObservation) (policy : RollingUpdatePolicy) : List Nat :=
  ascending (observation.previousActive \ observation.previousReady)
    ++ (ascending observation.previousReady).take (observation.readyBudget policy)

/-- Draining in closed form. -/
theorem drainAction_eq (policy : RollingUpdatePolicy)
    (h : observation.previousReady ⊆ observation.previousActive) :
    observation.drainAction policy =
      if observation.drainable policy = [] then none
      else some (.drainPrevious ((observation.drainable policy).insertionSort (· ≤ ·))
        policy.drainTimeoutMs) := by
  have hunfold : observation.drainAction policy =
      if observation.previousActive = ∅ then none
      else if (observation.drainable policy).isEmpty then none
      else some (.drainPrevious ((observation.drainable policy).insertionSort (· ≤ ·))
        policy.drainTimeoutMs) := rfl
  rw [hunfold]
  by_cases hactive : observation.previousActive = ∅
  · have hready : observation.previousReady = ∅ := Finset.subset_empty.mp (hactive ▸ h)
    have hnil : observation.drainable policy = [] := by
      refine List.eq_nil_iff_forall_not_mem.mpr fun ordinal hmem => ?_
      rcases List.mem_append.mp hmem with hmem | hmem
      · simpa [hactive] using mem_ascending.mp hmem
      · simpa [hready] using mem_of_mem_take hmem
    rw [if_pos hactive, if_pos hnil]
  · simp only [if_neg hactive, List.isEmpty_iff]

theorem drainAction_eq_some (hready : observation.previousReady ⊆ observation.previousActive)
    (h : observation.drainAction policy = some action) :
    action = .drainPrevious ((observation.drainable policy).insertionSort (· ≤ ·))
        policy.drainTimeoutMs ∧
      observation.drainable policy ≠ [] := by
  rw [drainAction_eq policy hready] at h
  split at h
  · cases h
  · rename_i hne
    exact ⟨(Option.some.inj h).symm, hne⟩

/-- There is nothing to drain when all active replicas are ready and none of them can be spared. -/
theorem drainable_eq_nil :
    observation.drainable policy = [] ↔ observation.previousActive ⊆ observation.previousReady ∧
      (observation.previousReady = ∅ ∨ observation.readyBudget policy = 0) := by
  have hfirst : ascending (observation.previousActive \ observation.previousReady) = [] ↔
      observation.previousActive ⊆ observation.previousReady := by
    rw [← List.length_eq_zero_iff, length_ascending, Finset.card_eq_zero,
      Finset.sdiff_eq_empty_iff_subset]
  have hsecond : (ascending observation.previousReady).take (observation.readyBudget policy) = [] ↔
      observation.previousReady = ∅ ∨ observation.readyBudget policy = 0 := by
    rw [List.take_eq_nil_iff, ← List.length_eq_zero_iff, length_ascending, Finset.card_eq_zero,
      or_comm]
  rw [drainable, List.append_eq_nil_iff, hfirst, hsecond]

theorem mem_drainable {ordinal : Nat} (h : ordinal ∈ observation.drainable policy) :
    ordinal ∈ observation.previousActive ∧ ordinal ∉ observation.previousReady ∨
      ordinal ∈ (ascending observation.previousReady).take (observation.readyBudget policy) := by
  rcases List.mem_append.mp h with hmem | hmem
  · exact .inl (Finset.mem_sdiff.mp (mem_ascending.mp hmem))
  · exact .inr hmem

theorem nodup_drainable (observation : RollingObservation) (policy : RollingUpdatePolicy) :
    (observation.drainable policy).Nodup := by
  refine List.Nodup.append (nodup_ascending _)
    ((nodup_ascending _).sublist (List.take_sublist _ _)) fun ordinal hmem hready => ?_
  exact (Finset.mem_sdiff.mp (mem_ascending.mp hmem)).2 (mem_of_mem_take hready)

/-- The ready replicas that stay are those beyond the budget. -/
theorem card_previousReady_sdiff (observation : RollingObservation) (policy : RollingUpdatePolicy) :
    (observation.previousReady \ (observation.drainable policy).toFinset).card
      = observation.previousReady.card - observation.readyBudget policy := by
  have hsame : observation.previousReady \ (observation.drainable policy).toFinset
      = observation.previousReady
        \ ((ascending observation.previousReady).take (observation.readyBudget policy)).toFinset := by
    ext ordinal
    simp only [Finset.mem_sdiff, List.mem_toFinset, drainable, List.mem_append, mem_ascending]
    tauto
  have hsubset : ((ascending observation.previousReady).take
      (observation.readyBudget policy)).toFinset ⊆ observation.previousReady := fun ordinal hmem =>
    mem_of_mem_take (List.mem_toFinset.mp hmem)
  rw [hsame, Finset.card_sdiff_of_subset hsubset, card_toFinset_take]
  omega

/-! ## Decisions -/

/-- What each action guarantees. -/
def Safe (observation : RollingObservation) (policy : RollingUpdatePolicy) : RollingAction → Prop
  | .startCandidate started =>
    started.Nodup ∧ started ≠ [] ∧
      (∀ ordinal ∈ started, 1 ≤ ordinal ∧ ordinal ≤ observation.candidateReplicas ∧
        ordinal ∉ observation.candidateActive) ∧
      observation.previousActive.card + (observation.candidateActive ∪ started.toFinset).card
        ≤ max observation.previousReplicas observation.candidateReplicas + policy.maxSurge
  | .drainPrevious drained _ =>
    drained.Pairwise (· < ·) ∧ drained ≠ [] ∧
      (∀ ordinal ∈ drained, ordinal ∈ observation.previousActive) ∧
      (observation.candidateReplicas - policy.maxUnavailable
          ≤ (observation.previousReady \ drained.toFinset).card
            + observation.candidateAvailable.card ∨
        Disjoint drained.toFinset observation.previousReady)
  | .complete => observation.previousActive = ∅ ∧
      observation.candidateAvailable = ordinals observation.candidateReplicas
  | .rollback _ => observation.candidateTerminal ≠ ∅ ∨
      policy.progressDeadlineMs ≤ observation.elapsedSinceProgressMs
  | .wait _ => True

theorem startAction_safe (h : observation.startAction policy = some action) :
    observation.Safe policy action := by
  obtain ⟨rfl, hne⟩ := startAction_eq_some h
  have hcount : observation.startCount policy ≠ 0 := fun hzero => hne (by rw [hzero, List.take_zero])
  refine ⟨(nodup_startable _).sublist (List.take_sublist _ _), hne, fun ordinal hmem => ?_, ?_⟩
  · obtain ⟨hordinal, hactive, -⟩ := mem_startable.mp (List.mem_of_mem_take hmem)
    exact ⟨(mem_ordinals.mp hordinal).1, (mem_ordinals.mp hordinal).2, hactive⟩
  · have hunion := Finset.card_union_le observation.candidateActive
      (observation.startable.take (observation.startCount policy)).toFinset
    have hlist := List.toFinset_card_le (observation.startable.take (observation.startCount policy))
    have htake := List.length_take_le (observation.startCount policy) observation.startable
    -- a positive count means that the capacity was not yet used up
    unfold startCount policyReplicas at *
    omega

theorem drainAction_safe (hvalid : observation.Valid policy)
    (h : observation.drainAction policy = some action) : observation.Safe policy action := by
  obtain ⟨rfl, hne⟩ := drainAction_eq_some hvalid.previousReady_subset h
  have hperm := List.perm_insertionSort (· ≤ ·) (observation.drainable policy)
  have hset : ((observation.drainable policy).insertionSort (· ≤ ·)).toFinset
      = (observation.drainable policy).toFinset := List.toFinset_eq_of_perm _ _ hperm
  refine ⟨pairwise_lt_insertionSort (nodup_drainable _ _), fun hnil => hne ?_,
    fun ordinal hmem => ?_, ?_⟩
  · exact List.perm_nil.mp (hnil ▸ hperm.symm)
  · rcases mem_drainable (hperm.mem_iff.mp hmem) with ⟨hactive, -⟩ | hready
    · exact hactive
    · exact hvalid.previousReady_subset (mem_of_mem_take hready)
  · rw [hset, card_previousReady_sdiff]
    by_cases hbudget : observation.readyBudget policy = 0
    · -- without a budget only replicas that are not ready are drained
      refine .inr (Finset.disjoint_left.mpr fun ordinal hmem hready => ?_)
      rcases mem_drainable (List.mem_toFinset.mp hmem) with ⟨-, hnot⟩ | htaken
      · exact hnot hready
      · rw [hbudget, List.take_zero] at htaken
        cases htaken
    · refine .inl ?_
      unfold readyBudget at *
      omega

theorem orderedAction_safe (hvalid : observation.Valid policy)
    (h : observation.orderedAction policy = some action) : observation.Safe policy action := by
  unfold orderedAction at h
  split at h
  · rcases Option.or_eq_some_iff.mp h with hstart | ⟨-, hdrain⟩
    · exact startAction_safe hstart
    · exact drainAction_safe hvalid hdrain
  · rcases Option.or_eq_some_iff.mp h with hdrain | ⟨-, hstart⟩
    · exact drainAction_safe hvalid hdrain
    · exact startAction_safe hstart

/-- The action for an observation that has passed its checks. -/
def decision (observation : RollingObservation) (policy : RollingUpdatePolicy) : RollingAction :=
  if observation.candidateTerminal ≠ ∅ then .rollback .candidateFailed
  else if observation.previousActive = ∅
      ∧ observation.candidateAvailable.card = observation.candidateReplicas then .complete
  else if observation.elapsedSinceProgressMs ≥ policy.progressDeadlineMs then
    .rollback .progressDeadline
  else (observation.orderedAction policy).getD (.wait observation.waitReason)

theorem next_of_valid (h : observation.Valid policy) :
    observation.next policy = .ok (observation.decision policy) := by
  rw [next, validate_eq_ok.mpr h, ok_bind]
  unfold decision
  split <;> [rfl; skip]
  split <;> [rfl; skip]
  split <;> rfl

/-- All candidate ordinals are available when enough of them are. -/
theorem candidateAvailable_eq (hvalid : observation.Valid policy)
    (h : observation.candidateAvailable.card = observation.candidateReplicas) :
    observation.candidateAvailable = ordinals observation.candidateReplicas := by
  refine Finset.eq_of_subset_of_card_le ?_ (by rw [card_ordinals, h])
  exact hvalid.candidateAvailable_subset.trans
    (hvalid.candidateReady_subset.trans hvalid.candidateActive_subset)

theorem decision_safe (hvalid : observation.Valid policy) :
    observation.Safe policy (observation.decision policy) := by
  unfold decision
  split
  · rename_i hterminal
    exact .inl hterminal
  · split
    · rename_i hcomplete
      exact ⟨hcomplete.1, candidateAvailable_eq hvalid hcomplete.2⟩
    · split
      · rename_i hdeadline
        exact .inr hdeadline
      · cases haction : observation.orderedAction policy with
        | none => trivial
        | some action => exact orderedAction_safe hvalid haction

end RollingObservation

/-- For every policy and observation that pass their checks there is an action, and it is safe. -/
theorem next_safe (observation : RollingObservation) (policy : RollingUpdatePolicy)
    (h : observation.validate policy = .ok ()) :
    ∃ action, observation.next policy = .ok action ∧ observation.Safe policy action := by
  have hvalid := RollingObservation.validate_eq_ok.mp h
  exact ⟨_, RollingObservation.next_of_valid hvalid, RollingObservation.decision_safe hvalid⟩

/-- Scaling down from three replicas to two, with one candidate available: two previous replicas are
drained. -/
theorem next_safe_scale_down :
    let observation : RollingObservation := {
      previousReplicas := 3, candidateReplicas := 2
      previousActive := {1, 2, 3}, previousReady := {1, 3}
      candidateActive := {1}, candidateReady := {1}, candidateAvailable := {1} }
    let policy : RollingUpdatePolicy := { order := .stopFirst }
    observation.validate policy = .ok () ∧
      observation.next policy = .ok (.drainPrevious [1, 2] 30000) ∧
      ∃ action, observation.next policy = .ok action ∧ observation.Safe policy action := by
  intro observation policy
  have hvalid : observation.validate policy = .ok () := by decide
  exact ⟨hvalid, by decide, next_safe observation policy hvalid⟩

end CartridgeRuntime.Engine
