import Mathlib.Data.Set.Basic

/-!
# Runs of a system of parties

A system has a start and executable steps, of which each names the party that takes it and what that
party reads from its surroundings. `Reached` are the states of the runs whose steps all meet a
condition; `Reached.invariant` is the rule of induction over such runs.
-/

namespace Transition

/-- A start and the steps, of which some are not possible. -/
structure System (σ α : Type) where
  start : σ
  step : σ → α → Option σ

variable {σ α : Type}

/-- The states that are reached by steps that meet a condition. -/
inductive Reached (system : System σ α) (allowed : σ → α → Prop) : σ → Prop where
  | start : Reached system allowed system.start
  | step {s s' : σ} {a : α} : Reached system allowed s → allowed s a → system.step s a = some s' →
      Reached system allowed s'

variable {system : System σ α} {allowed : σ → α → Prop}

/-- What holds at the start and is kept by every step that meets the condition holds always. -/
theorem Reached.invariant {P : σ → Prop} (hstart : P system.start)
    (hstep : ∀ {s s' a}, P s → allowed s a → system.step s a = some s' → P s') {s : σ}
    (h : Reached system allowed s) : P s := by
  induction h with
  | start => exact hstart
  | step _ hallowed hnext ih => exact hstep ih hallowed hnext

/-- The state after some steps, if all of them are possible and meet the condition. -/
def System.runWithin (system : System σ α) (allowed : σ → α → Prop)
    [∀ s a, Decidable (allowed s a)] : σ → List α → Option σ
  | s, [] => some s
  | s, a :: actions =>
    if allowed s a then (system.step s a).bind fun s' => runWithin system allowed s' actions
    else none

theorem reached_of_runWithin [∀ s a, Decidable (allowed s a)] {actions : List α} {s s' : σ}
    (h : Reached system allowed s) (hrun : system.runWithin allowed s actions = some s') :
    Reached system allowed s' := by
  induction actions generalizing s with
  | nil => exact Option.some.inj hrun ▸ h
  | cons a actions ih =>
    rw [System.runWithin] at hrun
    split at hrun
    · rename_i hallowed
      obtain ⟨middle, hstep, hrest⟩ := Option.bind_eq_some_iff.mp hrun
      exact ih (h.step hallowed hstep) hrest
    · cases hrun

/-- A state that is reached, of which something can be computed. -/
theorem exists_reached {β : Type} [∀ s a, Decidable (allowed s a)] {actions : List α} {f : σ → β}
    {value : β} (h : (system.runWithin allowed system.start actions).map f = some value) :
    ∃ s, Reached system allowed s ∧ f s = value := by
  obtain ⟨s, hrun, hvalue⟩ := Option.map_eq_some_iff.mp h
  exact ⟨s, reached_of_runWithin .start hrun, hvalue⟩

end Transition
