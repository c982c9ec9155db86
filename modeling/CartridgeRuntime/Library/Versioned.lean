import Mathlib.Order.Basic

/-!
# Versioned stores

What is published under a revision, and how a store moves on: a step leaves it, publishes under a
higher revision, or makes it unreadable. Steps compose (`Advances.trans`), so what one step does a
whole run does (`Advances.of_run`), and one revision never stands for two contents
(`Advances.eq_of_revision`).
-/

namespace Versioned

/-- The contents of a store and the revision that they are published under. -/
structure View (ρ α : Type) where
  revision : ρ
  contents : α

section

variable {ρ α : Type} [Preorder ρ]

/-- What a step may do to what can be read. -/
inductive Advances : Option (View ρ α) → Option (View ρ α) → Prop
  | keep (view : Option (View ρ α)) : Advances view view
  | publish {before after : View ρ α} (h : before.revision < after.revision) :
      Advances (some before) (some after)
  | lose (before : View ρ α) : Advances (some before) none

namespace Advances

variable {a b c : Option (View ρ α)} {before after : View ρ α}

theorem trans (hab : Advances a b) (hbc : Advances b c) : Advances a c := by
  cases hab with
  | keep => exact hbc
  | publish hlt =>
    cases hbc with
    | keep => exact .publish hlt
    | publish hlt' => exact .publish (lt_trans hlt hlt')
    | lose => exact .lose _
  | lose =>
    cases hbc with
    | keep => exact .lose _

theorem revision_le (h : Advances (some before) (some after)) :
    before.revision ≤ after.revision := by
  cases h with
  | keep => exact le_refl _
  | publish hlt => exact le_of_lt hlt

/-- One revision stands for one content. -/
theorem eq_of_revision (h : Advances (some before) (some after))
    (hrevision : before.revision = after.revision) : before = after := by
  cases h with
  | keep => rfl
  | publish hlt => exact absurd hrevision (ne_of_lt hlt)

/-- Contents change under a higher revision only. -/
theorem revision_lt (h : Advances (some before) (some after))
    (hchanged : before.contents ≠ after.contents) : before.revision < after.revision := by
  cases h with
  | keep => exact absurd rfl hchanged
  | publish hlt => exact hlt

/-- What one step does a run does. -/
theorem of_run {σ ι : Type} {view : σ → Option (View ρ α)} {step : σ → ι → σ}
    (hstep : ∀ state input, Advances (view state) (view (step state input))) (state : σ)
    (inputs : List ι) : Advances (view state) (view (inputs.foldl step state)) := by
  induction inputs generalizing state with
  | nil => exact .keep _
  | cons input inputs ih => exact (hstep state input).trans (ih _)

end Advances

end

end Versioned
