import Mathlib.Algebra.Group.Nat.Defs
import Mathlib.Data.List.Forall2
import Mathlib.Data.Nat.Basic

/-!
# Checked computations

Computations that stop at the first error, and 64-bit arithmetic that reports an overflow. The
`_eq_ok` lemmas take a successful computation apart, one step at a time.
-/

namespace Checked

variable {α β ε : Type}

/-! ## Errors -/

/-- Stop with an error when a condition holds. -/
def rejectIf (condition : Prop) [Decidable condition] (error : ε) : Except ε Unit :=
  if condition then .error error else .ok ()

/-- The value of an option, or an error. -/
def okOr (value : Option α) (error : ε) : Except ε α :=
  match value with
  | some value => .ok value
  | none => .error error

/-- Replace the error of a computation. -/
def mapError {δ : Type} (f : ε → δ) : Except ε α → Except δ α
  | .ok value => .ok value
  | .error error => .error (f error)

variable {condition : Prop} {x : Except ε α} {b : β} {f : α → Except ε β} {l : List α}
    {R : α → β → Prop} {l' : List β} {a : Nat}

@[simp] theorem rejectIf_eq_ok [Decidable condition] {error : ε} :
    rejectIf condition error = .ok () ↔ ¬ condition := by
  unfold rejectIf
  split <;> simp [*]

theorem rejectIf_of_not [Decidable condition] (error : ε) (h : ¬ condition) :
    rejectIf condition error = .ok () := by
  simp [h]

theorem rejectIf_of [Decidable condition] (error : ε) (h : condition) :
    rejectIf condition error = .error error := by
  simp [rejectIf, h]

@[simp] theorem okOr_eq_ok {value : Option α} {error : ε} {a : α} :
    okOr value error = .ok a ↔ value = some a := by
  cases value <;> simp [okOr]

@[simp] theorem mapError_eq_ok {δ : Type} {f : ε → δ} {a : α} :
    mapError f x = .ok a ↔ x = .ok a := by
  cases x <;> simp [mapError]

theorem isOk_iff : x.isOk = true ↔ ∃ a, x = .ok a := by
  cases x <;> simp [Except.isOk, Except.toBool]

theorem map_eq_ok {f : α → β} : x.map f = .ok b ↔ ∃ a, x = .ok a ∧ f a = b := by
  cases x <;> simp [Except.map]

theorem map_eq_bind {f : α → β} : x.map f = x >>= fun a => pure (f a) := by
  cases x <;> rfl

theorem map_bind {γ : Type} {g : β → γ} : (x >>= f).map g = x >>= fun a => (f a).map g := by
  cases x <;> rfl

/-- A sequence succeeds when its first step does and the rest does with its value. -/
@[simp] theorem bind_eq_ok : (x >>= f) = .ok b ↔ ∃ a, x = .ok a ∧ f a = .ok b := by
  cases x with
  | ok a =>
    constructor
    · exact fun h => ⟨a, rfl, h⟩
    · rintro ⟨_, ⟨rfl⟩, h⟩
      exact h
  | error e =>
    constructor
    · intro h
      cases h
    · rintro ⟨_, h, -⟩
      cases h

/-- A computation that is known to have a value of some form succeeds with it. -/
theorem exists_ok_of_toOption {f : α → β} (h : x.toOption.map f = some b) :
    ∃ a, x = .ok a ∧ f a = b := by
  cases x with
  | ok a => exact ⟨a, rfl, Option.some.inj h⟩
  | error e => cases h

/-- A computation without its value succeeds when the computation does. -/
theorem discard_eq_ok : discard x = .ok () ↔ ∃ a, x = .ok a := by
  cases x with
  | ok a => exact ⟨fun _ => ⟨a, rfl⟩, fun _ => rfl⟩
  | error e =>
    constructor
    · intro h
      cases h
    · rintro ⟨_, h⟩
      cases h

theorem discard_eq_error {e : ε} : discard x = .error e ↔ x = .error e := by
  cases x with
  | ok a =>
    constructor <;> intro h <;> cases h
  | error _ =>
    constructor <;> rintro ⟨rfl⟩ <;> rfl

/-- A check has one value only. -/
@[simp] theorem exists_unit {p : Unit → Prop} : (∃ u, p u) ↔ p () :=
  ⟨fun ⟨_, h⟩ => h, fun h => ⟨(), h⟩⟩

@[simp] theorem ok_bind {a : α} : (Except.ok a >>= f) = f a := rfl

@[simp] theorem error_bind {e : ε} : (Except.error e >>= f) = .error e := rfl

@[simp] theorem pure_eq_ok {a : α} : (pure a : Except ε α) = .ok a := rfl

/-- Checks in turn succeed when each of them does. -/
theorem forM_eq_ok {f : α → Except ε Unit} : l.forM f = .ok () ↔ ∀ a ∈ l, f a = .ok () := by
  induction l with
  | nil => exact ⟨fun _ => List.forall_mem_nil _, fun _ => rfl⟩
  | cons a l ih =>
    show (f a >>= fun _ => l.forM f) = .ok () ↔ _
    rw [bind_eq_ok, exists_unit, ih, List.forall_mem_cons]

/-- What every step keeps holds at the end of the steps. -/
theorem foldlM_invariant {f : β → α → Except ε β} {P : β → Prop}
    (hstep : ∀ a ∈ l, ∀ b b', P b → f b a = .ok b' → P b') {b' : β} (hb : P b)
    (h : l.foldlM f b = .ok b') : P b' := by
  induction l generalizing b with
  | nil =>
    cases h
    exact hb
  | cons a l ih =>
    rw [List.forall_mem_cons] at hstep
    rw [List.foldlM_cons, bind_eq_ok] at h
    obtain ⟨c, hc, hrest⟩ := h
    exact ih hstep.2 (hstep.1 b c hb hc) hrest

/-! ## Errors that do not occur -/

/-- The computation does not fail with one of these errors. -/
def Avoids (bad : ε → Prop) (x : Except ε α) : Prop :=
  ∀ error, x = .error error → ¬ bad error

variable {bad : ε → Prop}

theorem Avoids.ok (a : α) : Avoids bad (.ok a : Except ε α) := by
  rintro _ ⟨⟩

theorem Avoids.error {error : ε} (h : ¬ bad error) : Avoids bad (.error error : Except ε α) := by
  rintro _ ⟨⟩
  exact h

/-- A check avoids an error if it is another one, or if what is rejected does not occur. -/
theorem Avoids.rejectIf {condition : Prop} [Decidable condition] {error : ε}
    (h : condition → ¬ bad error) : Avoids bad (rejectIf condition error) := by
  unfold Checked.rejectIf
  split
  · rename_i hcondition
    exact .error (h hcondition)
  · exact .ok _

theorem Avoids.okOr {value : Option α} {error : ε} (h : value = none → ¬ bad error) :
    Avoids bad (okOr value error) := by
  cases value with
  | none => exact .error (h rfl)
  | some a => exact .ok a

theorem Avoids.bind (hx : Avoids bad x) (hf : ∀ a, x = .ok a → Avoids bad (f a)) :
    Avoids bad (x >>= f) := by
  cases x with
  | error e => exact .error (hx e rfl)
  | ok a => exact hf a rfl

theorem Avoids.discard {x : Except ε α} (h : Avoids bad x) : Avoids bad (discard x) := by
  cases x with
  | error e => exact .error (h e rfl)
  | ok a => exact .ok _

theorem Avoids.foldlM {f : β → α → Except ε β} (h : ∀ a ∈ l, ∀ b, Avoids bad (f b a)) (b : β) :
    Avoids bad (l.foldlM f b) := by
  induction l generalizing b with
  | nil => exact .ok b
  | cons a l ih =>
    rw [List.forall_mem_cons] at h
    rw [List.foldlM_cons]
    exact (h.1 b).bind fun b' _ => ih h.2 b'

theorem Avoids.forM {f : α → Except ε Unit} (h : ∀ a ∈ l, Avoids bad (f a)) :
    Avoids bad (l.forM f) := by
  induction l with
  | nil => exact .ok ()
  | cons a l ih =>
    rw [List.forall_mem_cons] at h
    exact h.1.bind fun _ _ => ih h.2

theorem mapM_eq_ok {g : α → β} (h : ∀ a ∈ l, f a = .ok (g a)) : l.mapM f = .ok (l.map g) := by
  induction l with
  | nil => rfl
  | cons a l ih =>
    obtain ⟨ha, hl⟩ := List.forall_mem_cons.mp h
    rw [List.mapM_cons, ha, ok_bind, ih hl]
    rfl

theorem Avoids.mapM (h : ∀ a ∈ l, Avoids bad (f a)) : Avoids bad (l.mapM f) := by
  induction l with
  | nil => exact .ok []
  | cons a l ih =>
    rw [List.forall_mem_cons] at h
    rw [List.mapM_cons]
    exact h.1.bind fun b _ => (ih h.2).bind fun bs _ => .ok (b :: bs)

/-! ## Updates in place -/

/-- Run a step on the first member of a list that satisfies a condition. The step may fail, and
what it has changed by then stays changed. -/
def updateFirst (p : α → Prop) [DecidablePred p] (missing : ε) (step : α → Except ε β × α) :
    List α → Except ε β × List α
  | [] => (.error missing, [])
  | a :: rest =>
    if p a then
      let (result, b) := step a
      (result, b :: rest)
    else
      let (result, rest) := updateFirst p missing step rest
      (result, a :: rest)

/-- A relation that the step keeps, and that nothing else breaks, relates the two lists. -/
theorem forall₂_updateFirst {R : α → α → Prop} {p : α → Prop} [DecidablePred p] {missing : ε}
    {step : α → Except ε β × α} (hrefl : ∀ a, R a a) (hstep : ∀ a, p a → R a (step a).2)
    (l : List α) : List.Forall₂ R l (updateFirst p missing step l).2 := by
  induction l with
  | nil => exact .nil
  | cons a l ih =>
    unfold updateFirst
    split
    · rename_i hp
      exact .cons (hstep a hp) (List.forall₂_same.mpr fun b _ => hrefl b)
    · exact .cons (hrefl a) ih

/-- Either no member satisfies the condition and nothing changes, or the step runs on the first
that does. -/
theorem updateFirst_cases (p : α → Prop) [DecidablePred p] (missing : ε)
    (step : α → Except ε β × α) (l : List α) :
    ((∀ a ∈ l, ¬ p a) ∧ updateFirst p missing step l = (.error missing, l))
      ∨ ∃ before a rest, l = before ++ a :: rest ∧ (∀ b ∈ before, ¬ p b) ∧ p a
        ∧ updateFirst p missing step l = ((step a).1, before ++ (step a).2 :: rest) := by
  induction l with
  | nil => exact .inl ⟨by simp, rfl⟩
  | cons a l ih =>
    by_cases hp : p a
    · exact .inr ⟨[], a, l, rfl, by simp, hp, by simp [updateFirst, hp]⟩
    · rcases ih with ⟨hnone, heq⟩ | ⟨before, b, rest, rfl, hbefore, hb, heq⟩
      · exact .inl ⟨List.forall_mem_cons.mpr ⟨hp, hnone⟩, by simp [updateFirst, hp, heq]⟩
      · exact .inr ⟨a :: before, b, rest, rfl, List.forall_mem_cons.mpr ⟨hp, hbefore⟩, hb,
          by simp [updateFirst, hp, heq]⟩

/-- Every member of the second list is related to one of the first. -/
theorem exists_of_forall₂ (h : List.Forall₂ R l l') (hb : b ∈ l') : ∃ a ∈ l, R a b := by
  induction h with
  | nil => cases hb
  | cons hhead _ ih =>
    rcases List.mem_cons.mp hb with rfl | hb
    · exact ⟨_, List.mem_cons_self, hhead⟩
    · obtain ⟨a, ha, hab⟩ := ih hb
      exact ⟨a, List.mem_cons_of_mem _ ha, hab⟩

/-- The first members that satisfy a condition are related when related members agree on it. -/
theorem find?_of_forall₂ {p : α → Bool} {q : β → Bool} (hkeep : ∀ a b, R a b → q b = p a)
    (h : List.Forall₂ R l l') :
    (l.find? p = none ∧ l'.find? q = none)
      ∨ ∃ a b, l.find? p = some a ∧ l'.find? q = some b ∧ R a b := by
  induction h with
  | nil => exact .inl ⟨rfl, rfl⟩
  | @cons a b l l' hhead _ ih =>
    cases hp : p a with
    | true =>
      exact .inr ⟨a, b, by simp [hp], by simp [(hkeep a b hhead).trans hp], hhead⟩
    | false => simpa [hp, (hkeep a b hhead).trans hp] using ih

/-- What the relation keeps is the same along both lists. -/
theorem map_eq_of_forall₂ {γ : Type} {f : α → γ} {g : β → γ} (hkeep : ∀ a b, R a b → g b = f a)
    (h : List.Forall₂ R l l') : l'.map g = l.map f := by
  induction h with
  | nil => rfl
  | cons hhead _ ih => rw [List.map_cons, List.map_cons, hkeep _ _ hhead, ih]

/-- Lists that are related one after the other are related as a whole. -/
theorem forall₂_trans {R : α → α → Prop} (htrans : ∀ a b c, R a b → R b c → R a c) {l' l'' : List α}
    (h : List.Forall₂ R l l') (h' : List.Forall₂ R l' l'') : List.Forall₂ R l l'' := by
  induction h generalizing l'' with
  | nil => exact h'
  | cons hhead _ ih =>
    cases h' with
    | cons hhead' htail' => exact .cons (htrans _ _ _ hhead hhead') (ih htail')

/-! ## Words -/

/-- The largest 64-bit word. -/
def wordMax : Nat := 2 ^ 64 - 1

/-- A sum, when it is a word. -/
def checkedAdd (a b : Nat) : Option Nat :=
  if a + b ≤ wordMax then some (a + b) else none

/-- A difference, when it is not negative. -/
def checkedSub (a b : Nat) : Option Nat :=
  if b ≤ a then some (a - b) else none

@[simp] theorem checkedAdd_eq_some {b c : Nat} :
    checkedAdd a b = some c ↔ a + b ≤ wordMax ∧ a + b = c := by
  unfold checkedAdd
  split <;> simp [*]

@[simp] theorem checkedSub_eq_some {b c : Nat} : checkedSub a b = some c ↔ b ≤ a ∧ a - b = c := by
  unfold checkedSub
  split <;> simp [*]

theorem checkedAdd_of_le {b : Nat} (h : a + b ≤ wordMax) : checkedAdd a b = some (a + b) :=
  checkedAdd_eq_some.mpr ⟨h, rfl⟩

/-- A sum is above a limit when it is not a word or is a word above it. -/
theorem all_checkedAdd_gt {b limit : Nat} (h : limit ≤ wordMax) :
    (checkedAdd a b).all (· > limit) = decide (a + b > limit) := by
  unfold checkedAdd
  split
  · rfl
  · simp only [Option.all_none, Bool.true_eq, decide_eq_true_eq]
    omega

theorem checkedSub_of_le {b : Nat} (h : b ≤ a) : checkedSub a b = some (a - b) :=
  checkedSub_eq_some.mpr ⟨h, rfl⟩

end Checked
