import CartridgeRuntime.Library.Checked

/-!
# Operations on a state that may fail half way

An operation reads and changes a state and stops at the first error; what it changed before that
stays changed. `run_bind` takes a sequence apart, whatever its outcome, and `Keeps` is the rule for
what an operation leaves as it was, whether it fails or not.
-/

namespace Stateful

variable {ε σ α β : Type}

/-- The state after an operation, also after one that failed. -/
def finalState : EStateM.Result ε σ α → σ
  | .ok _ s => s
  | .error _ s => s

/-- What an operation answers. -/
def answer : EStateM.Result ε σ α → Except ε α
  | .ok a _ => .ok a
  | .error e _ => .error e

theorem eq_error_of_answer {x : EStateM.Result ε σ α} {e : ε} (h : answer x = .error e) :
    x = .error e (finalState x) := by
  cases x with
  | ok a s => cases h
  | error _ s =>
    cases h
    rfl

variable {a : α} {x : EStateM ε σ α} {f : α → EStateM ε σ β} {s s' : σ} {b : β}

theorem eq_ok_of_answer {x : EStateM.Result ε σ α} (h : answer x = .ok a) :
    x = .ok a (finalState x) := by
  cases x with
  | ok _ s =>
    cases h
    rfl
  | error e s => cases h

/-- The outcome of a check, which does not change the state. -/
def check (x : Except ε α) : EStateM ε σ α := fun s =>
  match x with
  | .ok a => .ok a s
  | .error e => .error e s

/-! ## The parts of an operation -/

/-- A sequence continues with the value and the state of its first part. -/
theorem run_bind (x : EStateM ε σ α) (f : α → EStateM ε σ β) (s : σ) :
    (x >>= f).run s =
      match x.run s with
      | .ok a t => (f a).run t
      | .error e t => .error e t := by
  show EStateM.bind x f s = _
  unfold EStateM.bind EStateM.run
  cases x s <;> rfl

@[simp] theorem run_pure (a : α) (s : σ) : (pure a : EStateM ε σ α).run s = .ok a s := rfl

@[simp] theorem run_throw (e : ε) (s : σ) : (throw e : EStateM ε σ α).run s = .error e s := rfl

@[simp] theorem run_get (s : σ) : (get : EStateM ε σ σ).run s = .ok s s := rfl

@[simp] theorem run_modify (f : σ → σ) (s : σ) :
    (modify f : EStateM ε σ PUnit).run s = .ok () (f s) := rfl

@[simp] theorem run_check_ok (a : α) (s : σ) :
    (check (.ok a) : EStateM ε σ α).run s = .ok a s := rfl

@[simp] theorem run_check_error (e : ε) (s : σ) :
    (check (.error e) : EStateM ε σ α).run s = .error e s := rfl

@[simp] theorem run_get_bind (f : σ → EStateM ε σ β) (s : σ) :
    (get >>= f).run s = (f s).run s := rfl

@[simp] theorem run_modify_bind (f : σ → σ) (g : PUnit → EStateM ε σ β) (s : σ) :
    (modify f >>= g).run s = (g ()).run (f s) := rfl

@[simp] theorem run_check_ok_bind (a : α) (f : α → EStateM ε σ β) (s : σ) :
    (check (.ok a) >>= f).run s = (f a).run s := rfl

@[simp] theorem run_check_error_bind (e : ε) (f : α → EStateM ε σ β) (s : σ) :
    (check (.error e) >>= f).run s = .error e s := rfl

/-- A sequence succeeds when its first part does and the rest does with its value and state. -/
theorem run_bind_eq_ok :
    (x >>= f).run s = .ok b s' ↔ ∃ a t, x.run s = .ok a t ∧ (f a).run t = .ok b s' := by
  rw [run_bind]
  cases x.run s with
  | ok a t => simp
  | error e t => simp

/-- A check succeeds with its value and in the same state. -/
theorem run_check_eq_ok {x : Except ε α} :
    (check x : EStateM ε σ α).run s = .ok a s' ↔ x = .ok a ∧ s = s' := by
  cases x with
  | ok b => simp
  | error e => simp

/-- An operation that starts with a check succeeds when both parts do. -/
theorem run_check_bind_eq_ok {x : Except ε α} :
    (check x >>= f).run s = .ok b s' ↔ ∃ a, x = .ok a ∧ (f a).run s = .ok b s' := by
  cases x with
  | ok a => simp
  | error e => simp

/-- Naming the value of an operation does not change its final state. -/
theorem finalState_bind_pure (x : EStateM ε σ α) (f : α → β) (s : σ) :
    finalState ((x >>= fun a => pure (f a)).run s) = finalState (x.run s) := by
  rw [run_bind]
  cases x.run s <;> rfl

/-- An operation whose value is only named succeeds when it does. -/
theorem run_bind_pure_eq_ok {f : α → β} :
    (x >>= fun a => pure (f a)).run s = .ok b s' ↔ ∃ a, x.run s = .ok a s' ∧ f a = b := by
  rw [run_bind]
  cases x.run s with
  | ok a t =>
    simp only [run_pure, EStateM.Result.ok.injEq]
    exact ⟨fun ⟨hvalue, hstate⟩ => ⟨a, ⟨rfl, hstate⟩, hvalue⟩,
      fun ⟨_, ⟨rfl, hstate⟩, hvalue⟩ => ⟨hvalue, hstate⟩⟩
  | error e t => simp

/-! ## Operations on a part of the state -/

section

variable {τ : Type} {part : σ → τ} {put : τ → σ → σ}

/-- An operation on a part of the state. -/
def focus (part : σ → τ) (put : τ → σ → σ) (x : EStateM ε τ α) : EStateM ε σ α := fun s =>
  match x.run (part s) with
  | .ok a t => .ok a (put t s)
  | .error e t => .error e (put t s)

theorem run_focus_eq_ok {x : EStateM ε τ α} :
    (focus part put x).run s = .ok a s' ↔ ∃ t, x.run (part s) = .ok a t ∧ s' = put t s := by
  show focus part put x s = _ ↔ _
  unfold focus
  cases x.run (part s) with
  | ok b t =>
    simp only [EStateM.Result.ok.injEq]
    exact ⟨fun ⟨hvalue, hstate⟩ => ⟨t, ⟨hvalue, rfl⟩, hstate.symm⟩,
      fun ⟨_, ⟨hvalue, rfl⟩, hstate⟩ => ⟨hvalue, hstate.symm⟩⟩
  | error e t => simp

end

/-! ## What an operation leaves as it was -/

/-- However the operation ends, the state before and after it are related. -/
def Keeps (related : σ → σ → Prop) (x : EStateM ε σ α) : Prop :=
  ∀ s, related s (finalState (x.run s))

variable {related : σ → σ → Prop}

theorem Keeps.check (hrefl : ∀ s, related s s) (x : Except ε α) :
    Keeps related (check x : EStateM ε σ α) := by
  intro s
  cases x <;> exact hrefl s

theorem Keeps.pure (hrefl : ∀ s, related s s) (a : α) :
    Keeps related (pure a : EStateM ε σ α) :=
  fun s => hrefl s

theorem Keeps.modify {f : σ → σ} (h : ∀ s, related s (f s)) :
    Keeps related (modify f : EStateM ε σ PUnit) :=
  h

/-- A sequence keeps what both of its parts keep. -/
theorem Keeps.bind (htrans : ∀ s t u, related s t → related t u → related s u)
    (hx : Keeps related x) (hf : ∀ a, Keeps related (f a)) : Keeps related (x >>= f) := by
  intro s
  have hfirst := hx s
  rw [run_bind]
  cases hrun : x.run s with
  | ok a t =>
    rw [hrun] at hfirst
    exact htrans _ _ _ hfirst (hf a t)
  | error e t =>
    rw [hrun] at hfirst
    exact hfirst

/-- An operation on a part of the state keeps what does not depend on that part. -/
theorem Keeps.focus {τ : Type} {part : σ → τ} {put : τ → σ → σ}
    (hput : ∀ s t, related s (put t s)) (x : EStateM ε τ α) :
    Keeps related (focus part put x) := by
  intro s
  show related s (Stateful.finalState (Stateful.focus part put x s))
  unfold Stateful.focus
  cases x.run (part s) <;> exact hput s _

/-- Reading the state first changes nothing. -/
theorem Keeps.get_bind {f : σ → EStateM ε σ β} (h : ∀ s, related s (finalState ((f s).run s))) :
    Keeps related (get >>= f) :=
  h

end Stateful
