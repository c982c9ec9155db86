import Mathlib.Data.List.Basic

/-!
# Computations on durable state

A `Durable` computation looks at a state, performs operations on it and succeeds or fails. What it
does is the list of its operations together with its result, so that a computation that is stopped
has performed the first of them. `Passes` is what holds in every state that a computation goes
through.
-/

namespace Durable

/-- Operations on a state. -/
class Acts (σ : Type) (ω : outParam Type) where
  act : σ → ω → σ

export Acts (act)

/-- What a computation did. -/
structure Attempt (ω ε α : Type) where
  operations : List ω
  result : Except ε α

end Durable

open Durable in
/-- A computation on states `σ` with operations `ω` that can fail. -/
def Durable (σ ω ε α : Type) : Type :=
  σ → Attempt ω ε α

namespace Durable

variable {σ ω ε α β : Type} [Acts σ ω]

/-- The state after operations. -/
def after (state : σ) (operations : List ω) : σ :=
  operations.foldl act state

instance : Monad (Durable σ ω ε) where
  pure value := fun _ => ⟨[], .ok value⟩
  bind x f := fun state =>
    match x state with
    | ⟨operations, .error error⟩ => ⟨operations, .error error⟩
    | ⟨operations, .ok value⟩ =>
      let rest := f value (after state operations)
      ⟨operations ++ rest.operations, rest.result⟩

/-- Perform an operation. -/
def perform (operation : ω) : Durable σ ω ε Unit :=
  fun _ => ⟨[operation], .ok ()⟩

/-- Go on with the value of a computation without operations, or fail with its error. -/
def check (result : Except ε α) : Durable σ ω ε α :=
  fun _ => ⟨[], result⟩

/-- Look at the state. -/
def inspect (look : σ → α) : Durable σ ω ε α :=
  fun state => ⟨[], .ok (look state)⟩

/-- Compute from the state without operations. -/
def consult (look : σ → Except ε α) : Durable σ ω ε α :=
  fun state => ⟨[], look state⟩

/-! ## Running -/

@[simp] theorem after_nil (state : σ) : after state ([] : List ω) = state :=
  rfl

@[simp] theorem after_cons (state : σ) (operation : ω) (operations : List ω) :
    after state (operation :: operations) = after (act state operation) operations :=
  rfl

@[simp] theorem after_append (state : σ) (first second : List ω) :
    after state (first ++ second) = after (after state first) second :=
  List.foldl_append

variable {x : Durable σ ω ε α} {f : α → Durable σ ω ε β} {state : σ}

@[simp] theorem pure_run (value : α) :
    (pure value : Durable σ ω ε α) state = ⟨[], .ok value⟩ :=
  rfl

omit [Acts σ ω] in
@[simp] theorem perform_run (operation : ω) :
    (perform operation : Durable σ ω ε Unit) state = ⟨[operation], .ok ()⟩ :=
  rfl

variable {operations : List ω} {value : α} {g : α → β}

theorem bind_ok (h : x state = ⟨operations, .ok value⟩) :
    (x >>= f) state = ⟨operations ++ (f value (after state operations)).operations,
      (f value (after state operations)).result⟩ := by
  simp only [bind, h]

theorem bind_error {error : ε} (h : x state = ⟨operations, .error error⟩) :
    (x >>= f) state = ⟨operations, .error error⟩ := by
  simp only [bind, h]

theorem map_ok (h : x state = ⟨operations, .ok value⟩) :
    (g <$> x) state = ⟨operations, .ok (g value)⟩ := by
  show (x >>= fun value => pure (g value)) state = _
  rw [bind_ok h, pure_run, List.append_nil]

theorem map_operations : ((g <$> x) state).operations = (x state).operations := by
  cases h : x state with
  | mk operations result =>
    cases result with
    | ok value => rw [map_ok h]
    | error error =>
      show ((x >>= fun value => pure (g value)) state).operations = _
      rw [bind_error h]

@[simp] theorem perform_bind (operation : ω) (f : Unit → Durable σ ω ε β) :
    (perform operation >>= f) state = ⟨operation :: (f () (act state operation)).operations,
      (f () (act state operation)).result⟩ :=
  rfl

@[simp] theorem inspect_bind (look : σ → α) :
    (inspect look >>= f) state = f (look state) state :=
  rfl

@[simp] theorem check_ok_bind (value : α) : (check (.ok value) >>= f) state = f value state :=
  rfl

@[simp] theorem check_error_bind (error : ε) :
    (check (.error error) >>= f) state = ⟨[], .error error⟩ :=
  rfl

@[simp] theorem consult_bind (look : σ → Except ε α) :
    (consult look >>= f) state = (check (look state) >>= f) state :=
  rfl

theorem check_bind_of_ok {checked : Except ε α} (h : checked = .ok value) :
    (check checked >>= f) = f value := by
  subst h
  rfl

/-! ## States on the way -/

/-- What holds in every state that operations go through, the first and the last included. -/
def Passes (P : σ → Prop) (state : σ) (operations : List ω) : Prop :=
  ∀ count, P (after state (operations.take count))

variable {P : σ → Prop}

theorem passes_nil : Passes P state ([] : List ω) ↔ P state := by
  simp [Passes]

theorem passes_cons {operation : ω} :
    Passes P state (operation :: operations) ↔
      P state ∧ Passes P (act state operation) operations := by
  constructor
  · intro h
    exact ⟨h 0, fun count => h (count + 1)⟩
  · rintro ⟨hfirst, hrest⟩ count
    cases count with
    | zero => exact hfirst
    | succ count => exact hrest count

theorem passes_append {first second : List ω} :
    Passes P state (first ++ second) ↔
      Passes P state first ∧ Passes P (after state first) second := by
  induction first generalizing state with
  | nil =>
    rw [List.nil_append, after_nil, passes_nil]
    exact ⟨fun h => ⟨h 0, h⟩, And.right⟩
  | cons operation first ih =>
    rw [List.cons_append, passes_cons, passes_cons, ih, after_cons, and_assoc]

theorem Passes.last (h : Passes P state operations) : P (after state operations) := by
  have hall := h operations.length
  rwa [List.take_length] at hall

/-! ## Outcomes -/

/-- What a computation returns or fails with, together with the operations that it performed. -/
def Outcome (x : Durable σ ω ε α) (state : σ) (post : α → List ω → Prop)
    (fail : ε → List ω → Prop) : Prop :=
  match x state with
  | ⟨operations, .ok value⟩ => post value operations
  | ⟨operations, .error error⟩ => fail error operations

variable {look : σ → Except ε α}

section

variable {post : α → List ω → Prop} {fail : ε → List ω → Prop} {post' : β → List ω → Prop}
  {fail' : ε → List ω → Prop}

section

omit [Acts σ ω]

theorem Outcome.ok (h : Outcome x state post fail) (hrun : x state = ⟨operations, .ok value⟩) :
    post value operations := by
  rwa [Outcome, hrun] at h

theorem Outcome.error {operations : List ω} {error : ε} (h : Outcome x state post fail)
    (hrun : x state = ⟨operations, .error error⟩) : fail error operations := by
  rwa [Outcome, hrun] at h

theorem Outcome.mono {post₂ : α → List ω → Prop} {fail₂ : ε → List ω → Prop}
    (h : Outcome x state post fail)
    (hpost : ∀ value operations, post value operations → post₂ value operations)
    (hfail : ∀ error operations, fail error operations → fail₂ error operations) :
    Outcome x state post₂ fail₂ := by
  unfold Outcome at h ⊢
  split
  · rename_i hrun
    rw [hrun] at h
    exact hpost _ _ h
  · rename_i hrun
    rw [hrun] at h
    exact hfail _ _ h

end

theorem Outcome.pure {value : α} (h : post value []) :
    Outcome (pure value : Durable σ ω ε α) state post fail :=
  h

omit [Acts σ ω] in
theorem Outcome.check {result : Except ε α} (hok : ∀ value, result = .ok value → post value [])
    (herror : ∀ error, result = .error error → fail error []) :
    Outcome (check result : Durable σ ω ε α) state post fail := by
  cases result with
  | ok value => exact hok value rfl
  | error error => exact herror error rfl

theorem Outcome.bind
    (h : Outcome x state (fun value first => Outcome (f value) (after state first)
      (fun result rest => post' result (first ++ rest)) (fun error rest => fail' error (first ++ rest)))
      fail') : Outcome (x >>= f) state post' fail' := by
  cases hx : x state with
  | mk first outcome =>
    cases outcome with
    | error error =>
      rw [Outcome, bind_error hx]
      exact h.error hx
    | ok value =>
      have hrest := h.ok hx
      rw [Outcome, bind_ok hx]
      cases hf : f value (after state first) with
      | mk rest result =>
        cases result with
        | ok result => exact hrest.ok hf
        | error error => exact hrest.error hf

theorem Outcome.map (h : Outcome x state (fun value => post' (g value)) fail') :
    Outcome (g <$> x) state post' fail' := by
  refine .bind (h.mono (fun value operations hpost => ?_) fun _ _ hfail => hfail)
  refine .pure ?_
  rwa [List.append_nil]

theorem Outcome.check_bind {result : Except ε α}
    (herror : ∀ error, result = .error error → fail' error [])
    (hok : ∀ value, result = .ok value → Outcome (f value) state post' fail') :
    Outcome (Durable.check result >>= f) state post' fail' := by
  cases result with
  | ok value => exact hok value rfl
  | error error => exact herror error rfl

theorem Outcome.perform_bind {operation : ω} {f : Unit → Durable σ ω ε β}
    (h : Outcome (f ()) (act state operation) (fun result rest => post' result (operation :: rest))
      fun error rest => fail' error (operation :: rest)) :
    Outcome (perform operation >>= f) state post' fail' :=
  .bind h

theorem Outcome.inspect_bind {look : σ → α} (h : Outcome (f (look state)) state post' fail') :
    Outcome (inspect look >>= f) state post' fail' :=
  h

theorem Outcome.consult_bind (herror : ∀ error, look state = .error error → fail' error [])
    (hok : ∀ value, look state = .ok value → Outcome (f value) state post' fail') :
    Outcome (consult look >>= f) state post' fail' :=
  check_bind herror hok

end

/-! ## Simulation -/

section

variable {τ ω' : Type} [Acts τ ω'] {R : σ → τ → Prop}

/-- The states that operations go through are related, in their order, to the states that other
operations go through. Some operations may have no counterpart. -/
inductive Tracks (R : σ → τ → Prop) : σ → List ω → τ → List ω' → Prop where
  | done (s t) : R s t → Tracks R s [] t []
  | quiet (s t operation rest steps) :
      R s t → Tracks R (act s operation) rest t steps → Tracks R s (operation :: rest) t steps
  | step (s t operation rest step steps) :
      R s t → Tracks R (act s operation) rest (act t step) steps →
      Tracks R s (operation :: rest) t (step :: steps)

variable {s : σ} {t : τ} {steps : List ω'} {y : Durable τ ω' ε α}

theorem Tracks.first (h : Tracks R s operations t steps) : R s t := by
  induction h with
  | done s t hR => exact hR
  | quiet s t operation rest steps hR => exact hR
  | step s t operation rest step steps hR => exact hR

theorem Tracks.append {first second : List ω} {first' second' : List ω'}
    (h : Tracks R s first t first')
    (h' : Tracks R (after s first) second (after t first') second') :
    Tracks R s (first ++ second) t (first' ++ second') := by
  induction h with
  | done s t _ => exact h'
  | quiet s t operation rest steps hR _ ih => exact .quiet s t operation _ _ hR (ih h')
  | step s t operation rest step steps hR _ ih => exact .step s t operation _ step _ hR (ih h')

theorem Tracks.last (h : Tracks R s operations t steps) :
    R (after s operations) (after t steps) := by
  induction h with
  | done s t hR => exact hR
  | quiet s t operation rest steps _ _ ih => exact ih
  | step s t operation rest step steps _ _ ih => exact ih

/-- Where the operations are stopped, the others can be stopped. -/
theorem Tracks.take (h : Tracks R s operations t steps) (count : Nat) :
    ∃ count', R (after s (operations.take count)) (after t (steps.take count')) := by
  induction h generalizing count with
  | done s t hR => exact ⟨0, by simpa using hR⟩
  | quiet s t operation rest steps hR _ ih =>
    cases count with
    | zero => exact ⟨0, hR⟩
    | succ count => exact ih count
  | step s t operation rest step steps hR _ ih =>
    cases count with
    | zero => exact ⟨0, hR⟩
    | succ count =>
      obtain ⟨count', h⟩ := ih count
      exact ⟨count' + 1, h⟩

/-- Where the others are stopped, the operations can be stopped. -/
theorem Tracks.take_steps (h : Tracks R s operations t steps) (count' : Nat) :
    ∃ count, R (after s (operations.take count)) (after t (steps.take count')) := by
  induction h generalizing count' with
  | done s t hR => exact ⟨0, by simpa using hR⟩
  | quiet s t operation rest steps hR _ ih =>
    obtain ⟨count, h⟩ := ih count'
    exact ⟨count + 1, h⟩
  | step s t operation rest step steps hR _ ih =>
    cases count' with
    | zero => exact ⟨0, hR⟩
    | succ count' =>
      obtain ⟨count, h⟩ := ih count'
      exact ⟨count + 1, h⟩

/-- Computations on related states have the same result and go through related states. What holds
of the states before, `P`, and after, `Q`, may be more than the relation. -/
def Simulates (R P : σ → τ → Prop) (x : Durable σ ω ε α) (y : Durable τ ω' ε α)
    (Q : α → σ → τ → Prop) : Prop :=
  ∀ s t, R s t → P s t → (x s).result = (y t).result
    ∧ Tracks R s (x s).operations t (y t).operations
    ∧ ∀ value, (x s).result = .ok value →
      Q value (after s (x s).operations) (after t (y t).operations)

variable {P : σ → τ → Prop} {Q : α → σ → τ → Prop} {Q' : β → σ → τ → Prop}

/-- Computations that perform nothing are related when their results are the same. -/
theorem Simulates.still {x : Durable σ ω ε α}
    (h : ∀ s t, R s t → P s t → ∃ result, x s = ⟨[], result⟩ ∧ y t = ⟨[], result⟩
      ∧ ∀ value, result = .ok value → Q value s t) : Simulates R P x y Q := by
  intro s t hR hP
  obtain ⟨result, hx, hy, hQ⟩ := h s t hR hP
  rw [hx, hy]
  exact ⟨rfl, .done s t hR, hQ⟩

theorem Simulates.pure (value : α) (h : ∀ s t, R s t → P s t → Q value s t) :
    Simulates R P (pure value : Durable σ ω ε α) (pure value : Durable τ ω' ε α) Q :=
  still fun s t hR hP => ⟨.ok value, rfl, rfl, by rintro _ ⟨⟩; exact h s t hR hP⟩

theorem Simulates.check (result : Except ε α) :
    Simulates R P (check result : Durable σ ω ε α) (check result : Durable τ ω' ε α)
      fun _ => P :=
  still fun _ _ _ hP => ⟨result, rfl, rfl, fun _ _ => hP⟩

theorem Simulates.bind {x : Durable σ ω ε α} {f : α → Durable σ ω ε β} {g : α → Durable τ ω' ε β}
    (hx : Simulates R P x y Q) (hf : ∀ value, Simulates R (Q value) (f value) (g value) Q') :
    Simulates R P (x >>= f) (y >>= g) Q' := by
  intro s t hR hP
  obtain ⟨hresult, htracks, hQ⟩ := hx s t hR hP
  cases hxs : x s with
  | mk operations result =>
    cases hyt : y t with
    | mk steps result' =>
      rw [hxs, hyt] at hresult htracks
      rw [hxs, hyt] at hQ
      obtain rfl : result = result' := hresult
      cases result with
      | error error =>
        rw [bind_error hxs, bind_error hyt]
        exact ⟨rfl, htracks, nofun⟩
      | ok value =>
        rw [bind_ok hxs, bind_ok hyt]
        obtain ⟨hresult', htracks', hQ'⟩ := hf value _ _ htracks.last (hQ value rfl)
        refine ⟨hresult', htracks.append htracks', fun result h => ?_⟩
        rw [after_append, after_append]
        exact hQ' result h

theorem Simulates.map {x : Durable σ ω ε α} (f : α → β) (h : Simulates R P x y Q) :
    Simulates R P (f <$> x) (f <$> y) fun _ _ _ => True :=
  .bind h fun _ => .pure _ fun _ _ _ _ => trivial

/-- A check first. -/
theorem Simulates.check_bind {result : Except ε α} {f : α → Durable σ ω ε β}
    {g : α → Durable τ ω' ε β}
    (hf : ∀ value, result = .ok value → Simulates R P (f value) (g value) Q') :
    Simulates R P (Durable.check result >>= f) (Durable.check result >>= g) Q' := by
  cases result with
  | error error =>
    exact still fun s t _ _ => ⟨.error error, rfl, rfl, nofun⟩
  | ok value => exact hf value rfl

/-- A look at related states first, whose results correspond. -/
theorem Simulates.consult_map_bind {γ : Type} (convert : γ → α) {look' : τ → Except ε γ}
    {f : α → Durable σ ω ε β} {g : γ → Durable τ ω' ε β}
    (hlook : ∀ s t, R s t → look s = (look' t).map convert)
    (hf : ∀ value, Simulates R (fun s t => P s t ∧ look' t = .ok value) (f (convert value))
      (g value) Q') :
    Simulates R P (Durable.consult look >>= f) (Durable.consult look' >>= g) Q' := by
  intro s t hR hP
  rw [Durable.consult_bind, Durable.consult_bind, hlook s t hR]
  cases hresult : look' t with
  | error error => exact ⟨rfl, .done s t hR, nofun⟩
  | ok value => exact hf value s t hR ⟨hP, hresult⟩

/-- A look at related states first. -/
theorem Simulates.consult_bind {look' : τ → Except ε α} {f : α → Durable σ ω ε β}
    {g : α → Durable τ ω' ε β} (hlook : ∀ s t, R s t → look s = look' t)
    (hf : ∀ value, Simulates R P (f value) (g value) Q') :
    Simulates R P (Durable.consult look >>= f) (Durable.consult look' >>= g) Q' :=
  consult_map_bind id (fun s t hR => by rw [hlook s t hR, Except.map_id]; rfl)
    fun value s t hR hP => hf value s t hR hP.1

theorem Simulates.of_fact {fact : Prop} {x : Durable σ ω ε α} (h : fact → Simulates R P x y Q) :
    Simulates R (fun s t => P s t ∧ fact) x y Q :=
  fun s t hR hP => h hP.2 s t hR hP.1

theorem Simulates.weaken {Q₂ : α → σ → τ → Prop} {x : Durable σ ω ε α} (h : Simulates R P x y Q)
    (hQ : ∀ value s t, R s t → Q value s t → Q₂ value s t) : Simulates R P x y Q₂ := by
  intro s t hR hP
  obtain ⟨hresult, htracks, hpost⟩ := h s t hR hP
  exact ⟨hresult, htracks, fun value hvalue => hQ value _ _ htracks.last (hpost value hvalue)⟩

theorem Simulates.require {P₂ : σ → τ → Prop} {x : Durable σ ω ε α} (h : Simulates R P x y Q)
    (hP : ∀ s t, P₂ s t → P s t) : Simulates R P₂ x y Q :=
  fun s t hR hP₂ => h s t hR (hP s t hP₂)

end

end Durable
