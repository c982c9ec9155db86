import CartridgeRuntime.Engine.StoppedRollout

/-!
# The inventory of stacks

The engine admits a new stack by the number of stacks that have events, and reads its inventory by
the number of stack directories. The two differ by the stacks that only have a prepared rollout, so
the inventory stays readable along runs that count these too: `inventory_readable`.
-/

namespace CartridgeRuntime.Engine

open Checked CartridgeRuntime.Core Encoding Durable
open Std (ExtTreeMap)

section

variable [HexCodec] [Sha256] [Semver]

/-! ## Reading the inventory -/

variable {names : List String}

section

variable {engine : EngineView} {stack : String}

variable {listed : List String}

section

omit [HexCodec] [Sha256] [Semver]

theorem scanStack_eq {name : String} (hname : validName name) :
    scanStack listed name = if listed.length < maxEngineStacks
      then .ok (listed ++ [name]) else .error .stackLimitExceeded := by
  rw [scanStack, rejectIf_of_not _ (not_not.mpr hname), ok_bind]
  split
  · rename_i hlt
    rw [rejectIf_of_not _ (Nat.not_lt.mpr hlt)]
    rfl
  · rename_i hlt
    rw [rejectIf_of _ (Nat.lt_succ_of_le (Nat.not_lt.mp hlt))]
    rfl

/-- So many valid names can be listed. -/
theorem foldlM_scanStack (hvalid : ∀ name ∈ names, validName name)
    (hle : listed.length + names.length ≤ maxEngineStacks) :
    names.foldlM scanStack listed = .ok (listed ++ names) := by
  induction names generalizing listed with
  | nil => rw [List.append_nil]; rfl
  | cons name names ih =>
    obtain ⟨hname, hrest⟩ := List.forall_mem_cons.mp hvalid
    rw [List.length_cons] at hle
    rw [List.foldlM_cons, scanStack_eq hname, if_pos (by omega), ok_bind,
      ih hrest (by simp; omega), List.append_assoc, List.singleton_append]

/-- More valid names cannot be listed. -/
theorem foldlM_scanStack_error (hvalid : ∀ name ∈ names, validName name)
    (hlisted : listed.length ≤ maxEngineStacks)
    (hgt : maxEngineStacks < listed.length + names.length) :
    names.foldlM scanStack listed = .error .stackLimitExceeded := by
  induction names generalizing listed with
  | nil => exact absurd hgt (Nat.not_lt.mpr hlisted)
  | cons name names ih =>
    obtain ⟨hname, hrest⟩ := List.forall_mem_cons.mp hvalid
    rw [List.length_cons] at hgt
    rw [List.foldlM_cons, scanStack_eq hname]
    split
    · exact ih hrest (by simp; omega) (by simp; omega)
    · rfl

end

/-- The inventory lists the stacks that have events, when there are not too many directories. -/
theorem list_view (hvalid : ∀ name ∈ engine.views, validName name)
    (hsize : engine.views.size ≤ maxEngineStacks) :
    list engine = .ok (engine.views.keys.filterMap fun name =>
      (engine.view name).journal.getLast?.map EngineEvent.status) := by
  have hkeys : ∀ name ∈ engine.views.keys, validName name := fun name hmem =>
    hvalid name (ExtTreeMap.mem_keys.mp hmem)
  have hlatest : ∀ name ∈ engine.views.keys,
      (latest engine name).map (·.map EngineEvent.status)
        = .ok ((engine.view name).journal.getLast?.map EngineEvent.status) := fun name hmem => by
    rw [latest_view (hkeys name hmem)]
    rfl
  rw [list]
  show (engine.views.keys.foldlM scanStack [] >>= fun names => _) = _
  rw [foldlM_scanStack hkeys (by simpa using hsize), ok_bind, List.nil_append,
    mapM_eq_ok hlatest]
  show Except.ok (List.reduceOption _) = _
  rw [List.reduceOption, List.filterMap_map]
  rfl

theorem list_view_error (hvalid : ∀ name ∈ engine.views, validName name)
    (hsize : maxEngineStacks < engine.views.size) :
    list engine = .error .stackLimitExceeded := by
  have hkeys : ∀ name ∈ engine.views.keys, validName name := fun name hmem =>
    hvalid name (ExtTreeMap.mem_keys.mp hmem)
  rw [list]
  show (engine.views.keys.foldlM scanStack [] >>= fun names => _) = _
  rw [foldlM_scanStack_error hkeys (Nat.zero_le _) (by simpa using hsize)]
  rfl

/-! ## Admission -/

/-- A computation performs nothing, whether it succeeds or fails. -/
def Still {α : Type} (x : Keeping α) (engine : EngineView) : Prop :=
  Outcome x engine (fun _ operations => operations = []) fun _ operations => operations = []

theorem rollout_absent (hcheckpoint : (engine.view stack).checkpoint = none) :
    Outcome (rollout stack : Keeping _) engine
      (fun read operations => validName stack ∧ read = none ∧ operations = [])
      fun _ operations => operations = [] := by
  refine rollout_outcome.mono ?_ fun _ _ h => h.1
  rintro read _ ⟨hname, changes, rfl, hreads⟩
  cases hreads with
  | none => exact ⟨hname, rfl, rfl⟩
  | same record hsome | recovered record next hsome =>
    rw [hcheckpoint] at hsome
    cases hsome

variable (hcheckpoint : (engine.view stack).checkpoint = none)
  (hjournal : (engine.view stack).journal = []) (hprogress : (engine.view stack).progress = none)

include hcheckpoint in
/-- A call on a rollout finds none. -/
theorem requireRollout_absent (rolloutId : String) {α : Type} (f : RolloutRecord → Keeping α) :
    Still (requireRollout stack rolloutId >>= f) engine := by
  have hrequire : Outcome (requireRollout stack rolloutId : Keeping _) engine
      (fun _ _ => False) fun _ operations => operations = [] := by
    refine .check_bind (fun _ _ => rfl) fun _ _ =>
      .bind ((rollout_absent hcheckpoint).mono ?_ fun _ _ h => h)
    rintro _ _ ⟨-, rfl, rfl⟩
    rfl
  exact .bind (hrequire.mono (fun _ _ h => h.elim) fun _ _ h => h)

include hcheckpoint in
theorem ensureNoActiveRollout_absent :
    Outcome (ensureNoActiveRollout stack : Keeping _) engine
      (fun _ operations => validName stack ∧ operations = [])
      fun _ operations => operations = [] := by
  refine .bind ((rollout_absent hcheckpoint).mono ?_ fun _ _ h => h)
  rintro _ _ ⟨hname, rfl, rfl⟩
  exact .check (fun _ _ => ⟨hname, rfl⟩) fun _ _ => rfl

include hcheckpoint hjournal in
theorem apply_absent {plan : StackPlan} (hstack : plan.stack = stack) (allowInsecure : Bool)
    (clockMs : UInt64) (hfull : admitStack engine none ≠ .ok ()) :
    Still (Engine.apply plan allowInsecure clockMs) engine := by
  subst hstack
  refine .check_bind (fun _ _ => rfl) fun _ _ =>
    .bind ((ensureNoActiveRollout_absent hcheckpoint).mono ?_ fun _ _ h => h)
  rintro _ _ ⟨hname, rfl⟩
  refine .check_bind (fun _ _ => rfl) fun _ _ => .consult_bind (fun _ _ => rfl)
    fun previous hprevious => .consult_bind (fun _ _ => rfl) fun _ hadmission => ?_
  rw [after_nil, latest_view hname, hjournal] at hprevious
  cases hprevious
  exact absurd hadmission hfull

include hcheckpoint hjournal in
theorem prepareRollout_absent {plan : StackPlan} (hstack : plan.stack = stack)
    (allowInsecure : Bool) (nowMs : UInt64) (hfull : admitStack engine none ≠ .ok ()) :
    Still (Engine.prepareRollout plan allowInsecure nowMs) engine := by
  subst hstack
  refine .check_bind (fun _ _ => rfl) fun _ _ => .check_bind (fun _ _ => rfl) fun _ _ =>
    .bind ((rollout_absent hcheckpoint).mono ?_ fun _ _ h => h)
  rintro _ _ ⟨hname, rfl, rfl⟩
  refine .consult_bind (fun _ _ => rfl) fun previous hprevious =>
    .consult_bind (fun _ _ => rfl) fun _ hadmission => ?_
  rw [after_nil, latest_view hname, hjournal] at hprevious
  cases hprevious
  exact absurd hadmission hfull

include hcheckpoint hjournal in
/-- A call on the journal finds no event. -/
theorem latest_absent {α : Type} (f : EngineEvent → Keeping α) :
    Still (do
      ensureNoActiveRollout stack
      let previous ← consult (latest · stack)
      let previous ← check (okOr previous .stackUnknown)
      f previous) engine := by
  refine .bind ((ensureNoActiveRollout_absent hcheckpoint).mono ?_ fun _ _ h => h)
  rintro _ _ ⟨hname, rfl⟩
  refine .consult_bind (fun _ _ => rfl) fun previous hprevious => ?_
  rw [after_nil, latest_view hname, hjournal] at hprevious
  cases hprevious
  exact .check_bind (fun _ _ => rfl) fun _ hnone => nomatch hnone

include hcheckpoint hprogress in
theorem beginRolloutProgress_absent (rolloutId : String) (nowMs : UInt64) :
    Still (Engine.beginRolloutProgress stack rolloutId nowMs) engine := by
  have hread : Outcome (rolloutProgress stack : Keeping _) engine
      (fun progress operations => progress = none ∧ operations = [])
      fun _ operations => operations = [] := by
    refine .check_bind (fun _ _ => rfl) fun _ _ => .inspect_bind ?_
    rw [hprogress]
    exact .pure ⟨rfl, rfl⟩
  refine .bind (hread.mono ?_ fun _ _ h => h)
  rintro _ _ ⟨rfl, rfl⟩
  refine .bind ((rollout_absent hcheckpoint).mono ?_ fun _ _ h => h)
  rintro _ _ ⟨-, rfl, rfl⟩
  exact .check_bind (fun _ _ => rfl) fun _ hnone => nomatch hnone

include hcheckpoint in
theorem saveRolloutProgress_absent {progress : RolloutProgress} (hstack : progress.stack = stack) :
    Still (Engine.saveRolloutProgress progress) engine := by
  subst hstack
  refine .check_bind (fun _ _ => rfl) fun _ _ =>
    .bind ((rollout_absent hcheckpoint).mono ?_ fun _ _ h => h)
  rintro _ _ ⟨-, rfl, rfl⟩
  exact .check_bind (fun _ _ => rfl) fun _ hnone => nomatch hnone

omit [HexCodec] [Sha256] [Semver] in
theorem view_of_not_mem (habsent : stack ∉ engine.views) : engine.view stack = {} := by
  rw [EngineView.view, ExtTreeMap.getElem?_eq_none habsent]
  rfl

/-- A stack without a directory gets one only when it is admitted. -/
theorem EngineCall.admitted {call : EngineCall} (habsent : call.stack ∉ engine.views) :
    (call.run engine).operations = [] ∨ admitStack engine none = .ok () := by
  by_cases hfull : admitStack engine none = .ok ()
  · exact .inr hfull
  have hview := view_of_not_mem habsent
  have hcheckpoint : (engine.view call.stack).checkpoint = none := by rw [hview]
  have hjournal : (engine.view call.stack).journal = [] := by rw [hview]
  have hprogress : (engine.view call.stack).progress = none := by rw [hview]
  have hstill : Still (call.run : Keeping _) engine := by
    cases call with
    | apply plan allowInsecure clockMs =>
      exact .map (apply_absent hcheckpoint hjournal rfl allowInsecure clockMs hfull)
    | stop stack clockMs => exact .map (latest_absent hcheckpoint hjournal _)
    | remove stack clockMs => exact .map (latest_absent hcheckpoint hjournal _)
    | rollout stack => exact .map ((rollout_absent hcheckpoint).mono (fun _ _ h => h.2.2) fun _ _ h => h)
    | prepareRollout plan allowInsecure nowMs =>
      exact .map (prepareRollout_absent hcheckpoint hjournal rfl allowInsecure nowMs hfull)
    | activateRollout stack rolloutId nowMs clockMs =>
      exact .map (requireRollout_absent hcheckpoint rolloutId _)
    | commitRollout stack rolloutId nowMs observed =>
      exact .map (requireRollout_absent hcheckpoint rolloutId _)
    | rollbackRollout stack rolloutId nowMs clockMs =>
      exact .map (requireRollout_absent hcheckpoint rolloutId _)
    | beginRolloutProgress stack rolloutId nowMs =>
      exact .map (beginRolloutProgress_absent hcheckpoint hprogress rolloutId nowMs)
    | saveRolloutProgress progress => exact .map (saveRolloutProgress_absent hcheckpoint rfl)
  left
  cases hrun : call.run engine with
  | mk operations result =>
    cases result with
    | ok answer => exact hstill.ok hrun
    | error error => exact hstill.error hrun

section

omit [HexCodec] [Sha256] [Semver]

theorem size_onStack_of_mem {engine : EngineView} {stack : String} (hmem : stack ∈ engine.views)
    (changes : List StackChange) :
    (after engine (onStack stack changes)).views.size = engine.views.size := by
  induction changes generalizing engine with
  | nil => rfl
  | cons change changes ih =>
    rw [onStack, List.map_cons, after_cons, ← onStack, ih (EngineView.mem_act.mpr (.inl rfl))]
    exact (ExtTreeMap.size_insert ..).trans (if_pos hmem)

/-- Operations on a stack give a directory to that stack. -/
theorem size_onStack_of_not_mem {engine : EngineView} {stack : String}
    (habsent : stack ∉ engine.views) (change : StackChange) (changes : List StackChange) :
    (after engine (onStack stack (change :: changes))).views.size = engine.views.size + 1 := by
  rw [onStack, List.map_cons, after_cons, ← onStack,
    size_onStack_of_mem (EngineView.mem_act.mpr (.inl rfl))]
  exact (ExtTreeMap.size_insert ..).trans (if_neg habsent)

theorem size_onStack_le (engine : EngineView) (stack : String) (changes : List StackChange) :
    (after engine (onStack stack changes)).views.size
      ≤ engine.views.size + if stack ∈ engine.views then 0 else 1 := by
  split
  · rename_i hmem
    exact (size_onStack_of_mem hmem changes).le
  · rename_i habsent
    cases changes with
    | nil => exact Nat.le_succ _
    | cons change changes => exact (size_onStack_of_not_mem habsent change changes).le

end

/-- An admitted stack finds a place when every directory holds events. -/
theorem size_lt_of_admitStack (hvalid : ∀ name ∈ engine.views, validName name)
    (hsize : engine.views.size ≤ maxEngineStacks) (hadmission : admitStack engine none = .ok ())
    (hevents : ∀ name ∈ engine.views, (engine.view name).journal ≠ []) :
    engine.views.size < maxEngineStacks := by
  have hall : (engine.views.keys.filterMap fun name =>
      (engine.view name).journal.getLast?.map EngineEvent.status).length
        = engine.views.keys.length := by
    rw [List.filterMap_length_eq_length]
    intro name hmem
    rw [Option.isSome_map, List.getLast?_isSome]
    exact hevents name (ExtTreeMap.mem_keys.mp hmem)
  rw [admitStack, Option.isNone_none, if_pos rfl, list_view hvalid hsize, ok_bind, rejectIf_eq_ok, hall,
    ExtTreeMap.length_keys] at hadmission
  exact Nat.not_le.mp hadmission

/-- A step keeps the number of directories within its limit. -/
theorem EngineStep.size_perform (hsound : engine.Sound)
    (hvalid : ∀ name ∈ engine.views, validName name) (hsize : engine.views.size ≤ maxEngineStacks)
    {step : EngineStep}
    (hadmissible : step.call.stack ∈ engine.views ∨ engine.views.size < maxEngineStacks
      ∨ ∀ name ∈ engine.views, (engine.view name).journal ≠ []) :
    (step.perform engine).views.size ≤ maxEngineStacks := by
  obtain ⟨count, hcount⟩ := step.operations_eq_take engine
  obtain ⟨changes, hrun, -⟩ := step.call.appends hsound
  have hle := size_onStack_le engine step.call.stack (changes.take count)
  have hperform : step.perform engine
      = after engine (onStack step.call.stack (changes.take count)) := by
    rw [EngineStep.perform, hcount, hrun, onStack, onStack, List.map_take]
  rw [← hperform] at hle
  by_cases hmem : step.call.stack ∈ engine.views
  · rw [if_pos hmem] at hle
    exact hle.trans hsize
  rw [if_neg hmem] at hle
  rcases EngineCall.admitted hmem with hnone | hadmission
  · rw [EngineStep.perform, hcount, hnone, List.take_nil, after_nil]
    exact hsize
  · rcases hadmissible with hknown | hroom | hevents
    · exact absurd hknown hmem
    · exact hle.trans hroom
    · exact hle.trans (size_lt_of_admitStack hvalid hsize hadmission hevents)

end

/-! ## Runs -/

section

variable [FromJson EngineEvent] [FromJson RolloutRecord] [FromJson RolloutProgress]

section

omit [FromJson RolloutRecord] [FromJson RolloutProgress]

theorem Agrees.views_valid {store : EngineStore} {engine : EngineView} (h : Agrees store engine) :
    ∀ name ∈ engine.views, validName name :=
  fun name hmem => h.name_valid name ((h.mem_iff name).mpr hmem)

theorem Agrees.size_eq {store : EngineStore} {engine : EngineView} (h : Agrees store engine) :
    store.directories.size = engine.views.size := by
  rw [← ExtTreeMap.length_keys, ← ExtTreeMap.length_keys, TreeMap.keys_eq_of_mem_iff h.mem_iff]

end

/-- The stack has a directory, or there is room for one more directory, or the stacks that have
events, by which the engine admits another one, are all stacks. -/
def Admissible (store : EngineStore) (step : EngineStep) : Prop :=
  step.call.stack ∈ store.directories ∨ store.directories.size < maxEngineStacks
    ∨ ∀ name ∈ store.directories, ∃ event, latest store name = .ok (some event)

/-- Along every run of admissible steps, interrupted anywhere, there are never more stack
directories than the limit, and the inventory is not refused for their number. -/
theorem inventory_readable {steps : List EngineStep}
    (hadmissible : Along Admissible ({} : EngineStore) steps) :
    (run {} steps : EngineStore).directories.size ≤ maxEngineStacks
      ∧ list (run {} steps : EngineStore) ≠ .error .stackLimitExceeded := by
  have hinvariant : ∃ engine, Agrees (run {} steps) engine
      ∧ engine.views.size ≤ maxEngineStacks := by
    refine Agrees.run ?_ .empty (Nat.zero_le _) hadmissible
    intro store engine step step' hagrees hsize hstep hlike
    have hsame : step'.call = step.call := by cases hlike <;> rfl
    refine EngineStep.size_perform hagrees.sound hagrees.views_valid hsize ?_
    rw [hsame, ← hagrees.size_eq]
    refine hstep.imp (hagrees.mem_iff _).mp (Or.imp_right fun hevents name hmem hnone => ?_)
    obtain ⟨event, hevent⟩ := hevents name ((hagrees.mem_iff name).mpr hmem)
    rw [hagrees.latest, latest_view (hagrees.views_valid name hmem), hnone] at hevent
    cases hevent
  obtain ⟨engine, hagrees, hsize⟩ := hinvariant
  rw [hagrees.size_eq, hagrees.list, list_view hagrees.views_valid hsize]
  exact ⟨hsize, nofun⟩

/-! ## A full inventory -/

/-- The calls that prepare a rollout for each of the stacks. -/
def prepareSteps (names : List String) : List EngineStep :=
  names.map fun stack => .complete (.prepareRollout (stoppedPlan stack "a") false 1)

/-- Rollouts can be prepared for one stack more than the inventory can list. -/
theorem prepareSteps_run
    (hplan : ∀ name ∈ names, (stoppedPlan name "a").Dormant)
    (hdistinct : names.Nodup) (hlength : names.length ≤ maxEngineStacks + 1) :
    ∃ engine, Agrees (run {} (prepareSteps names)) engine
      ∧ engine.views.size = names.length ∧ (∀ name, (engine.view name).journal = [])
      ∧ (∀ name ∈ engine.views, name ∈ names) := by
  induction names using List.reverseRecOn with
  | nil => exact ⟨{}, .empty, rfl, fun _ => rfl, fun name hmem => by simp at hmem⟩
  | append_singleton names name ih =>
    obtain ⟨hplans, hplan⟩ := List.forall_mem_append.mp hplan
    obtain ⟨hothers, -, hother⟩ := List.nodup_append.mp hdistinct
    rw [List.length_append, List.length_singleton] at hlength
    obtain ⟨engine, hagrees, hsize, hjournals, hnames⟩ := ih hplans hothers (by omega)
    have hdormant := hplan name List.mem_cons_self
    have habsent : name ∉ engine.views := fun hmem =>
      hother name (hnames name hmem) name List.mem_cons_self rfl
    have hadmission : admitStack engine (engine.view name).journal.getLast? = .ok () := by
      have hnone : engine.views.keys.filterMap (fun name =>
          (engine.view name).journal.getLast?.map EngineEvent.status) = [] := by
        simp [hjournals]
      rw [hjournals, List.getLast?_nil, admitStack, Option.isNone_none, if_pos rfl,
        list_view hagrees.views_valid (by omega), hnone]
      rfl
    obtain ⟨record, hnew⟩ := RolloutRecord.new_succeeds hdormant.valid (by decide : (1 : UInt64) ≠ 0)
    have hrun : (EngineCall.prepareRollout (stoppedPlan name "a") false 1).run engine
        = ⟨onStack name [.create, .checkpoint record], .ok (.checkpoint (some record))⟩ := by
      refine map_ok (prepareRollout_fresh hdormant.valid (fun h => hdormant.secure h.1) ?_ hadmission
        ?_ ?_)
      · exact congrArg StackView.checkpoint (view_of_not_mem habsent)
      · rw [hjournals]
        exact Bool.false_ne_true
      · rw [hjournals]
        exact hnew
    have hstep : (EngineStep.complete (.prepareRollout (stoppedPlan name "a") false 1)).perform
        engine = after engine (onStack name [.create, .checkpoint record]) := by
      rw [EngineStep.perform, EngineStep.operations, hrun]
    have hnext := hagrees.complete (.prepareRollout (stoppedPlan name "a") false 1)
    rw [hstep] at hnext
    refine ⟨after engine (onStack name [.create, .checkpoint record]), ?_, ?_, fun other => ?_,
      fun other hmem => ?_⟩
    · rw [run, prepareSteps, List.map_append, List.foldl_append]
      exact hnext
    · rw [size_onStack_of_not_mem habsent, hsize, List.length_append, List.length_singleton]
    · by_cases heq : name = other
      · subst heq
        rw [view_onStack]
        exact hjournals name
      · rw [view_onStack_of_ne engine heq]
        exact hjournals other
    · rcases EngineView.mem_act.mp hmem with rfl | hmem
      · exact List.mem_append_right _ List.mem_cons_self
      · rcases EngineView.mem_act.mp hmem with rfl | hmem
        · exact List.mem_append_right _ List.mem_cons_self
        · exact List.mem_append_left _ (hnames other hmem)

end

/-- A name for each number, by its digits in binary. -/
def stackName (number : Nat) : String :=
  String.ofList ((List.range 11).map fun digit => if number.testBit digit then 'b' else 'a')

section

omit [HexCodec] [Sha256] [Semver]

theorem stackName_injective {first second : Nat} (hfirst : first < 2 ^ 11)
    (hsecond : second < 2 ^ 11) (h : stackName first = stackName second) : first = second := by
  have hdigits := List.map_inj_left.mp (String.ofList_injective h)
  refine Nat.eq_of_testBit_eq fun digit => ?_
  by_cases hdigit : digit < 11
  · have hsame := hdigits digit (List.mem_range.mpr hdigit)
    cases hbit : first.testBit digit <;> cases hbit' : second.testBit digit <;>
      simp [hbit, hbit'] at hsame ⊢
  · have hpow : 2 ^ 11 ≤ 2 ^ digit := Nat.pow_le_pow_right (by decide) (Nat.not_lt.mp hdigit)
    rw [Nat.testBit_lt_two_pow (hfirst.trans_le hpow), Nat.testBit_lt_two_pow (hsecond.trans_le hpow)]

theorem nodup_stackNames {count : Nat} (hcount : count ≤ 2 ^ 11) :
    ((List.range count).map stackName).Nodup := by
  refine List.Nodup.map_on (fun first hfirst second hsecond h => ?_) List.nodup_range
  rw [List.mem_range] at hfirst hsecond
  exact stackName_injective (by omega) (by omega) h

theorem validName_stackName (number : Nat) : validName (stackName number) := by
  -- only the two letters occur, so the name is not looked at for each number
  have hletters : ∀ letters : List Char, letters.length = 11 → (∀ c ∈ letters, c = 'a' ∨ c = 'b') →
      validName (String.ofList letters) := by
    intro letters hlength hletter
    have hends : ∀ c, letters.head? = some c ∨ letters.getLast? = some c → c ≠ '-' := by
      rintro c (h | h) rfl
      · exact absurd (hletter _ (List.mem_of_mem_head? h)) (by decide)
      · exact absurd (hletter _ (List.mem_of_getLast? h)) (by decide)
    have hbytes : byteLength letters = letters.length := byteLength_ascii fun c hc => by
      rcases hletter c hc with rfl | rfl <;> decide
    simp only [validName, isBoundedSegment, isSegment, String.toList_ofList, hbytes, hlength,
      Bool.and_eq_true, bne_iff_ne, ne_eq, List.all_eq_true]
    refine ⟨rfl, ⟨⟨?_, fun c hc => ?_⟩, fun h => hends _ (.inl h) rfl⟩,
      fun h => hends _ (.inr h) rfl⟩
    · cases letters with
      | nil => cases hlength
      | cons => rfl
    · rcases hletter c hc with rfl | rfl <;> decide
  refine hletters _ (by simp) fun c hc => ?_
  obtain ⟨digit, -, rfl⟩ := List.mem_map.mp hc
  split
  · exact .inr rfl
  · exact .inl rfl

end

section

variable [FromJson EngineEvent] [FromJson RolloutRecord] [FromJson RolloutProgress]

/-- Each of so many stacks has room for its directory. -/
theorem along_prepareSteps (hplan : ∀ name ∈ names, (stoppedPlan name "a").Dormant)
    (hdistinct : names.Nodup) (hlength : names.length ≤ maxEngineStacks) :
    Along Admissible ({} : EngineStore) (prepareSteps names) := by
  induction names using List.reverseRecOn with
  | nil => trivial
  | append_singleton names name ih =>
    rw [List.length_append, List.length_singleton] at hlength
    have hplans := (List.forall_mem_append.mp hplan).1
    have hothers := (List.nodup_append.mp hdistinct).1
    obtain ⟨engine, hagrees, hsize, -⟩ := prepareSteps_run hplans hothers (by omega)
    rw [prepareSteps, List.map_append]
    refine along_append (ih hplans hothers (by omega)) ⟨.inr (.inl ?_), trivial⟩
    show (run {} (prepareSteps names) : EngineStore).directories.size < maxEngineStacks
    rw [hagrees.size_eq, hsize]
    omega

end

end

attribute [local instance] semver2 nibbleCodec Sha2.sha256 EngineEvent.reader RolloutRecord.reader
  RolloutProgress.reader

/-- As many stacks as the limit get their directories, and the inventory lists them. -/
theorem inventory_readable_prepared :
    let names := (List.range 1024).map stackName
    Along Admissible ({} : EngineStore) (prepareSteps names)
      ∧ (run {} (prepareSteps names) : EngineStore).directories.size = maxEngineStacks
      ∧ list (run {} (prepareSteps names) : EngineStore) ≠ .error .stackLimitExceeded := by
  intro names
  have hplan : ∀ name ∈ names, (stoppedPlan name "a").Dormant := by
    intro name hmem
    obtain ⟨number, -, rfl⟩ := List.mem_map.mp hmem
    exact stoppedPlan_a_dormant (validName_stackName number)
  have hlength : names.length = 1024 := by rw [List.length_map, List.length_range]
  have hdistinct : names.Nodup := nodup_stackNames (by decide)
  -- the list of names is not to be computed
  clear_value names
  have hadmissible := along_prepareSteps hplan hdistinct (hlength.trans_le (by decide))
  obtain ⟨engine, hagrees, hsize, -⟩ := prepareSteps_run hplan hdistinct (hlength.trans_le (by decide))
  exact ⟨hadmissible, by rw [hagrees.size_eq, hsize, hlength]; rfl, (inventory_readable hadmissible).2⟩

/-- Preparing a rollout for one stack too many makes the inventory unreadable. -/
theorem inventory_unreadable_prepared :
    list (run {} (prepareSteps ((List.range 1025).map stackName)) : EngineStore)
      = .error .stackLimitExceeded := by
  have hplan : ∀ name ∈ (List.range 1025).map stackName, (stoppedPlan name "a").Dormant := by
    intro name hmem
    obtain ⟨number, -, rfl⟩ := List.mem_map.mp hmem
    exact stoppedPlan_a_dormant (validName_stackName number)
  have hlength : ((List.range 1025).map stackName).length = 1025 := by
    rw [List.length_map, List.length_range]
  obtain ⟨engine, hagrees, hsize, -, -⟩ :=
    prepareSteps_run hplan (nodup_stackNames (by decide)) (hlength.trans_le (by decide))
  rw [hagrees.list]
  refine list_view_error hagrees.views_valid ?_
  rw [hsize, hlength]
  decide

end CartridgeRuntime.Engine
