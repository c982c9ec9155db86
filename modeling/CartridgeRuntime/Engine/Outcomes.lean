import CartridgeRuntime.Engine.StoreSimulation

/-!
# What a call can do

For each call of the engine, all that it can do to a view: the changes that it makes, in their
order, when it succeeds and when it fails. All of them are changes of the stack that the call is
about.
-/

namespace CartridgeRuntime.Engine

open Checked CartridgeRuntime.Core Encoding Durable

variable [HexCodec] [Sha256] [Semver]

/-- Changes of one stack. -/
def onStack (stack : String) (changes : List StackChange) : List ViewOperation :=
  changes.map (ViewOperation.mk stack)

/-- What is kept about a stack is valid. -/
structure StackView.Sound (stack : String) (view : StackView) : Prop where
  chain : Chain stack view.journal
  length_le : view.journal.length ≤ maxEngineEventsPerStack
  checkpoint_valid : ∀ record ∈ view.checkpoint, record.validate = .ok ()
  archive_valid : ∀ record ∈ view.archive, record.validate = .ok ()

/-- What is kept about every stack is valid. -/
def EngineView.Sound (engine : EngineView) : Prop :=
  ∀ stack, (engine.view stack).Sound stack

theorem Agrees.sound [FromJson EngineEvent] {store : EngineStore} {engine : EngineView}
    (h : Agrees store engine) : engine.Sound := by
  intro stack
  have hrepresents := h.represents stack
  obtain ⟨hchain, -, hlength, -, -⟩ := chain_of_readEventsWithSize hrepresents.journal
  exact ⟨hchain, hlength, hrepresents.checkpoint_valid, hrepresents.archive_valid⟩

section

variable {engine : EngineView} {stack : String}

section

omit [HexCodec] [Sha256] [Semver]

@[simp] theorem onStack_append (stack : String) (first second : List StackChange) :
    onStack stack (first ++ second) = onStack stack first ++ onStack stack second :=
  List.map_append

theorem view_onStack (engine : EngineView) (stack : String) (changes : List StackChange) :
    (after engine (onStack stack changes)).view stack = after (engine.view stack) changes :=
  EngineView.view_after engine stack changes

theorem view_onStack_of_ne (engine : EngineView) {stack other : String} (hne : stack ≠ other)
    (changes : List StackChange) :
    (after engine (onStack stack changes)).view other = engine.view other := by
  induction changes generalizing engine with
  | nil => rfl
  | cons change changes ih =>
    rw [onStack, List.map_cons, after_cons, ← onStack, ih, EngineView.view_act, if_neg hne]

theorem requireName_eq_ok {name : String} : requireName name = .ok () ↔ validName name := by
  rw [requireName, rejectIf_eq_ok, not_not]

end

theorem events_view (hname : validName stack) :
    events engine stack = .ok (engine.view stack).journal := by
  rw [events, requireName_eq_ok.mpr hname]
  rfl

theorem latest_view (hname : validName stack) :
    latest engine stack = .ok (engine.view stack).journal.getLast? := by
  rw [latest, events_view hname]
  rfl

/-! ## Errors

Only the archive has a collision to report. -/

section

omit [HexCodec] [Sha256] [Semver]

theorem nested_avoids {α : Type} (result : Except String α) :
    Avoids (· = .archiveCollision) (nested result) := by
  rintro error herror rfl
  cases result <;> cases herror

theorem requireName_avoids (name : String) :
    Avoids (· = .archiveCollision) (requireName name) :=
  .rejectIf fun _ => nofun

end

theorem latest_avoids (engine : EngineView) (stack : String) :
    Avoids (· = .archiveCollision) (latest engine stack) :=
  ((requireName_avoids stack).bind fun _ _ => .ok _).bind fun _ _ => .ok _

theorem list_avoids (engine : EngineView) : Avoids (· = .archiveCollision) (list engine) := by
  refine Avoids.bind (Avoids.foldlM (fun name _ names => ?_) []) fun names _ =>
    Avoids.bind (Avoids.mapM fun name _ => ?_) fun _ _ => .ok _
  · exact Avoids.bind (.rejectIf fun _ => nofun) fun _ _ =>
      Avoids.bind (.rejectIf fun _ => nofun) fun _ _ => .ok _
  · intro error herror
    cases hlatest : latest engine name with
    | ok event =>
      rw [hlatest] at herror
      cases herror
    | error other =>
      rw [hlatest] at herror
      cases herror
      exact latest_avoids engine name _ hlatest

theorem admit_avoids (engine : EngineView) (previous : Option EngineEvent) :
    Avoids (· = .archiveCollision) (admitStack engine previous) := by
  unfold admitStack
  split_ifs
  · exact (list_avoids engine).bind fun _ _ => .rejectIf fun _ => by simp
  · exact .ok _

theorem recoverRolloutCheckpoint_avoids (record : RolloutRecord) (current : Option EngineEvent) :
    Avoids (· = .archiveCollision) (recoverRolloutCheckpoint record current) := by
  have hmove : ∀ move : Except String RolloutRecord,
      Avoids (· = .archiveCollision) (some <$> nested move) := by
    rintro (text | next) error herror rfl <;> cases herror
  unfold recoverRolloutCheckpoint
  split
  · split_ifs
    · exact Avoids.bind (.okOr fun _ => nofun) fun event _ => hmove _
    · exact (nested_avoids _).bind fun _ _ => .ok _
  · split_ifs
    · exact Avoids.bind (.okOr fun _ => nofun) fun event _ => hmove _
    · exact (nested_avoids _).bind fun _ _ => .ok _
  all_goals exact .ok _

/-! ## Reading and writing the checkpoint -/

/-- How the checkpoint of a stack is read: it is as it was, or as the journal implies. -/
inductive Reads (view : StackView) (stack : String) : Option RolloutRecord → List StackChange → Prop
  where
  | none : view.checkpoint = none → Reads view stack none []
  | same (record) : view.checkpoint = some record → record.stack = stack →
      recoverRolloutCheckpoint record view.journal.getLast? = .ok none →
      Reads view stack (some record) []
  | recovered (record next) : view.checkpoint = some record → record.stack = stack →
      recoverRolloutCheckpoint record view.journal.getLast? = .ok (some next) →
      Reads view stack (some next) [.create, .checkpoint next]

theorem writeRolloutFile_outcome (record : RolloutRecord) :
    Outcome (writeRolloutFile stack record : Keeping Unit) engine
      (fun _ operations => operations = onStack stack [.create, .checkpoint record]
        ∧ record.validate = .ok ())
      (fun error operations => operations = [] ∧ error ≠ .archiveCollision
        ∧ ¬ (validName stack ∧ record.validate = .ok ())) := by
  refine .check_bind (fun error herror => ⟨rfl, requireName_avoids _ _ herror, fun h => ?_⟩)
    fun _ _ => .check_bind (fun error herror => ⟨rfl, nested_avoids _ _ herror, fun h => ?_⟩)
    fun _ hvalid => ⟨rfl, mapError_eq_ok.mp hvalid⟩
  · rw [requireName_eq_ok.mpr h.1] at herror
    cases herror
  · rw [nested, h.2] at herror
    cases herror

theorem rollout_outcome :
    Outcome (rollout stack : Keeping _) engine
      (fun read operations => validName stack ∧ ∃ changes, operations = onStack stack changes
        ∧ Reads (engine.view stack) stack read changes)
      (fun error operations => operations = [] ∧ error ≠ .archiveCollision) := by
  refine .check_bind (fun _ h => ⟨rfl, requireName_avoids _ _ h⟩) fun _ hname => .inspect_bind ?_
  rw [requireName_eq_ok] at hname
  cases hcheckpoint : (engine.view stack).checkpoint with
  | none => exact .pure ⟨hname, [], rfl, .none hcheckpoint⟩
  | some record =>
    have hforeign : Avoids (· = EngineError.archiveCollision)
        (rejectIf (record.stack ≠ stack) .rolloutForeign) := .rejectIf fun _ => nofun
    refine .check_bind (fun _ h => ⟨rfl, hforeign _ h⟩) fun _ hstack =>
      .consult_bind (fun _ h => ⟨rfl, latest_avoids _ _ _ h⟩) fun current hcurrent =>
      .check_bind (fun _ h => ⟨rfl, recoverRolloutCheckpoint_avoids _ _ _ h⟩)
      fun recovered hrecovered => ?_
    rw [rejectIf_eq_ok, not_not] at hstack
    rw [hstack, latest_view hname] at hcurrent
    obtain rfl := Except.ok.inj hcurrent
    cases recovered with
    | none => exact .pure ⟨hname, [], rfl, .same record hcheckpoint hstack hrecovered⟩
    | some next =>
      refine .bind ((writeRolloutFile_outcome next).mono ?_ fun _ _ h => ⟨h.1, h.2.1⟩)
      rintro _ operations ⟨rfl, -⟩
      exact .pure ⟨hname, _, List.append_nil _,
        .recovered record next hcheckpoint hstack hrecovered⟩

/-- Reading changes nothing but the checkpoint, which becomes what was read. -/
theorem Reads.after {view : StackView} {read : Option RolloutRecord} {changes : List StackChange}
    (h : Reads view stack read changes) :
    after view changes = { view with checkpoint := read } := by
  obtain ⟨journal, checkpoint, archive, progress⟩ := view
  cases h with
  | none hcheckpoint => cases hcheckpoint; rfl
  | same record hcheckpoint => cases hcheckpoint; rfl
  | recovered record next hcheckpoint => rfl

variable {view : StackView} {read : Option RolloutRecord} {changes : List StackChange}
    {event : EngineEvent} {record : RolloutRecord}

/-- What is read is a valid checkpoint of the stack. -/
theorem Reads.valid (h : Reads view stack read changes) (hsound : view.Sound stack) :
    ∀ record ∈ read, record.validate = .ok () ∧ record.stack = stack := by
  cases h with
  | none => simp
  | same record hcheckpoint hstack =>
    rintro _ ⟨⟩
    exact ⟨hsound.checkpoint_valid record hcheckpoint, hstack⟩
  | recovered record next hcheckpoint hstack hrecovered =>
    rintro _ ⟨⟩
    refine ⟨?_, (sameRollout_of_recover hrecovered).stack.trans hstack⟩
    obtain ⟨event, -, ⟨-, -, hmove⟩ | ⟨-, -, hmove⟩⟩ := recoverRolloutCheckpoint_eq_some hrecovered
    · exact (RolloutRecord.activate_eq_ok hmove).1
    · exact (RolloutRecord.rollBack_eq_ok hmove).1

/-- The operations of a call that fails before it changes more than the checkpoint that it read:
at most the directory of the stack is created. -/
def Refused (view : StackView) (stack : String) (operations : List ViewOperation) : Prop :=
  operations = [] ∨ ∃ read changes, Reads view stack read changes
    ∧ (operations = onStack stack changes ∨ operations = onStack stack (changes ++ [.create]))

theorem Refused.of_reads (h : Reads view stack read changes) :
    Refused view stack (onStack stack changes ++ []) :=
  .inr ⟨read, changes, h, .inl (List.append_nil _)⟩

theorem ensureNoActiveRollout_outcome :
    Outcome (ensureNoActiveRollout stack : Keeping _) engine
      (fun _ operations => validName stack ∧ ∃ read changes, operations = onStack stack changes
        ∧ Reads (engine.view stack) stack read changes ∧ ¬ read.any RolloutRecord.active)
      (fun _ operations => Refused (engine.view stack) stack operations) := by
  refine .bind (rollout_outcome.mono ?_ fun _ _ h => .inl h.1)
  rintro read _ ⟨hname, changes, rfl, hreads⟩
  refine .check (fun _ hinactive => ?_) fun _ _ => ?_
  · rw [rejectIf_eq_ok] at hinactive
    exact ⟨hname, read, changes, List.append_nil _, hreads, hinactive⟩
  · exact .of_reads hreads

theorem requireRollout_outcome (rolloutId : String) :
    Outcome (requireRollout stack rolloutId : Keeping _) engine
      (fun record operations => validName stack ∧ record.rolloutId = rolloutId
        ∧ ∃ changes, operations = onStack stack changes
          ∧ Reads (engine.view stack) stack (some record) changes)
      (fun _ operations => Refused (engine.view stack) stack operations) := by
  refine .check_bind (fun _ _ => .inl rfl) fun _ _ =>
    .bind (rollout_outcome.mono ?_ fun _ _ h => .inl h.1)
  rintro read _ ⟨hname, changes, rfl, hreads⟩
  have hrefused := Refused.of_reads hreads
  refine .check_bind (fun _ _ => hrefused) fun record hrecord =>
    .check_bind (fun _ _ => hrefused) fun _ hid => .pure ?_
  rw [okOr_eq_ok] at hrecord
  rw [rejectIf_eq_ok, not_not] at hid
  exact ⟨hname, hid, changes, List.append_nil _, hrecord ▸ hreads⟩

theorem append_outcome (event : EngineEvent) :
    Outcome (append event : Keeping Unit) engine
      (fun _ operations => operations = onStack event.stack [.create, .append event]
        ∧ event.validate = .ok () ∧ acceptEvent (engine.view event.stack).journal event = .ok ())
      (fun _ operations => operations = [] ∨ operations = onStack event.stack [.create]) := by
  refine .check_bind (fun _ _ => .inl rfl) fun _ hvalid => .check_bind (fun _ _ => .inl rfl)
    fun _ _ => .perform_bind (.consult_bind (fun _ _ => .inr rfl) fun _ haccepted => ?_)
  rw [EngineView.view_create] at haccepted
  exact ⟨rfl, mapError_eq_ok.mp hvalid, haccepted⟩

/-- The state after the checkpoint of the stack was read. -/
theorem Reads.view_after (h : Reads (engine.view stack) stack read changes) :
    (Durable.after engine (onStack stack changes)).view stack
      = { engine.view stack with checkpoint := read } := by
  rw [view_onStack, h.after]

theorem Reads.latest_after (h : Reads (engine.view stack) stack read changes)
    (hname : validName stack) :
    latest (Durable.after engine (onStack stack changes)) stack
      = .ok (engine.view stack).journal.getLast? := by
  rw [latest_view hname, h.view_after]

/-! ## Calls on the journal -/

/-- What a call on the journal does: nothing, or it appends one event that the journal accepts. -/
def Journalled (view : StackView) (stack : String) (report : ApplyReport)
    (operations : List ViewOperation) : Prop :=
  ∃ read changes, Reads view stack read changes ∧ ¬ read.any RolloutRecord.active
    ∧ (report.changed = false ∧ operations = onStack stack changes
      ∨ report.changed = true ∧ ∃ event, event.stack = stack ∧ event.validate = .ok ()
        ∧ acceptEvent view.journal event = .ok ()
        ∧ operations = onStack stack (changes ++ [.create, .append event]))

theorem appendChange_outcome (hreads : Reads (engine.view stack) stack read changes)
    (hinactive : ¬ read.any RolloutRecord.active) (hstack : event.stack = stack) :
    Outcome (appendChange event : Keeping _) (after engine (onStack stack changes))
      (fun report rest => Journalled (engine.view stack) stack report
        (onStack stack changes ++ rest))
      (fun _ rest => Refused (engine.view stack) stack (onStack stack changes ++ rest)) := by
  refine .bind ((append_outcome event).mono ?_ ?_)
  · rintro _ _ ⟨rfl, hvalid, haccepted⟩
    rw [hstack, hreads.view_after] at haccepted
    refine .pure ⟨read, changes, hreads, hinactive, .inr ⟨rfl, event, hstack, hvalid, haccepted, ?_⟩⟩
    rw [List.append_nil, onStack_append, hstack]
  · rintro _ _ (rfl | rfl)
    · exact .of_reads hreads
    · rw [hstack, ← onStack_append]
      exact .inr ⟨read, changes, hreads, .inr rfl⟩

theorem apply_outcome (plan : StackPlan) (allowInsecure : Bool) (clockMs : UInt64) :
    Outcome (apply plan allowInsecure clockMs : Keeping _) engine
      (Journalled (engine.view plan.stack) plan.stack)
      (fun _ => Refused (engine.view plan.stack) plan.stack) := by
  refine .check_bind (fun _ _ => .inl rfl) fun _ _ =>
    .bind (ensureNoActiveRollout_outcome.mono ?_ fun _ _ h => h)
  rintro _ _ ⟨hname, read, changes, rfl, hreads, hinactive⟩
  have hrefused := Refused.of_reads hreads
  refine .check_bind (fun _ _ => hrefused) fun _ _ => .consult_bind (fun _ _ => hrefused)
    fun previous hprevious => .consult_bind (fun _ _ => hrefused) fun _ _ => ?_
  cases previous.filter (·.applies plan) with
  | some previous =>
    exact .pure ⟨read, changes, hreads, hinactive, .inl ⟨rfl, List.append_nil _⟩⟩
  | none =>
    refine .check_bind (fun _ _ => hrefused) fun event hevent => ?_
    obtain ⟨-, -, -, -, -, hstack⟩ := nextEvent_eq_ok hevent
    exact appendChange_outcome hreads hinactive (Option.some.inj hstack).symm

/-- The latest event of a sound journal is of its stack. -/
theorem StackView.Sound.latest (h : view.Sound stack)
    (hlatest : view.journal.getLast? = some event) :
    event.validate = .ok () ∧ event.stack = stack :=
  h.chain.mem event (List.mem_of_getLast? hlatest)

theorem StackPlan.stack_of_stopped {plan stopped : StackPlan} (h : plan.stopped = .ok stopped) :
    stopped.stack = plan.stack := by
  simp only [StackPlan.stopped, bind_eq_ok, exists_unit, pure_eq_ok, Except.ok.injEq] at h
  obtain ⟨digest, -, -, rfl⟩ := h
  rfl

theorem stop_outcome (hsound : (engine.view stack).Sound stack) (clockMs : UInt64) :
    Outcome (stop stack clockMs : Keeping _) engine (Journalled (engine.view stack) stack)
      (fun _ => Refused (engine.view stack) stack) := by
  refine .bind (ensureNoActiveRollout_outcome.mono ?_ fun _ _ h => h)
  rintro _ _ ⟨hname, read, changes, rfl, hreads, hinactive⟩
  have hrefused := Refused.of_reads hreads
  refine .consult_bind (fun _ _ => hrefused) fun latest hlatest =>
    .check_bind (fun _ _ => hrefused) fun previous hprevious => ?_
  rw [hreads.latest_after hname] at hlatest
  rw [okOr_eq_ok] at hprevious
  obtain ⟨hvalid, hstack⟩ := hsound.latest ((Except.ok.inj hlatest).trans hprevious)
  cases hkind : previous.kind with
  | remove => exact .check (fun _ h => by cases h) fun _ _ => hrefused
  | stop => exact .pure ⟨read, changes, hreads, hinactive, .inl ⟨rfl, List.append_nil _⟩⟩
  | apply =>
    refine .check_bind (fun _ _ => hrefused) fun plan hplan => .check_bind (fun _ _ => hrefused)
      fun stopped hstopped => .check_bind (fun _ _ => hrefused) fun event hevent => ?_
    refine appendChange_outcome hreads hinactive ?_
    obtain ⟨-, -, -, -, -, hevent⟩ := nextEvent_eq_ok hevent
    rw [← Option.some.inj hevent, StackPlan.stack_of_stopped (mapError_eq_ok.mp hstopped)]
    rcases EngineEvent.plan_of_validate hvalid with ⟨hremove, -⟩ | ⟨-, own, hown, -, hforeign, -⟩
    · rw [hkind] at hremove
      cases hremove
    · rw [okOr_eq_ok, hown] at hplan
      rw [← Option.some.inj hplan, hforeign, hstack]

theorem remove_outcome (hsound : (engine.view stack).Sound stack) (clockMs : UInt64) :
    Outcome (remove stack clockMs : Keeping _) engine (Journalled (engine.view stack) stack)
      (fun _ => Refused (engine.view stack) stack) := by
  refine .bind (ensureNoActiveRollout_outcome.mono ?_ fun _ _ h => h)
  rintro _ _ ⟨hname, read, changes, rfl, hreads, hinactive⟩
  have hrefused := Refused.of_reads hreads
  refine .consult_bind (fun _ _ => hrefused) fun latest hlatest =>
    .check_bind (fun _ _ => hrefused) fun previous hprevious => ?_
  rw [hreads.latest_after hname] at hlatest
  rw [okOr_eq_ok] at hprevious
  obtain ⟨hvalid, hstack⟩ := hsound.latest ((Except.ok.inj hlatest).trans hprevious)
  cases hkind : previous.kind with
  | remove => exact .pure ⟨read, changes, hreads, hinactive, .inl ⟨rfl, List.append_nil _⟩⟩
  | stop | apply =>
    refine .check_bind (fun _ _ => hrefused) fun event hevent =>
      appendChange_outcome hreads hinactive ?_
    obtain ⟨-, -, -, -, -, hevent⟩ := nextEvent_eq_ok hevent
    rw [← Option.some.inj hevent, hstack]

/-! ## Calls on the checkpoint -/

/-- Append an event and record the move that it makes, which succeeds once the event is there. -/
theorem appendMove_outcome {move : Except String RolloutRecord}
    (hreads : Reads (engine.view stack) stack read changes) (hname : validName stack)
    (hstack : event.stack = stack)
    (hmove : event.validate = .ok () → ∃ next, move = .ok next ∧ next.validate = .ok ()) :
    Outcome (do
        append event
        let record ← check (nested move)
        writeRolloutFile stack record
        pure record : Keeping _) (after engine (onStack stack changes))
      (fun next rest => acceptEvent (engine.view stack).journal event = .ok () ∧ move = .ok next
        ∧ rest = onStack stack [.create, .append event, .create, .checkpoint next])
      (fun _ rest => Refused (engine.view stack) stack (onStack stack changes ++ rest)) := by
  refine .bind ((append_outcome event).mono ?_ ?_)
  · rintro _ _ ⟨rfl, hvalid, haccepted⟩
    rw [hstack, hreads.view_after] at haccepted
    obtain ⟨next, rfl, hnext⟩ := hmove hvalid
    refine .check_bind (fun _ h => by cases h) fun _ hok => ?_
    obtain rfl := Except.ok.inj hok
    refine .bind ((writeRolloutFile_outcome next).mono ?_ fun _ _ h =>
      (h.2.2 ⟨hname, hnext⟩).elim)
    rintro _ _ ⟨rfl, -⟩
    refine .pure ⟨haccepted, rfl, ?_⟩
    rw [hstack, List.append_nil, ← onStack_append]
    rfl
  · rintro _ _ (rfl | rfl)
    · exact .of_reads hreads
    · rw [hstack, ← onStack_append]
      exact .inr ⟨read, changes, hreads, .inr rfl⟩

/-- What activating a rollout does: it appends the event of the candidate, or it was activated. -/
def Activates (view : StackView) (stack rolloutId : String) (nowMs clockMs : UInt64)
    (next : RolloutRecord) (operations : List ViewOperation) : Prop :=
  ∃ record changes, Reads view stack (some record) changes ∧ record.rolloutId = rolloutId
    ∧ (record.phase = .activated ∧ next = record ∧ operations = onStack stack changes
      ∨ record.phase = .prepared ∧ matchesPrevious record view.journal.getLast?
        ∧ record.updatedAtMs ≤ nowMs ∧ ∃ event,
          nextEvent view.journal.getLast? .apply (some record.candidatePlan) clockMs = .ok event
          ∧ event.stack = stack ∧ acceptEvent view.journal event = .ok ()
          ∧ record.activate event nowMs = .ok next
          ∧ operations
            = onStack stack (changes ++ [.create, .append event, .create, .checkpoint next]))

omit [HexCodec] [Sha256] [Semver] in
theorem previousRevision_of_matches {current : Option EngineEvent}
    (h : matchesPrevious record current) :
    record.previousRevision = current.map EngineEvent.revision := by
  rcases RolloutRecord.matchesPrevious_iff.mp h with ⟨hnone, rfl⟩ | ⟨event, rfl, hsome, -⟩
  · exact hnone
  · exact hsome

theorem activateRollout_outcome (hsound : (engine.view stack).Sound stack) (rolloutId : String)
    (nowMs clockMs : UInt64) :
    Outcome (activateRollout stack rolloutId nowMs clockMs : Keeping _) engine
      (Activates (engine.view stack) stack rolloutId nowMs clockMs)
      (fun _ => Refused (engine.view stack) stack) := by
  refine .bind ((requireRollout_outcome rolloutId).mono ?_ fun _ _ h => h)
  rintro record _ ⟨hname, hid, changes, rfl, hreads⟩
  have hrefused := Refused.of_reads hreads
  obtain ⟨hvalid, hstack⟩ := hreads.valid hsound record rfl
  split_ifs with hactivated
  · exact .pure ⟨record, changes, hreads, hid, .inl ⟨hactivated, rfl, List.append_nil _⟩⟩
  · refine .check_bind (fun _ _ => hrefused) fun _ hprepared =>
      .check_bind (fun _ _ => hrefused) fun _ htime => .consult_bind (fun _ _ => hrefused)
      fun previous hprevious => .check_bind (fun _ _ => hrefused) fun _ hmatches =>
      .check_bind (fun _ _ => hrefused) fun event hevent => ?_
    rw [rejectIf_eq_ok, not_not] at hprepared
    rw [nested, mapError_eq_ok, RolloutRecord.ensureTimeAdvances_eq_ok] at htime
    rw [hreads.latest_after hname] at hprevious
    obtain rfl := Except.ok.inj hprevious
    rw [nested, mapError_eq_ok, RolloutRecord.ensureMatchesPrevious_eq_ok] at hmatches
    obtain ⟨hfollows, -, -, -, -, hown⟩ := nextEvent_eq_ok hevent
    have heventStack : event.stack = stack := by
      obtain ⟨hparts, -, -⟩ := RolloutRecord.validate_eq_ok.mp hvalid
      rw [← Option.some.inj hown, hparts.candidate_stack, hstack]
    have hmove (hevalid : event.validate = .ok ()) :
        ∃ next, record.activate event nowMs = .ok next ∧ next.validate = .ok () := by
      obtain ⟨next, hnext⟩ := RolloutRecord.activate_succeeds hvalid hprepared htime.2
        (previousRevision_of_matches hmatches) hevalid hfollows
      exact ⟨next, hnext, (RolloutRecord.activate_eq_ok hnext).1⟩
    refine (appendMove_outcome hreads hname heventStack hmove).mono ?_ fun _ _ h => h
    rintro next _ ⟨haccepted, hnext, rfl⟩
    refine ⟨record, changes, hreads, hid, .inr ⟨hprepared, hmatches, htime.2, event, hevent,
      heventStack, haccepted, hnext, ?_⟩⟩
    rw [onStack_append]

/-- Record a move that needs no event. -/
theorem writeMove_outcome {move : Except String RolloutRecord}
    (hreads : Reads (engine.view stack) stack read changes) :
    Outcome (do
        let record ← check (nested move)
        writeRolloutFile stack record
        pure record : Keeping _) (after engine (onStack stack changes))
      (fun next rest => move = .ok next ∧ rest = onStack stack [.create, .checkpoint next])
      (fun _ rest => Refused (engine.view stack) stack (onStack stack changes ++ rest)) := by
  have hrefused := Refused.of_reads hreads
  refine .check_bind (fun _ _ => hrefused) fun next hnext =>
    .bind ((writeRolloutFile_outcome next).mono ?_ ?_)
  · rintro _ _ ⟨rfl, -⟩
    exact .pure ⟨mapError_eq_ok.mp hnext, List.append_nil _⟩
  · rintro _ _ ⟨rfl, -⟩
    exact hrefused

/-- What committing a rollout does: it records the commit of the latest event, or it was
committed. -/
def Commits (view : StackView) (stack rolloutId : String) (nowMs : UInt64) (next : RolloutRecord)
    (operations : List ViewOperation) : Prop :=
  ∃ record changes, Reads view stack (some record) changes ∧ record.rolloutId = rolloutId
    ∧ (record.phase = .committed ∧ next = record ∧ operations = onStack stack changes
      ∨ record.phase = .activated
        ∧ (∃ current, view.journal.getLast? = some current ∧ record.IsActivation current)
        ∧ ∃ reportSha256, record.commit reportSha256 nowMs = .ok next
          ∧ operations = onStack stack (changes ++ [.create, .checkpoint next]))

theorem commitRollout_outcome (rolloutId : String) (nowMs : UInt64)
    (observed : Except String (Option StackRuntimeStatus)) :
    Outcome (commitRollout stack rolloutId nowMs observed : Keeping _) engine
      (Commits (engine.view stack) stack rolloutId nowMs)
      (fun _ => Refused (engine.view stack) stack) := by
  refine .bind ((requireRollout_outcome rolloutId).mono ?_ fun _ _ h => h)
  rintro record _ ⟨hname, hid, changes, rfl, hreads⟩
  have hrefused := Refused.of_reads hreads
  split_ifs with hcommitted
  · exact .pure ⟨record, changes, hreads, hid, .inl ⟨hcommitted, rfl, List.append_nil _⟩⟩
  · refine .check_bind (fun _ _ => hrefused) fun _ hactivated =>
      .check_bind (fun _ _ => hrefused) fun _ _ => .consult_bind (fun _ _ => hrefused)
      fun current hcurrent => .check_bind (fun _ _ => hrefused) fun _ hmatches =>
      .consult_bind (fun _ _ => hrefused) fun health _ => .check_bind (fun _ _ => hrefused)
      fun _ _ => ?_
    rw [rejectIf_eq_ok, not_not] at hactivated
    rw [hreads.latest_after hname] at hcurrent
    obtain rfl := Except.ok.inj hcurrent
    rw [nested, mapError_eq_ok, RolloutRecord.ensureMatchesActivation_eq_ok] at hmatches
    refine (writeMove_outcome hreads).mono ?_ fun _ _ h => h
    rintro next _ ⟨hnext, rfl⟩
    exact ⟨record, changes, hreads, hid, .inr ⟨hactivated, hmatches, _, hnext,
      (onStack_append _ _ _).symm⟩⟩

/-- What rolling a rollout back does: it gives up a prepared one, it undoes an activated or
committed one with one event, or it was rolled back or given up. -/
def RollsBack (view : StackView) (stack rolloutId : String) (nowMs clockMs : UInt64)
    (next : RolloutRecord) (operations : List ViewOperation) : Prop :=
  ∃ record changes, Reads view stack (some record) changes ∧ record.rolloutId = rolloutId
    ∧ ((record.phase = .cancelled ∨ record.phase = .rolledBack) ∧ next = record
        ∧ operations = onStack stack changes
      ∨ record.phase = .prepared ∧ matchesPrevious record view.journal.getLast?
        ∧ record.cancel nowMs = .ok next
        ∧ operations = onStack stack (changes ++ [.create, .checkpoint next])
      ∨ (record.phase = .activated ∨ record.phase = .committed) ∧ record.updatedAtMs ≤ nowMs
        ∧ ∃ current kind plan event, view.journal.getLast? = some current
          ∧ record.IsActivation current ∧ rollbackTarget record = .ok (kind, plan)
          ∧ nextEvent (some current) kind plan clockMs = .ok event ∧ event.stack = stack
          ∧ acceptEvent view.journal event = .ok () ∧ record.rollBack event nowMs = .ok next
          ∧ operations
            = onStack stack (changes ++ [.create, .append event, .create, .checkpoint next]))

/-- The plan that a rollback goes back to is of the stack. -/
theorem rollbackTarget_stack {kind : EngineEventKind} {plan : Option StackPlan}
    (hvalid : record.validate = .ok ()) (h : rollbackTarget record = .ok (kind, plan)) :
    ∀ value ∈ plan, value.stack = record.stack := by
  have hprevious := (RolloutRecord.validate_eq_ok.mp hvalid).1.previous_valid
  have hplan : ∀ value ∈ record.previousPlan, value.stack = record.stack := fun value hmem =>
    (RolloutRecord.previousPlan_valid_stack hprevious value hmem).2
  unfold rollbackTarget at h
  split at h
  · simp only [bind_eq_ok, okOr_eq_ok, pure_eq_ok, Except.ok.injEq, Prod.mk.injEq] at h
    obtain ⟨own, hown, -, rfl⟩ := h
    exact hown ▸ hplan
  · simp only [bind_eq_ok, okOr_eq_ok, pure_eq_ok, Except.ok.injEq, Prod.mk.injEq] at h
    obtain ⟨own, hown, -, rfl⟩ := h
    exact hown ▸ hplan
  all_goals
    cases h
    simp

theorem undoRollout_outcome (hsound : (engine.view stack).Sound stack) (hname : validName stack)
    (hreads : Reads (engine.view stack) stack (some record) changes)
    (hphase : record.phase = .activated ∨ record.phase = .committed) {nowMs : UInt64}
    (htime : record.updatedAtMs ≤ nowMs) (clockMs : UInt64) :
    Outcome (undoRollout stack record nowMs clockMs : Keeping _)
      (after engine (onStack stack changes))
      (fun next rest => RollsBack (engine.view stack) stack record.rolloutId nowMs clockMs next
        (onStack stack changes ++ rest))
      (fun _ rest => Refused (engine.view stack) stack (onStack stack changes ++ rest)) := by
  have hrefused := Refused.of_reads hreads
  obtain ⟨hvalid, hstack⟩ := hreads.valid hsound record rfl
  refine .consult_bind (fun _ _ => hrefused) fun latest hlatest =>
    .check_bind (fun _ _ => hrefused) fun _ hmatches => .check_bind (fun _ _ => hrefused)
    fun target htarget => .check_bind (fun _ _ => hrefused) fun event hevent => ?_
  rw [hreads.latest_after hname] at hlatest
  obtain rfl := Except.ok.inj hlatest
  rw [nested, mapError_eq_ok, RolloutRecord.ensureMatchesActivation_eq_ok] at hmatches
  rw [nested, mapError_eq_ok] at htarget
  obtain ⟨current, hcurrent, hactivation⟩ := hmatches
  rw [hcurrent] at hevent
  obtain ⟨hfollows, -, -, -, -, hown⟩ := nextEvent_eq_ok hevent
  have heventStack : event.stack = stack := by
    cases hplan : target.2 with
    | none =>
      rw [hplan] at hown
      rw [← Option.some.inj hown, (hsound.latest hcurrent).2]
    | some plan =>
      rw [hplan] at hown
      rw [← Option.some.inj hown, rollbackTarget_stack hvalid htarget plan hplan, hstack]
  have hmove (hevalid : event.validate = .ok ()) :
      ∃ next, record.rollBack event nowMs = .ok next ∧ next.validate = .ok () := by
    obtain ⟨next, hnext⟩ := RolloutRecord.rollBack_succeeds hvalid hphase htime
      hactivation.2.2.2.1 hevalid hfollows
    exact ⟨next, hnext, (RolloutRecord.rollBack_eq_ok hnext).1⟩
  refine (appendMove_outcome hreads hname heventStack hmove).mono ?_ fun _ _ h => h
  rintro next _ ⟨haccepted, hnext, rfl⟩
  exact ⟨record, changes, hreads, rfl, .inr (.inr ⟨hphase, htime, current, target.1, target.2, event,
    hcurrent, hactivation, htarget, hevent, heventStack, haccepted, hnext,
    (onStack_append _ _ _).symm⟩)⟩

theorem rollbackRollout_outcome (hsound : (engine.view stack).Sound stack) (rolloutId : String)
    (nowMs clockMs : UInt64) :
    Outcome (rollbackRollout stack rolloutId nowMs clockMs : Keeping _) engine
      (RollsBack (engine.view stack) stack rolloutId nowMs clockMs)
      (fun _ => Refused (engine.view stack) stack) := by
  refine .bind ((requireRollout_outcome rolloutId).mono ?_ fun _ _ h => h)
  rintro record _ ⟨hname, rfl, changes, rfl, hreads⟩
  have hrefused := Refused.of_reads hreads
  cases hphase : record.phase with
  | cancelled =>
    exact .pure ⟨record, changes, hreads, rfl, .inl ⟨.inl hphase, rfl, List.append_nil _⟩⟩
  | rolledBack =>
    exact .pure ⟨record, changes, hreads, rfl, .inl ⟨.inr hphase, rfl, List.append_nil _⟩⟩
  | prepared =>
    refine .check_bind (fun _ _ => hrefused) fun _ _ => .consult_bind (fun _ _ => hrefused)
      fun latest hlatest => .check_bind (fun _ _ => hrefused) fun _ hmatches => ?_
    rw [hreads.latest_after hname] at hlatest
    obtain rfl := Except.ok.inj hlatest
    rw [nested, mapError_eq_ok, RolloutRecord.ensureMatchesPrevious_eq_ok] at hmatches
    refine (writeMove_outcome hreads).mono ?_ fun _ _ h => h
    rintro next _ ⟨hnext, rfl⟩
    exact ⟨record, changes, hreads, rfl, .inr (.inl ⟨hphase, hmatches, hnext,
      (onStack_append _ _ _).symm⟩)⟩
  | activated =>
    refine .check_bind (fun _ _ => hrefused) fun _ htime => ?_
    rw [nested, mapError_eq_ok, RolloutRecord.ensureTimeAdvances_eq_ok] at htime
    exact undoRollout_outcome hsound hname hreads (.inl hphase) htime.2 clockMs
  | committed =>
    refine .check_bind (fun _ _ => hrefused) fun _ htime => ?_
    rw [nested, mapError_eq_ok, RolloutRecord.ensureTimeAdvances_eq_ok] at htime
    exact undoRollout_outcome hsound hname hreads (.inr hphase) htime.2 clockMs

/-! ## Preparing a rollout -/

/-- Changes of the directory and of the progress only. -/
def Quiet (changes : List StackChange) : Prop :=
  ∀ change ∈ changes, change = .create ∨ ∃ progress, change = .progress progress

omit [HexCodec] [Sha256] [Semver] in
theorem Quiet.after {changes : List StackChange} (h : Quiet changes) (view : StackView) :
    ∃ progress, after view changes = { view with progress } := by
  induction changes generalizing view with
  | nil => exact ⟨view.progress, rfl⟩
  | cons change changes ih =>
    obtain ⟨hchange, hrest⟩ := List.forall_mem_cons.mp h
    obtain ⟨progress, hafter⟩ := ih hrest (view.apply change)
    refine ⟨progress, ?_⟩
    rw [after_cons, StackView.act_eq, hafter]
    rcases hchange with rfl | ⟨_, rfl⟩ <;> rfl

/-- The archive holds another record under the identity of this one. -/
def Collides (view : StackView) (record : RolloutRecord) : Prop :=
  record.terminal ∧ ∃ archived,
    view.archive.find? (·.rolloutId = record.rolloutId) = some archived ∧ archived ≠ record

/-- How the checkpoint that was read is put aside: a terminal one is in the archive then. -/
inductive Retires (view : StackView) : Option RolloutRecord → List StackChange → Prop where
  | none : Retires view none []
  | kept (current quiet) : current.terminal → Quiet quiet →
      view.archive.find? (·.rolloutId = current.rolloutId) = some current →
      Retires view (some current) quiet
  | archived (current quiet) : current.terminal → Quiet quiet →
      view.archive.find? (·.rolloutId = current.rolloutId) = none →
      Retires view (some current) (quiet ++ [.archive current])

omit [HexCodec] [Sha256] [Semver] in
theorem Retires.of_archive {other : StackView} (h : Retires view read changes)
    (harchive : other.archive = view.archive) : Retires other read changes := by
  induction h with
  | none => exact .none
  | kept current quiet hterminal hquiet hfind =>
    exact .kept current quiet hterminal hquiet (harchive ▸ hfind)
  | archived current quiet hterminal hquiet hfind =>
    exact .archived current quiet hterminal hquiet (harchive ▸ hfind)

theorem removeTerminalRolloutProgress_outcome (current : RolloutRecord) :
    Outcome (removeTerminalRolloutProgress current : Keeping _) engine
      (fun _ operations => current.terminal
        ∧ ∃ quiet, Quiet quiet ∧ operations = onStack current.stack quiet)
      (fun error operations => operations = [] ∧ error ≠ .archiveCollision) := by
  have hactive : Avoids (· = EngineError.archiveCollision)
      (rejectIf (¬ current.terminal) .progressActive) := .rejectIf fun _ => nofun
  refine .check_bind (fun _ h => ⟨rfl, hactive _ h⟩) fun _ hterminal =>
    .check_bind (fun _ h => ⟨rfl, requireName_avoids _ _ h⟩) fun _ _ => .inspect_bind ?_
  rw [rejectIf_eq_ok, not_not] at hterminal
  cases (engine.view current.stack).progress with
  | none => exact .pure ⟨hterminal, [], by simp [Quiet], rfl⟩
  | some progress =>
    have hmatches : Avoids (· = EngineError.archiveCollision)
        (validateProgressAgainstRollout progress current) :=
      (nested_avoids _).bind fun _ _ => .rejectIf fun _ => nofun
    refine .check_bind (fun _ h => ⟨rfl, hmatches _ h⟩) fun _ _ => ?_
    exact ⟨hterminal, [.progress none], by simp [Quiet], rfl⟩

omit [HexCodec] [Sha256] [Semver] in
theorem archiveDecision_cases (archive : List RolloutRecord) (record : RolloutRecord) :
    (archive.find? (·.rolloutId = record.rolloutId) = some record
        ∧ archiveDecision archive record = .ok false)
      ∨ (∃ archived, archive.find? (·.rolloutId = record.rolloutId) = some archived
        ∧ archived ≠ record ∧ archiveDecision archive record = .error .archiveCollision)
      ∨ archive.find? (·.rolloutId = record.rolloutId) = none
        ∧ (archiveDecision archive record = .ok true
          ∨ archiveDecision archive record = .error .archiveFull) := by
  unfold archiveDecision
  cases hfind : archive.find? (·.rolloutId = record.rolloutId) with
  | some archived =>
    by_cases heq : archived = record
    · exact .inl ⟨by rw [heq], by simp [heq, rejectIf]⟩
    · exact .inr (.inl ⟨archived, rfl, heq, by simp [heq, rejectIf]⟩)
  | none =>
    refine .inr (.inr ⟨rfl, ?_⟩)
    by_cases hfull : archive.length ≥ maxRolloutHistory
        ∨ archiveSize archive + (encode record).length > maxRolloutHistoryBytes
    · exact .inr (by simp only [rejectIf_of _ hfull]; rfl)
    · exact .inl (by simp only [rejectIf_of_not _ hfull]; rfl)

theorem archiveRollout_outcome (record : RolloutRecord) (hterminal : record.terminal) :
    Outcome (archiveRollout record : Keeping _) engine
      (fun _ operations =>
        (engine.view record.stack).archive.find? (·.rolloutId = record.rolloutId) = some record
          ∧ operations = onStack record.stack [.create]
        ∨ (engine.view record.stack).archive.find? (·.rolloutId = record.rolloutId) = none
          ∧ operations = onStack record.stack [.create, .archive record])
      (fun error operations => operations = onStack record.stack [.create]
        ∧ (error = .archiveCollision → Collides (engine.view record.stack) record)) := by
  refine .check_bind (fun _ h => ?_) fun _ _ => .perform_bind ?_
  · rw [rejectIf_of_not _ (not_not.mpr hterminal)] at h
    cases h
  rcases archiveDecision_cases (engine.view record.stack).archive record with
    ⟨hfind, hdecision⟩ | ⟨archived, hfind, hne, hdecision⟩ | ⟨hfind, hdecision | hdecision⟩
  all_goals
    refine .consult_bind (fun error h => ?_) fun missing h => ?_ <;>
      rw [EngineView.view_create, hdecision] at h <;> cases h
  · exact .pure (.inl ⟨hfind, rfl⟩)
  · exact ⟨rfl, fun _ => ⟨hterminal, archived, hfind, hne⟩⟩
  · exact .inr ⟨hfind, rfl⟩
  · exact ⟨rfl, nofun⟩

omit [HexCodec] [Sha256] [Semver] in
theorem Quiet.append {first second : List StackChange} (hfirst : Quiet first)
    (hsecond : Quiet second) : Quiet (first ++ second) := by
  intro change hmem
  rcases List.mem_append.mp hmem with hmem | hmem
  · exact hfirst change hmem
  · exact hsecond change hmem

theorem retireRollout_outcome {current : RolloutRecord} (hstack : current.stack = stack) :
    Outcome (retireRollout current : Keeping _) engine
      (fun settled operations => settled = none ∧ ∃ changes,
        Retires (engine.view stack) (some current) changes ∧ operations = onStack stack changes)
      (fun error operations => ∃ quiet, Quiet quiet ∧ operations = onStack stack quiet
        ∧ (error = .archiveCollision → Collides (engine.view stack) current)) := by
  subst hstack
  refine .bind ((removeTerminalRolloutProgress_outcome current).mono ?_ ?_)
  · rintro _ _ ⟨hterminal, quiet, hquiet, rfl⟩
    obtain ⟨progress, hview⟩ := hquiet.after (engine.view current.stack)
    rw [← view_onStack] at hview
    have harchive : ((after engine (onStack current.stack quiet)).view current.stack).archive
        = (engine.view current.stack).archive := by rw [hview]
    have hcreate : Quiet [.create] := by simp [Quiet]
    refine .bind ((archiveRollout_outcome current hterminal).mono ?_ ?_)
    · rintro _ _ (⟨hfind, rfl⟩ | ⟨hfind, rfl⟩)
      · rw [harchive] at hfind
        refine .pure ⟨rfl, quiet ++ [.create], .kept current _ hterminal (hquiet.append hcreate)
          hfind, ?_⟩
        rw [List.append_nil, onStack_append]
      · rw [harchive] at hfind
        refine .pure ⟨rfl, (quiet ++ [.create]) ++ [.archive current],
          .archived current _ hterminal (hquiet.append hcreate) hfind, ?_⟩
        rw [List.append_nil, List.append_assoc, onStack_append]
        rfl
    · rintro error _ ⟨rfl, hcollides⟩
      rw [hview] at hcollides
      exact ⟨quiet ++ [.create], hquiet.append hcreate, (onStack_append _ _ _).symm, hcollides⟩
  · rintro error _ ⟨rfl, hne⟩
    exact ⟨[], by simp [Quiet], rfl, fun h => (hne h).elim⟩

theorem settleRollout_outcome (plan : StackPlan) {current : RolloutRecord}
    (hstack : current.stack = stack) :
    Outcome (settleRollout plan current : Keeping _) engine
      (fun settled operations => settled = some current ∧ operations = []
        ∨ settled = none ∧ ∃ changes, Retires (engine.view stack) (some current) changes
          ∧ operations = onStack stack changes)
      (fun error operations => ∃ quiet, Quiet quiet ∧ operations = onStack stack quiet
        ∧ (error = .archiveCollision → Collides (engine.view stack) current)) := by
  have hretire : Outcome (retireRollout current : Keeping _) engine
      (fun settled operations => settled = some current ∧ operations = []
        ∨ settled = none ∧ ∃ changes, Retires (engine.view stack) (some current) changes
          ∧ operations = onStack stack changes)
      (fun error operations => ∃ quiet, Quiet quiet ∧ operations = onStack stack quiet
        ∧ (error = .archiveCollision → Collides (engine.view stack) current)) :=
    (retireRollout_outcome hstack).mono (fun _ _ h => .inr h) fun _ _ h => h
  unfold settleRollout
  split_ifs
  · exact .pure (.inl ⟨rfl, rfl⟩)
  · refine .check (fun _ h => by cases h) fun error herror => ⟨[], by simp [Quiet], rfl, ?_⟩
    rintro rfl
    cases herror
  · refine .consult_bind (fun error herror => ⟨[], by simp [Quiet], rfl, fun h =>
      (latest_avoids _ _ error herror h).elim⟩) fun event _ => ?_
    cases ensureMatchesActivation current event with
    | ok _ => exact .pure (.inl ⟨rfl, rfl⟩)
    | error _ => exact hretire
  · exact hretire

/-- What preparing a rollout does: it writes a new checkpoint once the old one is put aside, or
the plan was prepared or committed already. -/
def Prepares (view : StackView) (stack : String) (plan : StackPlan) (nowMs : UInt64)
    (next : RolloutRecord) (operations : List ViewOperation) : Prop :=
  ∃ read changes, Reads view stack read changes
    ∧ (read = some next ∧ operations = onStack stack changes
      ∨ ∃ retired, Retires view read retired ∧ ¬ view.journal.getLast?.any (·.applies plan)
        ∧ RolloutRecord.new plan view.journal.getLast? nowMs = .ok next
        ∧ operations = onStack stack (changes ++ retired ++ [.create, .checkpoint next]))

/-- What preparing a rollout has done when it fails. -/
def PrepareFails (view : StackView) (stack : String) (error : EngineError)
    (operations : List ViewOperation) : Prop :=
  operations = [] ∧ error ≠ .archiveCollision ∨ ∃ read changes, Reads view stack read changes
    ∧ ((∃ quiet, Quiet quiet ∧ operations = onStack stack (changes ++ quiet)
        ∧ (error = .archiveCollision → ∃ current, read = some current ∧ Collides view current))
      ∨ ∃ retired, Retires view read retired ∧ operations = onStack stack (changes ++ retired)
        ∧ error ≠ .archiveCollision)

omit [HexCodec] [Sha256] [Semver] in
theorem Retires.after {view : StackView} {read : Option RolloutRecord}
    {changes : List StackChange} (h : Retires view read changes) :
    ∃ archive progress, after view changes = { view with archive, progress } := by
  cases h with
  | none => exact ⟨view.archive, view.progress, rfl⟩
  | kept current quiet _ hquiet =>
    obtain ⟨progress, hafter⟩ := hquiet.after view
    exact ⟨view.archive, progress, hafter⟩
  | archived current quiet _ hquiet =>
    obtain ⟨progress, hafter⟩ := hquiet.after view
    refine ⟨view.archive ++ [current], progress, ?_⟩
    rw [after_append, hafter]
    rfl

theorem startRollout_outcome {plan : StackPlan} (nowMs : UInt64) {retired : List StackChange}
    (hname : validName plan.stack) (hreads : Reads (engine.view plan.stack) plan.stack read changes)
    (hretires : Retires (engine.view plan.stack) read retired) :
    Outcome (startRollout plan nowMs : Keeping _)
      (Durable.after engine (onStack plan.stack (changes ++ retired)))
      (fun next rest => Prepares (engine.view plan.stack) plan.stack plan nowMs next
        (onStack plan.stack (changes ++ retired) ++ rest))
      (fun error rest => PrepareFails (engine.view plan.stack) plan.stack error
        (onStack plan.stack (changes ++ retired) ++ rest)) := by
  have hlatest : latest (Durable.after engine (onStack plan.stack (changes ++ retired))) plan.stack
      = .ok (engine.view plan.stack).journal.getLast? := by
    have hread : Retires { engine.view plan.stack with checkpoint := read } read retired :=
      hretires.of_archive rfl
    obtain ⟨archive, progress, hafter⟩ := hread.after
    rw [latest_view hname, view_onStack, after_append, hreads.after, hafter]
  have hfails (error : EngineError) (hne : error ≠ .archiveCollision) :
      PrepareFails (engine.view plan.stack) plan.stack error
        (onStack plan.stack (changes ++ retired) ++ []) :=
    .inr ⟨read, changes, hreads, .inr ⟨retired, hretires, List.append_nil _, hne⟩⟩
  have hdesired (previous : Option EngineEvent) : Avoids (· = EngineError.archiveCollision)
      (rejectIf (previous.any (·.applies plan)) .candidateDesired) := .rejectIf fun _ => nofun
  refine .consult_bind (fun error h => hfails error (latest_avoids _ _ _ h)) fun previous hprevious =>
    .consult_bind (fun error h => hfails error (admit_avoids _ _ _ h)) fun _ _ =>
    .check_bind (fun error h => hfails error (hdesired _ _ h)) fun _ hnew =>
    .check_bind (fun error h => hfails error (nested_avoids _ _ h)) fun next hnext =>
    .bind ((writeRolloutFile_outcome next).mono ?_ ?_)
  · rintro _ _ ⟨rfl, -⟩
    rw [hlatest] at hprevious
    obtain rfl := Except.ok.inj hprevious
    rw [rejectIf_eq_ok] at hnew
    rw [nested, mapError_eq_ok] at hnext
    refine .pure ⟨read, changes, hreads, .inr ⟨retired, hretires, hnew, hnext, ?_⟩⟩
    rw [List.append_nil, ← onStack_append]
  · rintro error _ ⟨rfl, hne, -⟩
    exact hfails error hne

theorem prepareRollout_outcome (hsound : engine.Sound) (plan : StackPlan) (allowInsecure : Bool)
    (nowMs : UInt64) :
    Outcome (prepareRollout plan allowInsecure nowMs : Keeping _) engine
      (Prepares (engine.view plan.stack) plan.stack plan nowMs)
      (PrepareFails (engine.view plan.stack) plan.stack) := by
  have hinsecure : Avoids (· = EngineError.archiveCollision)
      (rejectIf (plan.security.sandbox = .disabled ∧ ¬ allowInsecure) .insecureRollout) :=
    .rejectIf fun _ => nofun
  refine .check_bind (fun _ h => .inl ⟨rfl, nested_avoids _ _ h⟩) fun _ _ =>
    .check_bind (fun _ h => .inl ⟨rfl, hinsecure _ h⟩) fun _ _ =>
    .bind (rollout_outcome.mono ?_ fun _ _ h => .inl h)
  rintro read _ ⟨hname, changes, rfl, hreads⟩
  cases read with
  | none =>
    have hstart := startRollout_outcome nowMs hname hreads .none
    rwa [List.append_nil] at hstart
  | some current =>
    obtain ⟨-, hstack⟩ := hreads.valid (hsound plan.stack) current rfl
    refine .bind ((settleRollout_outcome plan hstack).mono ?_ ?_)
    · rintro settled _ (⟨rfl, rfl⟩ | ⟨rfl, retired, hretires, rfl⟩)
      · exact .pure ⟨some current, changes, hreads, .inl ⟨rfl, by simp⟩⟩
      · rw [hreads.view_after] at hretires
        have hstart := startRollout_outcome nowMs hname hreads
          (hretires.of_archive rfl)
        rw [onStack_append, after_append] at hstart
        simpa only [List.append_assoc] using hstart
    · rintro error _ ⟨quiet, hquiet, rfl, hcollides⟩
      rw [hreads.view_after] at hcollides
      exact .inr ⟨some current, changes, hreads, .inl ⟨quiet, hquiet,
        (onStack_append _ _ _).symm, fun h => ⟨current, rfl, hcollides h⟩⟩⟩

/-! ## Calls on the progress -/

/-- What a call on the progress does besides reading the checkpoint. -/
def Tends (view : StackView) (stack : String) (operations : List ViewOperation) : Prop :=
  operations = [] ∨ ∃ read changes quiet, Reads view stack read changes ∧ Quiet quiet
    ∧ operations = onStack stack (changes ++ quiet)

theorem Tends.of_reads {quiet : List StackChange} (h : Reads view stack read changes)
    (hquiet : Quiet quiet) : Tends view stack (onStack stack changes ++ onStack stack quiet) :=
  .inr ⟨read, changes, quiet, h, hquiet, (onStack_append _ _ _).symm⟩

/-- A refused call has not done more than one on the progress. -/
theorem Refused.tends {operations : List ViewOperation} (h : Refused view stack operations) :
    Tends view stack operations := by
  rcases h with rfl | ⟨read, changes, hreads, rfl | rfl⟩
  · exact .inl rfl
  · exact .inr ⟨read, changes, [], hreads, by simp [Quiet], by rw [List.append_nil]⟩
  · exact .inr ⟨read, changes, [.create], hreads, by simp [Quiet], rfl⟩

theorem writeProgressFile_outcome (progress : RolloutProgress) :
    Outcome (writeProgressFile stack progress : Keeping Unit) engine
      (fun _ operations => ∃ quiet, Quiet quiet ∧ operations = onStack stack quiet)
      (fun _ operations => operations = []) :=
  .check_bind (fun _ _ => rfl) fun _ _ => .check_bind (fun _ _ => rfl) fun _ _ =>
    .check_bind (fun _ _ => rfl) fun _ _ =>
    ⟨[.create, .progress (some progress)], by simp [Quiet], rfl⟩

theorem rolloutProgress_outcome :
    Outcome (rolloutProgress stack : Keeping _) engine
      (fun progress operations => progress = none ∧ operations = []
        ∨ ∃ kept read changes, progress = some kept ∧ Reads (engine.view stack) stack read changes
          ∧ operations = onStack stack changes)
      (fun _ => Tends (engine.view stack) stack) := by
  refine .check_bind (fun _ _ => .inl rfl) fun _ _ => .inspect_bind ?_
  cases (engine.view stack).progress with
  | none => exact .pure (.inl ⟨rfl, rfl⟩)
  | some progress =>
    refine .check_bind (fun _ _ => .inl rfl) fun _ _ =>
      .bind (rollout_outcome.mono ?_ fun _ _ h => .inl h.1)
    rintro read _ ⟨-, changes, rfl, hreads⟩
    have htends := Tends.of_reads hreads (by simp [Quiet] : Quiet [])
    refine .check_bind (fun _ _ => htends) fun _ _ => .check_bind (fun _ _ => htends) fun _ _ => ?_
    exact .pure (.inr ⟨progress, read, changes, rfl, hreads, List.append_nil _⟩)

theorem beginRolloutProgress_outcome (rolloutId : String) (nowMs : UInt64) :
    Outcome (beginRolloutProgress stack rolloutId nowMs : Keeping _) engine
      (fun _ => Tends (engine.view stack) stack) (fun _ => Tends (engine.view stack) stack) := by
  refine .bind (rolloutProgress_outcome.mono ?_ fun _ _ h => h)
  rintro progress _ (⟨rfl, rfl⟩ | ⟨kept, read, changes, rfl, hreads, rfl⟩)
  · refine .bind (rollout_outcome.mono ?_ fun _ _ h => .inl h.1)
    rintro read _ ⟨-, changes, rfl, hreads⟩
    have htends := Tends.of_reads hreads (by simp [Quiet] : Quiet [])
    refine .check_bind (fun _ _ => htends) fun _ _ => .check_bind (fun _ _ => htends) fun _ _ =>
      .check_bind (fun _ _ => htends) fun progress _ =>
      .bind ((writeProgressFile_outcome progress).mono ?_ ?_)
    · rintro _ _ ⟨quiet, hquiet, rfl⟩
      refine .pure ?_
      rw [List.append_nil, List.nil_append]
      exact .of_reads hreads hquiet
    · rintro _ _ rfl
      exact htends
  · have htends := Tends.of_reads hreads (by simp [Quiet] : Quiet [])
    exact .check_bind (fun _ _ => htends) fun _ _ => .pure htends

theorem saveRolloutProgress_outcome (progress : RolloutProgress) :
    Outcome (saveRolloutProgress progress : Keeping _) engine
      (fun _ => Tends (engine.view progress.stack) progress.stack)
      (fun _ => Tends (engine.view progress.stack) progress.stack) := by
  refine .check_bind (fun _ _ => .inl rfl) fun _ _ =>
    .bind (rollout_outcome.mono ?_ fun _ _ h => .inl h.1)
  rintro read _ ⟨-, changes, rfl, hreads⟩
  have htends := Tends.of_reads hreads (by simp [Quiet] : Quiet [])
  refine .check_bind (fun _ _ => htends) fun _ _ => .check_bind (fun _ _ => htends) fun _ _ =>
    .inspect_bind ((writeProgressFile_outcome progress).mono ?_ ?_)
  · rintro _ _ ⟨quiet, hquiet, rfl⟩
    exact .of_reads hreads hquiet
  · rintro _ _ rfl
    exact htends

end

end CartridgeRuntime.Engine
