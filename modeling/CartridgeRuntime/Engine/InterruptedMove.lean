import CartridgeRuntime.Engine.StoppedRollout

/-!
# Moves of a rollout that are interrupted

Activating a rollout and rolling it back append an event and then replace the checkpoint. When the
engine stops between the two, the next read of the checkpoint finishes the move, except for a
committed rollout that was being rolled back: `interrupted_move_recovered`.
-/

namespace CartridgeRuntime.Engine

open Checked CartridgeRuntime.Core Encoding Durable

section

variable [HexCodec] [Sha256] [Semver]

/-! ## What a read makes of the event -/

section

variable {record : RolloutRecord} {event : EngineEvent} {clockMs : UInt64}

section

omit [HexCodec] [Sha256] [Semver]

/-- The phase that a call moves a rollout to with an event. -/
def EngineCall.moves : EngineCall → Option RolloutPhase
  | .activateRollout _ _ _ _ => some .activated
  | .rollbackRollout _ _ _ _ => some .rolledBack
  | _ => none

/-- The record is in a phase that the event brought it to. -/
def RolloutRecord.MovedBy (record : RolloutRecord) (phase : RolloutPhase) (event : EngineEvent) :
    Prop :=
  record.phase = phase ∧ match phase with
    | .activated => record.activatedRevision = some event.revision
        ∧ record.activatedGeneration = some event.eventSha256
    | .rolledBack => record.rollbackRevision = some event.revision
        ∧ record.rollbackGeneration = some event.eventSha256
    | .prepared | .committed | .cancelled => False

theorem le_max_time (record : RolloutRecord) (event : EngineEvent) :
    record.updatedAtMs ≤ max record.updatedAtMs event.createdAtMs := by
  show _ ≤ if record.updatedAtMs ≤ event.createdAtMs then _ else _
  split
  · assumption
  · exact UInt64.le_refl _

end

/-- The journal of a prepared rollout that has the event of its candidate. -/
theorem recover_activation {previous : Option EngineEvent} (hvalid : record.validate = .ok ())
    (hphase : record.phase = .prepared) (hmatches : matchesPrevious record previous)
    (hevent : nextEvent previous .apply (some record.candidatePlan) clockMs = .ok event) :
    ∃ next, recoverRolloutCheckpoint record (some event) = .ok (some next)
      ∧ next.MovedBy .activated event := by
  obtain ⟨hfollows, hkind, hplan, -, hevalid, -⟩ := nextEvent_eq_ok hevent
  have hgeneration : event.previousEventSha256 = record.previousGeneration.getD "" := by
    rw [(EngineEvent.follows_iff.mp hfollows).2]
    rcases RolloutRecord.matchesPrevious_iff.mp hmatches with ⟨hnone, rfl⟩ | ⟨last, rfl, -, hlast, -⟩
    · rcases RolloutRecord.previous_cases (RolloutRecord.validate_eq_ok.mp hvalid).1.previous_valid
        with ⟨-, habsent, -⟩ | ⟨revision, -, -, hsome, -⟩
      · rw [habsent]
        rfl
      · rw [hnone] at hsome
        cases hsome
    · rw [hlast]
      rfl
  have hcandidate : matchesCandidate record (some event) := by
    simp [matchesCandidate, hkind, hplan, hgeneration]
  obtain ⟨next, hnext⟩ := RolloutRecord.activate_succeeds hvalid hphase
    (le_max_time record event) (previousRevision_of_matches hmatches) hevalid hfollows
  obtain ⟨-, -, hactivated, -, hrevision, hown⟩ := RolloutRecord.activate_eq_ok hnext
  refine ⟨next, ?_, hactivated, hrevision, hown⟩
  rw [recoverRolloutCheckpoint, hphase]
  simp only [if_pos hcandidate, okOr, ok_bind, nested, hnext]
  rfl

/-- The journal of an activated rollout that has the event that undoes it. -/
theorem recover_rollback {current : EngineEvent} {kind : EngineEventKind} {plan : Option StackPlan}
    (hvalid : record.validate = .ok ()) (hphase : record.phase = .activated)
    (hactivation : record.IsActivation current) (htarget : rollbackTarget record = .ok (kind, plan))
    (hevent : nextEvent (some current) kind plan clockMs = .ok event) :
    ∃ next, recoverRolloutCheckpoint record (some event) = .ok (some next)
      ∧ next.MovedBy .rolledBack event := by
  obtain ⟨hfollows, hkind, hplan, -, hevalid, -⟩ := nextEvent_eq_ok hevent
  obtain ⟨-, -, -, hrevision, hgeneration⟩ := hactivation
  have hlink : event.previousEventSha256 = record.activatedGeneration.getD "" := by
    rw [(EngineEvent.follows_iff.mp hfollows).2, hgeneration]
    rfl
  have hrollback : matchesRollback record (some event) := by
    rw [matchesRollback, decide_eq_true hlink, Bool.true_and]
    unfold rollbackTarget at htarget
    cases hstate : record.previousState with
    | none =>
      rw [hstate] at htarget
      cases htarget
      simp [hkind]
    | some state =>
      rw [hstate] at htarget
      cases state with
      | removed =>
        cases htarget
        simp [hkind]
      | applied | stopped =>
        simp only [bind_eq_ok, okOr_eq_ok, pure_eq_ok, Except.ok.injEq, Prod.mk.injEq] at htarget
        obtain ⟨own, hown, rfl, rfl⟩ := htarget
        simp [hkind, hplan, hown]
  obtain ⟨next, hnext⟩ := RolloutRecord.rollBack_succeeds hvalid (.inl hphase)
    (le_max_time record event) hrevision hevalid hfollows
  obtain ⟨-, -, hrolled, -, hrolledRevision, hrolledGeneration⟩ := RolloutRecord.rollBack_eq_ok hnext
  refine ⟨next, ?_, hrolled, hrolledRevision, hrolledGeneration⟩
  rw [recoverRolloutCheckpoint, hphase]
  simp only [if_pos hrollback, okOr, ok_bind, nested, hnext]
  rfl

end

/-! ## What a call leaves behind -/

section

variable {engine : EngineView} {view : StackView} {stack : String} {phase : RolloutPhase}
  {operations : List ViewOperation}

/-- What reading the checkpoint makes of a record and the event that moves it. -/
def ReadMoves (record : RolloutRecord) (phase : RolloutPhase) (event : EngineEvent) : Prop :=
  record.phase = .committed ∧ recoverRolloutCheckpoint record (some event) = .ok none
    ∨ record.phase ≠ .committed ∧ ∃ next,
      recoverRolloutCheckpoint record (some event) = .ok (some next) ∧ next.MovedBy phase event

/-- A move appends an event and then replaces the checkpoint. -/
def Moves (view : StackView) (stack : String) (phase : RolloutPhase)
    (operations : List ViewOperation) : Prop :=
  ∃ record changes event next, Reads view stack (some record) changes
    ∧ operations = onStack stack (changes ++ [.create, .append event, .create, .checkpoint next])
    ∧ record.phase ≠ phase ∧ next.phase = phase ∧ ReadMoves record phase event

variable {next : RolloutRecord}

theorem Activates.moves {rolloutId : String} {nowMs clockMs : UInt64}
    (h : Activates view stack rolloutId nowMs clockMs next operations) (hsound : view.Sound stack) :
    Appends stack 0 operations ∨ Moves view stack .activated operations := by
  obtain ⟨record, changes, hreads, -, hsame | hmove⟩ := h
  · obtain ⟨-, -, rfl⟩ := hsame
    exact .inl hreads.appends_none
  · obtain ⟨hphase, hmatches, -, event, hevent, -, -, hnext, rfl⟩ := hmove
    obtain ⟨hvalid, -⟩ := hreads.valid hsound record rfl
    refine .inr ⟨record, changes, event, next, hreads, rfl, by simp [hphase],
      (RolloutRecord.activate_eq_ok hnext).2.2.1, .inr ⟨by simp [hphase], ?_⟩⟩
    exact recover_activation hvalid hphase hmatches hevent

theorem RollsBack.moves {rolloutId : String} {nowMs clockMs : UInt64}
    (h : RollsBack view stack rolloutId nowMs clockMs next operations) (hsound : view.Sound stack) :
    Appends stack 0 operations ∨ Moves view stack .rolledBack operations := by
  obtain ⟨record, changes, hreads, -, hsame | hcancel | hundo⟩ := h
  · obtain ⟨-, -, rfl⟩ := hsame
    exact .inl hreads.appends_none
  · obtain ⟨-, -, -, rfl⟩ := hcancel
    exact .inl (hreads.appends [.create, .checkpoint next])
  · obtain ⟨hphase, -, current, kind, plan, event, -, hactivation, htarget, hevent, -, -, hnext,
      rfl⟩ := hundo
    obtain ⟨hvalid, -⟩ := hreads.valid hsound record rfl
    refine .inr ⟨record, changes, event, next, hreads, rfl, ?_,
      (RolloutRecord.rollBack_eq_ok hnext).2.2.1, ?_⟩
    · rcases hphase with hphase | hphase <;> simp [hphase]
    · rcases hphase with hphase | hphase
      · exact .inr ⟨by simp [hphase],
          recover_rollback hvalid hphase hactivation htarget hevent⟩
      · refine .inl ⟨hphase, ?_⟩
        rw [recoverRolloutCheckpoint, hphase]
        rfl

theorem EngineCall.moves_or_appends_none (hsound : engine.Sound) {call : EngineCall}
    (hmoves : call.moves = some phase) :
    Appends call.stack 0 (call.run engine).operations
      ∨ Moves (engine.view call.stack) call.stack phase (call.run engine).operations := by
  have heffect := call.effect hsound
  generalize (call.run engine).result = result at heffect
  generalize (call.run engine).operations = operations at heffect ⊢
  cases heffect with
  | fails _ error _ htends => exact .inl htends.appends
  | activates stack rolloutId nowMs clockMs next _ hactivates =>
    cases hmoves
    exact hactivates.moves (hsound stack)
  | rollsBack stack rolloutId nowMs clockMs next _ hrolls =>
    cases hmoves
    exact hrolls.moves (hsound stack)
  | journalled call report _ hfenced =>
    cases call with
    | activateRollout | rollbackRollout => cases hfenced
    | _ => cases hmoves
  | _ => cases hmoves

/-- Where a move is stopped after it appended its event and before it replaced the checkpoint, the
record that it read is left with the journal that has the event. -/
theorem Reads.stopped_between {record : RolloutRecord} {event other : EngineEvent}
    {changes : List StackChange} (hreads : Reads view stack (some record) changes)
    (hne : next ≠ record) {count : Nat} {left : StackView} (hleft : left = Durable.after view
      (List.take count (changes ++ [.create, .append event, .create, .checkpoint next])))
    (hjournal : left.journal = view.journal ++ [other]) (hkept : left.checkpoint = some record) :
    other = event ∧ left = { view with
      checkpoint := some record, journal := view.journal ++ [event] } := by
  have hshort : ∀ stopped : List StackChange, Engine.appended stopped = [] →
      left ≠ Durable.after view stopped := by
    rintro stopped hnone rfl
    rw [journal_after, hnone] at hjournal
    exact absurd (List.append_cancel_left hjournal) (by simp)
  have hfirst : Engine.appended (changes.take count) = [] := by
    have hsublist := (List.take_sublist count changes).filterMap StackChange.event
    rw [show changes.filterMap StackChange.event = [] from hreads.appended] at hsublist
    exact List.sublist_nil.mp hsublist
  rw [List.take_append] at hleft
  -- how many changes after the reading were made
  have hall : 0 < count - changes.length → changes.take count = changes := fun hpos =>
    List.take_of_length_le (by omega)
  match hcount : count - changes.length with
  | 0 =>
    rw [hcount, List.take_zero, List.append_nil] at hleft
    exact absurd hleft (hshort _ hfirst)
  | 1 =>
    rw [hcount] at hleft
    refine absurd hleft (hshort _ ?_)
    rw [appended_append, hfirst]
    rfl
  | 2 | 3 =>
    rw [hall (by omega), hcount, after_append, hreads.after] at hleft
    subst hleft
    have hother := List.append_cancel_left hjournal
    obtain rfl : event = other := by simpa using hother
    exact ⟨rfl, rfl⟩
  | rest + 4 =>
    rw [hall (by omega), hcount, List.take_of_length_le (by simp), after_append,
      hreads.after] at hleft
    subst hleft
    have hnext : some next = some record := hkept
    exact absurd (Option.some.inj hnext) hne

/-- A call that is interrupted between its event and its checkpoint has not done anything else. -/
theorem EngineCall.interrupted_between (hsound : engine.Sound) {call : EngineCall}
    (hmoves : call.moves = some phase) {record : RolloutRecord} {event : EngineEvent} {count : Nat}
    (hread : (Engine.rollout call.stack engine).result = .ok (some record)) {left : StackView}
    (hleft : left = ((EngineStep.interrupt call count).perform engine).view call.stack)
    (hjournal : left.journal = (engine.view call.stack).journal ++ [event])
    (hkept : left.checkpoint = some record) :
    ReadMoves record phase event ∧ record.phase ≠ phase ∧ record.stack = call.stack := by
  have htake : ∀ {changes : List StackChange},
      (call.run engine).operations = onStack call.stack changes →
      left = after (engine.view call.stack) (changes.take count) := by
    intro changes hoperations
    rw [hleft, EngineStep.perform, EngineStep.operations, hoperations, onStack, ← List.map_take,
      ← onStack, view_onStack]
  rcases call.moves_or_appends_none hsound hmoves with hnone | hmoved
  · obtain ⟨changes, hoperations, hlength⟩ := hnone
    have hsublist := (List.take_sublist count changes).filterMap StackChange.event
    rw [htake hoperations, journal_after] at hjournal
    have hadded : appended (changes.take count) = [event] := List.append_cancel_left hjournal
    have hle : (appended (changes.take count)).length ≤ (appended changes).length :=
      hsublist.length_le
    rw [hadded, hlength] at hle
    exact absurd hle (by simp)
  · obtain ⟨read, changes, moved, next, hreads, hoperations, hbefore, hafter, hrecover⟩ := hmoved
    obtain rfl : record = read := by
      rw [hreads.run (hsound _)] at hread
      exact (Option.some.inj (Except.ok.inj hread)).symm
    have hne : next ≠ record := by
      rintro rfl
      exact hbefore hafter
    obtain ⟨rfl, -⟩ := hreads.stopped_between hne (htake hoperations) hjournal hkept
    exact ⟨hrecover, hbefore, (hreads.valid (hsound _) record rfl).2⟩

end

/-! ## Interrupted runs -/

section

variable [FromJson EngineEvent] [FromJson RolloutRecord] [FromJson RolloutProgress]

/-- After every run: when a call that activates a rollout or rolls it back is interrupted after it
appended its event and before it replaced the checkpoint, the next read of the checkpoint returns
the phase that the call was moving to, with the revision and generation of the event, exactly when
the rollout was not committed. -/
theorem interrupted_move_recovered (steps : List EngineStep) {call : EngineCall}
    {phase : RolloutPhase} (hmoves : call.moves = some phase) (count : Nat)
    {journal : List EngineEvent} {event : EngineEvent} {record : RolloutRecord}
    (hjournal : events (run {} steps : EngineStore) call.stack = .ok journal)
    (hread : (rollout call.stack (run {} steps : EngineStore)).result = .ok (some record)) :
    let crashed : EngineStore := (EngineStep.interrupt call count).perform (run {} steps)
    events crashed call.stack = .ok (journal ++ [event]) →
    (rolloutFile call.stack crashed).result = .ok (some record) →
    ((∃ next, (rollout call.stack crashed).result = .ok (some next) ∧ next.MovedBy phase event)
      ↔ record.phase ≠ .committed) := by
  intro crashed hcrashed hfile
  obtain ⟨engine, hagrees⟩ := run_agrees steps
  obtain ⟨_, hlike, hstopped⟩ := hagrees.perform (.interrupt call count)
  cases hlike with
  | interrupt _ _ count' =>
  generalize hengine' : (EngineStep.interrupt call count').perform engine = engine' at hstopped
  have hname : validName call.stack := by
    rw [events, bind_eq_ok] at hjournal
    obtain ⟨_, hname, -⟩ := hjournal
    exact requireName_eq_ok.mp hname
  rw [hagrees.events, events_view hname, Except.ok.injEq] at hjournal
  rw [hstopped.events, events_view hname, Except.ok.injEq] at hcrashed
  have hclean : Clean call.stack (fun _ => False) crashed engine' := fun _ hno => hno.elim
  have hkept : (engine'.view call.stack).checkpoint = some record := by
    have hsame := (simulates_rolloutFile crashed engine' hstopped hclean).1
    exact Except.ok.inj (hsame.symm.trans hfile)
  have hresult := (simulates_rollout_call _ _ hagrees trivial).1.symm.trans hread
  obtain ⟨hmoved, hbefore, hstack⟩ := call.interrupted_between hagrees.sound hmoves hresult
    (congrArg (·.view call.stack) hengine'.symm) (hjournal ▸ hcrashed) hkept
  have hlast : (engine'.view call.stack).journal.getLast? = some event := by
    rw [hcrashed, List.getLast?_concat]
  have hnext : ∀ {next changes}, Reads (engine'.view call.stack) call.stack (some next) changes →
      (rollout call.stack crashed).result = .ok (some next) := by
    intro next changes hreads
    rw [(simulates_rollout_call crashed engine' hstopped trivial).1,
      hreads.run (hstopped.sound _)]
  rcases hmoved with ⟨hphase, hrecover⟩ | ⟨hphase, next, hrecover, hmoved⟩
  · refine iff_of_false ?_ (not_not.mpr hphase)
    rintro ⟨next, hother, hmoved⟩
    rw [hnext (.same record hkept hstack (hlast ▸ hrecover)), Except.ok.injEq, Option.some.injEq]
      at hother
    exact hbefore (hother ▸ hmoved.1)
  · exact iff_of_true ⟨next, hnext (.recovered record next hkept hstack (hlast ▸ hrecover)), hmoved⟩
      hphase

/-- The rollback of the first rollout of a stack can be stopped between its event and its
checkpoint. -/
theorem FirstRollout.stopped {store : EngineStore} {engine : EngineView} {plan : StackPlan}
    {nowMs : UInt64} {phase : RolloutPhase} {record : RolloutRecord} {event : EngineEvent}
    (hagrees : Agrees store engine)
    (h : FirstRollout plan nowMs phase (engine.view plan.stack) record event)
    (hphase : phase = .activated ∨ phase = .committed) (hnow : nowMs ≠ 0) :
    let call := EngineCall.rollbackRollout plan.stack (firstRolloutId plan nowMs) nowMs nowMs
    ∃ count undo, events store plan.stack = .ok [event]
      ∧ (rollout plan.stack store).result = .ok (some record)
      ∧ events ((EngineStep.interrupt call count).perform store) plan.stack = .ok ([event] ++ [undo])
      ∧ (rolloutFile plan.stack ((EngineStep.interrupt call count).perform store)).result
        = .ok (some record)
      ∧ (phase = .committed →
        (rollout plan.stack ((EngineStep.interrupt call count).perform store)).result
          = .ok (some record)) := by
  intro call
  have hreads := h.reads hphase
  have hsound := hagrees.sound plan.stack
  obtain ⟨hvalid, hstack⟩ := hreads.valid hsound record rfl
  have hname : validName plan.stack :=
    hstack ▸ (RolloutRecord.validate_eq_ok.mp hvalid).1.stack_valid
  obtain ⟨undo, next, hnext, hrun⟩ := h.rollback hphase hsound hnow
  obtain ⟨count, hstopped⟩ := hagrees.interrupt call 2
  have hview : ((EngineStep.interrupt call 2).perform engine).view plan.stack
      = { engine.view plan.stack with journal := (engine.view plan.stack).journal ++ [undo] } := by
    rw [EngineStep.perform, EngineStep.operations, hrun]
    exact view_onStack engine plan.stack [.create, .append undo]
  generalize (EngineStep.interrupt call 2).perform engine = stopped at hstopped hview
  refine ⟨count, undo, ?_, ?_, ?_, ?_, ?_⟩
  · rw [hagrees.events, events_view hname, h.journal]
  · rw [(simulates_rollout_call _ _ hagrees trivial).1, hreads.run hsound]
  · rw [hstopped.events, events_view hname, hview, h.journal]
  · have hclean : Clean plan.stack (fun _ => False)
        ((EngineStep.interrupt call count).perform store) stopped := fun _ hno => hno.elim
    rw [(simulates_rolloutFile _ _ hstopped hclean).1]
    show Except.ok (stopped.view plan.stack).checkpoint = _
    rw [hview]
    exact congrArg _ h.checkpoint
  · rintro rfl
    have hkept : Reads (stopped.view plan.stack) plan.stack (some record) [] := by
      refine .same record (by rw [hview]; exact h.checkpoint) hstack ?_
      rw [recoverRolloutCheckpoint, h.phase_eq]
      rfl
    rw [(simulates_rollout_call _ _ hstopped trivial).1, hkept.run (hstopped.sound _)]

end

end

attribute [local instance] semver2 nibbleCodec Sha2.sha256 EngineEvent.reader RolloutRecord.reader
  RolloutProgress.reader

/-- The rollback of an activated rollout that is interrupted is finished by the next read. -/
theorem interrupted_move_recovered_activated :
    let plan := stoppedPlan "s" "a"
    let store : EngineStore := run {} ((commitSteps plan 1).take 2)
    let call := EngineCall.rollbackRollout plan.stack (firstRolloutId plan 1) 1 1
    ∃ count undo next,
      (rollout plan.stack ((EngineStep.interrupt call count).perform store)).result
          = .ok (some next)
        ∧ next.MovedBy .rolledBack undo := by
  intro plan store call
  have hplan : plan.Dormant := stoppedPlan_a_dormant (by decide)
  obtain ⟨engine, record, event, hagrees, hfirst, -⟩ :=
    activated_first hplan.toSandboxed (by decide : (1 : UInt64) ≠ 0)
  obtain ⟨count, undo, hjournal, hread, hcrashed, hfile, -⟩ :=
    hfirst.stopped hagrees (.inl rfl) (by decide)
  have hmoves : call.moves = some .rolledBack := rfl
  have hrecovered := interrupted_move_recovered ((commitSteps plan 1).take 2) hmoves count hjournal
    hread hcrashed hfile
  refine ⟨count, undo, hrecovered.mpr ?_⟩
  rw [hfirst.phase_eq]
  decide

/-- The rollback of a committed rollout that is interrupted is lost: its event is in the journal and
the rollout is committed. -/
theorem interrupted_rollback_committed :
    let plan := stoppedPlan "s" "a"
    let store : EngineStore := run {} (commitSteps plan 1)
    let call := EngineCall.rollbackRollout plan.stack (firstRolloutId plan 1) 1 1
    ∃ count event undo record, events store plan.stack = .ok [event]
      ∧ events ((EngineStep.interrupt call count).perform store) plan.stack = .ok [event, undo]
      ∧ (rolloutFile plan.stack ((EngineStep.interrupt call count).perform store)).result
        = .ok (some record)
      ∧ (rollout plan.stack ((EngineStep.interrupt call count).perform store)).result
        = .ok (some record)
      ∧ record.phase = .committed := by
  intro plan store call
  have hplan : plan.Dormant := stoppedPlan_a_dormant (by decide)
  obtain ⟨engine, record, event, hagrees, hfirst, -⟩ :=
    committed_first hplan (by decide : (1 : UInt64) ≠ 0)
  obtain ⟨count, undo, hjournal, -, hcrashed, hfile, hlost⟩ :=
    hfirst.stopped hagrees (.inr rfl) (by decide)
  exact ⟨count, event, undo, record, hjournal, hcrashed, hfile, hlost rfl, hfirst.phase_eq⟩

end CartridgeRuntime.Engine
