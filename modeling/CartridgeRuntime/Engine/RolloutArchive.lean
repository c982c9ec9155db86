import CartridgeRuntime.Engine.StoppedRollout

/-!
# The archive of rollouts

A terminal checkpoint is copied to the archive under its identity before the next rollout replaces
it. The copy stays the same while the checkpoint can still change: a committed rollout can be rolled
back after it was archived. `archive_never_collides` says which runs keep clear of that.
-/

namespace CartridgeRuntime.Engine

open Checked CartridgeRuntime.Core Encoding Durable

section

variable [HexCodec] [Sha256] [Semver]

/-- A copy of the checkpoint in the archive is a copy of it as it is. -/
def StackView.ArchiveCurrent (view : StackView) : Prop :=
  ∀ record ∈ view.checkpoint, ∀ archived ∈ view.archive,
    archived.rolloutId = record.rolloutId → archived = record ∧ record.terminal

namespace StackView.ArchiveCurrent

variable {view other : StackView} {record next : RolloutRecord} {changes rest : List StackChange}

section

omit [HexCodec] [Sha256] [Semver]

theorem of_eq (h : view.ArchiveCurrent) (hcheckpoint : other.checkpoint = view.checkpoint)
    (harchive : other.archive = view.archive) : other.ArchiveCurrent := by
  unfold ArchiveCurrent
  rwa [hcheckpoint, harchive]

/-- An active checkpoint has no copy. -/
theorem absent (h : view.ArchiveCurrent) (hcheckpoint : view.checkpoint = some record)
    (hactive : record.active) : ∀ archived ∈ view.archive, archived.rolloutId ≠ record.rolloutId := by
  intro archived hmem heq
  have hterminal := (h record hcheckpoint archived hmem heq).2
  simp [RolloutRecord.terminal, hactive] at hterminal

/-- A checkpoint without a copy may be written. -/
theorem checkpoint (habsent : ∀ archived ∈ view.archive, archived.rolloutId ≠ next.rolloutId) :
    (view.apply (.checkpoint next)).ArchiveCurrent := by
  rintro _ ⟨⟩ archived hmem heq
  exact absurd heq (habsent archived hmem)

/-- Neither the journal nor the progress matters. -/
theorem passes_append (h : view.ArchiveCurrent) (event : EngineEvent)
    (hrest : Passes ArchiveCurrent (view.apply (.append event)) rest) :
    Passes ArchiveCurrent view (.create :: .append event :: rest) :=
  passes_cons.mpr ⟨h, passes_cons.mpr ⟨h, hrest⟩⟩

theorem passes_checkpoint (h : view.ArchiveCurrent)
    (habsent : ∀ archived ∈ view.archive, archived.rolloutId ≠ next.rolloutId) :
    Passes ArchiveCurrent view [.create, .checkpoint next] :=
  passes_cons.mpr ⟨h, passes_cons.mpr ⟨h, passes_nil.mpr (checkpoint habsent)⟩⟩

theorem passes_quiet (h : view.ArchiveCurrent) (hquiet : Quiet changes) :
    Passes ArchiveCurrent view changes := by
  intro count
  have htake : Quiet (changes.take count) := fun change hmem =>
    hquiet change (List.mem_of_mem_take hmem)
  obtain ⟨progress, hafter⟩ := htake.after view
  exact h.of_eq (by rw [hafter]) (by rw [hafter])

end

end StackView.ArchiveCurrent

section

variable {view : StackView} {stack : String} {changes rest : List StackChange}
  {read : Option RolloutRecord} {record : RolloutRecord} {operations : List ViewOperation}

/-- Reading the checkpoint keeps the copies current. -/
theorem Reads.archiveCurrent (hreads : Reads view stack read changes) (h : view.ArchiveCurrent) :
    Passes StackView.ArchiveCurrent view changes
      ∧ ({ view with checkpoint := read } : StackView).ArchiveCurrent := by
  have hpasses : Passes StackView.ArchiveCurrent view changes := by
    cases hreads with
    | none => exact passes_nil.mpr h
    | same => exact passes_nil.mpr h
    | recovered record next hcheckpoint _ hrecovered =>
      refine h.passes_checkpoint ?_
      have hactive : record.active := by
        obtain ⟨event, -, ⟨hphase, -⟩ | ⟨hphase, -⟩⟩ :=
          recoverRolloutCheckpoint_eq_some hrecovered <;>
          simp [RolloutRecord.active, hphase]
      rw [(sameRollout_of_recover hrecovered).rolloutId]
      exact h.absent hcheckpoint hactive
  exact ⟨hpasses, hreads.after ▸ hpasses.last⟩

theorem Reads.through (hreads : Reads view stack read changes) (h : view.ArchiveCurrent)
    (hrest : Passes StackView.ArchiveCurrent { view with checkpoint := read } rest) :
    Through stack StackView.ArchiveCurrent view (onStack stack (changes ++ rest)) := by
  refine ⟨_, rfl, passes_append.mpr ⟨(hreads.archiveCurrent h).1, ?_⟩⟩
  rwa [hreads.after]

theorem Reads.through_nil (hreads : Reads view stack read changes) (h : view.ArchiveCurrent) :
    Through stack StackView.ArchiveCurrent view (onStack stack changes) :=
  ⟨_, rfl, (hreads.archiveCurrent h).1⟩

omit [HexCodec] [Sha256] [Semver] in
/-- A terminal checkpoint is put aside as it is. -/
theorem Retires.passes (hretires : Retires view read changes) (h : view.ArchiveCurrent)
    (hread : view.checkpoint = read) : Passes StackView.ArchiveCurrent view changes := by
  cases hretires with
  | none => exact passes_nil.mpr h
  | kept current quiet _ hquiet => exact h.passes_quiet hquiet
  | archived current quiet hterminal hquiet =>
    refine passes_append.mpr ⟨h.passes_quiet hquiet, passes_cons.mpr ⟨?_, passes_nil.mpr ?_⟩⟩
    · exact (h.passes_quiet hquiet).last
    · obtain ⟨progress, hafter⟩ := hquiet.after view
      rw [hafter]
      rintro _ hrecord archived hmem heq
      obtain rfl : current = _ := Option.some.inj (hread.symm.trans hrecord)
      rcases List.mem_append.mp hmem with hold | hnew
      · exact h current hread archived hold heq
      · exact ⟨List.mem_singleton.mp hnew, hterminal⟩

theorem Tends.archiveCurrent (htends : Tends view stack operations) (h : view.ArchiveCurrent) :
    Through stack StackView.ArchiveCurrent view operations := by
  rcases htends with rfl | ⟨read, changes, quiet, hreads, hquiet, rfl⟩
  · exact ⟨[], rfl, passes_nil.mpr h⟩
  · exact hreads.through h ((hreads.archiveCurrent h).2.passes_quiet hquiet)

theorem Journalled.archiveCurrent {report : ApplyReport}
    (hjournalled : Journalled view stack report operations) (h : view.ArchiveCurrent) :
    Through stack StackView.ArchiveCurrent view operations := by
  obtain ⟨read, changes, hreads, -, ⟨-, rfl⟩ | ⟨-, event, -, -, -, rfl⟩⟩ := hjournalled
  · exact hreads.through_nil h
  · have hread := (hreads.archiveCurrent h).2
    exact hreads.through h (hread.passes_append event (passes_nil.mpr hread))

/-- A move of a checkpoint without a copy. -/
theorem Reads.through_move {next : RolloutRecord} (hreads : Reads view stack (some record) changes)
    (h : view.ArchiveCurrent) (hid : next.rolloutId = record.rolloutId)
    (habsent : ∀ archived ∈ view.archive, archived.rolloutId ≠ record.rolloutId) :
    Through stack StackView.ArchiveCurrent view
        (onStack stack (changes ++ [.create, .checkpoint next]))
      ∧ ∀ event, Through stack StackView.ArchiveCurrent view
        (onStack stack (changes ++ [.create, .append event, .create, .checkpoint next])) := by
  have hread := (hreads.archiveCurrent h).2
  have hnext : ∀ archived ∈ view.archive, archived.rolloutId ≠ next.rolloutId := by rwa [hid]
  refine ⟨hreads.through h (hread.passes_checkpoint hnext), fun event => ?_⟩
  have happended : (StackView.apply { view with checkpoint := some record }
    (.append event)).ArchiveCurrent := hread
  exact hreads.through h (hread.passes_append event (happended.passes_checkpoint hnext))

variable {rolloutId : String}

theorem Activates.archiveCurrent {nowMs clockMs : UInt64} {next : RolloutRecord}
    (hactivates : Activates view stack rolloutId nowMs clockMs next operations)
    (h : view.ArchiveCurrent) : Through stack StackView.ArchiveCurrent view operations := by
  obtain ⟨record, changes, hreads, -, ⟨-, -, rfl⟩ | ⟨hphase, -, -, event, -, -, -, hmove, rfl⟩⟩ :=
    hactivates
  · exact hreads.through_nil h
  · have hsame := (RolloutRecord.activate_eq_ok hmove).2.1
    have habsent := (hreads.archiveCurrent h).2.absent rfl (by simp [RolloutRecord.active, hphase])
    exact (hreads.through_move h hsame.rolloutId habsent).2 event

theorem Commits.archiveCurrent {nowMs : UInt64} {next : RolloutRecord}
    (hcommits : Commits view stack rolloutId nowMs next operations) (h : view.ArchiveCurrent) :
    Through stack StackView.ArchiveCurrent view operations := by
  obtain ⟨record, changes, hreads, -, ⟨-, -, rfl⟩ | ⟨hphase, -, _, hmove, rfl⟩⟩ := hcommits
  · exact hreads.through_nil h
  · have hsame := (RolloutRecord.commit_eq_ok hmove).2.1
    have habsent := (hreads.archiveCurrent h).2.absent rfl (by simp [RolloutRecord.active, hphase])
    exact (hreads.through_move h hsame.rolloutId habsent).1

/-- A committed rollout may be rolled back while it has no copy. -/
theorem RollsBack.archiveCurrent {nowMs clockMs : UInt64}
    {next : RolloutRecord} (hrolls : RollsBack view stack rolloutId nowMs clockMs next operations)
    (h : view.ArchiveCurrent)
    (hcommitted : ∀ record changes, Reads view stack (some record) changes →
      record.phase = .committed → ∀ archived ∈ view.archive, archived.rolloutId ≠ record.rolloutId) :
    Through stack StackView.ArchiveCurrent view operations := by
  obtain ⟨record, changes, hreads, -, hcases⟩ := hrolls
  have hactive : record.active → ∀ archived ∈ view.archive,
      archived.rolloutId ≠ record.rolloutId := (hreads.archiveCurrent h).2.absent rfl
  rcases hcases with ⟨-, -, rfl⟩ | ⟨hphase, -, hmove, rfl⟩ | ⟨hphase, -, hundo⟩
  · exact hreads.through_nil h
  · have hsame := (RolloutRecord.cancel_eq_ok hmove).2.1
    have habsent := hactive (by simp [RolloutRecord.active, hphase])
    exact (hreads.through_move h hsame.rolloutId habsent).1
  · obtain ⟨current, kind, plan, event, -, -, -, -, -, -, hmove, rfl⟩ := hundo
    have hsame := (RolloutRecord.rollBack_eq_ok hmove).2.1
    have habsent : ∀ archived ∈ view.archive, archived.rolloutId ≠ record.rolloutId := by
      rcases hphase with hphase | hphase
      · exact hactive (by simp [RolloutRecord.active, hphase])
      · exact hcommitted record changes hreads hphase
    exact (hreads.through_move h hsame.rolloutId habsent).2 event

/-- A new rollout may begin under an identity that neither the archive nor the checkpoint has. -/
theorem Prepares.archiveCurrent {plan : StackPlan} {nowMs : UInt64} {next : RolloutRecord}
    (hprepares : Prepares view stack plan nowMs next operations) (h : view.ArchiveCurrent)
    (hfresh : RolloutRecord.new plan view.journal.getLast? nowMs = .ok next →
      (∀ archived ∈ view.archive, archived.rolloutId ≠ next.rolloutId)
      ∧ ∀ record changes, Reads view stack (some record) changes → record.terminal →
        record.rolloutId ≠ next.rolloutId) :
    Through stack StackView.ArchiveCurrent view operations := by
  obtain ⟨read, changes, hreads, ⟨-, rfl⟩ | ⟨retired, hretires, -, hnew, rfl⟩⟩ := hprepares
  · exact hreads.through_nil h
  · obtain ⟨harchive, hcurrent⟩ := hfresh hnew
    have hread := (hreads.archiveCurrent h).2
    have hown : Retires { view with checkpoint := read } read retired := hretires.of_archive rfl
    have hretired := hown.passes hread rfl
    rw [List.append_assoc]
    refine hreads.through h (passes_append.mpr ⟨hretired, hretired.last.passes_checkpoint ?_⟩)
    intro archived hmem
    cases hretires with
    | none => exact harchive archived hmem
    | kept current quiet _ hquiet =>
      obtain ⟨progress, hafter⟩ := hquiet.after { view with checkpoint := some current }
      rw [hafter] at hmem
      exact harchive archived hmem
    | archived current quiet hterminal hquiet =>
      obtain ⟨progress, hafter⟩ := hquiet.after { view with checkpoint := some current }
      rw [after_append, hafter] at hmem
      rcases List.mem_append.mp hmem with hold | hnew
      · exact harchive archived hold
      · rw [List.mem_singleton.mp hnew]
        exact hcurrent current changes hreads hterminal

theorem PrepareFails.archiveCurrent {error : EngineError}
    (hfails : PrepareFails view stack error operations) (h : view.ArchiveCurrent) :
    Through stack StackView.ArchiveCurrent view operations ∧ error ≠ .archiveCollision := by
  rcases hfails with ⟨rfl, herror⟩ | ⟨read, changes, hreads, hcases⟩
  · exact ⟨⟨[], rfl, passes_nil.mpr h⟩, herror⟩
  · have hread := (hreads.archiveCurrent h).2
    rcases hcases with ⟨quiet, hquiet, rfl, hcollides⟩ | ⟨retired, hretires, rfl, herror⟩
    · refine ⟨hreads.through h (hread.passes_quiet hquiet), fun herror => ?_⟩
      obtain ⟨current, rfl, -, archived, hfind, hne⟩ := hcollides herror
      have hid : archived.rolloutId = current.rolloutId := by
        simpa using List.find?_some hfind
      exact hne (hread current rfl archived (List.mem_of_find?_eq_some hfind) hid).1
    · have hown : Retires { view with checkpoint := read } read retired := hretires.of_archive rfl
      exact ⟨hreads.through h (hown.passes hread rfl), herror⟩

end

/-! ## Whole runs -/

omit [HexCodec] [Sha256] [Semver] in
/-- The archive of a stack has a copy of a rollout. -/
def EngineStore.archived (store : EngineStore) (stack rolloutId : String) : Bool :=
  ((store.directory stack).archive.lookup rolloutId).isSome

section

variable [FromJson EngineEvent] [FromJson RolloutRecord] [FromJson RolloutProgress]

/-- A committed rollout is rolled back only while the archive has no copy of it, and a rollout
begins only under an identity that neither the archive nor a terminal checkpoint has. -/
def Prudent (store : EngineStore) (step : EngineStep) : Prop :=
  match step.call with
  | .rollbackRollout stack _ _ _ => ∀ record,
      (rollout stack store).result = .ok (some record) → record.phase = .committed →
      ¬ store.archived stack record.rolloutId
  | .prepareRollout plan _ nowMs => ∀ previous, latest store plan.stack = .ok previous →
      let newId := rolloutId plan.stack nowMs (previous.map EngineEvent.revision)
        (previous.map EngineEvent.eventSha256) plan.planSha256
      ¬ store.archived plan.stack newId ∧ ∀ record,
        (rollout plan.stack store).result = .ok (some record) → record.terminal →
        record.rolloutId ≠ newId
  | _ => True

variable {store : EngineStore} {engine : EngineView}

section

omit [FromJson RolloutRecord] [FromJson RolloutProgress]

theorem Agrees.archived_of_mem (h : Agrees store engine) {stack : String} {record : RolloutRecord}
    (hmem : record ∈ (engine.view stack).archive) : store.archived stack record.rolloutId := by
  rw [EngineStore.archived, (h.represents stack).archive, List.lookup_isSome_iff]
  exact ⟨_, List.mem_map_of_mem hmem, beq_self_eq_true _⟩

theorem Agrees.archived (h : Agrees store engine) {stack rolloutId : String}
    (habsent : ¬ store.archived stack rolloutId) :
    ∀ archived ∈ (engine.view stack).archive, archived.rolloutId ≠ rolloutId := by
  rintro archived hmem rfl
  exact habsent (h.archived_of_mem hmem)

end

/-- A checkpoint that is read on views is read on files. -/
theorem Agrees.rollout_result (h : Agrees store engine) {stack : String} {record : RolloutRecord}
    {changes : List StackChange} (hreads : Reads (engine.view stack) stack (some record) changes) :
    (rollout stack store).result = .ok (some record) := by
  have hresult : (rollout stack store).result = (rollout stack engine).result :=
    (simulates_rollout_call store engine h trivial).1
  rw [hresult, hreads.run (h.sound stack)]

theorem Agrees.archiveCurrent (h : Agrees store engine)
    (hcurrent : ∀ stack, (engine.view stack).ArchiveCurrent) {step : EngineStep}
    (hprudent : Prudent store step) :
    Through step.call.stack StackView.ArchiveCurrent (engine.view step.call.stack)
      (step.call.run engine).operations := by
  have heffect := step.call.effect h.sound
  unfold Prudent at hprudent
  generalize step.call = call at heffect hprudent ⊢
  generalize (call.run engine).result = result at heffect
  generalize (call.run engine).operations = operations at heffect ⊢
  cases heffect with
  | fails _ error _ htends => exact htends.archiveCurrent (hcurrent _)
  | journalled _ report _ _ hjournalled => exact hjournalled.archiveCurrent (hcurrent _)
  | reads stack read changes hreads => exact hreads.through_nil (hcurrent _)
  | begins stack rolloutId nowMs progress _ htends => exact htends.archiveCurrent (hcurrent _)
  | saves progress _ htends => exact htends.archiveCurrent (hcurrent _)
  | prepareFails plan allowInsecure nowMs error _ hfails =>
    exact (hfails.archiveCurrent (hcurrent _)).1
  | activates stack rolloutId nowMs clockMs next _ hactivates =>
    exact hactivates.archiveCurrent (hcurrent _)
  | commits stack rolloutId nowMs observed next _ hcommits =>
    exact hcommits.archiveCurrent (hcurrent _)
  | rollsBack stack rolloutId nowMs clockMs next _ hrolls =>
    refine hrolls.archiveCurrent (hcurrent _) fun record changes hreads hphase => ?_
    exact h.archived (hprudent record (h.rollout_result hreads) hphase)
  | prepares plan allowInsecure nowMs next _ hprepares =>
    refine hprepares.archiveCurrent (hcurrent _) fun hnew => ?_
    change RolloutRecord.new plan (engine.view plan.stack).journal.getLast? nowMs = .ok next at hnew
    obtain ⟨hvalid, hstack, -, -, -, -, -, -, hid⟩ := RolloutRecord.new_eq_ok hnew
    have hname : validName plan.stack :=
      hstack ▸ (RolloutRecord.validate_eq_ok.mp hvalid).1.stack_valid
    have hlatest : Engine.latest store plan.stack
        = .ok (engine.view plan.stack).journal.getLast? := by
      rw [h.latest, latest_view hname]
    obtain ⟨harchive, hother⟩ := hprudent _ hlatest
    rw [← hid] at harchive hother
    exact ⟨h.archived harchive, fun record changes hreads hterminal =>
      hother record (h.rollout_result hreads) hterminal⟩

/-- Along every run of prudent steps, interrupted anywhere, no preparation of a rollout fails
because the archive has another copy of the terminal checkpoint. -/
theorem archive_never_collides {steps : List EngineStep}
    (hprudent : Along Prudent ({} : EngineStore) steps) (plan : StackPlan) (allowInsecure : Bool)
    (nowMs : UInt64) :
    (prepareRollout plan allowInsecure nowMs (run {} steps : EngineStore)).result
      ≠ .error .archiveCollision := by
  have hinvariant : ∃ engine, Agrees (run {} steps) engine
      ∧ ∀ stack, (engine.view stack).ArchiveCurrent := by
    refine Agrees.run ?_ .empty (fun stack record hmem => ?_) hprudent
    · intro store engine step step' hagrees hcurrent hstep hlike
      have hcall := hagrees.archiveCurrent hcurrent hstep
      have hsame : step.call = step'.call := by cases hlike <;> rfl
      rw [hsame] at hcall
      exact EngineStep.perform_view (P := fun _ => StackView.ArchiveCurrent) hcall hcurrent
    · cases hmem
  obtain ⟨engine, hagrees, hcurrent⟩ := hinvariant
  obtain ⟨hresult, -, -⟩ :=
    simulates_prepareRollout plan allowInsecure nowMs _ _ hagrees trivial
  rw [hresult]
  intro herror
  have houtcome := prepareRollout_outcome hagrees.sound plan allowInsecure nowMs
  cases hrun : (prepareRollout plan allowInsecure nowMs : Keeping _) engine with
  | mk operations result =>
    rw [hrun] at herror
    obtain rfl : result = .error .archiveCollision := herror
    exact ((houtcome.error hrun).archiveCurrent (hcurrent plan.stack)).2 rfl

/-! ## A collision -/

variable {plan other : StackPlan} {nowMs : UInt64}

omit [FromJson EngineEvent] [FromJson RolloutRecord] [FromJson RolloutProgress] in
/-- A terminal rollout that is in no archive is archived first, whatever comes later. -/
theorem prepareRollout_archives (nowMs : UInt64) {record : RolloutRecord}
    (hother : other.Sandboxed) (hstack : other.stack = plan.stack)
    (hreads : Reads (engine.view plan.stack) plan.stack (some record) [])
    (hsound : (engine.view plan.stack).Sound plan.stack) (hterminal : record.terminal)
    (hnew : record.candidatePlan.planSha256 ≠ other.planSha256)
    (hprogress : (engine.view plan.stack).progress = none)
    (harchive : (engine.view plan.stack).archive = []) :
    ((EngineStep.interrupt (.prepareRollout other false nowMs) 2).perform engine).view plan.stack
      = { engine.view plan.stack with archive := [record] } := by
  obtain ⟨hvalid, hown⟩ := hreads.valid hsound record rfl
  have hmissing : archiveDecision (engine.view record.stack).archive record = .ok true := by
    have hsize : ¬ (0 ≥ maxRolloutHistory
        ∨ archiveSize [] + (encode record).length > maxRolloutHistoryBytes) := by
      rintro (hno | hno)
      · exact absurd hno (by decide)
      · have hle : (encode record).length ≤ maxRolloutHistoryBytes :=
          (RolloutRecord.length_encode_le hvalid).trans (by decide)
        exact Nat.not_le.mpr hno (by rwa [archiveSize, List.map_nil, List.sum_nil, Nat.zero_add])
    rw [hown, harchive, archiveDecision]
    exact congrArg (· >>= fun _ => pure true) (rejectIf_of_not _ hsize)
  have hrun : prepareRollout other false nowMs engine
      = (archiveRollout record >>= fun _ => startRollout other nowMs) engine := by
    rw [← hstack] at hreads hsound hprogress
    exact prepareRollout_retires hother.valid (fun h => hother.secure h.1) hreads hsound hterminal
      hnew hprogress
  rw [bind_ok (archiveRollout_run hterminal hmissing)] at hrun
  have hoperations : ((EngineCall.prepareRollout other false nowMs).run engine).operations.take 2
      = onStack plan.stack [.create, .archive record] := by
    rw [EngineCall.run, map_operations, hrun, hown]
    rfl
  rw [EngineStep.perform, EngineStep.operations, hoperations, view_onStack]
  show { engine.view plan.stack with archive := (engine.view plan.stack).archive ++ [record] } = _
  rw [harchive]
  rfl

/-- The first rollout of a stack, after the preparation of another plan archived it and was
interrupted. -/
theorem archived_first (hplan : plan.Dormant) (hnow : nowMs ≠ 0) (hother : other.Sandboxed)
    (hstack : other.stack = plan.stack) (hnew : plan.planSha256 ≠ other.planSha256) :
    ∃ count engine record event, Agrees (run {} (commitSteps plan nowMs
        ++ [.interrupt (.prepareRollout other false nowMs) count])) engine
      ∧ FirstRollout plan nowMs .committed (engine.view plan.stack) record event
      ∧ (engine.view plan.stack).archive = [record] := by
  obtain ⟨engine, record, event, hagrees, hfirst, harchive⟩ := committed_first hplan hnow
  have hterminal : record.terminal := by
    simp [RolloutRecord.terminal, RolloutRecord.active, hfirst.phase_eq]
  have hview := prepareRollout_archives nowMs hother hstack (hfirst.reads (.inr rfl))
    (hagrees.sound _) hterminal (hfirst.candidate ▸ hnew) hfirst.progress harchive
  obtain ⟨count, hcrashed⟩ := hagrees.interrupt (.prepareRollout other false nowMs) 2
  refine ⟨count, _, record, event, hcrashed, ?_⟩
  rw [hview]
  exact ⟨{ hfirst with }, rfl⟩

/-- Committing the first rollout of a stack is prudent, and so is preparing another plan under an
identity of its own. -/
theorem along_prudent_commitSteps (hplan : plan.Dormant) (hnow : nowMs ≠ 0)
    (hstack : other.stack = plan.stack)
    (hnew : rolloutId plan.stack nowMs (some 1) (some (firstEvent plan nowMs).eventSha256)
      other.planSha256 ≠ firstRolloutId plan nowMs) {step : EngineStep}
    (hcall : step.call = .prepareRollout other false nowMs) :
    Along Prudent ({} : EngineStore) (commitSteps plan nowMs ++ [step]) := by
  have hname := (StackPlan.valid_of_validate hplan.valid).stack_valid
  have hfirst : Prudent ({} : EngineStore) (.complete (.prepareRollout plan false nowMs)) := by
    have hempty : Agrees ({} : EngineStore) {} := .empty
    refine fun previous _ => ⟨?_, fun record hread => ?_⟩
    · rw [EngineStore.archived, (hempty.represents _).archive]
      exact Bool.false_ne_true
    · have hnone : rollout plan.stack ({} : EngineView) = ⟨[], .ok none⟩ := rollout_none hname rfl
      have hresult := (simulates_rollout_call _ _ hempty trivial).1.symm.trans hread
      rw [hnone] at hresult
      cases hresult
  have hsecond : Prudent (run {} (commitSteps plan nowMs)) step := by
    obtain ⟨engine, record, event, hagrees, hcommitted, harchive⟩ := committed_first hplan hnow
    generalize (run {} (commitSteps plan nowMs) : EngineStore) = store at hagrees ⊢
    rw [Prudent, hcall]
    intro previous hprevious
    rw [hstack, hagrees.latest, latest_view hname, hcommitted.journal, hcommitted.event_eq] at hprevious
    obtain rfl := Except.ok.inj hprevious
    rw [hstack]
    refine ⟨?_, fun read hread _ => ?_⟩
    · rw [EngineStore.archived, (hagrees.represents _).archive, harchive]
      exact Bool.false_ne_true
    · rw [hagrees.rollout_result (hcommitted.reads (.inr rfl))] at hread
      obtain rfl := Option.some.inj (Except.ok.inj hread)
      rw [hcommitted.rolloutId]
      exact hnew.symm
  exact along_append ⟨hfirst, trivial, trivial, trivial⟩ ⟨hsecond, trivial⟩

/-- A run of prudent steps, the last of them interrupted, archives the first rollout of a stack. -/
theorem archived_prudently (hplan : plan.Dormant) (hnow : nowMs ≠ 0) (hother : other.Sandboxed)
    (hstack : other.stack = plan.stack) (hdiffer : plan.planSha256 ≠ other.planSha256)
    (hnew : rolloutId plan.stack nowMs (some 1) (some (firstEvent plan nowMs).eventSha256)
      other.planSha256 ≠ firstRolloutId plan nowMs) :
    ∃ count,
      let steps := commitSteps plan nowMs ++ [.interrupt (.prepareRollout other false nowMs) count]
      (run {} steps : EngineStore).archived plan.stack (firstRolloutId plan nowMs)
        ∧ Along Prudent ({} : EngineStore) steps := by
  obtain ⟨count, engine, record, event, hagrees, hfirst, harchive⟩ :=
    archived_first hplan hnow hother hstack hdiffer
  have hmem : record ∈ (engine.view plan.stack).archive := by
    rw [harchive]
    exact List.mem_singleton_self record
  exact ⟨count, hfirst.rolloutId ▸ hagrees.archived_of_mem hmem,
    along_prudent_commitSteps hplan hnow hstack hnew rfl⟩

/-- When a preparation is interrupted after it archived a committed rollout, and that rollout is
rolled back, every later preparation of another plan fails. -/
theorem archive_collides (hplan : plan.Dormant) (hnow : nowMs ≠ 0) (hother : other.Sandboxed)
    (hstack : other.stack = plan.stack) (hnew : plan.planSha256 ≠ other.planSha256) :
    ∃ count, (prepareRollout other false nowMs (run {} (commitSteps plan nowMs
        ++ [.interrupt (.prepareRollout other false nowMs) count,
          .complete (.rollbackRollout plan.stack (firstRolloutId plan nowMs) nowMs nowMs)])
        : EngineStore)).result = .error .archiveCollision := by
  obtain ⟨count, crashed, record, event, hcrashed, hfirst, harchive⟩ :=
    archived_first hplan hnow hother hstack hnew
  refine ⟨count, ?_⟩
  -- the rollout is committed still, and can be rolled back
  obtain ⟨undo, next, hnext, hrollback⟩ := hfirst.rollback (.inr rfl) (hcrashed.sound _) hnow
  obtain ⟨-, hsame, hphase, -⟩ := RolloutRecord.rollBack_eq_ok hnext
  have hundone := hcrashed.complete
    (.rollbackRollout plan.stack (firstRolloutId plan nowMs) nowMs nowMs)
  have hview := EngineStep.view_complete hrollback
  generalize (EngineStep.complete (.rollbackRollout plan.stack (firstRolloutId plan nowMs) nowMs
    nowMs)).perform crashed = undone at hview hundone
  have hown : next.stack = plan.stack := hsame.stack.trans hfirst.stack
  -- the archive has the committed record, the checkpoint is another one
  have hcollides : archiveDecision (undone.view next.stack).archive next
      = .error .archiveCollision := by
    have hfound : [record].find? (·.rolloutId = next.rolloutId) = some record :=
      List.find?_cons_of_pos (by simp [hsame.rolloutId])
    have hdifferent : record ≠ next := by
      rintro rfl
      rw [hfirst.phase_eq] at hphase
      cases hphase
    rw [hown, hview]
    show archiveDecision (crashed.view plan.stack).archive next = _
    rw [harchive, archiveDecision, hfound]
    exact congrArg (· >>= fun _ => pure false) (rejectIf_of _ hdifferent)
  have hreads : Reads (undone.view other.stack) other.stack (some next) [] := by
    refine .same next (by rw [hstack, hview]; rfl) (hstack ▸ hown) ?_
    rw [recoverRolloutCheckpoint, hphase]
    rfl
  have hended : next.terminal := by simp [RolloutRecord.terminal, RolloutRecord.active, hphase]
  have hcandidate : next.candidatePlan.planSha256 ≠ other.planSha256 := by
    rw [hsame.candidatePlan, hfirst.candidate]
    exact hnew
  have hprogress : (undone.view other.stack).progress = none := by
    rw [hstack, hview]
    exact hfirst.progress
  have hresult : (prepareRollout other false nowMs undone).result = .error .archiveCollision := by
    rw [prepareRollout_retires hother.valid (fun h => hother.secure h.1) hreads (hundone.sound _)
      hended hcandidate hprogress, bind_error (archiveRollout_error hended hcollides)]
  exact (simulates_prepareRollout other false nowMs _ _ hundone trivial).1.trans hresult

end

end

attribute [local instance] nibbleCodec Sha2.sha256 semver2 EngineEvent.reader RolloutRecord.reader
  RolloutProgress.reader

/-- Two plans of one stack have digests of their own, and so have their rollouts. -/
theorem stoppedPlan_digests :
    let plan := stoppedPlan "s" "a"
    let other := stoppedPlan "s" "b"
    plan.planSha256 ≠ other.planSha256
      ∧ rolloutId "s" 1 (some 1) (some (firstEvent plan 1).eventSha256) other.planSha256
        ≠ firstRolloutId plan 1 := by
  decide +kernel

theorem stoppedPlan_b_sandboxed :
    (stoppedPlan "s" "b").Sandboxed := by
  refine ⟨stoppedPlan_valid {"b"} (by decide) (by decide +kernel) (by decide +kernel), ?_⟩
  exact (by decide : SandboxPolicy.required ≠ .disabled)

/-- After a rollout was committed and archived, another plan does not collide with the archive. -/
theorem archive_never_collides_prepared :
    let plan := stoppedPlan "s" "a"
    let other := stoppedPlan "s" "b"
    ∃ count,
      let store : EngineStore :=
        run {} (commitSteps plan 1 ++ [.interrupt (.prepareRollout other false 1) count])
      store.archived "s" (firstRolloutId plan 1)
        ∧ (prepareRollout other false 1 store).result ≠ .error .archiveCollision := by
  intro plan other
  have hplan : plan.Dormant := stoppedPlan_a_dormant (by decide)
  obtain ⟨hdiffer, hnew⟩ := stoppedPlan_digests
  obtain ⟨count, harchived, halong⟩ :=
    archived_prudently hplan (by decide) stoppedPlan_b_sandboxed rfl hdiffer hnew
  exact ⟨count, harchived, archive_never_collides halong other false 1⟩

/-- A crash after the committed rollout was archived, and a rollback of that rollout, keep every
later rollout from being prepared. -/
theorem archive_collides_rolled_back :
    let plan := stoppedPlan "s" "a"
    let other := stoppedPlan "s" "b"
    ∃ count, (prepareRollout other false 1 (run {} (commitSteps plan 1
        ++ [.interrupt (.prepareRollout other false 1) count,
          .complete (.rollbackRollout "s" (firstRolloutId plan 1) 1 1)])
        : EngineStore)).result = .error .archiveCollision := by
  intro plan other
  have hplan : plan.Dormant := stoppedPlan_a_dormant (by decide)
  exact archive_collides hplan (by decide) stoppedPlan_b_sandboxed rfl stoppedPlan_digests.1

end CartridgeRuntime.Engine
