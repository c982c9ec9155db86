import CartridgeRuntime.Engine.Journal

/-!
# The engine without files

What the engine is for: a journal, a checkpoint, an archive and progress for each stack, each of
which changes in one step.
-/

namespace CartridgeRuntime.Engine

open Checked CartridgeRuntime.Core Encoding Durable
open Std (ExtTreeMap)

/-- What the engine keeps about a stack. -/
structure StackView where
  journal : List EngineEvent := []
  checkpoint : Option RolloutRecord := none
  archive : List RolloutRecord := []
  progress : Option RolloutProgress := none

/-- What is kept about each stack. -/
structure EngineView where
  views : ExtTreeMap String StackView := ∅

/-- A change of what is kept about a stack. -/
inductive StackChange where
  | create
  | append (event : EngineEvent)
  | checkpoint (record : RolloutRecord)
  | archive (record : RolloutRecord)
  | progress (progress : Option RolloutProgress)

/-- A change of what is kept about a stack. -/
structure ViewOperation where
  stack : String
  change : StackChange

/-- What is kept after a change. -/
def StackView.apply (view : StackView) : StackChange → StackView
  | .create => view
  | .append event => { view with journal := view.journal ++ [event] }
  | .checkpoint record => { view with checkpoint := some record }
  | .archive record => { view with archive := view.archive ++ [record] }
  | .progress progress => { view with progress }

namespace EngineView

/-- What is kept about a stack. -/
def view (engine : EngineView) (stack : String) : StackView :=
  engine.views[stack]?.getD {}

instance : Acts EngineView ViewOperation where
  act engine operation :=
    ⟨engine.views.insert operation.stack ((engine.view operation.stack).apply operation.change)⟩

theorem view_act (engine : EngineView) (operation : ViewOperation) (stack : String) :
    (act engine operation).view stack = if operation.stack = stack
      then (engine.view operation.stack).apply operation.change else engine.view stack := by
  show (engine.views.insert _ _)[stack]?.getD {} = _
  rw [TreeMap.getElem?_insert']
  split
  · rfl
  · rfl

theorem view_create (engine : EngineView) (stack : String) :
    (act engine ⟨stack, .create⟩).view stack = engine.view stack := by
  rw [view_act, if_pos rfl]
  rfl

theorem mem_act {engine : EngineView} {operation : ViewOperation} {stack : String} :
    stack ∈ (act engine operation).views ↔ operation.stack = stack ∨ stack ∈ engine.views := by
  show stack ∈ engine.views.insert _ _ ↔ _
  rw [ExtTreeMap.mem_insert, compare_eq_iff_eq]

end EngineView

/-- The bytes of archived rollouts. -/
def archiveSize (archive : List RolloutRecord) : Nat :=
  (archive.map fun record => (encode record).length).sum

/-- Whether a rollout is to be added to an archive: one that is there must be the same. -/
def archiveDecision (archive : List RolloutRecord) (record : RolloutRecord) :
    Except EngineError Bool :=
  match archive.find? (·.rolloutId = record.rolloutId) with
  | some archived => do
    rejectIf (archived ≠ record) .archiveCollision
    pure false
  | none => do
    rejectIf (archive.length ≥ maxRolloutHistory
        ∨ archiveSize archive + (encode record).length > maxRolloutHistoryBytes)
      .archiveFull
    pure true

section

variable [HexCodec] [Sha256] [Semver]

/-- A computation on what the engine keeps. -/
abbrev Keeping (α : Type) : Type := Durable EngineView ViewOperation EngineError α

/-- Change what is kept about a stack. -/
def keep (stack : String) (change : StackChange) : Keeping Unit :=
  perform ⟨stack, change⟩

instance : StackStore EngineView ViewOperation where
  names engine := engine.views.keys
  readEvents engine stack := .ok (engine.view stack).journal
  append event := do
    check (nested event.validate)
    check (requireName event.stack)
    keep event.stack .create
    consult fun engine => acceptEvent (engine.view event.stack).journal event
    keep event.stack (.append event)
  rolloutFile stack := inspect fun engine => (engine.view stack).checkpoint
  writeRolloutFile stack record := do
    check (requireName stack)
    check (nested record.validate)
    keep stack .create
    keep stack (.checkpoint record)
  archiveRollout record := do
    check (rejectIf (¬ record.terminal) .archiveActive)
    keep record.stack .create
    let missing ← consult fun engine => archiveDecision (engine.view record.stack).archive record
    if missing then keep record.stack (.archive record) else pure ()
  progressFile stack := inspect fun engine => (engine.view stack).progress
  recoverProgressFile _ := pure ()
  writeProgressFile stack progress := do
    check (requireName stack)
    check (nested progress.validate)
    check (rejectIf ((encode progress).length > maxRolloutProgressBytes) .progressTooLarge)
    keep stack .create
    keep stack (.progress (some progress))
  removeProgressFile stack := keep stack (.progress none)

end

end CartridgeRuntime.Engine
