import CartridgeRuntime.Library.PrettyJson
import CartridgeRuntime.Library.Stateful
import Mathlib.Tactic.IntervalCases

/-!
# Replacing a document on disk

A document is replaced by moving the old file to a backup and a temporary file into its place.
`Directory` is what a process finds at the two names, `atomicJsonReplace` the replacement with the
outcome of every file operation, and `replaceOperations` the operations that it makes when none of
them fails (`run_atomicJsonReplace_of_ok`). `stopped_after_take` says what a process leaves that stops
between two of them.
-/

namespace CartridgeRuntime.Identity

open Checked Encoding Stateful

def maxIdentityDocumentBytes : Nat := 8 * 1024 * 1024

/-- The file of a document: the document, or why it cannot be read. -/
abbrev FileContent (α : Type) := Except String α

/-- A document on disk and its backup. -/
structure Directory (α : Type) where
  current : Option (FileContent α) := none
  previous : Option (FileContent α) := none

/-- The outcomes of the file operations of a replacement, in their order. -/
structure ReplaceOutcomes where
  writeTemporary : Except String Unit := .ok ()
  removeStale : Except String Unit := .ok ()
  moveAway : Except String Unit := .ok ()
  moveIn : Except String Unit := .ok ()
  moveBack : Except String Unit := .ok ()
  removeBackup : Except String Unit := .ok ()
  syncParent : Except String Unit := .ok ()

section

variable {α : Type}

/-! ## File operations -/

/-- The operations of a replacement that goes well. -/
inductive FileOperation where
  | writeTemporary | removeBackup | moveAway | moveIn
deriving DecidableEq, Repr

/-- What an operation does to the two files, when the temporary file holds `value`. -/
def FileOperation.apply (value : α) (directory : Directory α) : FileOperation → Directory α
  | .writeTemporary => directory
  | .removeBackup => { directory with previous := none }
  | .moveAway => { current := none, previous := directory.current }
  | .moveIn => { directory with current := some (.ok value) }

/-- The operations of a replacement that goes well. -/
def Directory.replaceOperations (directory : Directory α) : List FileOperation :=
  let stale := if directory.previous.isSome then [.removeBackup] else []
  match directory.current with
  | some _ => [.writeTemporary] ++ stale ++ [.moveAway, .moveIn, .removeBackup]
  | none => [.writeTemporary, .moveIn] ++ stale

/-- The directory after some operations. -/
def Directory.after (directory : Directory α) (value : α) (operations : List FileOperation) :
    Directory α :=
  operations.foldl (FileOperation.apply value) directory

/-! ## The replacement -/

/-- Make a file operation, if it can be made. -/
def perform (value : α) (operation : FileOperation) (outcome : Except String Unit) :
    EStateM String (Directory α) Unit := do
  check outcome
  modify fun directory => operation.apply value directory

/-- Move the backup back into place, if there is one and that can be done. -/
def Directory.restore (directory : Directory α) (outcome : Except String Unit) : Directory α :=
  match directory.previous, outcome with
  | some content, .ok () => { current := some content, previous := none }
  | _, _ => directory

/-- Remove the backup, if there is one. -/
def removeBackup (value : α) (outcome : Except String Unit) : EStateM String (Directory α) Unit := do
  if (← get).previous.isSome then
    perform value .removeBackup outcome

/-- Move the old file away, if there is one, over a backup that is removed first. -/
def moveAway (value : α) (outcomes : ReplaceOutcomes) : EStateM String (Directory α) Unit := do
  if (← get).current.isSome then
    removeBackup value outcomes.removeStale
    perform value .moveAway outcomes.moveAway

/-- Move the temporary file into place, or the backup when that fails. -/
def moveIn (value : α) (outcomes : ReplaceOutcomes) : EStateM String (Directory α) Unit :=
  match outcomes.moveIn with
  | .ok () => modify fun directory => FileOperation.moveIn.apply value directory
  | .error error => do
    modify fun directory => directory.restore outcomes.moveBack
    throw error

/-- Replace a document; the old file is set aside meanwhile. -/
def atomicJsonReplace (codec : Codec α) (value : α) (outcomes : ReplaceOutcomes) :
    EStateM String (Directory α) Unit := do
  check (rejectIf (codec.prettySize value > maxIdentityDocumentBytes)
    "registry document exceeds its size limit")
  perform value .writeTemporary outcomes.writeTemporary
  moveAway value outcomes
  moveIn value outcomes
  removeBackup value outcomes.removeBackup
  check outcomes.syncParent

/-! ## What a replacement leaves -/

variable {value : α} {outcomes : ReplaceOutcomes} {directory directory' : Directory α}

theorem run_perform_eq_ok {operation : FileOperation} {outcome : Except String Unit} :
    (perform value operation outcome).run directory = .ok () directory'
      ↔ outcome = .ok () ∧ directory' = operation.apply value directory := by
  simp only [perform, run_check_bind_eq_ok, run_modify, EStateM.Result.ok.injEq, true_and]
  exact ⟨fun ⟨_, houtcome, hdirectory⟩ => ⟨houtcome, hdirectory.symm⟩,
    fun ⟨houtcome, hdirectory⟩ => ⟨(), houtcome, hdirectory.symm⟩⟩

theorem eq_of_run_removeBackup {outcome : Except String Unit}
    (h : (removeBackup value outcome).run directory = .ok () directory') :
    directory' = { directory with previous := none } := by
  rw [removeBackup, run_get_bind] at h
  split at h
  · exact (run_perform_eq_ok.mp h).2
  · rename_i hprevious
    cases h
    rw [Bool.not_eq_true, Option.isSome_eq_false_iff, Option.isNone_iff_eq_none] at hprevious
    rw [← hprevious]

theorem eq_of_run_moveIn (h : (moveIn value outcomes).run directory = .ok () directory') :
    directory' = { directory with current := some (.ok value) } := by
  unfold moveIn at h
  split at h
  · cases h
    rfl
  · cases h

/-- After a replacement that succeeded the document is in place and there is no backup. -/
theorem eq_of_run_atomicJsonReplace {codec : Codec α}
    (h : (atomicJsonReplace codec value outcomes).run directory = .ok () directory') :
    directory' = { current := some (.ok value), previous := none } := by
  simp only [atomicJsonReplace, run_check_bind_eq_ok] at h
  obtain ⟨⟨⟩, -, h⟩ := h
  obtain ⟨⟨⟩, written, -, h⟩ := run_bind_eq_ok.mp h
  obtain ⟨⟨⟩, aside, -, h⟩ := run_bind_eq_ok.mp h
  obtain ⟨⟨⟩, placed, hplaced, h⟩ := run_bind_eq_ok.mp h
  obtain ⟨⟨⟩, cleared, hcleared, hsync⟩ := run_bind_eq_ok.mp h
  obtain ⟨-, rfl⟩ := run_check_eq_ok.mp hsync
  rw [eq_of_run_removeBackup hcleared, eq_of_run_moveIn hplaced]

/-- A replacement whose operations all succeed makes exactly those of `replaceOperations`. -/
theorem run_atomicJsonReplace_of_ok {codec : Codec α}
    (hsize : codec.prettySize value ≤ maxIdentityDocumentBytes) :
    (atomicJsonReplace codec value {}).run directory
      = .ok () (directory.after value directory.replaceOperations) := by
  obtain ⟨current, previous⟩ := directory
  rw [atomicJsonReplace, rejectIf_of_not _ (Nat.not_lt.mpr hsize)]
  cases current <;> cases previous <;> rfl

/-! ## A replacement that is interrupted -/

/-- The directory at a point where a replacement can stop: nothing was moved yet, only the old file
was moved, or the new file is in place. -/
inductive Stopped (directory : Directory α) (value : α) :
    List FileOperation → Directory α → Prop where
  | before {operations : List FileOperation} {previous : Option (FileContent α)}
      (hlast : operations.getLast? ≠ some .moveAway) (hplaced : .moveIn ∉ operations)
      (hprevious : previous = directory.previous
        ∨ previous = none ∧ directory.current.isSome) :
      Stopped directory value operations { directory with previous }
  | between {operations : List FileOperation} (hlast : operations.getLast? = some .moveAway)
      (hplaced : .moveIn ∉ operations) (hcurrent : directory.current.isSome) :
      Stopped directory value operations { current := none, previous := directory.current }
  | after {operations : List FileOperation} {previous : Option (FileContent α)}
      (hlast : operations.getLast? ≠ some .moveAway) (hplaced : .moveIn ∈ operations) :
      Stopped directory value operations { current := some (.ok value), previous }

/-- Whenever a replacement stops, it stops at one of these points. -/
theorem stopped_after_take (directory : Directory α) (value : α) (stopped : Nat) :
    Stopped directory value (directory.replaceOperations.take stopped)
      (directory.after value (directory.replaceOperations.take stopped)) := by
  obtain ⟨current, previous⟩ := directory
  -- a replacement has at most five operations, so every cut is one of six
  obtain ⟨cut, hcut, htake⟩ : ∃ cut ≤ 5,
      (Directory.replaceOperations ⟨current, previous⟩).take stopped
        = (Directory.replaceOperations ⟨current, previous⟩).take cut := by
    by_cases hstopped : stopped ≤ 5
    · exact ⟨stopped, hstopped, rfl⟩
    · refine ⟨5, le_rfl, ?_⟩
      have hlength : (Directory.replaceOperations ⟨current, previous⟩).length ≤ 5 := by
        cases current <;> cases previous <;> simp [Directory.replaceOperations]
      rw [List.take_of_length_le (by omega), List.take_of_length_le hlength]
  rw [htake]
  -- before the first move, between the moves, or after the second
  cases current <;> cases previous <;> interval_cases cut <;> first
    | exact .before (by simp [Directory.replaceOperations]) (by simp [Directory.replaceOperations])
        (.inl rfl)
    | exact .before (by simp [Directory.replaceOperations]) (by simp [Directory.replaceOperations])
        (.inr ⟨rfl, rfl⟩)
    | exact .between rfl (by simp [Directory.replaceOperations]) rfl
    | exact .after (by simp [Directory.replaceOperations]) (by simp [Directory.replaceOperations])

end

end CartridgeRuntime.Identity
