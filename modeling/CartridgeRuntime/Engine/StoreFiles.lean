import CartridgeRuntime.Engine.Store

/-!
# The files of the engine

Each stack has a directory with the files of its events, of its archived rollouts and of two
documents that are replaced as a whole. A new file is written under a temporary name and then
linked, and a document is set aside while it is replaced. The operations of a call are the changes
that it makes to these directories, so that a call that is stopped leaves the first of them.
-/

namespace CartridgeRuntime.Engine

open Checked CartridgeRuntime.Core Encoding Durable Std

/-- A document that is replaced as a whole, with the copy that is set aside meanwhile. -/
structure ReplacedFile where
  current : Option (List UInt8) := none
  previous : Option (List UInt8) := none

/-- A file that is replaced as a whole. -/
inductive Document where
  | rollout
  | progress
deriving DecidableEq

/-- The directory of a stack. Events are filed by revision and archived rollouts by identity. -/
structure StackDirectory where
  events : ExtTreeMap Nat (List UInt8) := ∅
  archive : List (String × List UInt8) := []
  temporaries : List (List UInt8) := []
  rollout : ReplacedFile := {}
  progress : ReplacedFile := {}

/-- The directory of each stack. -/
structure EngineStore where
  directories : ExtTreeMap String StackDirectory := ∅

/-- A change of a directory that happens at once. -/
inductive DirectoryOperation where
  | createDirectory
  | writeTemporary (bytes : List UInt8)
  | removeTemporary (bytes : List UInt8)
  | linkEvent (revision : Nat) (bytes : List UInt8)
  | linkRollout (rolloutId : String) (bytes : List UInt8)
  | setAside (document : Document)
  | place (document : Document) (bytes : List UInt8)
  | dropPrevious (document : Document)
  | restore (document : Document)
  | removeFile (document : Document)

/-- A change of the directory of a stack. -/
structure StoreOperation where
  stack : String
  operation : DirectoryOperation

namespace StackDirectory

/-- The file of a document. -/
def file (directory : StackDirectory) : Document → ReplacedFile
  | .rollout => directory.rollout
  | .progress => directory.progress

/-- Put a file in the place of a document. -/
def setFile (directory : StackDirectory) (document : Document) (file : ReplacedFile) :
    StackDirectory :=
  match document with
  | .rollout => { directory with rollout := file }
  | .progress => { directory with progress := file }

/-- The directory after an operation. -/
def apply (directory : StackDirectory) : DirectoryOperation → StackDirectory
  | .createDirectory => directory
  | .writeTemporary bytes => { directory with temporaries := bytes :: directory.temporaries }
  | .removeTemporary bytes => { directory with temporaries := directory.temporaries.erase bytes }
  | .linkEvent revision bytes => { directory with events := directory.events.insert revision bytes }
  | .linkRollout rolloutId bytes =>
    { directory with archive := directory.archive ++ [(rolloutId, bytes)] }
  | .setAside document =>
    directory.setFile document ⟨none, (directory.file document).current⟩
  | .place document bytes =>
    { directory.setFile document ⟨some bytes, (directory.file document).previous⟩ with
      temporaries := directory.temporaries.erase bytes }
  | .dropPrevious document =>
    directory.setFile document ⟨(directory.file document).current, none⟩
  | .restore document => directory.setFile document ⟨(directory.file document).previous, none⟩
  | .removeFile document =>
    directory.setFile document ⟨none, (directory.file document).previous⟩

end StackDirectory

namespace EngineStore

/-- The directory of a stack. One that does not exist reads as an empty one. -/
def directory (store : EngineStore) (stack : String) : StackDirectory :=
  store.directories[stack]?.getD {}

instance : Acts EngineStore StoreOperation where
  act store operation :=
    ⟨store.directories.insert operation.stack
      ((store.directory operation.stack).apply operation.operation)⟩

end EngineStore

/-! ## Reading -/

section

variable [HexCodec] [Sha256] [Semver]

/-- The event continues the journal that ends with the given event. -/
def EngineEvent.follows (event : EngineEvent) (previous : Option EngineEvent) : Bool :=
  event.revision = previous.elim 1 (·.revision + 1)
    ∧ event.previousEventSha256 = previous.elim "" EngineEvent.eventSha256

/-- Read an event that is not too long. -/
def readBoundedJson [FromJson EngineEvent] (bytes : List UInt8) (remaining : Nat) :
    Except EngineError (EngineEvent × Nat) := do
  rejectIf (bytes.length > min maxEngineEventBytes remaining) .eventUnbounded
  let event ← nested (fromSlice bytes)
  pure (event, bytes.length)

/-- Read the next file of a journal. -/
def readEvent [FromJson EngineEvent] (stack : String) (read : List EngineEvent × Nat)
    (file : Nat × List UInt8) : Except EngineError (List EngineEvent × Nat) := do
  let remaining ← okOr (checkedSub maxEngineEventHistoryBytes read.2) .eventBytesExceeded
  let (event, eventBytes) ← readBoundedJson file.2 remaining
  let totalBytes ← okOr (checkedAdd read.2 eventBytes) .eventBytesOverflow
  nested event.validate
  rejectIf (event.stack ≠ stack ∨ ¬ event.follows read.1.getLast?
      ∨ file.1 ≠ event.revision.toNat)
    .chainInvalid
  pure (read.1 ++ [event], totalBytes)

/-- The events of a journal, and the bytes of their files. -/
def readEventsWithSize [FromJson EngineEvent] (files : ExtTreeMap Nat (List UInt8))
    (stack : String) : Except EngineError (List EngineEvent × Nat) := do
  rejectIf (files.size > maxEngineEventsPerStack) .eventHistoryExceeded
  files.toList.foldlM (readEvent stack) ([], 0)

/-- Read a checkpoint. -/
def readRolloutFile [FromJson RolloutRecord] (bytes : List UInt8) :
    Except EngineError RolloutRecord := do
  rejectIf (bytes.length > maxRolloutBytes) .rolloutUnbounded
  let record ← nested (fromSlice bytes)
  nested record.validate
  pure record

/-- Read the progress of a rollout. -/
def readProgressFile [FromJson RolloutProgress] (bytes : List UInt8) :
    Except EngineError RolloutProgress := do
  rejectIf (bytes.length > maxRolloutProgressBytes) .progressUnbounded
  let progress ← nested (fromSlice bytes)
  nested progress.validate
  pure progress

end

/-! ## Writing -/

/-- A computation on the files of the engine. -/
abbrev Filing (α : Type) : Type := Durable EngineStore StoreOperation EngineError α

/-- Change the directory of a stack. -/
def change (stack : String) (operation : DirectoryOperation) : Filing Unit :=
  perform ⟨stack, operation⟩

/-- Write a file that must not exist yet. -/
def writeNewAtomic (stack : String) (bytes : List UInt8) (taken : StackDirectory → Bool)
    (link : DirectoryOperation) : Filing Unit := do
  change stack (.writeTemporary bytes)
  let taken ← inspect fun store => taken (store.directory stack)
  if taken then do
    change stack (.removeTemporary bytes)
    check (.error .fileExists)
  else do
    change stack link
    change stack (.removeTemporary bytes)

/-- Replace a document; the old one is set aside meanwhile. -/
def writeReplaceAtomic (stack : String) (document : Document) (bytes : List UInt8) :
    Filing Unit := do
  change stack .createDirectory
  change stack (.writeTemporary bytes)
  let file ← inspect fun store => (store.directory stack).file document
  match file with
  | ⟨none, _⟩ => change stack (.place document bytes)
  | ⟨some _, some _⟩ => do
    change stack (.removeTemporary bytes)
    check (.error .replacementInProgress)
  | ⟨some _, none⟩ => do
    change stack (.setAside document)
    change stack (.place document bytes)
    change stack (.dropPrevious document)

/-- Undo or finish the interrupted replacement of a document. -/
def recoverFile {α : Type} (stack : String) (document : Document)
    (readFile : List UInt8 → Except EngineError α) : Filing Unit := do
  let file ← inspect fun store => (store.directory stack).file document
  match file with
  | ⟨none, some bytes⟩ => do
    let _ ← check (readFile bytes)
    change stack (.restore document)
  | ⟨some bytes, some _⟩ => do
    let _ ← check (readFile bytes)
    change stack (.dropPrevious document)
  | ⟨_, none⟩ => pure ()

/-- The document after its recovery. -/
def recoveredFile {α : Type} (stack : String) (document : Document)
    (readFile : List UInt8 → Except EngineError α) : Filing (Option α) := do
  recoverFile stack document readFile
  let file ← inspect fun store => (store.directory stack).file document
  match file.current with
  | none => pure none
  | some bytes => do
    let value ← check (readFile bytes)
    pure (some value)

section

variable [HexCodec] [Sha256] [Semver] [FromJson EngineEvent] [FromJson RolloutRecord]
  [FromJson RolloutProgress]

/-- The document of an event that continues a journal within its limits. -/
def continueJournal (files : ExtTreeMap Nat (List UInt8)) (event : EngineEvent) :
    Except EngineError (List UInt8) := do
  let (current, currentBytes) ← readEventsWithSize files event.stack
  rejectIf (current.length ≥ maxEngineEventsPerStack) .eventHistoryReached
  rejectIf (¬ event.follows current.getLast?) .eventDiscontinuous
  let bytes := encode event
  rejectIf (bytes.length > maxEngineEventBytes) .eventTooLarge
  rejectIf ((checkedAdd currentBytes bytes.length).all (· > maxEngineEventHistoryBytes))
    .eventBytesReached
  pure bytes

/-- Add an event to the journal of its stack. -/
def appendFile (event : EngineEvent) : Filing Unit := do
  check (nested event.validate)
  check (requireName event.stack)
  change event.stack .createDirectory
  let bytes ← consult fun store => continueJournal (store.directory event.stack).events event
  writeNewAtomic event.stack bytes (·.events.contains event.revision.toNat)
    (.linkEvent event.revision.toNat bytes)

/-- Count the bytes of an archived file. -/
def scanArchive (totalBytes : Nat) (file : String × List UInt8) : Except EngineError Nat := do
  rejectIf (¬ isDigest file.1 ∨ file.2.length > maxRolloutBytes) .archiveUnexpected
  okOr (checkedAdd totalBytes file.2.length) .archiveBytesOverflow

/-- The document to add to an archive, unless it is there already. -/
def archiveEntry (archive : List (String × List UInt8)) (record : RolloutRecord) :
    Except EngineError (Option (List UInt8)) := do
  let totalBytes ← archive.foldlM scanArchive 0
  match archive.lookup record.rolloutId with
  | some bytes => do
    let archived ← readRolloutFile bytes
    rejectIf (archived ≠ record) .archiveCollision
    pure none
  | none => do
    let bytes := encode record
    rejectIf (archive.length ≥ maxRolloutHistory
        ∨ (checkedAdd totalBytes bytes.length).all (· > maxRolloutHistoryBytes))
      .archiveFull
    pure (some bytes)

/-- Add a rollout that has ended to the archive of its stack. -/
def archiveFile (record : RolloutRecord) : Filing Unit := do
  check (rejectIf (¬ record.terminal) .archiveActive)
  change record.stack .createDirectory
  let entry ← consult fun store => archiveEntry (store.directory record.stack).archive record
  match entry with
  | none => pure ()
  | some bytes =>
    writeNewAtomic record.stack bytes
      (fun directory => (directory.archive.lookup record.rolloutId).isSome)
      (.linkRollout record.rolloutId bytes)

instance : StackStore EngineStore StoreOperation where
  names store := store.directories.keys
  readEvents store stack := do
    let (events, _) ← readEventsWithSize (store.directory stack).events stack
    pure events
  append := appendFile
  rolloutFile stack := recoveredFile stack .rollout readRolloutFile
  writeRolloutFile stack record := do
    check (requireName stack)
    check (nested record.validate)
    check (rejectIf ((encode record).length > maxRolloutBytes) .rolloutTooLarge)
    writeReplaceAtomic stack .rollout (encode record)
  archiveRollout := archiveFile
  progressFile stack := recoveredFile stack .progress readProgressFile
  recoverProgressFile stack := recoverFile stack .progress readProgressFile
  writeProgressFile stack progress := do
    check (requireName stack)
    check (nested progress.validate)
    check (rejectIf ((encode progress).length > maxRolloutProgressBytes) .progressTooLarge)
    writeReplaceAtomic stack .progress (encode progress)
  removeProgressFile stack := change stack (.removeFile .progress)

end

end CartridgeRuntime.Engine
