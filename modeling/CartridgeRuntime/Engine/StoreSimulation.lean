import CartridgeRuntime.Engine.Checkpoint
import CartridgeRuntime.Engine.StoreView

/-!
# The files agree with the view

The directories of the engine hold what a view says in every state, also in one that an
interrupted call left. `EngineCall.simulates` is the result: a call on files returns what the call
on views returns, and where it is stopped the call on views can be stopped.
-/

namespace CartridgeRuntime.Engine

open Checked CartridgeRuntime.Core Encoding Durable
open Std (ExtTreeMap)

/-- The contents of a document, from the copy that is set aside while it is replaced. -/
def ReplacedFile.contents (file : ReplacedFile) : Option (List UInt8) :=
  file.current.or file.previous

/-- The contents of a document of a view. -/
def StackView.contents (view : StackView) : Document → Option (List UInt8)
  | .rollout => view.checkpoint.map encode
  | .progress => view.progress.map encode

variable [HexCodec] [Sha256] [Semver]

/-- The directory of a stack holds what a view says. -/
structure Represents [FromJson EngineEvent] (stack : String) (directory : StackDirectory)
    (view : StackView) : Prop where
  journal :
    readEventsWithSize directory.events stack = .ok (view.journal, journalSize view.journal)
  contents : ∀ document, (directory.file document).contents = view.contents document
  checkpoint_valid : ∀ record ∈ view.checkpoint, record.validate = .ok ()
  progress_valid : ∀ progress ∈ view.progress, progress.validate = .ok ()
    ∧ (encode progress).length ≤ maxRolloutProgressBytes
  archive : directory.archive = view.archive.map fun record => (record.rolloutId, encode record)
  archive_valid : ∀ record ∈ view.archive, record.validate = .ok ()
  archive_size : archiveSize view.archive ≤ maxRolloutHistoryBytes

/-- The directories of the engine hold what a view says. -/
structure Agrees [FromJson EngineEvent] (store : EngineStore) (engine : EngineView) : Prop where
  mem_iff : ∀ stack, stack ∈ store.directories ↔ stack ∈ engine.views
  name_valid : ∀ stack ∈ store.directories, validName stack
  represents : ∀ stack, Represents stack (store.directory stack) (engine.view stack)

section

omit [HexCodec] [Sha256] [Semver]

theorem EngineStore.directory_act (store : EngineStore) (operation : StoreOperation)
    (stack : String) : (act store operation).directory stack = if operation.stack = stack
      then (store.directory operation.stack).apply operation.operation
      else store.directory stack := by
  show (store.directories.insert _ _)[stack]?.getD {} = _
  rw [TreeMap.getElem?_insert']
  split
  · rfl
  · rfl

theorem EngineStore.mem_act {store : EngineStore} {operation : StoreOperation} {stack : String} :
    stack ∈ (act store operation).directories
      ↔ operation.stack = stack ∨ stack ∈ store.directories := by
  show stack ∈ store.directories.insert _ _ ↔ _
  rw [ExtTreeMap.mem_insert, compare_eq_iff_eq]

end

variable {change : StackChange} {document : Document} {file : ReplacedFile} {bytes : List UInt8}
    {documents : Document → Prop} {α : Type} {readFile : List UInt8 → Except EngineError α}
    {record : RolloutRecord} {archive : List RolloutRecord}

section

variable [FromJson EngineEvent] {store : EngineStore} {engine : EngineView} {stack : String}
  {directory : StackDirectory} {view : StackView}

theorem Represents.empty : Represents stack {} {} where
  journal := rfl
  contents document := by cases document <;> rfl
  checkpoint_valid := by simp
  progress_valid := by simp
  archive := rfl
  archive_valid := by simp
  archive_size := Nat.zero_le _

/-- An engine without stacks. -/
theorem Agrees.empty : Agrees {} {} where
  mem_iff _ := by simp
  name_valid _ h := by simp at h
  represents _ := .empty

/-- A change of a directory that is a change of the view. -/
theorem Agrees.step {operation : DirectoryOperation} (h : Agrees store engine)
    (hname : validName stack)
    (hrepresents : Represents stack ((store.directory stack).apply operation)
      ((engine.view stack).apply change)) :
    Agrees (act store ⟨stack, operation⟩) (act engine ⟨stack, change⟩) where
  mem_iff name := by rw [EngineStore.mem_act, EngineView.mem_act, h.mem_iff]
  name_valid name hmem := by
    rcases EngineStore.mem_act.mp hmem with heq | hmem
    · exact heq ▸ hname
    · exact h.name_valid name hmem
  represents name := by
    rw [EngineStore.directory_act, EngineView.view_act]
    by_cases heq : stack = name
    · subst heq
      simpa using hrepresents
    · simpa [heq] using h.represents name

/-- A change of a directory that the view does not show. -/
theorem Agrees.quiet {operation : DirectoryOperation} (h : Agrees store engine)
    (hmem : stack ∈ store.directories)
    (hrepresents : Represents stack ((store.directory stack).apply operation)
      (engine.view stack)) : Agrees (act store ⟨stack, operation⟩) engine where
  mem_iff name := by
    rw [EngineStore.mem_act, h.mem_iff]
    exact or_iff_right_of_imp fun heq => (h.mem_iff _).mp (heq ▸ hmem)
  name_valid name hmem' := by
    rcases EngineStore.mem_act.mp hmem' with heq | hmem'
    · exact heq ▸ h.name_valid stack hmem
    · exact h.name_valid name hmem'
  represents name := by
    rw [EngineStore.directory_act]
    by_cases heq : stack = name
    · subst heq
      simpa using hrepresents
    · simpa [heq] using h.represents name

/-! ## Documents -/

section

omit [HexCodec] [Sha256] [Semver] [FromJson EngineEvent]

theorem StackDirectory.file_setFile (directory : StackDirectory) (document other : Document)
    (file : ReplacedFile) : (directory.setFile document file).file other
      = if document = other then file else directory.file other := by
  cases document <;> cases other <;> rfl

theorem StackView.contents_append (view : StackView) (event : EngineEvent) (document : Document) :
    (view.apply (.append event)).contents document = view.contents document := by
  cases document <;> rfl

end

/-- Moving a document does not change its contents. -/
theorem Represents.setFile (h : Represents stack directory view)
    (hcontents : file.contents = (directory.file document).contents) :
    Represents stack (directory.setFile document file) view where
  __ := h
  journal := by cases document <;> exact h.journal
  contents other := by
    rw [StackDirectory.file_setFile]
    split
    · rename_i heq
      rw [hcontents, heq, h.contents]
    · exact h.contents other
  archive := by cases document <;> exact h.archive

theorem Represents.setTemporaries (h : Represents stack directory view)
    (temporaries : List (List UInt8)) : Represents stack { directory with temporaries } view where
  __ := h
  contents document := by
    rw [← h.contents document]
    cases document <;> rfl

/-- These documents of a stack are not being replaced. -/
def Clean (stack : String) (documents : Document → Prop) (store : EngineStore) (_ : EngineView) :
    Prop :=
  ∀ document, documents document → ((store.directory stack).file document).previous = none

section

omit [HexCodec] [Sha256] [Semver] [FromJson EngineEvent]

@[simp] theorem EngineStore.directory_change (store : EngineStore) (stack : String)
    (operation : DirectoryOperation) : (act store ⟨stack, operation⟩).directory stack
      = (store.directory stack).apply operation := by
  rw [EngineStore.directory_act, if_pos rfl]

@[simp] theorem StackDirectory.apply_createDirectory (directory : StackDirectory) :
    directory.apply .createDirectory = directory :=
  rfl

@[simp] theorem StackDirectory.file_writeTemporary (directory : StackDirectory)
    (bytes : List UInt8) (document : Document) :
    (directory.apply (.writeTemporary bytes)).file document = directory.file document := by
  cases document <;> rfl

@[simp] theorem StackDirectory.file_setAside (directory : StackDirectory)
    (document other : Document) : (directory.apply (.setAside document)).file other
      = if document = other then ⟨none, (directory.file document).current⟩ else directory.file other :=
  directory.file_setFile document other _

@[simp] theorem StackDirectory.file_dropPrevious (directory : StackDirectory)
    (document other : Document) : (directory.apply (.dropPrevious document)).file other
      = if document = other then ⟨(directory.file document).current, none⟩ else directory.file other :=
  directory.file_setFile document other _

@[simp] theorem StackDirectory.file_removeFile (directory : StackDirectory)
    (document other : Document) : (directory.apply (.removeFile document)).file other
      = if document = other then ⟨none, (directory.file document).previous⟩ else directory.file other :=
  directory.file_setFile document other _

@[simp] theorem StackDirectory.file_place (directory : StackDirectory) (bytes : List UInt8)
    (document other : Document) : (directory.apply (.place document bytes)).file other
      = if document = other then ⟨some bytes, (directory.file document).previous⟩
        else directory.file other := by
  cases document <;> cases other <;> rfl

end

end

/-! ## Operations on one directory -/

instance : Acts StackDirectory DirectoryOperation := ⟨StackDirectory.apply⟩

instance : Acts StackView StackChange := ⟨StackView.apply⟩

section

omit [HexCodec] [Sha256] [Semver]

@[simp] theorem StackDirectory.act_eq (directory : StackDirectory)
    (operation : DirectoryOperation) : act directory operation = directory.apply operation :=
  rfl

@[simp] theorem StackView.act_eq (view : StackView) (change : StackChange) :
    act view change = view.apply change :=
  rfl

theorem EngineStore.directory_after (store : EngineStore) (stack : String)
    (operations : List DirectoryOperation) :
    (after store (operations.map (StoreOperation.mk stack))).directory stack
      = after (store.directory stack) operations := by
  induction operations generalizing store with
  | nil => rfl
  | cons operation operations ih =>
    rw [List.map_cons, after_cons, ih, EngineStore.directory_change]
    rfl

theorem EngineStore.directory_after_of_ne (store : EngineStore) {stack other : String}
    (hne : stack ≠ other) (operations : List DirectoryOperation) :
    (after store (operations.map (StoreOperation.mk stack))).directory other
      = store.directory other := by
  induction operations generalizing store with
  | nil => rfl
  | cons operation operations ih =>
    rw [List.map_cons, after_cons, ih, EngineStore.directory_act, if_neg hne]

theorem EngineView.view_after (engine : EngineView) (stack : String)
    (changes : List StackChange) :
    (after engine (changes.map (ViewOperation.mk stack))).view stack
      = after (engine.view stack) changes := by
  induction changes generalizing engine with
  | nil => rfl
  | cons change changes ih =>
    rw [List.map_cons, after_cons, ih, EngineView.view_act, if_pos rfl]
    rfl

end

variable [FromJson EngineEvent] {stack : String}

/-- Operations on the directory of a stack agree with changes of its view as a whole. -/
theorem Agrees.tracks {store : EngineStore} {engine : EngineView}
    {operations : List DirectoryOperation} {changes : List StackChange} (h : Agrees store engine)
    (hmem : stack ∈ store.directories)
    (htracks : Tracks (Represents stack) (store.directory stack) operations (engine.view stack)
      changes) :
    Tracks Agrees store (operations.map (StoreOperation.mk stack)) engine
      (changes.map (ViewOperation.mk stack)) := by
  generalize hdirectory : store.directory stack = directory at htracks
  generalize hview : engine.view stack = view at htracks
  induction htracks generalizing store engine with
  | done d v _ => exact .done _ _ h
  | quiet d v operation rest changes _ hrest ih =>
    have hnext : Represents stack ((store.directory stack).apply operation)
        (engine.view stack) := hdirectory ▸ hview ▸ hrest.first
    refine .quiet _ _ _ _ _ h (ih (h.quiet hmem hnext) (EngineStore.mem_act.mpr (.inl rfl))
      ?_ hview)
    rw [EngineStore.directory_change, hdirectory]
    rfl
  | step d v operation rest change changes _ hrest ih =>
    have hnext : Represents stack ((store.directory stack).apply operation)
        ((engine.view stack).apply change) := hdirectory ▸ hview ▸ hrest.first
    refine .step _ _ _ _ _ _ h (ih (h.step (h.name_valid stack hmem) hnext)
      (EngineStore.mem_act.mpr (.inl rfl)) ?_ ?_)
    · rw [EngineStore.directory_change, hdirectory]
      rfl
    · rw [EngineView.view_act, if_pos rfl, hview]
      rfl

/-- The same, when the directory is created first. -/
theorem Agrees.tracks_created {store : EngineStore} {engine : EngineView}
    {operations : List DirectoryOperation} {changes : List StackChange} (h : Agrees store engine)
    (hname : validName stack)
    (htracks : Tracks (Represents stack) (store.directory stack) operations (engine.view stack)
      changes) :
    Tracks Agrees store ((.createDirectory :: operations).map (StoreOperation.mk stack)) engine
      ((.create :: changes).map (ViewOperation.mk stack)) := by
  have hcreated : Agrees (act store ⟨stack, .createDirectory⟩) (act engine ⟨stack, .create⟩) :=
    h.step hname (h.represents stack)
  refine .step _ _ _ _ _ _ h (hcreated.tracks (EngineStore.mem_act.mpr (.inl rfl)) ?_)
  rw [EngineStore.directory_change, EngineView.view_act, if_pos rfl]
  exact htracks

/-! ## Replacing a document -/

/-- How a document that is not being replaced is replaced. -/
def replaceOperations (current : Option (List UInt8)) (document : Document) (bytes : List UInt8) :
    List DirectoryOperation :=
  match current with
  | none => [.writeTemporary bytes, .place document bytes]
  | some _ =>
    [.writeTemporary bytes, .setAside document, .place document bytes, .dropPrevious document]

omit [HexCodec] [Sha256] [Semver] [FromJson EngineEvent] in
theorem writeReplaceAtomic_run {store : EngineStore}
    (hprevious : ((store.directory stack).file document).previous = none) :
    writeReplaceAtomic stack document bytes store = ⟨(.createDirectory :: replaceOperations
      ((store.directory stack).file document).current document bytes).map (StoreOperation.mk stack),
      .ok ()⟩ := by
  obtain ⟨file, hfile⟩ : ∃ file, (store.directory stack).file document = file := ⟨_, rfl⟩
  rw [hfile] at hprevious ⊢
  obtain ⟨_ | old, _⟩ := file <;> cases hprevious <;>
    simp [writeReplaceAtomic, change, replaceOperations, hfile]

/-- Replacing a document changes the view in one step, wherever it is stopped. -/
theorem tracks_replaceOperations {directory : StackDirectory} {view : StackView}
    (h : Represents stack directory view)
    (hchange : ∀ directory, Represents stack directory view → ∀ file : ReplacedFile,
      file.current = some bytes →
      Represents stack (directory.setFile document file) (view.apply change)) :
    Tracks (Represents stack) directory
      (replaceOperations (directory.file document).current document bytes) view [change] := by
  have hplaced : ∀ directory, Represents stack directory view →
      Represents stack (directory.apply (.place document bytes)) (view.apply change) :=
    fun directory h => (hchange directory h _ rfl).setTemporaries _
  have hwritten : Represents stack (directory.apply (.writeTemporary bytes)) view :=
    h.setTemporaries _
  obtain ⟨current, hcurrent⟩ : ∃ current, (directory.file document).current = current := ⟨_, rfl⟩
  rw [hcurrent]
  cases current with
  | none =>
    -- there is no document yet: the new one is put in its place
    exact .quiet _ _ _ _ _ h (.step _ _ _ _ _ _ hwritten (.done _ _ (hplaced _ hwritten)))
  | some old =>
    have haside : Represents stack ((directory.apply (.writeTemporary bytes)).apply
        (.setAside document)) view := by
      refine hwritten.setFile ?_
      simp [ReplacedFile.contents, hcurrent]
    refine .quiet _ _ _ _ _ h (.quiet _ _ _ _ _ hwritten (.step _ _ _ _ _ _ haside
      (.quiet _ _ _ _ _ (hplaced _ haside) (.done _ _ ?_))))
    refine (hplaced _ haside).setFile ?_
    simp [ReplacedFile.contents]

omit [HexCodec] [Sha256] [Semver] [FromJson EngineEvent] in
theorem previous_replaceOperations {directory : StackDirectory}
    (hprevious : (directory.file document).previous = none) (other : Document) :
    ((after directory (replaceOperations (directory.file document).current document bytes)).file
      other).previous = (directory.file other).previous := by
  obtain ⟨current, hcurrent⟩ : ∃ current, (directory.file document).current = current := ⟨_, rfl⟩
  rw [hcurrent]
  by_cases heq : document = other
  · subst heq
    cases current <;> simp [replaceOperations, hprevious]
  · cases current <;> simp [replaceOperations, heq]

theorem simulates_writeReplaceAtomic (hname : validName stack) (hdocument : documents document)
    (hchange : ∀ directory view, Represents stack directory view → ∀ file : ReplacedFile,
      file.current = some bytes →
      Represents stack (directory.setFile document file) (view.apply change)) :
    Simulates Agrees (Clean stack documents) (writeReplaceAtomic stack document bytes)
      (do keep stack .create; keep stack change) fun _ => Clean stack documents := by
  intro s t hagrees hclean
  have hprevious := hclean document hdocument
  rw [writeReplaceAtomic_run hprevious]
  refine ⟨rfl, hagrees.tracks_created hname (tracks_replaceOperations (hagrees.represents stack)
    fun directory h => hchange directory _ h), fun _ _ other hother => ?_⟩
  rw [EngineStore.directory_after, after_cons]
  exact (previous_replaceOperations hprevious other).trans (hclean other hother)

/-! ## Reading a document -/

omit [HexCodec] [Sha256] [Semver] [FromJson EngineEvent] in
theorem EngineStore.mem_of_file {store : EngineStore}
    (h : (store.directory stack).file document ≠ {}) : stack ∈ store.directories := by
  rw [ExtTreeMap.mem_iff_isSome_getElem?, Option.isSome_iff_ne_none]
  intro hnone
  apply h
  rw [EngineStore.directory, hnone]
  cases document <;> rfl

/-- How the interrupted replacement of a document is undone or finished. -/
def recoverOperations (file : ReplacedFile) (document : Document) : List DirectoryOperation :=
  match file with
  | ⟨none, some _⟩ => [.restore document]
  | ⟨some _, some _⟩ => [.dropPrevious document]
  | ⟨_, none⟩ => []

section

omit [HexCodec] [Sha256] [Semver] [FromJson EngineEvent]

theorem after_recoverOperations (directory : StackDirectory) (document : Document) :
    after directory (recoverOperations (directory.file document) document)
      = directory.setFile document ⟨(directory.file document).contents, none⟩ := by
  obtain ⟨file, hfile⟩ : ∃ file, directory.file document = file := ⟨_, rfl⟩
  rw [hfile]
  obtain ⟨_ | current, _ | previous⟩ := file <;>
    cases document <;> cases directory <;> cases hfile <;> rfl

theorem recoverFile_run {store : EngineStore} {value : Option α}
    (hread : ((store.directory stack).file document).contents.map readFile = value.map .ok) :
    recoverFile stack document readFile store = ⟨(recoverOperations
      ((store.directory stack).file document) document).map (StoreOperation.mk stack),
      .ok ()⟩ := by
  obtain ⟨file, hfile⟩ : ∃ file, (store.directory stack).file document = file := ⟨_, rfl⟩
  rw [hfile] at hread ⊢
  obtain ⟨_ | current, _ | previous⟩ := file <;> cases value <;>
    simp [ReplacedFile.contents] at hread <;>
    simp [recoverFile, change, recoverOperations, hfile, hread]

theorem recoveredFile_run {store : EngineStore} {value : Option α}
    (hread : ((store.directory stack).file document).contents.map readFile = value.map .ok) :
    recoveredFile stack document readFile store = ⟨(recoverOperations
      ((store.directory stack).file document) document).map (StoreOperation.mk stack),
      .ok value⟩ := by
  rw [recoveredFile, bind_ok (recoverFile_run hread), inspect_bind, EngineStore.directory_after,
    after_recoverOperations, StackDirectory.file_setFile, if_pos rfl]
  cases hcontents : ((store.directory stack).file document).contents with
  | none =>
    rw [hcontents] at hread
    cases value with
    | none => simp
    | some value => cases hread
  | some bytes =>
    rw [hcontents] at hread
    cases value with
    | none => cases hread
    | some value =>
      have hbytes : readFile bytes = .ok value := Option.some.inj hread
      simp [hbytes]

end

theorem tracks_recoverOperations {directory : StackDirectory} {view : StackView}
    (h : Represents stack directory view) (document : Document) :
    Tracks (Represents stack) directory
      (recoverOperations (directory.file document) document) view [] := by
  have hlast : Represents stack (after directory
      (recoverOperations (directory.file document) document)) view := by
    rw [after_recoverOperations]
    exact h.setFile (by simp [ReplacedFile.contents])
  revert hlast
  unfold recoverOperations
  split
  · exact fun hlast => .quiet _ _ _ _ _ h (.done _ _ hlast)
  · exact fun hlast => .quiet _ _ _ _ _ h (.done _ _ hlast)
  · exact fun hlast => .done _ _ hlast

/-- What undoes or finishes the replacement of a document and changes nothing else. -/
theorem simulates_recovery {β : Type} {program : Filing β} {value : EngineView → β}
    (hrun : ∀ s t, Agrees s t → program s = ⟨(recoverOperations ((s.directory stack).file document)
      document).map (StoreOperation.mk stack), .ok (value t)⟩) :
    Simulates Agrees (Clean stack documents) program (inspect value) fun read s t =>
      Clean stack (fun other => documents other ∨ other = document) s t ∧ read = value t := by
  intro s t hagrees hclean
  rw [hrun s t hagrees]
  have htracks : Tracks Agrees s ((recoverOperations ((s.directory stack).file document)
      document).map (StoreOperation.mk stack)) t ([].map (ViewOperation.mk stack)) := by
    by_cases hfile : (s.directory stack).file document = {}
    · rw [hfile]
      exact .done _ _ hagrees
    · exact hagrees.tracks (EngineStore.mem_of_file hfile)
        (tracks_recoverOperations (hagrees.represents stack) document)
  refine ⟨rfl, htracks, fun _ hresult => ⟨fun other hother => ?_, (Except.ok.inj hresult).symm⟩⟩
  rw [EngineStore.directory_after, after_recoverOperations, StackDirectory.file_setFile]
  split
  · rfl
  · rename_i hne
    exact hclean other (hother.resolve_right (Ne.symm hne))

/-! ## Adding a file -/

omit [HexCodec] [Sha256] [Semver] [FromJson EngineEvent] in
/-- Operations that leave the documents of a directory alone. -/
theorem Clean.after {name : String} {documents : Document → Prop} {s : EngineStore}
    {t t' : EngineView} (h : Clean name documents s t) (operations : List DirectoryOperation)
    (hfile : ∀ (directory : StackDirectory) (document : Document),
      (after directory operations).file document = directory.file document) :
    Clean name documents (after s (operations.map (StoreOperation.mk stack))) t' := by
  intro document hdocument
  by_cases heq : stack = name
  · subst heq
    rw [EngineStore.directory_after, hfile]
    exact h document hdocument
  · rw [EngineStore.directory_after_of_ne _ heq]
    exact h document hdocument

/-- How a new file is written. -/
def linkOperations (bytes : List UInt8) (link : DirectoryOperation) : List DirectoryOperation :=
  [.writeTemporary bytes, link, .removeTemporary bytes]

variable {link : DirectoryOperation} {name : String}

omit [HexCodec] [Sha256] [Semver] [FromJson EngineEvent] in
theorem writeNewAtomic_run {store : EngineStore} {taken : StackDirectory → Bool}
    (hfree : taken ((store.directory stack).apply (.writeTemporary bytes)) = false) :
    writeNewAtomic stack bytes taken link store
      = ⟨(linkOperations bytes link).map (StoreOperation.mk stack), .ok ()⟩ := by
  simp [writeNewAtomic, change, linkOperations, hfree]

theorem tracks_linkOperations {directory : StackDirectory} {view : StackView}
    (h : Represents stack directory view)
    (hchange : Represents stack ((directory.apply (.writeTemporary bytes)).apply link)
      (view.apply change)) :
    Tracks (Represents stack) directory (linkOperations bytes link) view [change] :=
  .quiet _ _ _ _ _ h (.step _ _ _ _ _ _ (h.setTemporaries _)
    (.quiet _ _ _ _ _ hchange (.done _ _ (hchange.setTemporaries _))))

theorem simulates_create (hname : validName stack) :
    Simulates Agrees (Clean name documents) (Engine.change stack .createDirectory)
      (keep stack .create) fun _ s t => Clean name documents s t ∧ stack ∈ s.directories :=
  fun _ _ hagrees hclean =>
    ⟨rfl, hagrees.tracks_created hname (.done _ _ (hagrees.represents stack)), fun _ _ =>
      ⟨hclean.after [.createDirectory] fun _ _ => rfl, EngineStore.mem_act.mpr (.inl rfl)⟩⟩

/-- Adding a file changes the view in one step, when its name is free. -/
theorem simulates_writeNewAtomic {taken : StackDirectory → Bool} {P : StackView → Prop}
    (hfile : ∀ (directory : StackDirectory) (document : Document),
      (directory.apply link).file document = directory.file document)
    (hlink : ∀ directory view, Represents stack directory view → P view →
      taken directory = false ∧ Represents stack (directory.apply link) (view.apply change)) :
    Simulates Agrees
      (fun s t => (Clean name documents s t ∧ stack ∈ s.directories) ∧ P (t.view stack))
      (writeNewAtomic stack bytes taken link) (keep stack change)
      fun _ => Clean name documents := by
  rintro s t hagrees ⟨⟨hclean, hmem⟩, hview⟩
  have hrepresents := hagrees.represents stack
  obtain ⟨hfree, hlinked⟩ := hlink _ _ (hrepresents.setTemporaries _) hview
  rw [writeNewAtomic_run hfree]
  refine ⟨rfl, hagrees.tracks hmem (tracks_linkOperations hrepresents hlinked), fun _ _ =>
    hclean.after (linkOperations _ _) fun directory document => ?_⟩
  have hwritten := hfile (directory.apply (.writeTemporary bytes)) document
  rw [StackDirectory.file_writeTemporary] at hwritten
  rw [← hwritten]
  cases document <;> rfl

/-- A journal with one more event that the writer accepts. -/
theorem Represents.linkEvent {event : EngineEvent} {directory : StackDirectory} {view : StackView}
    (h : Represents event.stack directory view) (hvalid : event.validate = .ok ())
    (haccepted : acceptEvent view.journal event = .ok ()) :
    Represents event.stack (directory.apply (.linkEvent event.revision.toNat (encode event)))
      (view.apply (.append event)) where
  __ := h
  journal := (readEventsWithSize_insert h.journal hvalid haccepted).2
  contents document := by
    rw [StackView.contents_append, ← h.contents document]
    cases document <;> rfl

variable [FromJson RolloutRecord] [FromJson RolloutProgress]

theorem simulates_append (event : EngineEvent) :
    Simulates Agrees (Clean name documents) (append event : Filing Unit) (append event : Keeping Unit)
      fun _ => Clean name documents := by
  refine .check_bind fun _ hvalid => .check_bind fun _ hname => ?_
  rw [nested, mapError_eq_ok] at hvalid
  rw [requireName, rejectIf_eq_ok, not_not] at hname
  refine .bind (simulates_create hname) fun _ => .consult_map_bind (fun _ => encode event)
    (fun s t hagrees => continueJournal_eq (hagrees.represents event.stack).journal) fun _ => ?_
  refine simulates_writeNewAtomic (fun _ document => by cases document <;> rfl)
    fun directory view h haccepted => ⟨?_, h.linkEvent hvalid haccepted⟩
  exact (readEventsWithSize_insert h.journal hvalid haccepted).1

/-! ## The archive -/

omit [FromJson EngineEvent] [FromJson RolloutProgress] in
theorem readRolloutFile_encode (h : record.validate = .ok ()) :
    readRolloutFile (encode record) = .ok record := by
  rw [readRolloutFile, rejectIf_of_not _ (Nat.not_lt.mpr (RolloutRecord.length_encode_le h)),
    fromSlice_encode]
  simp [nested, mapError, h]

omit [FromJson EngineEvent] [FromJson RolloutRecord] [Semver] in
theorem readProgressFile_encode {progress : RolloutProgress} (h : progress.validate = .ok ())
    (hsize : (encode progress).length ≤ maxRolloutProgressBytes) :
    readProgressFile (encode progress) = .ok progress := by
  rw [readProgressFile, rejectIf_of_not _ (Nat.not_lt.mpr hsize), fromSlice_encode]
  simp [nested, mapError, h]

omit [FromJson EngineEvent] [FromJson RolloutRecord] [FromJson RolloutProgress] in
/-- The scan of the archive counts its bytes. -/
theorem foldlM_scanArchive {total : Nat} (hvalid : ∀ record ∈ archive, record.validate = .ok ())
    (hsize : total + archiveSize archive ≤ maxRolloutHistoryBytes) :
    (archive.map fun record => (record.rolloutId, encode record)).foldlM scanArchive total
      = .ok (total + archiveSize archive) := by
  induction archive generalizing total with
  | nil => rfl
  | cons record archive ih =>
    obtain ⟨hrecord, harchive⟩ := List.forall_mem_cons.mp hvalid
    obtain ⟨hparts, -, -⟩ := RolloutRecord.validate_eq_ok.mp hrecord
    have hlength := RolloutRecord.length_encode_le hrecord
    simp only [archiveSize, List.map_cons, List.sum_cons] at hsize ⊢
    rw [← archiveSize] at hsize ⊢
    have hadd : checkedAdd total (encode record).length
        = some (total + (encode record).length) := by
      refine checkedAdd_of_le ?_
      unfold maxRolloutHistoryBytes at hsize
      unfold wordMax
      omega
    have hscan : scanArchive total (record.rolloutId, encode record)
        = .ok (total + (encode record).length) := by
      rw [scanArchive, rejectIf_of_not _ (by simp [hparts.rolloutId_digest, hlength]), ok_bind,
        hadd]
      rfl
    rw [List.foldlM_cons, hscan, ok_bind, ih harchive (by omega), Nat.add_assoc]

omit [FromJson EngineEvent] [FromJson RolloutRecord] [FromJson RolloutProgress] [HexCodec]
  [Sha256] [Semver] in
theorem lookup_archive (archive : List RolloutRecord) (rolloutId : String) :
    (archive.map fun record => (record.rolloutId, encode record)).lookup rolloutId
      = (archive.find? (·.rolloutId = rolloutId)).map encode := by
  induction archive with
  | nil => rfl
  | cons record archive ih =>
    rw [List.map_cons, List.lookup_cons, List.find?_cons]
    by_cases heq : record.rolloutId = rolloutId
    · simp [heq]
    · have hne : (rolloutId == record.rolloutId) = false := by simp [Ne.symm heq]
      simp [heq, hne, ih]

omit [FromJson EngineEvent] [FromJson RolloutProgress] in
/-- The archive of files is added to as the archive of records is. -/
theorem archiveEntry_eq (hvalid : ∀ archived ∈ archive, archived.validate = .ok ())
    (hsize : archiveSize archive ≤ maxRolloutHistoryBytes) :
    archiveEntry (archive.map fun record => (record.rolloutId, encode record)) record
      = (archiveDecision archive record).map fun missing =>
        if missing then some (encode record) else none := by
  have hlimit : maxRolloutHistoryBytes ≤ wordMax := by decide
  have hscan := foldlM_scanArchive hvalid (by omega : 0 + archiveSize archive ≤ _)
  rw [Nat.zero_add] at hscan
  rw [archiveEntry, hscan, ok_bind, lookup_archive, archiveDecision]
  cases hfind : archive.find? (·.rolloutId = record.rolloutId) with
  | some archived =>
    have harchived := hvalid archived (List.mem_of_find?_eq_some hfind)
    simp only [Option.map_some, readRolloutFile_encode harchived, ok_bind, map_bind]
    rfl
  | none =>
    simp only [Option.map_none, all_checkedAdd_gt hlimit, List.length_map, map_bind,
      decide_eq_true_eq]
    rfl

omit [FromJson EngineEvent] [FromJson RolloutRecord] [FromJson RolloutProgress] [HexCodec]
  [Sha256] [Semver] in
theorem archiveDecision_eq_true (h : archiveDecision archive record = .ok true) :
    archive.find? (·.rolloutId = record.rolloutId) = none
      ∧ archiveSize archive + (encode record).length ≤ maxRolloutHistoryBytes := by
  unfold archiveDecision at h
  split at h
  · rw [bind_eq_ok] at h
    obtain ⟨_, -, hfalse⟩ := h
    cases hfalse
  · rename_i hfind
    rw [bind_eq_ok] at h
    obtain ⟨_, hroom, -⟩ := h
    rw [rejectIf_eq_ok, not_or, Nat.not_lt] at hroom
    exact ⟨hfind, hroom.2⟩

omit [FromJson RolloutRecord] [FromJson RolloutProgress] in
/-- An archive with one more record that it has room for. -/
theorem Represents.linkRollout {directory : StackDirectory} {view : StackView}
    (h : Represents stack directory view) (hvalid : record.validate = .ok ())
    (hmissing : archiveDecision view.archive record = .ok true) :
    Represents stack (directory.apply (.linkRollout record.rolloutId (encode record)))
      (view.apply (.archive record)) where
  __ := h
  contents document := by
    have hcontents : (view.apply (.archive record)).contents document = view.contents document := by
      cases document <;> rfl
    rw [hcontents, ← h.contents document]
    cases document <;> rfl
  archive := by
    simp [StackDirectory.apply, StackView.apply, h.archive]
  archive_valid := by
    intro archived hmem
    rcases List.mem_append.mp hmem with hmem | hmem
    · exact h.archive_valid archived hmem
    · rw [List.mem_singleton.mp hmem]
      exact hvalid
  archive_size := by
    simpa [archiveSize, StackView.apply] using (archiveDecision_eq_true hmissing).2

theorem simulates_archiveRollout (hvalid : record.validate = .ok ()) :
    Simulates Agrees (Clean name documents) (archiveRollout record : Filing Unit)
      (archiveRollout record : Keeping Unit) fun _ => Clean name documents := by
  have hname := (RolloutRecord.validate_eq_ok.mp hvalid).1.stack_valid
  refine .check_bind fun _ _ => .bind (simulates_create hname) fun _ =>
    .consult_map_bind (fun missing => if missing then some (encode record) else none)
    (fun s t hagrees => ?_) fun missing => ?_
  · have hrepresents := hagrees.represents record.stack
    rw [hrepresents.archive]
    exact archiveEntry_eq hrepresents.archive_valid hrepresents.archive_size
  cases missing with
  | false => exact .pure () fun _ _ _ h => h.1.1
  | true =>
    refine simulates_writeNewAtomic (fun _ document => by cases document <;> rfl)
      fun directory view h hmissing => ⟨?_, h.linkRollout hvalid hmissing⟩
    rw [h.archive, lookup_archive, (archiveDecision_eq_true hmissing).1]
    rfl

/-! ## The documents of the view -/

omit [FromJson RolloutRecord] in
/-- The progress of a view is read from its file. -/
theorem Agrees.readProgressFile {s : EngineStore} {t : EngineView} (h : Agrees s t) :
    ((s.directory stack).file .progress).contents.map readProgressFile
      = (t.view stack).progress.map .ok := by
  rw [(h.represents stack).contents, StackView.contents, Option.map_map]
  refine Option.map_congr fun progress hprogress => ?_
  obtain ⟨hvalid, hsize⟩ := (h.represents stack).progress_valid progress hprogress
  exact readProgressFile_encode hvalid hsize

theorem simulates_rolloutFile :
    Simulates Agrees (Clean stack documents) (rolloutFile stack : Filing _)
      (rolloutFile stack : Keeping _) fun read s t =>
        Clean stack (fun other => documents other ∨ other = .rollout) s t
          ∧ ∀ record ∈ read, record.validate = .ok () := by
  refine Simulates.weaken (simulates_recovery fun s t hagrees => recoveredFile_run ?_)
    fun read s t hagrees ⟨hclean, hread⟩ => ⟨hclean, ?_⟩
  · rw [(hagrees.represents stack).contents, StackView.contents, Option.map_map]
    refine Option.map_congr fun record hrecord => ?_
    exact readRolloutFile_encode ((hagrees.represents stack).checkpoint_valid record hrecord)
  · rw [hread]
    exact (hagrees.represents stack).checkpoint_valid

theorem simulates_progressFile :
    Simulates Agrees (Clean stack documents) (progressFile stack : Filing _)
      (progressFile stack : Keeping _) fun _ =>
        Clean stack fun other => documents other ∨ other = .progress := by
  exact (simulates_recovery fun _ _ h => recoveredFile_run h.readProgressFile).weaken
    fun _ _ _ _ hclean => hclean.1

theorem simulates_recoverProgressFile :
    Simulates Agrees (Clean stack documents) (recoverProgressFile stack : Filing Unit)
      (recoverProgressFile stack : Keeping Unit) fun _ =>
        Clean stack fun other => documents other ∨ other = .progress := by
  exact (simulates_recovery fun _ _ h => recoverFile_run h.readProgressFile).weaken
    fun _ _ _ _ hclean => hclean.1

section

omit [FromJson RolloutRecord] [FromJson RolloutProgress]

theorem Represents.placeRollout {directory : StackDirectory} {view : StackView}
    (h : Represents stack directory view) (hvalid : record.validate = .ok ())
    (hfile : file.current = some (encode record)) :
    Represents stack (directory.setFile .rollout file) (view.apply (.checkpoint record)) where
  __ := h
  contents
    | .rollout => by simp [StackDirectory.file_setFile, ReplacedFile.contents, hfile,
        StackView.contents, StackView.apply]
    | .progress => h.contents .progress
  checkpoint_valid _ hmem := Option.some.inj hmem ▸ hvalid

theorem Represents.placeProgress {progress : RolloutProgress} {directory : StackDirectory}
    {view : StackView} (h : Represents stack directory view) (hvalid : progress.validate = .ok ())
    (hsize : (encode progress).length ≤ maxRolloutProgressBytes)
    (hfile : file.current = some (encode progress)) :
    Represents stack (directory.setFile .progress file)
      (view.apply (.progress (some progress))) where
  __ := h
  contents
    | .rollout => h.contents .rollout
    | .progress => by simp [StackDirectory.file_setFile, ReplacedFile.contents, hfile,
        StackView.contents, StackView.apply]
  progress_valid _ hmem := Option.some.inj hmem ▸ ⟨hvalid, hsize⟩

end

theorem simulates_writeRolloutFile (record : RolloutRecord) (hdocument : documents .rollout) :
    Simulates Agrees (Clean stack documents) (writeRolloutFile stack record : Filing Unit)
      (writeRolloutFile stack record : Keeping Unit)
      fun _ s t => Clean stack documents s t ∧ record.validate = .ok () := by
  refine .check_bind fun _ hname => .check_bind fun _ hvalid => ?_
  rw [requireName, rejectIf_eq_ok, not_not] at hname
  rw [nested, mapError_eq_ok] at hvalid
  rw [check_bind_of_ok (rejectIf_of_not _
    (Nat.not_lt.mpr (RolloutRecord.length_encode_le hvalid)))]
  exact (simulates_writeReplaceAtomic hname hdocument fun _ _ h _ hfile =>
    h.placeRollout hvalid hfile).weaken fun _ _ _ _ hclean => ⟨hclean, hvalid⟩

theorem simulates_writeProgressFile (progress : RolloutProgress) (hdocument : documents .progress) :
    Simulates Agrees (Clean stack documents) (writeProgressFile stack progress : Filing Unit)
      (writeProgressFile stack progress : Keeping Unit) fun _ => Clean stack documents := by
  refine .check_bind fun _ hname => .check_bind fun _ hvalid => .check_bind fun _ hsize => ?_
  rw [requireName, rejectIf_eq_ok, not_not] at hname
  rw [nested, mapError_eq_ok] at hvalid
  rw [rejectIf_eq_ok, Nat.not_lt] at hsize
  exact simulates_writeReplaceAtomic hname hdocument fun _ _ h _ hfile =>
    h.placeProgress hvalid hsize hfile

theorem simulates_removeProgressFile (hname : validName stack) (hdocument : documents .progress) :
    Simulates Agrees (Clean stack documents) (removeProgressFile stack : Filing Unit)
      (removeProgressFile stack : Keeping Unit) fun _ => Clean stack documents := by
  intro s t hagrees hclean
  have hrepresents : Represents stack ((s.directory stack).apply (.removeFile .progress))
      ((t.view stack).apply (.progress none)) :=
    { hagrees.represents stack with
      contents
        | .rollout => (hagrees.represents stack).contents .rollout
        | .progress => hclean .progress hdocument
      progress_valid := by simp [StackView.apply] }
  refine ⟨rfl, .step _ _ _ _ _ _ hagrees (.done _ _ (hagrees.step hname hrepresents)),
    fun _ _ other hother => ?_⟩
  show (((act s ⟨stack, .removeFile .progress⟩).directory stack).file other).previous = none
  rw [EngineStore.directory_change, StackDirectory.file_removeFile]
  split
  · exact hclean .progress hdocument
  · exact hclean other hother

/-! ## Calls -/

section

variable {store : EngineStore} {engine : EngineView}

theorem Agrees.events (h : Agrees store engine) (stack : String) :
    events store stack = events engine stack := by
  have hread : StackStore.readEvents store stack = StackStore.readEvents engine stack := by
    show (readEventsWithSize _ stack >>= fun _ => _) = _
    rw [(h.represents stack).journal]
    rfl
  rw [Engine.events, Engine.events, hread]

theorem Agrees.latest (h : Agrees store engine) (stack : String) :
    latest store stack = latest engine stack := by
  rw [Engine.latest, Engine.latest, h.events]

theorem Agrees.list (h : Agrees store engine) : list store = list engine := by
  have hnames : StackStore.names store = StackStore.names engine :=
    TreeMap.keys_eq_of_mem_iff h.mem_iff
  simp only [Engine.list, hnames, h.latest]

theorem Agrees.admitStack (h : Agrees store engine) (previous : Option EngineEvent) :
    admitStack store previous = admitStack engine previous := by
  rw [Engine.admitStack, Engine.admitStack, h.list]

end

theorem simulates_rollout :
    Simulates Agrees (Clean stack documents) (rollout stack : Filing _) (rollout stack : Keeping _)
      fun read s t => Clean stack (fun other => documents other ∨ other = .rollout) s t
        ∧ ∀ record ∈ read, record.validate = .ok () ∧ record.stack = stack := by
  refine .check_bind fun _ _ => .bind simulates_rolloutFile fun read => ?_
  cases read with
  | none => exact .pure none fun _ _ _ h => ⟨h.1, by simp⟩
  | some record =>
    refine .of_fact fun hvalid => .check_bind fun _ hstack =>
      .consult_bind (fun _ _ h => h.latest _) fun current =>
      .check_bind fun recovered hrecovered => ?_
    rw [rejectIf_eq_ok, not_not] at hstack
    cases recovered with
    | none =>
      refine .pure _ fun _ _ _ h => ⟨h, ?_⟩
      rintro _ ⟨⟩
      exact ⟨hvalid record rfl, hstack⟩
    | some recovered =>
      refine .bind (simulates_writeRolloutFile recovered (.inr rfl)) fun _ =>
        .of_fact fun hwritten => .pure _ fun _ _ _ h => ⟨h, ?_⟩
      rintro _ ⟨⟩
      exact ⟨hwritten, (sameRollout_of_recover hrecovered).stack.trans hstack⟩

/-- The checkpoint of the stack is not being replaced, as after reading it. -/
abbrev CheckpointClean (stack : String) : EngineStore → EngineView → Prop :=
  Clean stack fun document => document = .rollout

/-- A call from any state. -/
abbrev SimulatesCall {α : Type} (x : Filing α) (y : Keeping α)
    (Q : α → EngineStore → EngineView → Prop) : Prop :=
  Simulates Agrees (fun _ _ => True) x y Q

theorem simulates_rollout_call : SimulatesCall (rollout stack : Filing _) (rollout stack)
    fun read s t => CheckpointClean stack s t
      ∧ ∀ record ∈ read, record.validate = .ok () ∧ record.stack = stack :=
  (simulates_rollout.weaken fun _ _ _ _ h =>
    ⟨fun document hdocument => h.1 document (.inr hdocument), h.2⟩).require
      fun _ _ _ _ hdocument => (hdocument : False).elim

theorem simulates_ensureNoActiveRollout :
    SimulatesCall (ensureNoActiveRollout stack : Filing _) (ensureNoActiveRollout stack)
      fun _ => CheckpointClean stack :=
  .bind simulates_rollout_call fun _ => .of_fact fun _ => .check _

theorem simulates_requireRollout (rolloutId : String) :
    SimulatesCall (requireRollout stack rolloutId : Filing _) (requireRollout stack rolloutId)
      fun _ => CheckpointClean stack :=
  .check_bind fun _ _ => .bind simulates_rollout_call fun _ => .of_fact fun _ =>
    .check_bind fun record _ => .check_bind fun _ _ => .pure record fun _ _ _ h => h

theorem simulates_appendChange (event : EngineEvent) :
    Simulates Agrees (CheckpointClean stack) (appendChange event : Filing _) (appendChange event)
      fun _ _ _ => True :=
  .bind (simulates_append event) fun _ => .pure _ fun _ _ _ _ => trivial

/-- Writing a checkpoint and returning it. -/
theorem simulates_writeRecord (record : RolloutRecord) :
    Simulates Agrees (CheckpointClean stack)
      (do writeRolloutFile stack record; pure record : Filing _)
      (do writeRolloutFile stack record; pure record) fun _ _ _ => True :=
  .bind (simulates_writeRolloutFile record rfl) fun _ => .pure _ fun _ _ _ _ => trivial

theorem simulates_apply (plan : StackPlan) (allowInsecure : Bool) (clockMs : UInt64) :
    SimulatesCall (apply plan allowInsecure clockMs : Filing _) (apply plan allowInsecure clockMs)
      fun _ _ _ => True := by
  refine .check_bind fun _ _ => .bind simulates_ensureNoActiveRollout fun _ =>
    .check_bind fun _ _ => .consult_bind (fun _ _ h => h.latest _) fun previous =>
    .consult_bind (fun _ _ h => h.admitStack _) fun _ => ?_
  cases previous.filter (·.applies plan) with
  | some previous => exact .pure _ fun _ _ _ _ => trivial
  | none => exact .check_bind fun event _ => simulates_appendChange event

theorem simulates_stop (stack : String) (clockMs : UInt64) :
    SimulatesCall (stop stack clockMs : Filing _) (stop stack clockMs) fun _ _ _ => True := by
  refine .bind simulates_ensureNoActiveRollout fun _ =>
    .consult_bind (fun _ _ h => h.latest _) fun _ => .check_bind fun previous _ => ?_
  cases previous.kind with
  | remove => exact (Simulates.check _).weaken fun _ _ _ _ _ => trivial
  | stop => exact .pure _ fun _ _ _ _ => trivial
  | apply =>
    exact .check_bind fun plan _ => .check_bind fun plan _ => .check_bind fun event _ =>
      simulates_appendChange event

theorem simulates_remove (stack : String) (clockMs : UInt64) :
    SimulatesCall (remove stack clockMs : Filing _) (remove stack clockMs) fun _ _ _ => True := by
  refine .bind simulates_ensureNoActiveRollout fun _ =>
    .consult_bind (fun _ _ h => h.latest _) fun _ => .check_bind fun previous _ => ?_
  cases previous.kind with
  | remove => exact .pure _ fun _ _ _ _ => trivial
  | stop => exact .check_bind fun event _ => simulates_appendChange event
  | apply => exact .check_bind fun event _ => simulates_appendChange event

theorem simulates_retireRollout {current : RolloutRecord} (hvalid : current.validate = .ok ())
    (hstack : current.stack = stack) :
    Simulates Agrees (CheckpointClean stack) (retireRollout current : Filing _)
      (retireRollout current) fun _ => CheckpointClean stack := by
  subst hstack
  refine .bind (.check_bind fun _ _ => .check_bind fun _ hname =>
    .bind simulates_progressFile fun file => ?_) fun _ =>
    .bind (simulates_archiveRollout hvalid) fun _ => .pure none fun _ _ _ h => h
  rw [requireName, rejectIf_eq_ok, not_not] at hname
  cases file with
  | none => exact .pure _ fun _ _ _ h document hdocument => h document (.inl hdocument)
  | some progress =>
    exact .check_bind fun _ _ => (simulates_removeProgressFile hname (.inr rfl)).weaken
      fun _ _ _ _ h document hdocument => h document (.inl hdocument)

theorem simulates_settleRollout (plan : StackPlan) {current : RolloutRecord}
    (hvalid : current.validate = .ok ()) (hstack : current.stack = stack) :
    Simulates Agrees (CheckpointClean stack) (settleRollout plan current : Filing _)
      (settleRollout plan current) fun _ => CheckpointClean stack := by
  unfold settleRollout
  split_ifs
  · exact .pure _ fun _ _ _ h => h
  · exact .check _
  · refine .consult_bind (fun _ _ h => h.latest _) fun event => ?_
    cases ensureMatchesActivation current event with
    | ok _ => exact .pure _ fun _ _ _ h => h
    | error _ => exact simulates_retireRollout hvalid hstack
  · exact simulates_retireRollout hvalid hstack

theorem simulates_startRollout (plan : StackPlan) (nowMs : UInt64) :
    Simulates Agrees (CheckpointClean plan.stack) (startRollout plan nowMs : Filing _)
      (startRollout plan nowMs) fun _ _ _ => True :=
  .consult_bind (fun _ _ h => h.latest _) fun _ => .consult_bind (fun _ _ h => h.admitStack _) fun _ =>
    .check_bind fun _ _ => .check_bind fun record _ => simulates_writeRecord record

theorem simulates_prepareRollout (plan : StackPlan) (allowInsecure : Bool) (nowMs : UInt64) :
    SimulatesCall (prepareRollout plan allowInsecure nowMs : Filing _)
      (prepareRollout plan allowInsecure nowMs) fun _ _ _ => True := by
  refine .check_bind fun _ _ => .check_bind fun _ _ => .bind simulates_rollout_call fun current =>
    .of_fact fun hcurrent => ?_
  cases current with
  | none => exact simulates_startRollout plan nowMs
  | some current =>
    obtain ⟨hvalid, hstack⟩ := hcurrent current rfl
    refine .bind (simulates_settleRollout plan hvalid hstack) fun settled => ?_
    cases settled with
    | some current => exact .pure _ fun _ _ _ _ => trivial
    | none => exact simulates_startRollout plan nowMs

theorem simulates_activateRollout (stack rolloutId : String) (nowMs clockMs : UInt64) :
    SimulatesCall (activateRollout stack rolloutId nowMs clockMs : Filing _)
      (activateRollout stack rolloutId nowMs clockMs) fun _ _ _ => True := by
  refine .bind (simulates_requireRollout rolloutId) fun record => ?_
  split_ifs
  · exact .pure _ fun _ _ _ _ => trivial
  · refine .check_bind fun _ _ => .check_bind fun _ _ =>
      .consult_bind (fun _ _ h => h.latest _) fun _ => ?_
    refine .check_bind fun _ _ => .check_bind fun event _ => .bind (simulates_append event) ?_
    exact fun _ => .check_bind fun record _ => simulates_writeRecord record

theorem Agrees.health {store : EngineStore} {engine : EngineView} (h : Agrees store engine)
    (stack : String) (observed : Except String (Option StackRuntimeStatus)) (nowMs : UInt64) :
    health store stack observed nowMs = health engine stack observed nowMs := by
  rw [Engine.health, Engine.health, h.latest]

theorem simulates_commitRollout (stack rolloutId : String) (nowMs : UInt64)
    (observed : Except String (Option StackRuntimeStatus)) :
    SimulatesCall (commitRollout stack rolloutId nowMs observed : Filing _)
      (commitRollout stack rolloutId nowMs observed) fun _ _ _ => True := by
  refine .bind (simulates_requireRollout rolloutId) fun record => ?_
  split_ifs
  · exact .pure _ fun _ _ _ _ => trivial
  · refine .check_bind fun _ _ => .check_bind fun _ _ =>
      .consult_bind (fun _ _ h => h.latest _) fun _ => ?_
    refine .check_bind fun _ _ => .consult_bind (fun _ _ h => h.health _ _ _) fun _ => ?_
    exact .check_bind fun _ _ => .check_bind fun record _ => simulates_writeRecord record

theorem simulates_rollbackRollout (stack rolloutId : String) (nowMs clockMs : UInt64) :
    SimulatesCall (rollbackRollout stack rolloutId nowMs clockMs : Filing _)
      (rollbackRollout stack rolloutId nowMs clockMs) fun _ _ _ => True := by
  refine .bind (simulates_requireRollout rolloutId) fun record => ?_
  cases record.phase with
  | cancelled | rolledBack => exact .pure _ fun _ _ _ _ => trivial
  | prepared =>
    exact .check_bind fun _ _ => .consult_bind (fun _ _ h => h.latest _) fun _ =>
      .check_bind fun _ _ => .check_bind fun record _ => simulates_writeRecord record
  | activated | committed =>
    refine .check_bind fun _ _ => .consult_bind (fun _ _ h => h.latest _) fun _ => ?_
    refine .check_bind fun _ _ => .check_bind fun _ _ => .check_bind fun event _ => ?_
    refine .bind (simulates_append event) fun _ => ?_
    exact .check_bind fun record _ => simulates_writeRecord record

theorem simulates_rolloutProgress : SimulatesCall (rolloutProgress stack : Filing _)
    (rolloutProgress stack) fun _ => Clean stack fun document => document = .progress := by
  have hfile : SimulatesCall (progressFile stack : Filing _) (progressFile stack)
      fun _ => Clean stack fun document => document = .progress :=
    (simulates_progressFile.weaken fun _ _ _ _ h document hdocument =>
      h document (.inr hdocument)).require
        fun _ _ _ document hdocument => (hdocument : False).elim
  refine .check_bind fun _ _ => .bind hfile fun file => ?_
  cases file with
  | none => exact .pure _ fun _ _ _ h => h
  | some progress =>
    exact .check_bind fun _ _ => .bind simulates_rollout fun _ => .of_fact fun _ =>
      .check_bind fun _ _ => .check_bind fun _ _ =>
      .pure _ fun _ _ _ h document hdocument => h document (.inl hdocument)

theorem simulates_beginRolloutProgress (stack rolloutId : String) (nowMs : UInt64) :
    SimulatesCall (beginRolloutProgress stack rolloutId nowMs : Filing _)
      (beginRolloutProgress stack rolloutId nowMs) fun _ _ _ => True := by
  refine .bind simulates_rolloutProgress fun progress => ?_
  cases progress with
  | some progress => exact .check_bind fun _ _ => .pure _ fun _ _ _ _ => trivial
  | none =>
    refine .bind simulates_rollout fun _ => .of_fact fun _ => .check_bind fun _ _ => ?_
    refine .check_bind fun _ _ => .check_bind fun progress _ => ?_
    exact .bind (simulates_writeProgressFile progress (.inl rfl)) fun _ =>
      .pure _ fun _ _ _ _ => trivial

theorem simulates_saveRolloutProgress (progress : RolloutProgress) :
    SimulatesCall (saveRolloutProgress progress : Filing _) (saveRolloutProgress progress)
      fun _ _ _ => True := by
  refine .check_bind fun _ _ => .bind simulates_rollout_call fun _ => .of_fact fun _ => ?_
  refine .check_bind fun _ _ => .check_bind fun _ _ => .bind simulates_recoverProgressFile fun _ => ?_
  exact (simulates_writeProgressFile progress (.inr rfl)).weaken fun _ _ _ _ _ => trivial

/-- A call on the files of the engine returns what the call on its view returns, and goes through
states that agree with those of the view. -/
theorem EngineCall.simulates (call : EngineCall) :
    SimulatesCall (call.run : Filing _) call.run fun _ _ _ => True := by
  cases call with
  | apply plan allowInsecure clockMs => exact (simulates_apply plan allowInsecure clockMs).map _
  | stop stack clockMs => exact (simulates_stop stack clockMs).map _
  | remove stack clockMs => exact (simulates_remove stack clockMs).map _
  | rollout stack => exact simulates_rollout_call.map _
  | prepareRollout plan allowInsecure nowMs =>
    exact (simulates_prepareRollout plan allowInsecure nowMs).map _
  | activateRollout stack rolloutId nowMs clockMs =>
    exact (simulates_activateRollout stack rolloutId nowMs clockMs).map _
  | commitRollout stack rolloutId nowMs observed =>
    exact (simulates_commitRollout stack rolloutId nowMs observed).map _
  | rollbackRollout stack rolloutId nowMs clockMs =>
    exact (simulates_rollbackRollout stack rolloutId nowMs clockMs).map _
  | beginRolloutProgress stack rolloutId nowMs =>
    exact (simulates_beginRolloutProgress stack rolloutId nowMs).map _
  | saveRolloutProgress progress => exact (simulates_saveRolloutProgress progress).map _

end CartridgeRuntime.Engine
