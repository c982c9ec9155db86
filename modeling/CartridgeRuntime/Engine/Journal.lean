import CartridgeRuntime.Engine.StoreFiles

/-!
# Journals

The journal of a stack is a `Chain` of valid events. What the reader accepts is a chain
(`chain_of_readEventsWithSize`), and the reader accepts a file that `continueJournal` made
(`readEventsWithSize_insert`), at the boundary of every limit.
-/

namespace CartridgeRuntime.Engine

open Checked CartridgeRuntime.Core Encoding Std

variable [HexCodec] [Sha256] [Semver]

/-- Valid events of one stack, each of which continues the ones before it. -/
inductive Chain (stack : String) : List EngineEvent → Prop where
  | nil : Chain stack []
  | snoc (journal event) : Chain stack journal → event.validate = .ok () → event.stack = stack →
      event.follows journal.getLast? → Chain stack (journal ++ [event])

omit [HexCodec] [Sha256] [Semver] in
theorem EngineEvent.follows_iff {event : EngineEvent} {previous : Option EngineEvent} :
    event.follows previous ↔ event.revision = previous.elim 1 (·.revision + 1)
      ∧ event.previousEventSha256 = previous.elim "" EngineEvent.eventSha256 := by
  simp [EngineEvent.follows]

namespace Chain

variable {stack : String} {journal : List EngineEvent}

theorem mem (h : Chain stack journal) :
    ∀ event ∈ journal, event.validate = .ok () ∧ event.stack = stack := by
  induction h with
  | nil => simp
  | snoc journal event _ hvalid hstack _ ih =>
    intro other hmem
    rcases List.mem_append.mp hmem with hmem | hmem
    · exact ih other hmem
    · rw [List.mem_singleton.mp hmem]
      exact ⟨hvalid, hstack⟩

/-- The next revision is one above the number of events. -/
theorem toNat_next (h : Chain stack journal) (hlength : journal.length ≤ maxEngineEventsPerStack) :
    (journal.getLast?.elim 1 (·.revision + 1) : UInt64).toNat = journal.length + 1 := by
  induction h with
  | nil => rfl
  | snoc journal event _ _ _ hfollows ih =>
    rw [List.length_append, List.length_singleton] at hlength
    have hprevious := ih (by omega)
    rw [← (EngineEvent.follows_iff.mp hfollows).1] at hprevious
    unfold maxEngineEventsPerStack at hlength
    rw [List.getLast?_concat, Option.elim_some, UInt64.toNat_add, hprevious,
      List.length_append, List.length_singleton]
    exact Nat.mod_eq_of_lt (by simp; omega)

/-- The revisions of a chain are 1, 2, 3 and so on. -/
theorem revisions (h : Chain stack journal) (hlength : journal.length ≤ maxEngineEventsPerStack) :
    journal.map (·.revision.toNat) = List.range' 1 journal.length := by
  induction h with
  | nil => rfl
  | snoc journal event hchain _ _ hfollows ih =>
    rw [List.length_append, List.length_singleton] at hlength
    rw [List.map_append, ih (by omega), List.length_append, List.length_singleton,
      List.range'_concat, List.map_singleton, (EngineEvent.follows_iff.mp hfollows).1,
      hchain.toNat_next (by omega), Nat.one_mul, Nat.add_comm]

end Chain

/-! ## The reader -/

section

variable [FromJson EngineEvent] {stack : String}

theorem readEvent_eq_ok {read result : List EngineEvent × Nat} {file : Nat × List UInt8} :
    readEvent stack read file = .ok result ↔
      ∃ event, fromSlice file.2 = .ok event ∧ read.2 ≤ maxEngineEventHistoryBytes
        ∧ file.2.length ≤ min maxEngineEventBytes (maxEngineEventHistoryBytes - read.2)
        ∧ event.validate = .ok () ∧ event.stack = stack ∧ event.follows read.1.getLast?
        ∧ file.1 = event.revision.toNat
        ∧ result = (read.1 ++ [event], read.2 + file.2.length) := by
  simp only [readEvent, readBoundedJson, nested, bind_eq_ok, okOr_eq_ok, checkedSub_eq_some,
    checkedAdd_eq_some, mapError_eq_ok, exists_unit, pure_eq_ok, Except.ok.injEq]
  constructor
  · rintro ⟨_, ⟨hread, rfl⟩, _, ⟨hbounded, event, hevent, rfl⟩, _, ⟨-, rfl⟩, hvalid, hchain, rfl⟩
    rw [rejectIf_eq_ok, Nat.not_lt] at hbounded
    rw [rejectIf_eq_ok] at hchain
    simp only [not_or, not_not] at hchain
    exact ⟨event, hevent, hread, hbounded, hvalid, hchain.1, hchain.2.1, hchain.2.2, rfl⟩
  · rintro ⟨event, hevent, hread, hbounded, hvalid, hstack, hfollows, hfile, rfl⟩
    refine ⟨_, ⟨hread, rfl⟩, _, ⟨rejectIf_of_not _ (Nat.not_lt.mpr hbounded), event, hevent, rfl⟩,
      _, ⟨?_, rfl⟩, hvalid, rejectIf_of_not _ ?_, rfl⟩
    · unfold maxEngineEventHistoryBytes at hread hbounded
      unfold wordMax
      omega
    · simp [hstack, hfollows, hfile]

/-- Reading further files continues the chain that was read so far. -/
theorem foldlM_readEvent {files : List (Nat × List UInt8)} {read result : List EngineEvent × Nat}
    (h : files.foldlM (readEvent stack) read = .ok result) (hchain : Chain stack read.1)
    (hsize : read.2 ≤ maxEngineEventHistoryBytes) :
    Chain stack result.1 ∧ result.1.length = read.1.length + files.length
      ∧ result.1.map (·.revision.toNat) = read.1.map (·.revision.toNat) ++ files.map Prod.fst
      ∧ result.2 ≤ maxEngineEventHistoryBytes := by
  induction files generalizing read with
  | nil =>
    rw [List.foldlM_nil, pure_eq_ok, Except.ok.injEq] at h
    subst h
    exact ⟨hchain, rfl, (List.append_nil _).symm, hsize⟩
  | cons file files ih =>
    rw [List.foldlM_cons, bind_eq_ok] at h
    obtain ⟨next, hnext, hrest⟩ := h
    obtain ⟨event, -, -, hbounded, hvalid, hstack, hfollows, hfile, rfl⟩ :=
      readEvent_eq_ok.mp hnext
    obtain ⟨hresult, hlength, hrevisions, htotal⟩ :=
      ih hrest (.snoc _ _ hchain hvalid hstack hfollows) (by simp only; omega)
    refine ⟨hresult, ?_, ?_, htotal⟩
    · rw [hlength]
      simp only [List.length_append, List.length_cons, List.length_nil]
      omega
    · rw [hrevisions, List.map_append, List.map_singleton, ← hfile, List.append_assoc,
        List.map_cons, List.singleton_append]

/-- What the reader accepts is a chain within its limits, whose files are named by revision. -/
theorem chain_of_readEventsWithSize {files : ExtTreeMap Nat (List UInt8)}
    {journal : List EngineEvent} {size : Nat}
    (h : readEventsWithSize files stack = .ok (journal, size)) :
    Chain stack journal ∧ journal.length = files.size
      ∧ journal.length ≤ maxEngineEventsPerStack ∧ size ≤ maxEngineEventHistoryBytes
      ∧ files.keys = List.range' 1 journal.length := by
  simp only [readEventsWithSize, bind_eq_ok, exists_unit] at h
  obtain ⟨hcount, hread⟩ := h
  rw [rejectIf_eq_ok, Nat.not_lt] at hcount
  obtain ⟨hchain, hlength, hrevisions, hsize⟩ := foldlM_readEvent hread .nil (Nat.zero_le _)
  rw [List.length_nil, Nat.zero_add, ExtTreeMap.length_toList] at hlength
  have hbound : journal.length ≤ maxEngineEventsPerStack := hlength ▸ hcount
  refine ⟨hchain, hlength, hbound, hsize, ?_⟩
  rw [← hchain.revisions hbound, hrevisions, ExtTreeMap.map_fst_toList_eq_keys]
  rfl

end

/-! ## The writer -/

/-- The bytes of the events of a journal. -/
def journalSize (journal : List EngineEvent) : Nat :=
  (journal.map fun event => (encode event).length).sum

/-- An event continues a journal within its limits. -/
def acceptEvent (journal : List EngineEvent) (event : EngineEvent) : Except EngineError Unit := do
  rejectIf (journal.length ≥ maxEngineEventsPerStack) .eventHistoryReached
  rejectIf (¬ event.follows journal.getLast?) .eventDiscontinuous
  rejectIf ((encode event).length > maxEngineEventBytes) .eventTooLarge
  rejectIf (journalSize journal + (encode event).length > maxEngineEventHistoryBytes)
    .eventBytesReached

omit [HexCodec] [Sha256] [Semver] in
theorem acceptEvent_eq_ok {journal : List EngineEvent} {event : EngineEvent} :
    acceptEvent journal event = .ok () ↔ journal.length < maxEngineEventsPerStack
      ∧ event.follows journal.getLast? ∧ (encode event).length ≤ maxEngineEventBytes
      ∧ journalSize journal + (encode event).length ≤ maxEngineEventHistoryBytes := by
  simp only [acceptEvent, bind_eq_ok, exists_unit]
  simp only [rejectIf_eq_ok, Nat.not_lt, Nat.not_le, ge_iff_le, gt_iff_lt, not_not]

section

variable [FromJson EngineEvent] {stack : String} {files : ExtTreeMap Nat (List UInt8)}
  {journal : List EngineEvent} {event : EngineEvent}

/-- The writer of the next event goes by the journal that is read. -/
theorem continueJournal_eq
    (h : readEventsWithSize files event.stack = .ok (journal, journalSize journal)) :
    continueJournal files event = (acceptEvent journal event).map fun _ => encode event := by
  have hlimit : maxEngineEventHistoryBytes ≤ wordMax := by decide
  simp only [continueJournal, h, ok_bind, acceptEvent, all_checkedAdd_gt hlimit,
    decide_eq_true_eq, map_bind, map_eq_bind]

/-- The reader accepts what the writer accepts. -/
theorem readEventsWithSize_insert
    (h : readEventsWithSize files event.stack = .ok (journal, journalSize journal))
    (hvalid : event.validate = .ok ()) (haccepted : acceptEvent journal event = .ok ()) :
    files.contains event.revision.toNat = false
      ∧ readEventsWithSize (files.insert event.revision.toNat (encode event)) event.stack
        = .ok (journal ++ [event], journalSize (journal ++ [event])) := by
  obtain ⟨hchain, hlength, hbound, -, hkeys⟩ := chain_of_readEventsWithSize h
  obtain ⟨hcount, hfollows, hevent, htotal⟩ := acceptEvent_eq_ok.mp haccepted
  have hrevision : event.revision.toNat = journal.length + 1 := by
    rw [(EngineEvent.follows_iff.mp hfollows).1, hchain.toNat_next hbound]
  have hlast : ∀ revision ∈ files, revision < event.revision.toNat := by
    intro revision hmem
    rw [← ExtTreeMap.mem_keys, hkeys, List.mem_range'_1] at hmem
    omega
  have hfresh : files.contains event.revision.toNat = false := by
    rw [← Bool.not_eq_true, ← ExtTreeMap.mem_iff_contains]
    exact fun hmem => absurd (hlast _ hmem) (Nat.lt_irrefl _)
  have hread : files.toList.foldlM (readEvent event.stack) ([], 0)
      = .ok (journal, journalSize journal) := by
    simp only [readEventsWithSize, bind_eq_ok, exists_unit] at h
    exact h.2
  have hnext : readEvent event.stack (journal, journalSize journal)
      (event.revision.toNat, encode event)
        = .ok (journal ++ [event], journalSize (journal ++ [event])) := by
    refine readEvent_eq_ok.mpr ⟨event, fromSlice_encode event, by simp only; omega,
      by simp only; omega, hvalid, rfl, hfollows, rfl, ?_⟩
    simp [journalSize]
  refine ⟨hfresh, ?_⟩
  have hsize : ¬ (files.insert event.revision.toNat (encode event)).size
      > maxEngineEventsPerStack := by
    rw [ExtTreeMap.size_insert, hfresh]
    simp only [Bool.false_eq_true, if_false]
    omega
  rw [readEventsWithSize, rejectIf_of_not _ hsize, ok_bind,
    TreeMap.toList_insert_of_lt fun k' hk' => Nat.compare_eq_lt.mpr (hlast k' hk'),
    List.foldlM_append, hread, ok_bind, List.foldlM_cons, hnext, ok_bind, List.foldlM_nil,
    pure_eq_ok]

end

end CartridgeRuntime.Engine
