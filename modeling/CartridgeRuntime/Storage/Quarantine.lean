import CartridgeRuntime.Storage.LostUpdate

/-!
# Recovery is sound

Normal access needs every generation file to be valid. `recover` sorts the files into valid and
corrupt ones, renames the corrupt ones away, removes pending files and prunes what is left. Read
`mem_recoveredFiles` first: what is left are valid files of the directory, and every valid file that
has at most one newer valid one is left. So the newest valid generation is what is loaded afterwards,
and a second recovery finds nothing to rename (`recover_sound`).
-/

namespace CartridgeRuntime.Storage

open Checked Std Encoding

/-! ## Pruning -/

variable {generation : Nat} {files : NamespaceDirectory}

/-- A key with at most one greater one is not among the first keys, when two are left out. -/
theorem notMem_take_of_greater_unique {generations : ExtTreeMap Nat (List UInt8)}
    (h : ∀ a ∈ generations, ∀ b ∈ generations, generation < a → generation < b → a = b) :
    generation ∉ generations.keys.take (generations.size - retainedGenerations) := by
  intro hmem
  obtain ⟨i, hi, hkey⟩ := List.mem_take_iff_getElem.mp hmem
  rw [ExtTreeMap.length_keys] at hi
  unfold retainedGenerations at hi
  have hfirst : generations.size - 2 < generations.keys.length := by
    rw [ExtTreeMap.length_keys]
    omega
  have hlast : generations.size - 1 < generations.keys.length := by
    rw [ExtTreeMap.length_keys]
    omega
  have hsorted := List.pairwise_iff_getElem.mp (ExtTreeMap.ordered_keys (t := generations))
  have hbelow := hsorted i (generations.size - 2) (by omega) hfirst (by omega)
  have hbelow' := hsorted i (generations.size - 1) (by omega) hlast (by omega)
  have hdistinct := hsorted (generations.size - 2) (generations.size - 1) hfirst hlast (by omega)
  rw [Nat.compare_eq_lt] at hbelow hbelow' hdistinct
  rw [hkey] at hbelow hbelow'
  have heq := h _ (ExtTreeMap.mem_keys.mp (List.getElem_mem hfirst)) _
    (ExtTreeMap.mem_keys.mp (List.getElem_mem hlast)) hbelow hbelow'
  omega

/-- Pruning keeps a generation with at most one newer one. -/
theorem pruneGenerations_of_greater_unique (h : ∀ a ∈ files.generations, ∀ b ∈ files.generations,
      generation < a → generation < b → a = b) :
    files.pruneGenerations.generations[generation]? = files.generations[generation]? :=
  generations_foldl_removeGeneration files _ (notMem_take_of_greater_unique h)

/-- Removing generations one by one erases their keys and no others. -/
theorem getElem?_foldl_removeGeneration (removed : List Nat) (files : NamespaceDirectory)
    (generation : Nat) :
    (removed.foldl NamespaceDirectory.removeGeneration files).generations[generation]?
      = if generation ∈ removed then none else files.generations[generation]? := by
  have herased : (removed.foldl NamespaceDirectory.removeGeneration files).generations
      = removed.foldl ExtTreeMap.erase files.generations := by
    induction removed generalizing files with
    | nil => rfl
    | cons first removed ih => exact ih _
  rw [herased, TreeMap.getElem?_foldl_erase]

section

variable [HexCodec] [Sha256] [FromJson DiskEnvelope]

/-- The file of a generation is valid. -/
def validGeneration (directory name : String) (file : Nat × List UInt8) : Bool :=
  (readState (stateFilePath directory file.1) file.2 name file.1).isOk

/-- Recovery sorts the generations into the valid and the corrupt ones. -/
theorem foldlM_sortGeneration {directory name : String} {files : List (Nat × List UInt8)}
    {sorted result : List Nat × List Nat}
    (h : files.foldlM (sortGeneration directory name) sorted = .ok result) :
    result.1 = sorted.1 ++ (files.filter (validGeneration directory name)).map Prod.fst ∧
      result.2 = sorted.2 ++ (files.filter (!validGeneration directory name ·)).map Prod.fst := by
  induction files generalizing sorted with
  | nil =>
    cases h
    simp
  | cons file files ih =>
    rw [List.foldlM_cons, bind_eq_ok] at h
    obtain ⟨next, hstep, hrest⟩ := h
    obtain ⟨hvalid, hcorrupt⟩ := ih hrest
    rw [hvalid, hcorrupt]
    cases hread : readState (stateFilePath directory file.1) file.2 name file.1 with
    | ok state =>
      have htrue : validGeneration directory name file = true := by
        rw [validGeneration, hread]
        rfl
      rw [sortGeneration, hread] at hstep
      cases hstep
      simp [htrue]
    | error error =>
      have hfalse : validGeneration directory name file = false := by
        rw [validGeneration, hread]
        rfl
      rw [sortGeneration, hread] at hstep
      cases error <;> cases hstep
      simp [hfalse]

/-! ## Sorting the files -/

variable {directory name : String}

theorem validGeneration_iff {file : Nat × List UInt8} :
    validGeneration directory name file = true ↔
      ∃ state, readState (stateFilePath directory file.1) file.2 name file.1 = .ok state := by
  unfold validGeneration
  cases readState (stateFilePath directory file.1) file.2 name file.1 <;>
    simp [Except.isOk, Except.toBool]

/-- Valid files are all kept. -/
theorem foldlM_sortGeneration_valid {files : List (Nat × List UInt8)}
    (h : ∀ file ∈ files, validGeneration directory name file = true) (sorted : List Nat × List Nat) :
    files.foldlM (sortGeneration directory name) sorted
      = .ok (sorted.1 ++ files.map Prod.fst, sorted.2) := by
  induction files generalizing sorted with
  | nil => simp [pure_eq_ok]
  | cons file files ih =>
    rw [List.forall_mem_cons] at h
    obtain ⟨state, hread⟩ := validGeneration_iff.mp h.1
    rw [List.foldlM_cons, sortGeneration, hread]
    simp only [ok_bind]
    rw [ih h.2]
    simp

/-! ## What is left -/

/-- A generation with a valid file. -/
def ValidGeneration (directory name : String) (files : NamespaceDirectory) (generation : Nat)
    (state : State) : Prop :=
  ∃ bytes, files.generations[generation]? = some bytes ∧
    readState (stateFilePath directory generation) bytes name generation = .ok state

/-- The corrupt generations of a directory. -/
def corruptGenerations (directory name : String) (files : NamespaceDirectory) : List Nat :=
  (files.generations.toList.filter fun file => !validGeneration directory name file).map Prod.fst

/-- The directory after the corrupt files are renamed away. -/
def withoutCorrupt (directory name : String) (files : NamespaceDirectory) : NamespaceDirectory :=
  (corruptGenerations directory name files).foldl NamespaceDirectory.removeGeneration files

/-- The files that a recovery leaves. -/
def recoveredFiles (directory name : String) (files : NamespaceDirectory) : NamespaceDirectory :=
  (withoutCorrupt directory name files).cleanupPending.pruneGenerations

variable {bytes : List UInt8}

/-- Renaming the corrupt files away leaves the valid ones. -/
theorem getElem?_withoutCorrupt :
    (withoutCorrupt directory name files).generations[generation]? = some bytes ↔
      files.generations[generation]? = some bytes ∧
        validGeneration directory name (generation, bytes) = true := by
  have hcorrupt : generation ∈ corruptGenerations directory name files ↔
      ∃ bytes, files.generations[generation]? = some bytes ∧
        validGeneration directory name (generation, bytes) = false := by
    simp [corruptGenerations, ExtTreeMap.mem_toList_iff_getElem?_eq_some]
  rw [withoutCorrupt, getElem?_foldl_removeGeneration]
  constructor
  · intro h
    split at h
    · cases h
    · rename_i hkept
      refine ⟨h, ?_⟩
      by_contra hinvalid
      exact hkept (hcorrupt.mpr ⟨bytes, h, by simpa using hinvalid⟩)
  · rintro ⟨hfile, hvalid⟩
    rw [if_neg, hfile]
    intro hmem
    obtain ⟨other, hother, hinvalid⟩ := hcorrupt.mp hmem
    cases hfile.symm.trans hother
    rw [hvalid] at hinvalid
    cases hinvalid

/-- What a recovery leaves is valid and was there. -/
theorem valid_of_recoveredFiles
    (h : (recoveredFiles directory name files).generations[generation]? = some bytes) :
    files.generations[generation]? = some bytes ∧
      validGeneration directory name (generation, bytes) = true := by
  have hbefore : (withoutCorrupt directory name files).cleanupPending.generations[generation]?
      = some bytes := mem_of_foldl_removeGeneration h
  exact getElem?_withoutCorrupt.mp hbefore

/-- A recovery leaves every valid generation that has at most one newer valid one. -/
theorem mem_recoveredFiles (hfile : files.generations[generation]? = some bytes)
    (hvalid : validGeneration directory name (generation, bytes) = true)
    (hnewest : ∀ a b s t, ValidGeneration directory name files a s →
      ValidGeneration directory name files b t → generation < a → generation < b → a = b) :
    (recoveredFiles directory name files).generations[generation]? = some bytes := by
  have hmem : ∀ a ∈ (withoutCorrupt directory name files).generations,
      ∃ s, ValidGeneration directory name files a s := by
    intro a ha
    obtain ⟨bytes, hbytes⟩ := Option.isSome_iff_exists.mp (ExtTreeMap.mem_iff_isSome_getElem?.mp ha)
    obtain ⟨hfile, hvalid⟩ := getElem?_withoutCorrupt.mp hbytes
    obtain ⟨state, hread⟩ := validGeneration_iff.mp hvalid
    exact ⟨state, bytes, hfile, hread⟩
  have hkept : (recoveredFiles directory name files).generations[generation]?
      = (withoutCorrupt directory name files).generations[generation]? := by
    refine pruneGenerations_of_greater_unique fun a ha b hb hlt hlt' => ?_
    obtain ⟨s, hs⟩ := hmem a ha
    obtain ⟨t, ht⟩ := hmem b hb
    exact hnewest a b s t hs ht hlt hlt'
  exact hkept.trans (getElem?_withoutCorrupt.mpr ⟨hfile, hvalid⟩)

/-! ## Recovery -/

/-- A recovery that succeeds leaves the recovered files and reports the newest valid generation. -/
theorem recover_eq_ok {processId sequence : Nat} {report : RecoveryReport}
    (h : (files.recover processId sequence directory name).1 = .ok report) :
    (files.recover processId sequence directory name).2 = recoveredFiles directory name files ∧
      report.validGeneration
        = ((files.generations.toList.filter (validGeneration directory name)).map Prod.fst).max? := by
  unfold NamespaceDirectory.recover at h ⊢
  cases hloop : files.generations.toList.foldlM (sortGeneration directory name) ([], []) with
  | error error =>
    rw [hloop] at h
    cases h
  | ok sorted =>
    rw [hloop] at h
    obtain ⟨valid, corrupt⟩ := sorted
    obtain ⟨rfl, rfl⟩ := foldlM_sortGeneration hloop
    rw [List.nil_append, List.nil_append] at h ⊢
    simp only at h ⊢
    split at h
    · cases h
    · rename_i hrecoverable
      cases h
      rw [if_neg hrecoverable]
      exact ⟨rfl, rfl⟩

/-- A recovery that fails leaves the directory. -/
theorem recover_eq_error {processId sequence : Nat} {error : Error}
    (h : (files.recover processId sequence directory name).1 = .error error) :
    (files.recover processId sequence directory name).2 = files := by
  unfold NamespaceDirectory.recover at h ⊢
  split
  · rfl
  · rename_i valid corrupt hloop
    rw [hloop] at h
    simp only at h ⊢
    split
    · rfl
    · rename_i hrecoverable
      rw [if_neg hrecoverable] at h
      cases h

/-- A recovery of valid files renames nothing. -/
theorem recover_of_valid (processId sequence : Nat)
    (h : ∀ file ∈ files.generations.toList, validGeneration directory name file = true) :
    ∃ report, (files.recover processId sequence directory name).1 = .ok report ∧
      report.quarantined = [] := by
  unfold NamespaceDirectory.recover
  rw [foldlM_sortGeneration_valid h]
  simp only [List.isEmpty_nil, not_true_eq_false, and_false, if_false]
  exact ⟨_, rfl, rfl⟩

/-- The newest valid generation is what is loaded from the files that a recovery leaves. -/
theorem loadState_recoveredFiles {state : State}
    (hvalid : ValidGeneration directory name files generation state)
    (hnewest : ∀ other read, ValidGeneration directory name files other read →
      other ≤ generation) :
    loadState directory name (recoveredFiles directory name files) = .ok state := by
  obtain ⟨bytes, hfile, hread⟩ := hvalid
  have hgeneration := (readState_wellFormed hread).2
  have hleft : (recoveredFiles directory name files).generations[generation]? = some bytes := by
    refine mem_recoveredFiles hfile (validGeneration_iff.mpr ⟨state, hread⟩) fun a b s t hs _ hlt _ => ?_
    have := hnewest a s hs
    omega
  refine foldlM_loadGeneration_newest (fun file hmem => ?_) (fun file hmem => ?_) (Nat.zero_le _)
    (.inr ⟨(generation, bytes), ExtTreeMap.mem_toList_iff_getElem?_eq_some.mpr hleft,
      hgeneration.symm⟩)
  · obtain ⟨hbefore, hfileValid⟩ :=
      valid_of_recoveredFiles (ExtTreeMap.mem_toList_iff_getElem?_eq_some.mp hmem)
    obtain ⟨read, hreads⟩ := validGeneration_iff.mp hfileValid
    refine ⟨read, hreads, fun heq => ?_⟩
    rw [hgeneration] at heq
    rw [heq] at hbefore hreads
    cases hfile.symm.trans hbefore
    exact Except.ok.inj (hreads.symm.trans hread)
  · obtain ⟨hbefore, hfileValid⟩ :=
      valid_of_recoveredFiles (ExtTreeMap.mem_toList_iff_getElem?_eq_some.mp hmem)
    obtain ⟨read, hreads⟩ := validGeneration_iff.mp hfileValid
    rw [hgeneration]
    exact hnewest file.1 read ⟨file.2, hbefore, hreads⟩

/-- Recovery is sound, for any mix of valid and corrupt generation files. A recovery that reports a
generation reports the newest valid one; its state is what is loaded afterwards, and another recovery
renames nothing. A recovery that finds no valid generation among its files leaves them. In every case
a valid generation with at most one newer valid one is still there. -/
theorem recover_sound (storage : DirectoryStorage) (name : String) (processId sequence : Nat) :
    let directory := storage.namespaceDirectory name
    let files := storage.files name
    let recovery := storage.recover processId sequence name
    (∀ report generation, recovery.1 = .ok report → report.validGeneration = some generation →
      ∃ state, ValidGeneration directory name files generation state ∧
        (∀ other read, ValidGeneration directory name files other read → other ≤ generation) ∧
        recovery.2.Holds name state ∧
        ∀ processId sequence, ∃ again,
          (recovery.2.recover processId sequence name).1 = .ok again ∧ again.quarantined = []) ∧
    (recovery.1 = .error .noRecoverableState → recovery.2.files name = files) ∧
    ∀ generation state bytes, files.generations[generation]? = some bytes →
      ValidGeneration directory name files generation state →
      (∀ a b s t, ValidGeneration directory name files a s → ValidGeneration directory name files b t →
        generation < a → generation < b → a = b) →
      (recovery.2.files name).generations[generation]? = some bytes := by
  intro directory files recovery
  cases hname : validateNamespace name with
  | error error =>
    have hrecovery : recovery = (.error error, storage) := by
      simp [recovery, DirectoryStorage.recover, DirectoryStorage.withNamespace, hname]
    rw [hrecovery]
    refine ⟨?_, fun _ => rfl, fun _ _ _ hfile _ _ => hfile⟩
    intro _ _ hok
    cases hok
  | ok _ =>
    obtain ⟨hresult, hfiles⟩ : recovery.1 = (files.recover processId sequence directory name).1 ∧
        recovery.2.files name = (files.recover processId sequence directory name).2 :=
      storage.withNamespace_of_valid hname fun directory files =>
        files.recover processId sequence directory name
    have hdirectory : recovery.2.namespaceDirectory name = directory := by
      rw [DirectoryStorage.namespaceDirectory]
      exact congrArg (· ++ "/" ++ _) (storage.withNamespace_root name _)
    rw [hresult, hfiles]
    refine ⟨fun report generation hok hreport => ?_, recover_eq_error,
      fun generation state bytes hfile hvalid hnewest => ?_⟩
    · obtain ⟨hleft, hmax⟩ := recover_eq_ok hok
      rw [hmax, List.max?_eq_some_iff] at hreport
      obtain ⟨hmem, hle⟩ := hreport
      have hvalid : ∀ other, other ∈ (files.generations.toList.filter
          (validGeneration directory name)).map Prod.fst ↔
            ∃ read, ValidGeneration directory name files other read := by
        intro other
        simp only [List.mem_map, List.mem_filter, Prod.exists, exists_and_right, exists_eq_right,
          ExtTreeMap.mem_toList_iff_getElem?_eq_some, validGeneration_iff, ValidGeneration]
        constructor
        · rintro ⟨bytes, hfile, read, hread⟩
          exact ⟨read, bytes, hfile, hread⟩
        · rintro ⟨read, bytes, hfile, hread⟩
          exact ⟨bytes, hfile, read, hread⟩
      obtain ⟨state, hstate⟩ := (hvalid generation).mp hmem
      have hnewest : ∀ other read, ValidGeneration directory name files other read →
          other ≤ generation := fun other read hother => hle other ((hvalid other).mpr ⟨read, hother⟩)
      refine ⟨state, hstate, hnewest, ?_, fun processId sequence => ?_⟩
      · rw [DirectoryStorage.Holds, hdirectory, hfiles, hleft]
        exact loadState_recoveredFiles hstate hnewest
      · have hagain := (recovery.2.withNamespace_of_valid hname fun directory files =>
          files.recover processId sequence directory name).1
        rw [hdirectory, hfiles, hleft] at hagain
        have hall : ∀ file ∈ (recoveredFiles directory name files).generations.toList,
            validGeneration directory name file = true := fun file hmem =>
          (valid_of_recoveredFiles (ExtTreeMap.mem_toList_iff_getElem?_eq_some.mp hmem)).2
        obtain ⟨again, hok, hnone⟩ := recover_of_valid processId sequence hall
        exact ⟨again, hagain.trans hok, hnone⟩
    · cases hok : (files.recover processId sequence directory name).1 with
      | error error => rw [recover_eq_error hok, hfile]
      | ok report =>
        rw [(recover_eq_ok hok).1]
        obtain ⟨found, hfound, hread⟩ := hvalid
        cases hfile.symm.trans hfound
        exact mem_recoveredFiles hfile (validGeneration_iff.mpr ⟨state, hread⟩) hnewest

end

/-- A corrupt newest generation is renamed away, and the one before it is loaded. -/
theorem recover_sound_corrupt_newest :
    let _ := nibbleCodec
    let _ := Sha2.sha256
    let _ := strictEnvelopeReader
    let state := State.ofContents 1 0 ((∅ : Entries).insert "k" [1])
    let files : NamespaceDirectory :=
      { generations := ((∅ : ExtTreeMap Nat (List UInt8)).insert 1 (encode (state.envelope "a"))).insert
          2 [0] }
    let storage : DirectoryStorage :=
      { root := "/state", directories := (∅ : ExtTreeMap String NamespaceDirectory).insert
          (DirectoryStorage.directoryName "a") files }
    ∃ state, (storage.recover 1 0 "a").2.Holds "a" state ∧ state.generation = 1 := by
  intro _ _ _ state files storage
  have hlimits : StorageLimits.Valid ⟨16, 2, 12⟩ := by constructor <;> decide
  have hput : State.put {} "k" [1] ⟨16, 2, 12⟩
      = .ok ((), some (.ofContents 0 0 ((∅ : Entries).insert "k" [1]))) :=
    State.put_new State.wellFormed_default hlimits (by simp) (by decide) (by decide)
  have hwell : state.WellFormed := (State.put_next State.wellFormed_default (by decide) hlimits
    (by decide) hput).1.withGeneration 1
  have hname : validateNamespace "a" = .ok () := by decide
  have hsize : (encode (state.envelope "a")).length ≤ maxStateFileBytes := by
    rw [length_encode_envelope hname hwell.valid]
    decide
  have hfirst : ∀ path, readState path (encode (state.envelope "a")) "a" 1 = .ok state := fun path =>
    (readState_envelope hwell path "a").trans (if_pos hsize)
  have hsecond : ∀ path, ∃ message, readState path [0] "a" 2 = .error (.corrupt message) :=
    fun path => ⟨_, rfl⟩
  obtain ⟨hresult, -⟩ := storage.withNamespace_of_valid hname fun directory files =>
    files.recover 1 0 directory "a"
  have hfiles : storage.files "a" = files := by simp [storage, DirectoryStorage.files]
  obtain ⟨message, hcorrupt⟩ := hsecond (stateFilePath (storage.namespaceDirectory "a") 2)
  have hloop : files.generations.toList.foldlM
      (sortGeneration (storage.namespaceDirectory "a") "a") ([], []) = .ok ([1], [2]) := by
    have hlist : files.generations.toList = [(1, encode (state.envelope "a")), (2, [0])] := rfl
    simp [hlist, sortGeneration, hfirst, hcorrupt, ok_bind, pure_eq_ok]
  rw [hfiles, NamespaceDirectory.recover, hloop] at hresult
  obtain ⟨found, hfound, -, hload, -⟩ :=
    (recover_sound storage "a" 1 0).1 _ 1 hresult rfl
  obtain ⟨bytes, -, hread⟩ := hfound
  exact ⟨found, hload, (readState_wellFormed hread).2⟩

end CartridgeRuntime.Storage
