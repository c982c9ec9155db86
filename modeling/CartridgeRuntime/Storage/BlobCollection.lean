import CartridgeRuntime.Storage.BlobLimit
import CartridgeRuntime.Library.Sha2

/-!
# What a collection removes

`gcWithReferences` verifies the references and everything that it is going to remove before it removes
the first object. `collect` is the same call with the store it leaves when it fails (`collect_eq_ok`).
`collection_exact`: what is left is what was retained or referenced, the report counts what has gone,
a dry run reports the same, and a call that fails removes nothing.
-/

namespace CartridgeRuntime.Storage

open Checked CartridgeRuntime.Core Encoding
open Std (ExtTreeMap)

namespace BlobStore

/-- Remove the objects in turn. The counters are set after the file has been removed. -/
def removeObjects :
    List (String × Nat) → BlobGcReport → BlobStore → Except BlobError BlobGcReport × BlobStore
  | [], report, store => (.ok report, store)
  | (name, bytes) :: removals, report, store =>
    let store : BlobStore := { objects := store.objects.erase name }
    match addBytes report.removedBytes bytes "blob removal size overflowed" with
    | .error error => (.error error, store)
    | .ok removedBytes =>
      removeObjects removals { report with removed := report.removed + 1, removedBytes } store

variable [HexCodec] [Sha256]

/-- The first half of a collection: the report so far and what is to be removed. -/
def gcCandidates (store : BlobStore) (retained : Finset String)
    (references : ExtTreeMap String Nat) (dryRun : Bool) :
    Except BlobError (BlobGcReport × List (String × Nat)) := do
  validateGcRootCount retained.card references.size
  discard (store.verifyReferences references)
  let retained := retained ∪ (references.toList.map Prod.fst).toFinset
  (retained.sort (· ≤ ·)).forM validateBlobDigest
  let files ← store.objectFiles
  files.foldlM (store.collectObject retained) ({ retained := retained.card, dryRun }, [])

/-- A collection with the store that it leaves, also when it fails. -/
def collect (store : BlobStore) (retained : Finset String) (references : ExtTreeMap String Nat)
    (dryRun : Bool) : Except BlobError BlobGcReport × BlobStore :=
  match store.gcCandidates retained references dryRun with
  | .error error => (.error error, store)
  | .ok (report, removals) =>
    if dryRun then (.ok report, store) else removeObjects removals report store

/-! ## The calls agree -/

omit [HexCodec] [Sha256] in
/-- Removals that succeed leave the same report and store. -/
theorem foldlM_removeObject {removals : List (String × Nat)} {report report' : BlobGcReport}
    {store after : BlobStore} :
    removals.foldlM removeObject (report, store) = .ok (report', after) ↔
      removeObjects removals report store = (.ok report', after) := by
  induction removals generalizing report store with
  | nil => simp [removeObjects]
  | cons removal removals ih =>
    obtain ⟨name, bytes⟩ := removal
    rw [List.foldlM_cons, removeObjects, removeObject]
    cases addBytes report.removedBytes bytes "blob removal size overflowed" with
    | error error => simp
    | ok removedBytes => exact ih

/-- A call collects what is to be removed and then removes it. -/
theorem gcWithReferences_eq (store : BlobStore) (retained : Finset String)
    (references : ExtTreeMap String Nat) (dryRun : Bool) :
    store.gcWithReferences retained references dryRun
      = store.gcCandidates retained references dryRun >>= fun (report, removals) =>
        if dryRun then .ok (report, store) else removals.foldlM removeObject (report, store) := by
  simp only [gcWithReferences, gcLocked, gcCandidates, bind_assoc, pure_eq_ok]

/-- `collect` is the call of the source. -/
theorem collect_eq_ok {store after : BlobStore} {retained : Finset String}
    {references : ExtTreeMap String Nat} {dryRun : Bool} {report : BlobGcReport} :
    store.collect retained references dryRun = (.ok report, after) ↔
      store.gcWithReferences retained references dryRun = .ok (report, after) := by
  rw [collect, gcWithReferences_eq]
  cases store.gcCandidates retained references dryRun with
  | error error => simp
  | ok planned =>
    obtain ⟨first, removals⟩ := planned
    cases dryRun with
    | true => simp
    | false => simpa using foldlM_removeObject.symm

/-! ## What is verified -/

theorem verify_eq_ok {store : BlobStore} {sha256 : String} {info : BlobInfo} :
    store.verify sha256 = .ok info ↔ isDigest sha256 ∧
      ∃ content, store.objects[sha256]? = some content ∧ content.length ≤ maxBlobBytes ∧
        sha256Hex content = sha256 ∧ ⟨sha256, content.length, true⟩ = info := by
  simp only [verify, hashBlob, bind_eq_ok, exists_unit, validateBlobDigest_eq_ok, okOr_eq_ok,
    rejectIf_eq_ok, pure_eq_ok, Except.ok.injEq, not_not, Nat.not_lt]
  constructor
  · rintro ⟨hdigest, content, hcontent, _, ⟨hlength, rfl⟩, hhash, hinfo⟩
    exact ⟨hdigest, content, hcontent, hlength, hhash, hinfo⟩
  · rintro ⟨hdigest, content, hcontent, hlength, hhash, hinfo⟩
    exact ⟨hdigest, content, hcontent, _, ⟨hlength, rfl⟩, hhash, hinfo⟩

variable {bytes : Nat} {name : String}

omit [HexCodec] [Sha256] in
theorem addBytes_eq_ok {total sum : Nat} {message : String} :
    addBytes total bytes message = .ok sum ↔ total + bytes ≤ wordMax ∧ total + bytes = sum := by
  rw [addBytes, okOr_eq_ok, checkedAdd_eq_some]

/-- A reference that is met: the object verifies and has this size. -/
def Verified (store : BlobStore) (name : String) (bytes : Nat) : Prop :=
  ∃ info, store.verify name = .ok info ∧ info.bytes = bytes

theorem verified_of_verifyReference {store : BlobStore} {report report' : BlobReferenceVerification}
    (h : store.verifyReference report (name, bytes) = .ok report') : store.Verified name bytes := by
  obtain ⟨reference, hnew, h⟩ := bind_eq_ok.mp h
  obtain ⟨⟨⟩, -, hreference⟩ := bind_eq_ok.mp hnew
  cases hreference
  obtain ⟨actual, hactual, h⟩ := bind_eq_ok.mp h
  obtain ⟨⟨⟩, hsize, -⟩ := bind_eq_ok.mp h
  exact ⟨actual, hactual, not_not.mp (rejectIf_eq_ok.mp hsize)⟩

theorem verified_of_verifyReferences {store : BlobStore} {references : ExtTreeMap String Nat}
    {report : BlobReferenceVerification} (h : store.verifyReferences references = .ok report)
    (hname : references[name]? = some bytes) : store.Verified name bytes := by
  obtain ⟨⟨⟩, -, h⟩ := bind_eq_ok.mp h
  have hmem := ExtTreeMap.mem_toList_iff_getElem?_eq_some.mpr hname
  generalize references.toList = entries at h hmem
  generalize ({} : BlobReferenceVerification) = start at h
  induction entries generalizing start with
  | nil => cases hmem
  | cons entry entries ih =>
    rw [List.foldlM_cons, bind_eq_ok] at h
    obtain ⟨next, hentry, hrest⟩ := h
    rcases List.mem_cons.mp hmem with rfl | hmem
    · exact verified_of_verifyReference hentry
    · exact ih hmem next hrest

/-- The size of an object that is there. -/
def objectSize (store : BlobStore) (name : String) : Nat :=
  (store.objects[name]?.map List.length).getD 0

theorem bytes_of_verify {store : BlobStore} {info : BlobInfo} (h : store.verify name = .ok info) :
    info.bytes = store.objectSize name := by
  obtain ⟨-, content, hcontent, -, -, rfl⟩ := verify_eq_ok.mp h
  rw [objectSize, hcontent]
  rfl

/-- The scan lists what is not retained, in order and with its size, and has verified it. -/
theorem foldlM_collectObject {store : BlobStore} {retained : Finset String} {names : List String}
    {report : BlobGcReport} {removals : List (String × Nat)}
    {planned : BlobGcReport × List (String × Nat)}
    (h : names.foldlM (store.collectObject retained) (report, removals) = .ok planned) :
    (∀ name ∈ names, name ∉ retained → ∃ info, store.verify name = .ok info) ∧
      planned.2 = removals ++
        (names.filter (· ∉ retained)).map (fun name => (name, store.objectSize name)) ∧
      planned.1 = { report with
        removable := report.removable + (names.filter (· ∉ retained)).length
        removableBytes := report.removableBytes
          + ((names.filter (· ∉ retained)).map store.objectSize).sum } ∧
      (report.removableBytes ≤ wordMax → planned.1.removableBytes ≤ wordMax) := by
  induction names generalizing report removals with
  | nil =>
    cases h
    simp
  | cons name names ih =>
    rw [List.foldlM_cons, bind_eq_ok] at h
    obtain ⟨next, hnext, hrest⟩ := h
    by_cases hretained : name ∈ retained
    · rw [collectObject, if_pos hretained] at hnext
      cases hnext
      obtain ⟨hverified, hremovals, hreport, hbound⟩ := ih hrest
      have hfilter : (name :: names).filter (· ∉ retained) = names.filter (· ∉ retained) :=
        List.filter_cons_of_neg (by simpa using hretained)
      rw [hfilter]
      refine ⟨List.forall_mem_cons.mpr ⟨absurd hretained, hverified⟩, hremovals, hreport, hbound⟩
    · rw [collectObject, if_neg hretained] at hnext
      obtain ⟨info, hinfo, hnext⟩ := bind_eq_ok.mp hnext
      obtain ⟨bytes, hbytes, hnext⟩ := bind_eq_ok.mp hnext
      obtain ⟨hle, rfl⟩ := addBytes_eq_ok.mp hbytes
      cases hnext
      obtain ⟨hverified, hremovals, hreport, hbound⟩ := ih hrest
      have hfilter : (name :: names).filter (· ∉ retained)
          = name :: names.filter (· ∉ retained) :=
        List.filter_cons_of_pos (by simpa using hretained)
      rw [hfilter, hremovals, hreport, bytes_of_verify hinfo]
      refine ⟨List.forall_mem_cons.mpr ⟨fun _ => ⟨info, hinfo⟩, hverified⟩, ?_, ?_, fun _ => ?_⟩
      · rw [List.append_assoc, List.map_cons, List.singleton_append]
      · simp only [List.length_cons, List.map_cons, List.sum_cons, Nat.add_assoc, Nat.add_comm]
      · have hsum := hbound hle
        rwa [hreport, bytes_of_verify hinfo] at hsum

omit [HexCodec] [Sha256] in
/-- A scan that succeeds has all names. -/
theorem files_of_foldlM_scanObject {names files files' : List String}
    (h : names.foldlM scanObject files = .ok files') : files' = files ++ names := by
  induction names generalizing files with
  | nil =>
    cases h
    exact (List.append_nil _).symm
  | cons name names ih =>
    rw [List.foldlM_cons, bind_eq_ok] at h
    obtain ⟨next, hnext, hrest⟩ := h
    obtain ⟨⟨⟩, -, hnext⟩ := bind_eq_ok.mp hnext
    obtain ⟨⟨⟩, -, hnext⟩ := bind_eq_ok.mp hnext
    cases hnext
    rw [ih hrest, List.append_assoc, List.singleton_append]

/-! ## The removal -/

omit [HexCodec] [Sha256] in
/-- The removal succeeds when the sizes have been added up before. -/
theorem removeObjects_eq {removals : List (String × Nat)} {report : BlobGcReport}
    {store : BlobStore} (h : report.removedBytes + (removals.map Prod.snd).sum ≤ wordMax) :
    removeObjects removals report store =
      (.ok { report with
          removed := report.removed + removals.length
          removedBytes := report.removedBytes + (removals.map Prod.snd).sum },
        { objects := (removals.map Prod.fst).foldl ExtTreeMap.erase store.objects }) := by
  induction removals generalizing report store with
  | nil => rfl
  | cons removal removals ih =>
    obtain ⟨name, bytes⟩ := removal
    simp only [List.map_cons, List.sum_cons, List.length_cons, List.foldl_cons] at h ⊢
    have hadd : addBytes report.removedBytes bytes "blob removal size overflowed"
        = .ok (report.removedBytes + bytes) := addBytes_eq_ok.mpr ⟨by omega, rfl⟩
    rw [removeObjects, hadd]
    dsimp only
    rw [ih (by dsimp only; omega)]
    simp only [Nat.add_assoc, Nat.add_comm 1]

/-! ## Collections -/

section

variable {store after : BlobStore} {retained : Finset String} {references : ExtTreeMap String Nat}
  {dryRun : Bool} {report : BlobGcReport} {removals : List (String × Nat)}

section

omit [HexCodec] [Sha256]

/-- The names that a collection keeps. -/
theorem mem_kept :
    name ∈ retained ∪ (references.toList.map Prod.fst).toFinset ↔
      name ∈ retained ∨ name ∈ references := by
  rw [Finset.mem_union, List.mem_toFinset, ExtTreeMap.mem_iff_isSome_getElem?,
    Option.isSome_iff_exists, List.mem_map]
  refine or_congr_right ⟨?_, ?_⟩
  · rintro ⟨⟨name, bytes⟩, hmem, rfl⟩
    exact ⟨bytes, ExtTreeMap.mem_toList_iff_getElem?_eq_some.mp hmem⟩
  · rintro ⟨bytes, hbytes⟩
    exact ⟨(name, bytes), ExtTreeMap.mem_toList_iff_getElem?_eq_some.mpr hbytes, rfl⟩

/-- The objects that a collection is to remove. -/
def unreferenced (store : BlobStore) (retained : Finset String)
    (references : ExtTreeMap String Nat) : List (String × List UInt8) :=
  store.objects.toList.filter fun object => object.1 ∉ retained ∧ object.1 ∉ references

end

/-- What a plan promises. -/
structure Planned (store : BlobStore) (retained : Finset String)
    (references : ExtTreeMap String Nat) (report : BlobGcReport)
    (removals : List (String × Nat)) : Prop where
  met : ∀ name bytes, references[name]? = some bytes → store.Verified name bytes
  verified : ∀ name ∈ store.objects, name ∉ retained → name ∉ references →
    ∃ info, store.verify name = .ok info
  removals_eq : removals
    = (store.unreferenced retained references).map fun object => (object.1, object.2.length)
  removable : report.removable = (store.unreferenced retained references).length
  removableBytes : report.removableBytes
    = ((store.unreferenced retained references).map fun object => object.2.length).sum
  removed : report.removed = 0
  removedBytes : report.removedBytes = 0
  bound : report.removableBytes ≤ wordMax

section

omit [HexCodec] [Sha256]

theorem filter_names :
    (store.objects.toList.map Prod.fst).filter
        (· ∉ retained ∪ (references.toList.map Prod.fst).toFinset)
      = (store.unreferenced retained references).map Prod.fst := by
  rw [List.filter_map, unreferenced]
  refine congrArg (List.map Prod.fst) (List.filter_congr fun object _ => ?_)
  simp only [Function.comp_apply, mem_kept, not_or]

theorem objectSize_of_mem {object : String × List UInt8} (h : object ∈ store.objects.toList) :
    store.objectSize object.1 = object.2.length := by
  rw [objectSize, ExtTreeMap.mem_toList_iff_getElem?_eq_some.mp h]
  rfl

end

/-- A plan is made only when everything has been verified. -/
theorem planned_of_gcCandidates
    (h : store.gcCandidates retained references dryRun = .ok (report, removals)) :
    Planned store retained references report removals := by
  simp only [gcCandidates, bind_eq_ok, exists_unit] at h
  obtain ⟨-, hreferences, -, files, hfiles, hscan⟩ := h
  obtain ⟨verification, hreferences⟩ := discard_eq_ok.mp hreferences
  obtain rfl : files = store.objects.toList.map Prod.fst := files_of_foldlM_scanObject hfiles
  obtain ⟨hverified, hremovals, hreport, hbound⟩ := foldlM_collectObject hscan
  rw [filter_names] at hremovals hreport
  dsimp only at hremovals hreport hbound
  have hsizes : ∀ object ∈ store.unreferenced retained references,
      store.objectSize object.1 = object.2.length := fun object hobject =>
    objectSize_of_mem (List.mem_filter.mp hobject).1
  have hsum : ((store.unreferenced retained references).map Prod.fst).map store.objectSize
      = (store.unreferenced retained references).map fun object => object.2.length := by
    rw [List.map_map]
    exact List.map_congr_left hsizes
  refine ⟨fun name bytes => verified_of_verifyReferences hreferences, ?_, ?_, ?_, ?_, ?_, ?_, ?_⟩
  · intro name hname hretained hreference
    refine hverified name ?_ (mt mem_kept.mp (not_or.mpr ⟨hretained, hreference⟩))
    obtain ⟨content, hcontent⟩ :=
      Option.isSome_iff_exists.mp (ExtTreeMap.mem_iff_isSome_getElem?.mp hname)
    exact List.mem_map.mpr
      ⟨(name, content), ExtTreeMap.mem_toList_iff_getElem?_eq_some.mpr hcontent, rfl⟩
  · rw [hremovals, List.nil_append, List.map_map]
    exact List.map_congr_left fun object hobject =>
      congrArg (Prod.mk object.1) (hsizes object hobject)
  · simp only [hreport, List.length_map, Nat.zero_add]
  · simp only [hreport, hsum, Nat.zero_add]
  · simp only [hreport]
  · simp only [hreport]
  · exact hbound (Nat.zero_le _)

/-- The store without what a collection removes. -/
def remaining (store : BlobStore) (retained : Finset String)
    (references : ExtTreeMap String Nat) : BlobStore where
  objects := ((store.unreferenced retained references).map Prod.fst).foldl
    ExtTreeMap.erase store.objects

/-- A collection that is planned is carried out in full. -/
theorem Planned.removeObjects_eq (h : Planned store retained references report removals) :
    removeObjects removals report store =
      (.ok { report with removed := report.removable, removedBytes := report.removableBytes },
        store.remaining retained references) := by
  have hsizes : (removals.map Prod.snd).sum = report.removableBytes := by
    rw [h.removals_eq, h.removableBytes, List.map_map]
    rfl
  have hlength : removals.length = report.removable := by
    rw [h.removals_eq, h.removable, List.length_map]
  have hnames : removals.map Prod.fst = (store.unreferenced retained references).map Prod.fst := by
    rw [h.removals_eq, List.map_map]
    rfl
  rw [BlobStore.removeObjects_eq (by rw [hsizes, h.removedBytes, Nat.zero_add]; exact h.bound),
    hsizes, hlength, hnames, h.removed, h.removedBytes, Nat.zero_add, Nat.zero_add]
  rfl

omit [HexCodec] [Sha256] in
theorem getElem?_remaining :
    (store.remaining retained references).objects[name]?
      = if name ∈ retained ∨ name ∈ references then store.objects[name]? else none := by
  rw [remaining, TreeMap.getElem?_foldl_erase]
  have hmem : name ∈ (store.unreferenced retained references).map Prod.fst ↔
      name ∈ store.objects ∧ name ∉ retained ∧ name ∉ references := by
    rw [← filter_names, List.mem_filter, decide_eq_true_eq, mem_kept, not_or]
    refine and_congr_left fun _ => ?_
    rw [ExtTreeMap.mem_iff_isSome_getElem?, Option.isSome_iff_exists, List.mem_map]
    refine ⟨?_, ?_⟩
    · rintro ⟨⟨name, content⟩, hmem, rfl⟩
      exact ⟨content, ExtTreeMap.mem_toList_iff_getElem?_eq_some.mp hmem⟩
    · rintro ⟨content, hcontent⟩
      exact ⟨(name, content), ExtTreeMap.mem_toList_iff_getElem?_eq_some.mpr hcontent, rfl⟩
  by_cases hkept : name ∈ retained ∨ name ∈ references
  · rw [if_pos hkept, if_neg]
    exact fun h => absurd hkept (not_or.mpr (hmem.mp h).2)
  · rw [if_neg hkept]
    by_cases hthere : name ∈ store.objects
    · exact if_pos (hmem.mpr ⟨hthere, not_or.mp hkept⟩)
    · rw [if_neg fun h => hthere (hmem.mp h).1]
      exact ExtTreeMap.getElem?_eq_none hthere

/-- What was there and is not any more. -/
def gone (store after : BlobStore) : List (String × List UInt8) :=
  store.objects.toList.filter fun object => object.1 ∉ after.objects

omit [HexCodec] [Sha256] in
theorem gone_remaining :
    store.gone (store.remaining retained references) = store.unreferenced retained references := by
  refine List.filter_congr fun object hobject => ?_
  have hthere := ExtTreeMap.mem_toList_iff_getElem?_eq_some.mp hobject
  rw [decide_eq_decide, ExtTreeMap.mem_iff_isSome_getElem?, getElem?_remaining, hthere, ← not_or]
  split <;> simp [*]

/-- An object that is kept verifies as before. -/
theorem verify_remaining (h : name ∈ retained ∨ name ∈ references) :
    (store.remaining retained references).verify name = store.verify name := by
  rw [verify, verify, getElem?_remaining, if_pos h]

/-- The scan does not look at whether it is a dry run. -/
theorem foldlM_collectObject_dryRun (names : List String) (kept : Finset String)
    (report : BlobGcReport) (removals : List (String × Nat)) (dryRun : Bool) :
    names.foldlM (store.collectObject kept) ({ report with dryRun }, removals)
      = (names.foldlM (store.collectObject kept) (report, removals)).map fun planned =>
          ({ planned.1 with dryRun }, planned.2) := by
  induction names generalizing report removals with
  | nil => rfl
  | cons name names ih =>
    rw [List.foldlM_cons, List.foldlM_cons, map_bind]
    by_cases hkept : name ∈ kept
    · rw [collectObject, collectObject, if_pos hkept, if_pos hkept]
      exact ih report removals
    · rw [collectObject, collectObject, if_neg hkept, if_neg hkept]
      cases store.verify name with
      | error error => rfl
      | ok info =>
        dsimp only [ok_bind]
        cases addBytes report.removableBytes info.bytes
            "blob garbage collection size overflowed" with
        | error error => rfl
        | ok bytes =>
          exact ih { report with removable := report.removable + 1, removableBytes := bytes }
            (removals ++ [(name, info.bytes)])

/-- The plan of a dry run is that of the collection. -/
theorem gcCandidates_dryRun (other : Bool)
    (h : store.gcCandidates retained references dryRun = .ok (report, removals)) :
    store.gcCandidates retained references other
      = .ok ({ report with dryRun := other }, removals) := by
  simp only [gcCandidates, bind_eq_ok, exists_unit] at h ⊢
  obtain ⟨hroots, hreferences, hdigests, files, hfiles, hscan⟩ := h
  refine ⟨hroots, hreferences, hdigests, files, hfiles, ?_⟩
  have hother := store.foldlM_collectObject_dryRun files
    (retained ∪ (references.toList.map Prod.fst).toFinset)
    { retained := (retained ∪ (references.toList.map Prod.fst).toFinset).card, dryRun } [] other
  rw [hscan] at hother
  exact hother

/-! ## Results of collections -/

theorem collect_of_planned
    (h : store.gcCandidates retained references dryRun = .ok (report, removals)) :
    store.collect retained references dryRun
      = if dryRun then (.ok report, store)
        else (.ok { report with removed := report.removable, removedBytes := report.removableBytes },
          store.remaining retained references) := by
  rw [collect, h]
  dsimp only
  rw [(planned_of_gcCandidates h).removeObjects_eq]

theorem collect_cases (store : BlobStore) (retained : Finset String)
    (references : ExtTreeMap String Nat) (dryRun : Bool) :
    (∃ error, store.collect retained references dryRun = (.error error, store)) ∨
      ∃ report removals, store.gcCandidates retained references dryRun = .ok (report, removals) := by
  rw [collect]
  cases store.gcCandidates retained references dryRun with
  | error error => exact .inl ⟨error, rfl⟩
  | ok planned => exact .inr ⟨planned.1, planned.2, rfl⟩

end

/-- A collection is exact. What it leaves are the objects that are retained or referenced, the
referenced ones verify with their sizes, and the report counts what is gone; a dry run gives the same
totals and changes nothing; and if a reference or an object that would be removed does not verify, or
the call fails for another reason, nothing is removed. -/
theorem collection_exact (store : BlobStore) (retained : Finset String)
    (references : ExtTreeMap String Nat) :
    (∀ report after, store.collect retained references false = (.ok report, after) →
      (∀ name content, after.objects[name]? = some content ↔
        store.objects[name]? = some content ∧ (name ∈ retained ∨ name ∈ references)) ∧
      (∀ name bytes, references[name]? = some bytes → after.Verified name bytes) ∧
      report.removed = (store.gone after).length ∧
      report.removedBytes = ((store.gone after).map fun object => object.2.length).sum ∧
      ∃ dry, store.collect retained references true = (.ok dry, store) ∧
        dry.removable = report.removed ∧ dry.removableBytes = report.removedBytes) ∧
    (∀ result after, store.collect retained references true = (result, after) → after = store ∧
      ∀ dry, result = .ok dry → ∃ report after',
        store.collect retained references false = (.ok report, after') ∧
        dry.removable = report.removed ∧ dry.removableBytes = report.removedBytes) ∧
    (∀ dryRun, (∃ name bytes, references[name]? = some bytes ∧ ¬ store.Verified name bytes) ∨
        (∃ name ∈ store.objects, name ∉ retained ∧ name ∉ references ∧
          ∀ info, store.verify name ≠ .ok info) →
      ∃ error, store.collect retained references dryRun = (.error error, store)) ∧
    ∀ dryRun error after, store.collect retained references dryRun = (.error error, after) →
      after = store := by
  refine ⟨?_, ?_, ?_, ?_⟩
  · intro report after h
    rcases store.collect_cases retained references false with
      ⟨error, herror⟩ | ⟨first, removals, hplan⟩
    · rw [herror] at h
      cases h
    have hplanned := planned_of_gcCandidates hplan
    rw [collect_of_planned hplan, if_neg Bool.false_ne_true] at h
    cases h
    refine ⟨fun name content => ?_, fun name bytes hname => ?_, ?_, ?_, ?_⟩
    · rw [getElem?_remaining]
      split <;> simp [*]
    · obtain ⟨info, hinfo, hbytes⟩ := hplanned.met name bytes hname
      have hmem : name ∈ references :=
        ExtTreeMap.mem_iff_isSome_getElem?.mpr (Option.isSome_of_eq_some hname)
      exact ⟨info, (verify_remaining (.inr hmem)).trans hinfo, hbytes⟩
    · rw [gone_remaining]
      exact hplanned.removable
    · rw [gone_remaining]
      exact hplanned.removableBytes
    · exact ⟨_, collect_of_planned (gcCandidates_dryRun true hplan), rfl, rfl⟩
  · intro result after h
    rcases store.collect_cases retained references true with
      ⟨error, herror⟩ | ⟨first, removals, hplan⟩
    · rw [herror] at h
      cases h
      exact ⟨rfl, nofun⟩
    rw [collect_of_planned hplan, if_pos rfl] at h
    cases h
    refine ⟨rfl, fun dry hdry => ?_⟩
    cases hdry
    exact ⟨_, _, collect_of_planned (gcCandidates_dryRun false hplan), rfl, rfl⟩
  · intro dryRun hfails
    rcases store.collect_cases retained references dryRun with herror | ⟨first, removals, hplan⟩
    · exact herror
    have hplanned := planned_of_gcCandidates hplan
    rcases hfails with ⟨name, bytes, hname, hnot⟩ | ⟨name, hname, hretained, hreference, hnot⟩
    · exact absurd (hplanned.met name bytes hname) hnot
    · obtain ⟨info, hinfo⟩ := hplanned.verified name hname hretained hreference
      exact absurd hinfo (hnot info)
  · intro dryRun error after h
    rcases store.collect_cases retained references dryRun with
      ⟨other, hother⟩ | ⟨first, removals, hplan⟩
    · rw [hother] at h
      cases h
      rfl
    · rw [collect_of_planned hplan] at h
      split at h <;> cases h

end BlobStore

section

attribute [local instance] nibbleCodec Sha2.sha256

/-- Two blobs, the second of which is retained. -/
def twoBlobs : BlobStore where
  objects := ((∅ : ExtTreeMap String (List UInt8)).insert (sha256Hex [1]) [1]).insert
    (sha256Hex [2]) [2]

/-- The first of the two blobs is collected. -/
theorem collection_exact_case :
    ∃ report after, twoBlobs.collect {sha256Hex [2]} ∅ false = (.ok report, after) ∧
      report.removed = 1 ∧ ∀ name content, after.objects[name]? = some content ↔
        twoBlobs.objects[name]? = some content ∧
          (name ∈ ({sha256Hex [2]} : Finset String) ∨ name ∈ (∅ : ExtTreeMap String Nat)) := by
  have hrun : (twoBlobs.collect {sha256Hex [2]} ∅ false).1.toOption.map
      (fun report => report.removed) = some 1 := by
    decide +kernel
  obtain ⟨report, hreport, hremoved⟩ := exists_ok_of_toOption hrun
  refine ⟨report, (twoBlobs.collect {sha256Hex [2]} ∅ false).2, ?_, hremoved, ?_⟩
  · exact Prod.ext hreport rfl
  · exact ((BlobStore.collection_exact twoBlobs _ _).1 report _ (Prod.ext hreport rfl)).1

end

end CartridgeRuntime.Storage
