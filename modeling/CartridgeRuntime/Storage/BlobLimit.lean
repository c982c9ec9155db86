import CartridgeRuntime.Storage.Blob

/-!
# The object limit of the blob store

`inventory`, `audit` and `gc` refuse a store with more than 100000 objects, while `put` does not
count them. `scans_accepted_iff`: in a run of `put` and `gc` calls no store is refused exactly when
every `put` finds its blob stored already or the store below the limit.
-/

namespace CartridgeRuntime.Storage

open Checked CartridgeRuntime.Core Encoding
open Std (ExtTreeMap)

/-! ## Errors other than the limit -/

/-- The computation does not fail with the error of a store with too many objects. -/
abbrev WithinLimit {α : Type} (x : Except BlobError α) : Prop :=
  Avoids (· = objectLimitError) x

/-- The sixth character of a text stands in its beginning, if that is long enough. -/
theorem sixth_append {start : String} {c : Char} (h : start.toList[5]? = some c)
    (middle rest : String) : (start ++ middle ++ rest).toList[5]? = some c := by
  obtain ⟨hlength, -⟩ := List.getElem?_eq_some_iff.mp h
  rw [String.append_assoc, String.toList_append, List.getElem?_append_left hlength, h]

/-- The limit error is the only one whose text has an `s` there. -/
theorem ne_objectLimitError {text : String} (h : text.toList[5]? ≠ some 's') :
    ¬ BlobError.corrupt text = objectLimitError := by
  intro heq
  obtain rfl := BlobError.corrupt.inj heq
  exact h (sixth_append (by decide) _ _)

theorem append_ne_objectLimitError {start : String} (c : Char) (h : start.toList[5]? = some c)
    (hc : c ≠ 's') (middle rest : String) :
    ¬ BlobError.corrupt (start ++ middle ++ rest) = objectLimitError := by
  refine ne_objectLimitError fun heq => hc ?_
  rw [sixth_append h] at heq
  exact Option.some.inj heq

/-- A text that goes on with a digest is another one. -/
theorem digest_ne_objectLimitError {sha256 rest : String} (h : isDigest sha256) :
    ¬ BlobError.corrupt ("blob " ++ sha256 ++ rest) = objectLimitError := by
  refine ne_objectLimitError fun hchar => ?_
  have hlength := (plain_of_isDigest h).2
  rw [← String.length_toList] at hlength
  simp only [isDigest, Bool.and_eq_true, List.all_eq_true, decide_eq_true_eq] at h
  cases htext : sha256.toList with
  | nil => simp [htext] at hlength
  | cons c tail =>
    have hc : c = 's' := by simpa [htext] using hchar
    have hhex := h.2 c (htext ▸ List.mem_cons_self)
    rw [hc] at hhex
    exact absurd hhex (by decide)

theorem validateBlobDigest_eq_ok {value : String} :
    validateBlobDigest value = .ok () ↔ isDigest value := by
  rw [validateBlobDigest, rejectIf_eq_ok, not_not]

theorem validateBlobDigest_within (value : String) : WithinLimit (validateBlobDigest value) :=
  .rejectIf fun _ => ne_objectLimitError (by decide)

theorem addBytes_within {message : String} (h : message.toList[5]? ≠ some 's') (total bytes : Nat) :
    WithinLimit (addBytes total bytes message) :=
  .okOr fun _ => ne_objectLimitError h

theorem validateGcRootCount_within (retained references : Nat) :
    WithinLimit (validateGcRootCount retained references) :=
  (addBytes_within (by decide) _ _).bind fun _ _ =>
    .rejectIf fun _ => append_ne_objectLimitError 'g' (by decide) (by decide) _ _

theorem BlobReference.new_within (sha256 : String) (bytes : Nat) :
    WithinLimit (BlobReference.new sha256 bytes) :=
  ((validateBlobDigest_within _).bind fun _ _ =>
    .rejectIf fun _ => append_ne_objectLimitError 'r' (by decide) (by decide) _ _).bind fun _ _ => .ok _

section

variable [HexCodec] [Sha256]

theorem hashBlob_within (content : List UInt8) (limit : Nat) :
    WithinLimit (hashBlob content limit) :=
  .bind (.rejectIf fun _ => append_ne_objectLimitError 'e' (by decide) (by decide) _ _) fun _ _ => .ok _

namespace BlobStore

theorem verify_within (store : BlobStore) (sha256 : String) : WithinLimit (store.verify sha256) := by
  refine (validateBlobDigest_within _).bind fun _ hdigest => ?_
  refine .bind (.okOr fun _ => nofun) fun content _ => ?_
  refine (hashBlob_within _ _).bind fun _ _ => ?_
  refine .bind (.rejectIf fun _ => ?_) fun _ _ => .ok _
  exact digest_ne_objectLimitError (validateBlobDigest_eq_ok.mp hdigest)

theorem listObject_within (store : BlobStore) (inventory : BlobInventory) (name : String) :
    WithinLimit (store.listObject inventory name) := by
  refine (store.verify_within _).bind fun _ _ => ?_
  refine (addBytes_within (by decide) _ _).bind fun _ _ => ?_
  exact (BlobReference.new_within _ _).bind fun _ _ => .ok _

theorem auditObject_within (store : BlobStore) (report : BlobAuditReport) (name : String) :
    WithinLimit (store.auditObject report name) := by
  rw [auditObject]
  cases store.verify name with
  | ok info => exact (addBytes_within (by decide) _ _).bind fun _ _ => .ok _
  | error error => exact .ok _

theorem verifyReference_within (store : BlobStore) (report : BlobReferenceVerification)
    (entry : String × Nat) : WithinLimit (store.verifyReference report entry) := by
  refine (BlobReference.new_within _ _).bind fun reference hnew => ?_
  have hdigest : isDigest reference.sha256 := by
    obtain ⟨⟨⟩, hvalid, hvalue⟩ := bind_eq_ok.mp hnew
    cases hvalue
    obtain ⟨⟨⟩, hdigest, -⟩ := bind_eq_ok.mp hvalid
    exact validateBlobDigest_eq_ok.mp hdigest
  refine (store.verify_within _).bind fun actual _ => ?_
  refine .bind (.rejectIf fun _ => ?_) fun _ _ => ?_
  · simp only [String.append_assoc, toString]
    rw [← String.append_assoc]
    exact digest_ne_objectLimitError hdigest
  · exact (addBytes_within (by decide) _ _).bind fun _ _ => .ok _

theorem verifyReferences_within (store : BlobStore) (references : ExtTreeMap String Nat) :
    WithinLimit (store.verifyReferences references) :=
  (validateGcRootCount_within _ _).bind fun _ _ =>
    .foldlM (fun entry _ report => store.verifyReference_within report entry) _

theorem collectObject_within (store : BlobStore) (retained : Finset String)
    (state : BlobGcReport × List (String × Nat)) (name : String) :
    WithinLimit (store.collectObject retained state name) := by
  rw [collectObject]
  split
  · exact .ok _
  · refine (store.verify_within _).bind fun _ _ => ?_
    exact (addBytes_within (by decide) _ _).bind fun _ _ => .ok _

omit [HexCodec] [Sha256] in
theorem removeObject_within (state : BlobGcReport × BlobStore) (removal : String × Nat) :
    WithinLimit (removeObject state removal) :=
  (addBytes_within (by decide) _ _).bind fun _ _ => .ok _

/-! ## The scan -/

omit [HexCodec] [Sha256] in
/-- Every object has a digest for its name. -/
def DigestNames (store : BlobStore) : Prop :=
  ∀ name ∈ store.objects, isDigest name

variable {files : List String} {store : BlobStore}

section

omit [HexCodec] [Sha256]

theorem scanObject_of_lt {name : String} (hname : isDigest name)
    (h : files.length < maxBlobObjects) : scanObject files name = .ok (files ++ [name]) := by
  rw [scanObject, validateBlobDigest_eq_ok.mpr hname, ok_bind, rejectIf_of_not _ (by omega)]
  rfl

/-- Names within the limit are gathered. -/
theorem foldlM_scanObject_of_le {names : List String} (hnames : ∀ name ∈ names, isDigest name)
    (h : files.length + names.length ≤ maxBlobObjects) :
    names.foldlM scanObject files = .ok (files ++ names) := by
  induction names generalizing files with
  | nil => exact congrArg Except.ok (List.append_nil files).symm
  | cons name names ih =>
    rw [List.forall_mem_cons] at hnames
    rw [List.length_cons] at h
    rw [List.foldlM_cons, scanObject_of_lt hnames.1 (by omega), ok_bind,
      ih hnames.2 (by rw [List.length_append, List.length_singleton]; omega),
      List.append_assoc, List.singleton_append]

/-- The scan of more names stops at the limit. -/
theorem foldlM_scanObject_of_gt {names : List String} (hnames : ∀ name ∈ names, isDigest name)
    (hfiles : files.length ≤ maxBlobObjects) (h : maxBlobObjects < files.length + names.length) :
    names.foldlM scanObject files = .error objectLimitError := by
  induction names generalizing files with
  | nil => exact absurd h (by rw [List.length_nil]; omega)
  | cons name names ih =>
    rw [List.forall_mem_cons] at hnames
    rw [List.length_cons] at h
    rcases Nat.lt_or_ge files.length maxBlobObjects with hlt | hge
    · have hlength : (files ++ [name]).length = files.length + 1 := List.length_append
      rw [List.foldlM_cons, scanObject_of_lt hnames.1 hlt, ok_bind,
        ih hnames.2 (by omega) (by omega)]
    · rw [List.foldlM_cons, scanObject, validateBlobDigest_eq_ok.mpr hnames.1, ok_bind,
        rejectIf_of _ (by omega), error_bind, error_bind]

theorem DigestNames.isDigest_of_mem (h : store.DigestNames) :
    ∀ name ∈ store.objects.toList.map Prod.fst, isDigest name := by
  intro name hname
  obtain ⟨entry, hentry, rfl⟩ := List.mem_map.mp hname
  refine h entry.1 (ExtTreeMap.mem_iff_isSome_getElem?.mpr ?_)
  rw [ExtTreeMap.mem_toList_iff_getElem?_eq_some.mp hentry]
  rfl

theorem objectFiles_of_le (hnames : store.DigestNames) (h : store.objects.size ≤ maxBlobObjects) :
    store.objectFiles = .ok (store.objects.toList.map Prod.fst) :=
  foldlM_scanObject_of_le hnames.isDigest_of_mem
    (by rwa [List.length_nil, Nat.zero_add, List.length_map, ExtTreeMap.length_toList])

theorem objectFiles_of_gt (hnames : store.DigestNames) (h : maxBlobObjects < store.objects.size) :
    store.objectFiles = .error objectLimitError :=
  foldlM_scanObject_of_gt hnames.isDigest_of_mem (Nat.zero_le _)
    (by rwa [List.length_nil, Nat.zero_add, List.length_map, ExtTreeMap.length_toList])

end

/-- No operation on the whole store is refused for the number of objects. -/
structure Manageable (store : BlobStore) : Prop where
  inventory : WithinLimit store.inventory
  audit : WithinLimit store.audit
  gc : ∀ retained references dryRun,
    WithinLimit (store.gcWithReferences retained references dryRun)

theorem gcLocked_within (h : WithinLimit store.objectFiles) (retained : Finset String)
    (dryRun : Bool) : WithinLimit (store.gcLocked retained dryRun) := by
  have hdigests : WithinLimit ((retained.sort (· ≤ ·)).forM validateBlobDigest) :=
    .forM fun digest _ => validateBlobDigest_within digest
  refine hdigests.bind fun _ _ => h.bind fun files _ => ?_
  refine .bind (.foldlM (fun name _ state => store.collectObject_within retained state name) _) ?_
  rintro ⟨report, removals⟩ -
  dsimp only
  split
  · exact .ok _
  · exact .foldlM (fun removal _ state => removeObject_within state removal) _

/-- A store is manageable exactly when it is not over the limit. -/
theorem manageable_iff (hnames : store.DigestNames) :
    store.Manageable ↔ store.objects.size ≤ maxBlobObjects := by
  constructor
  · intro h
    by_contra hgt
    have hscan := objectFiles_of_gt hnames (not_le.mp hgt)
    refine h.inventory objectLimitError ?_ rfl
    rw [inventory, hscan, error_bind]
  · intro h
    have hscan : WithinLimit store.objectFiles := objectFiles_of_le hnames h ▸ .ok _
    refine ⟨hscan.bind fun _ _ => .foldlM (fun name _ b => store.listObject_within b name) _,
      hscan.bind fun _ _ => .foldlM (fun name _ b => store.auditObject_within b name) _, ?_⟩
    intro retained references dryRun
    refine (validateGcRootCount_within _ _).bind fun _ _ => ?_
    refine (store.verifyReferences_within references).discard.bind fun _ _ => ?_
    exact gcLocked_within hscan _ dryRun

/-! ## What the calls do -/

/-- A blob that is put is there already, or it is added. -/
theorem put_cases {after : BlobStore} {input : List UInt8} {info : BlobInfo}
    (h : store.put input = .ok (info, after)) :
    sha256Hex input ∈ store.objects ∧ after = store ∨
      sha256Hex input ∉ store.objects ∧
        after.objects = store.objects.insert (sha256Hex input) input := by
  simp only [put, hashBlob, bind_eq_ok] at h
  obtain ⟨⟨⟩, -, ⟨bytes, sha256⟩, ⟨⟨⟩, -, hhash⟩, ⟨⟩, -, h⟩ := h
  cases hhash
  split at h
  · rename_i hmem
    obtain ⟨existing, -, h⟩ := bind_eq_ok.mp h
    obtain ⟨⟨⟩, -, h⟩ := bind_eq_ok.mp h
    cases h
    exact .inl ⟨hmem, rfl⟩
  · rename_i hnew
    cases h
    exact .inr ⟨hnew, rfl⟩

/-- A content within the limit that is not there is stored. -/
theorem put_new {input : List UInt8} (hlength : input.length ≤ maxBlobBytes)
    (hnew : sha256Hex input ∉ store.objects) :
    store.put input = .ok ({ sha256 := sha256Hex input, bytes := input.length, existed := false },
      { objects := store.objects.insert (sha256Hex input) input }) := by
  have hle : ¬ input.length > maxBlobBytes := by omega
  rw [put, rejectIf_of_not _ hle, ok_bind, hashBlob, rejectIf_of_not _ hle, ok_bind, pure_eq_ok,
    ok_bind]
  dsimp only
  rw [validateBlobDigest_eq_ok.mpr (isDigest_sha256Hex input), ok_bind, if_neg hnew]
  rfl

/-- What a collection leaves was there before. -/
theorem gcWithReferences_subset {after : BlobStore} {retained : Finset String}
    {references : ExtTreeMap String Nat} {dryRun : Bool} {report : BlobGcReport}
    (h : store.gcWithReferences retained references dryRun = .ok (report, after)) :
    after.objects.size ≤ store.objects.size ∧ ∀ name ∈ after.objects, name ∈ store.objects := by
  simp only [gcWithReferences, gcLocked, bind_eq_ok] at h
  obtain ⟨⟨⟩, -, ⟨⟩, -, ⟨⟩, -, files, -, ⟨collected, removals⟩, -, h⟩ := h
  split at h
  · cases h
    exact ⟨le_rfl, fun _ hname => hname⟩
  · refine foldlM_invariant (P := fun state : BlobGcReport × BlobStore =>
      state.2.objects.size ≤ store.objects.size ∧
        ∀ name ∈ state.2.objects, name ∈ store.objects) ?_ ⟨le_rfl, fun _ hname => hname⟩ h
    rintro removal - state next ⟨hsize, hsubset⟩ hstep
    obtain ⟨bytes, -, hnext⟩ := bind_eq_ok.mp hstep
    cases hnext
    exact ⟨ExtTreeMap.size_erase_le.trans hsize, fun name hname =>
      hsubset name (ExtTreeMap.mem_of_mem_erase hname)⟩

end BlobStore

/-! ## Runs -/

/-- The calls that change a store. -/
inductive BlobCall where
  | put (input : List UInt8)
  | gc (retained : Finset String) (references : ExtTreeMap String Nat) (dryRun : Bool)

/-- The store after a call. -/
def BlobCall.apply (store : BlobStore) : BlobCall → Except BlobError BlobStore
  | .put input => (store.put input).map Prod.snd
  | .gc retained references dryRun =>
    (store.gcWithReferences retained references dryRun).map Prod.snd

namespace BlobStore

/-- The store after calls that all succeed, from the empty one. -/
def run (calls : List BlobCall) : Except BlobError BlobStore :=
  calls.foldlM BlobCall.apply {}

/-- A put finds its blob stored, or the store below the limit. -/
def HasRoom (store : BlobStore) : BlobCall → Prop
  | .put input => sha256Hex input ∈ store.objects ∨ store.objects.size < maxBlobObjects
  | .gc .. => True

omit [HexCodec] [Sha256] in
theorem size_insert_new {objects : ExtTreeMap String (List UInt8)} {name : String}
    (h : name ∉ objects) (content : List UInt8) :
    (objects.insert name content).size = objects.size + 1 := by
  rw [ExtTreeMap.size_insert, if_neg (mt ExtTreeMap.mem_iff_contains.mpr h)]

variable {store after : BlobStore} {calls : List BlobCall}

/-- A call keeps the names, and it keeps the limit when there is room. -/
theorem apply_preserves {call : BlobCall} (h : call.apply store = .ok after)
    (hnames : store.DigestNames) :
    after.DigestNames ∧
      (store.objects.size ≤ maxBlobObjects →
        (after.objects.size ≤ maxBlobObjects ↔ store.HasRoom call)) := by
  cases call with
  | put input =>
    obtain ⟨⟨info, store'⟩, hput, rfl⟩ := map_eq_ok.mp h
    rcases put_cases hput with ⟨hmem, rfl⟩ | ⟨hnew, hinsert⟩
    · exact ⟨hnames, fun hsize => iff_of_true hsize (.inl hmem)⟩
    · dsimp only
      refine ⟨fun name hname => ?_, fun _ => ?_⟩
      · rw [hinsert, ExtTreeMap.mem_insert] at hname
        rcases hname with heq | hname
        · exact Std.compare_eq_iff_eq.mp heq ▸ isDigest_sha256Hex input
        · exact hnames name hname
      · rw [hinsert, size_insert_new hnew, HasRoom, or_iff_right hnew]
        exact Nat.succ_le_iff
  | gc retained references dryRun =>
    obtain ⟨⟨report, store'⟩, hgc, rfl⟩ := map_eq_ok.mp h
    obtain ⟨hle, hsubset⟩ := gcWithReferences_subset hgc
    exact ⟨fun name hname => hnames name (hsubset name hname),
      fun hsize => iff_of_true (hle.trans hsize) trivial⟩

theorem run_append {rest : List BlobCall} :
    run (calls ++ rest) = .ok after ↔
      ∃ store, run calls = .ok store ∧ rest.foldlM BlobCall.apply store = .ok after := by
  rw [run, List.foldlM_append, bind_eq_ok]
  rfl

theorem run_append_singleton {call : BlobCall} :
    run (calls ++ [call]) = .ok after ↔
      ∃ store, run calls = .ok store ∧ call.apply store = .ok after := by
  simp only [run_append, List.foldlM_cons, List.foldlM_nil, bind_pure]

theorem digestNames_run (h : run calls = .ok store) : store.DigestNames :=
  foldlM_invariant (P := DigestNames)
    (fun _ _ _ _ hnames hstep => (apply_preserves hstep hnames).1)
    (fun _ hname => absurd hname ExtTreeMap.not_mem_empty) h

/-- The stores of a run in which every call has room stay within the limit. -/
theorem size_le_of_hasRoom
    (hroom : ∀ before call, before ++ [call] <+: calls → ∀ store, run before = .ok store →
      store.HasRoom call) {before : List BlobCall} (hearlier : before <+: calls)
    (h : run before = .ok store) : store.objects.size ≤ maxBlobObjects := by
  induction before using List.reverseRecOn generalizing store with
  | nil =>
    cases h
    exact Nat.zero_le _
  | append_singleton before call ih =>
    obtain ⟨previous, hprevious, hcall⟩ := run_append_singleton.mp h
    have hsize := ih ((List.prefix_append before [call]).trans hearlier) hprevious
    refine ((apply_preserves hcall (digestNames_run hprevious)).2 hsize).mpr ?_
    exact hroom before call hearlier previous hprevious

/-- No store in a run of successful calls is refused exactly when every put has room. -/
theorem scans_accepted_iff {calls : List BlobCall} {last : BlobStore} (h : run calls = .ok last) :
    (∀ before, before <+: calls → ∀ store, run before = .ok store → store.Manageable) ↔
      ∀ before call, before ++ [call] <+: calls → ∀ store, run before = .ok store →
        store.HasRoom call := by
  constructor
  · intro hmanageable before call hearlier store hstore
    obtain ⟨rest, rfl⟩ := hearlier
    obtain ⟨after, hafter, -⟩ := run_append.mp h
    obtain ⟨store', hstore', hcall⟩ := run_append_singleton.mp hafter
    obtain rfl : store = store' := Except.ok.inj (hstore.symm.trans hstore')
    have hnames := digestNames_run hstore
    have hsize := (manageable_iff hnames).mp
      (hmanageable before ⟨[call] ++ rest, (List.append_assoc ..).symm⟩ store hstore)
    have hsizeAfter := (manageable_iff (digestNames_run hafter)).mp
      (hmanageable (before ++ [call]) ⟨rest, rfl⟩ after hafter)
    exact ((apply_preserves hcall hnames).2 hsize).mp hsizeAfter
  · intro hroom before hearlier store hstore
    exact (manageable_iff (digestNames_run hstore)).mpr (size_le_of_hasRoom hroom hearlier hstore)

end BlobStore

/-! ## A store that fills up -/

namespace BlobStore

/-- Contents with different digests are all stored. -/
theorem foldlM_put {contents : List (List UInt8)} {store : BlobStore}
    (hlength : ∀ content ∈ contents, content.length ≤ maxBlobBytes)
    (hnodup : (contents.map sha256Hex).Nodup)
    (hnew : ∀ content ∈ contents, sha256Hex content ∉ store.objects) :
    ∃ after, (contents.map BlobCall.put).foldlM BlobCall.apply store = .ok after ∧
      after.objects.size = store.objects.size + contents.length := by
  induction contents generalizing store with
  | nil => exact ⟨store, rfl, rfl⟩
  | cons content contents ih =>
    rw [List.forall_mem_cons] at hlength hnew
    rw [List.map_cons, List.nodup_cons] at hnodup
    have hput := put_new hlength.1 hnew.1
    let next : BlobStore := { objects := store.objects.insert (sha256Hex content) content }
    have hrest : ∀ other ∈ contents, sha256Hex other ∉ next.objects := by
      intro other hother hmem
      rcases ExtTreeMap.mem_insert.mp hmem with heq | hmem
      · exact hnodup.1 (Std.compare_eq_iff_eq.mp heq ▸ List.mem_map_of_mem hother)
      · exact hnew.2 other hother hmem
    obtain ⟨after, hafter, hsize⟩ := ih hlength.2 hnodup.2 hrest
    refine ⟨after, ?_, ?_⟩
    · rw [List.map_cons, List.foldlM_cons, BlobCall.apply, hput]
      exact hafter
    · rw [hsize, size_insert_new hnew.1, List.length_cons]
      omega

/-- Over the limit a store can not even be collected. -/
theorem gc_of_gt {store : BlobStore} (hnames : store.DigestNames)
    (h : maxBlobObjects < store.objects.size) (dryRun : Bool) :
    store.gc ∅ dryRun = .error objectLimitError := by
  have hempty : (∅ : ExtTreeMap String Nat).toList = [] := ExtTreeMap.toList_eq_nil_iff.mpr rfl
  have hroots : validateGcRootCount (∅ : Finset String).card (∅ : ExtTreeMap String Nat).size
      = .ok () := by decide
  have hreferences : discard (store.verifyReferences ∅) = .ok () := by
    refine discard_eq_ok.mpr ⟨{}, ?_⟩
    rw [verifyReferences, hempty]
    rfl
  rw [gc, gcWithReferences, hroots, ok_bind, hreferences, ok_bind, hempty]
  rw [gcLocked, objectFiles_of_gt hnames h, List.map_nil, List.toFinset_nil, Finset.union_empty,
    Finset.sort_empty]
  rfl

end BlobStore

end

/-- Three bytes that number the contents. -/
def numberedBlob (n : Nat) : List UInt8 :=
  [UInt8.ofNat n, UInt8.ofNat (n / 256), UInt8.ofNat (n / 65536)]

section

attribute [local instance] nibbleCodec headHash

theorem sha256Hex_numberedBlob_inj {n m : Nat} (hn : n < 2 ^ 24) (hm : m < 2 ^ 24)
    (h : sha256Hex (numberedBlob n) = sha256Hex (numberedBlob m)) : n = m := by
  have hdigest : head32 (numberedBlob n) = head32 (numberedBlob m) := by
    have hdecode := congrArg HexCodec.decode h
    rw [sha256Hex, sha256Hex, HexCodec.decode_encode, HexCodec.decode_encode] at hdecode
    exact Except.ok.inj hdecode
  have hbytes : numberedBlob n = numberedBlob m := congrArg (List.take 3) hdigest
  simp only [numberedBlob, List.cons.injEq, ← UInt8.toNat_inj, UInt8.toNat_ofNat'] at hbytes
  omega

/-- 100001 puts succeed one after the other, and the store they leave is refused by `inventory`,
`audit` and `gc`. -/
theorem filled_store_refused :
    ∃ store, BlobStore.run
        ((List.range (maxBlobObjects + 1)).map fun n => .put (numberedBlob n)) = .ok store ∧
      store.inventory = .error objectLimitError ∧ store.audit = .error objectLimitError ∧
      store.gc ∅ false = .error objectLimitError := by
  have hnodup : (((List.range (maxBlobObjects + 1)).map numberedBlob).map sha256Hex).Nodup := by
    rw [List.map_map]
    refine List.Nodup.map_on (fun n hn m hm heq => ?_) List.nodup_range
    rw [List.mem_range] at hn hm
    have hlimit : maxBlobObjects + 1 < 2 ^ 24 := by decide
    exact sha256Hex_numberedBlob_inj (hn.trans hlimit) (hm.trans hlimit) heq
  have hlength : ∀ content ∈ (List.range (maxBlobObjects + 1)).map numberedBlob,
      content.length ≤ maxBlobBytes := by
    intro content hcontent
    obtain ⟨n, -, rfl⟩ := List.mem_map.mp hcontent
    show 3 ≤ maxBlobBytes
    decide
  obtain ⟨store, hrun, hsize⟩ := BlobStore.foldlM_put hlength hnodup
    fun _ _ => (ExtTreeMap.not_mem_empty : _ ∉ ({} : BlobStore).objects)
  rw [List.map_map] at hrun
  have hnames := BlobStore.digestNames_run hrun
  have hgt : maxBlobObjects < store.objects.size := by
    rw [hsize, List.length_map, List.length_range]
    exact Nat.lt_add_left _ (Nat.lt_succ_self _)
  have hscan := BlobStore.objectFiles_of_gt hnames hgt
  refine ⟨store, hrun, ?_, ?_, BlobStore.gc_of_gt hnames hgt false⟩
  · rw [BlobStore.inventory, hscan, error_bind]
  · rw [BlobStore.audit, hscan, error_bind]

/-- A run with room: a blob put twice and a collection. -/
theorem scans_accepted_iff_room :
    ∃ last, BlobStore.run [.put [1], .put [1], .gc ∅ ∅ false] = .ok last ∧
      ((∀ before, before <+: [.put [1], .put [1], .gc ∅ ∅ false] → ∀ store,
          BlobStore.run before = .ok store → store.Manageable) ↔
        ∀ before call, before ++ [call] <+: [.put [1], .put [1], .gc ∅ ∅ false] → ∀ store,
          BlobStore.run before = .ok store → store.HasRoom call) := by
  have hrun : (BlobStore.run [.put [1], .put [1], .gc ∅ ∅ false]).toOption.map
      (fun store => store.objects.size) = some 0 := by
    decide +kernel
  obtain ⟨last, hlast, -⟩ := exists_ok_of_toOption hrun
  exact ⟨last, hlast, BlobStore.scans_accepted_iff hlast⟩

end

end CartridgeRuntime.Storage
