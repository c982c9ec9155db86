import CartridgeRuntime.Library.PrettySize
import CartridgeRuntime.Storage.Oversized

/-!
# Snapshot files

A snapshot is written as an indented document, and the reader has a limit on the size of its input.
`validate` bounds the keys, the values and their bytes, but not the file: the writer checks no size.
The size of the file is a closed expression in the contents of the snapshot
(`length_prettyBytes_snapshot`), so a written snapshot is read back exactly when that size is within
the reader's limit (`snapshot_file_round_trips_iff`).
-/

namespace CartridgeRuntime.Storage

open Checked Std Encoding

def maxSnapshotFileBytes : Nat := 144 * 1024 * 1024

/-! ## The document -/

/-- A 32-bit number. -/
def schemaCodec : Codec UInt32 :=
  Codec.natural.convert UInt32.toNat UInt32.ofNat fun _ => UInt32.ofNat_toNat

def SnapshotPayload.codec : Codec SnapshotPayload :=
  ((Fields.required "format_version" .natural).followedBy
    ((Fields.required "cartridge_id" .string).followedBy
      ((Fields.unlessDefault "state_schema" schemaCodec 0).followedBy
        ((Fields.unlessDefault "state_revision" .natural 0).followedBy
          (Fields.required "entries" (Codec.textMap .string)))))).record
    (fun payload => (payload.formatVersion, payload.cartridgeId, payload.stateSchema,
      payload.stateRevision, payload.entries))
    (fun (formatVersion, cartridgeId, stateSchema, stateRevision, entries) =>
      ⟨formatVersion, cartridgeId, stateSchema, stateRevision, entries⟩)
    fun _ => rfl

def StorageSnapshot.codec : Codec StorageSnapshot :=
  ((Fields.required "payload" SnapshotPayload.codec).followedBy
    (Fields.required "payload_sha256" .string)).record
    (fun snapshot => (snapshot.payload, snapshot.payloadSha256))
    (fun (payload, payloadSha256) => ⟨payload, payloadSha256⟩)
    fun _ => rfl

/-- The document of a payload in a file is the one that its digest is taken of. -/
theorem SnapshotPayload.codec_toJson (payload : SnapshotPayload) :
    SnapshotPayload.codec.toJson payload = payload.document := by
  simp only [SnapshotPayload.codec, Fields.record, Fields.followedBy, Fields.required,
    Fields.unlessDefault, SnapshotPayload.document, List.cons_append, List.nil_append,
    List.append_assoc]
  rfl

theorem StorageSnapshot.codec_toJson (snapshot : StorageSnapshot) :
    StorageSnapshot.codec.toJson snapshot
      = .obj [("payload", snapshot.payload.document),
        ("payload_sha256", .str snapshot.payloadSha256)] := by
  rw [← SnapshotPayload.codec_toJson]
  rfl

/-! ## Reading and writing -/

namespace StorageSnapshot

variable [HexCodec] [Sha256]

/-- Read a snapshot from bytes. -/
def fromSlice (reader : PrettyReader StorageSnapshot.codec) (bytes : List UInt8) :
    Except Error StorageSnapshot := do
  rejectIf (bytes.length > maxSnapshotFileBytes) (.corrupt "snapshot exceeds the input size limit")
  let snapshot ← mapError (fun error => .corrupt ("snapshot is not valid JSON: " ++ error))
    (reader.read bytes)
  snapshot.validate
  pure snapshot

/-- Read a snapshot from the bytes of the file at a path. -/
def read (reader : PrettyReader StorageSnapshot.codec) (path : String) (bytes : List UInt8) :
    Except Error StorageSnapshot := do
  rejectIf (bytes.length > maxSnapshotFileBytes)
    (.corrupt (path ++ " exceeds the snapshot size limit"))
  fromSlice reader bytes

/-- The contents of the new file that a snapshot is written to. -/
def writeNew (snapshot : StorageSnapshot) : Except Error (List UInt8) := do
  snapshot.validate
  pure (StorageSnapshot.codec.prettyBytes snapshot)

end StorageSnapshot

/-! ## The size of a file -/

/-- The bytes of an entry in a snapshot file: its two texts with their quotes, a line break with six
blanks, a colon and a blank, and a comma or a brace. -/
def snapshotEntryBytes (key encoded : String) : Nat :=
  byteLength (stringText key) + byteLength (stringText encoded) + 10

/-- The bytes of a snapshot file. -/
def snapshotFileBytes (snapshot : StorageSnapshot) : Nat :=
  175 + snapshot.payload.cartridgeId.length
    + (if snapshot.payload.stateSchema = 0 then 0
        else 22 + (decimal snapshot.payload.stateSchema.toNat).length)
    + (if snapshot.payload.stateRevision = 0 then 0
        else 24 + (decimal snapshot.payload.stateRevision).length)
    + (if snapshot.payload.entries.isEmpty then 2
        else 6 + TreeMap.sumOf snapshotEntryBytes snapshot.payload.entries)

/-- The size of the object that holds the entries. -/
theorem prettySize_entries (entries : ExtTreeMap String String) :
    (Json.obj (entries.toList.map fun entry => (entry.1, Json.str entry.2))).prettySize 2
      = if entries.isEmpty then 2 else 6 + TreeMap.sumOf snapshotEntryBytes entries := by
  have hempty : entries.toList = [] ↔ entries.isEmpty = true := by
    rw [ExtTreeMap.isEmpty_eq_size_beq_zero, beq_iff_eq, ← ExtTreeMap.length_toList,
      List.length_eq_zero_iff]
  by_cases h : entries.isEmpty = true
  · rw [if_pos h, hempty.mpr h, List.map_nil, Json.prettySize_obj_nil]
  · rw [if_neg h, Json.prettySize_obj (by simpa [hempty] using h), List.map_map]
    simp only [Function.comp_def, Json.prettySize_str]
    rw [TreeMap.sumOf]
    unfold snapshotEntryBytes
    simp only [Nat.add_assoc, Nat.reduceMul, Nat.reduceAdd]
    omega

/-- The names of the members, with their quotes. -/
theorem byteLength_snapshotKeys :
    byteLength (stringText "payload") = 9 ∧ byteLength (stringText "payload_sha256") = 16 ∧
      byteLength (stringText "format_version") = 16 ∧ byteLength (stringText "cartridge_id") = 14 ∧
      byteLength (stringText "state_schema") = 14 ∧ byteLength (stringText "state_revision") = 16 ∧
      byteLength (stringText "entries") = 9 := by
  decide

/-- The format versions have one digit. -/
theorem length_decimal_version {version : Nat} (h : version = 1 ∨ version = 2 ∨ version = 3) :
    (decimal version).length = 1 := by
  rcases h with rfl | rfl | rfl <;> decide

/-- The size of the document of a payload inside a file. -/
theorem prettySize_payload {payload : SnapshotPayload}
    (hversion : payload.formatVersion = 1 ∨ payload.formatVersion = 2 ∨ payload.formatVersion = 3)
    (hname : validateNamespace payload.cartridgeId = .ok ()) :
    payload.document.prettySize 1
      = 70 + payload.cartridgeId.length
        + (if payload.stateSchema = 0 then 0 else 22 + (decimal payload.stateSchema.toNat).length)
        + (if payload.stateRevision = 0 then 0 else 24 + (decimal payload.stateRevision).length)
        + (if payload.entries.isEmpty then 2
            else 6 + TreeMap.sumOf snapshotEntryBytes payload.entries) := by
  obtain ⟨-, -, hformat, hid, hschema, hrevision, hentries⟩ := byteLength_snapshotKeys
  have hdigit := length_decimal_version hversion
  have hplain := byteLength_stringText (plain_of_validateNamespace hname)
  rw [SnapshotPayload.document, Json.prettySize_obj (by simp)]
  simp only [List.map_append, List.sum_append, List.map_cons, List.map_nil, List.sum_cons,
    List.sum_nil, Nat.reduceAdd, Json.prettySize_num, Json.prettySize_str, prettySize_entries, hformat,
    hid, hentries, hdigit, hplain]
  by_cases hzero : payload.stateSchema = 0 <;> by_cases hzero' : payload.stateRevision = 0 <;>
    simp only [hzero, hzero', if_true, if_false, List.map_cons, List.map_nil, List.sum_cons,
      List.sum_nil, Json.prettySize_num, hschema, hrevision] <;> omega

section

variable [HexCodec] [Sha256]

variable {snapshot : StorageSnapshot} {entries : Entries}

/-- What `validate` has checked of the parts that a file has besides its entries. -/
theorem validate_eq_ok (h : snapshot.validate = .ok ()) :
    (snapshot.payload.formatVersion = 1 ∨ snapshot.payload.formatVersion = 2 ∨
        snapshot.payload.formatVersion = 3) ∧
      validateNamespace snapshot.payload.cartridgeId = .ok () ∧
      snapshot.payloadSha256 = StorageSnapshot.payloadDigest snapshot.payload ∧
      ∃ entries, snapshot.decodeEntries = .ok entries := by
  simp only [StorageSnapshot.validate, bind_eq_ok, exists_unit, rejectIf_eq_ok, mapError_eq_ok,
    not_not] at h
  obtain ⟨hversion, -, -, hname, hdigest, hentries⟩ := h
  refine ⟨hversion, hname, hdigest, ?_⟩
  cases hdecode : snapshot.decodeEntries with
  | ok entries => exact ⟨entries, rfl⟩
  | error error =>
    rw [hdecode] at hentries
    cases hentries

/-- The size of the file of a snapshot that passes its checks. -/
theorem length_prettyBytes_snapshot (h : snapshot.validate = .ok ()) :
    (StorageSnapshot.codec.prettyBytes snapshot).length = snapshotFileBytes snapshot := by
  obtain ⟨hversion, hname, hdigest, -⟩ := validate_eq_ok h
  obtain ⟨hpayload, hsha, -⟩ := byteLength_snapshotKeys
  have hdocument := prettySize_payload hversion hname
  have htext : byteLength (stringText snapshot.payloadSha256) = 66 := by
    rw [hdigest, StorageSnapshot.payloadDigest, sha256Hex, byteLength_stringText (plain_hex _),
      HexCodec.length_encode, Sha256.length_digest]
  have hsize : StorageSnapshot.codec.prettySize snapshot
      = (StorageSnapshot.codec.toJson snapshot).prettySize 0 := rfl
  rw [Codec.length_prettyBytes, hsize, StorageSnapshot.codec_toJson, Json.prettySize_obj (by simp)]
  simp only [List.map_cons, List.map_nil, List.sum_cons, List.sum_nil, Json.prettySize_str, hpayload,
    hsha, htext, hdocument, snapshotFileBytes]
  omega

/-- A snapshot that passes its checks is written. -/
theorem writeNew_of_valid (h : snapshot.validate = .ok ()) :
    snapshot.writeNew = .ok (StorageSnapshot.codec.prettyBytes snapshot) := by
  rw [StorageSnapshot.writeNew, h]
  rfl

/-- A snapshot that passes its checks is read back from the file it is written to, with its identity,
schema, revision, entries and digest, exactly when the file is within the size limit. -/
theorem snapshot_file_round_trips_iff (reader : PrettyReader StorageSnapshot.codec) (path : String)
    (snapshot : StorageSnapshot) (h : snapshot.validate = .ok ()) :
    (∃ bytes, snapshot.writeNew = .ok bytes ∧ bytes.length ≤ maxSnapshotFileBytes ∧
        ∃ found, StorageSnapshot.read reader path bytes = .ok found ∧
          found.payload.cartridgeId = snapshot.payload.cartridgeId ∧
          found.payload.stateSchema = snapshot.payload.stateSchema ∧
          found.payload.stateRevision = snapshot.payload.stateRevision ∧
          found.decodeEntries = snapshot.decodeEntries ∧
          found.payloadSha256 = snapshot.payloadSha256) ↔
      snapshotFileBytes snapshot ≤ maxSnapshotFileBytes := by
  have hwrite := writeNew_of_valid h
  have hlength := length_prettyBytes_snapshot h
  constructor
  · rintro ⟨bytes, hbytes, hsmall, -⟩
    cases hwrite.symm.trans hbytes
    rwa [hlength] at hsmall
  · intro hsmall
    have hfits : ¬ (StorageSnapshot.codec.prettyBytes snapshot).length > maxSnapshotFileBytes := by
      rw [hlength]
      omega
    refine ⟨_, hwrite, by omega, snapshot, ?_, rfl, rfl, rfl, rfl, rfl⟩
    rw [StorageSnapshot.read, rejectIf_of_not _ hfits, ok_bind, StorageSnapshot.fromSlice,
      rejectIf_of_not _ hfits, ok_bind, reader.read_prettyBytes, mapError, ok_bind, h]
    rfl

/-! ## Snapshots of valid entries -/

/-- The snapshot of some entries, with its digest. -/
def StorageSnapshot.ofEntries (name : String) (schema : UInt32) (revision : Nat) (entries : Entries) :
    StorageSnapshot :=
  let payload : SnapshotPayload :=
    ⟨snapshotFormatVersion, name, schema, revision, entries.map fun _ value => HexCodec.encode value⟩
  ⟨payload, payloadDigest payload⟩

/-- It is the snapshot that is exported under a valid identity. -/
theorem fromEntriesWithRevision_of_valid {name : String} (hname : validateNamespace name = .ok ())
    (schema : UInt32) (revision : Nat) (entries : Entries) :
    StorageSnapshot.fromEntriesWithRevision name schema revision entries
      = .ok (.ofEntries name schema revision entries) := by
  rw [StorageSnapshot.fromEntriesWithRevision, hname]
  rfl

/-- The entries are decoded from their snapshot. -/
theorem decodeEntries_ofEntries (hvalid : ValidEntries entries)
    (hsize : entries.size ≤ maxStorageKeys) (name : String) (schema : UInt32) (revision : Nat) :
    (StorageSnapshot.ofEntries name schema revision entries).decodeEntries = .ok entries := by
  have hsum : (entries.toList.map (·.2.length)).sum = totalBytes entries := rfl
  have hloop := foldlM_decodeEntry_encode snapshotErrors entries.toList (∅, 0)
    (fun entry hmem => by
      have hentry := ExtTreeMap.mem_toList_iff_getElem?_eq_some.mp hmem
      exact ⟨hvalid.key_valid hentry, hvalid.value_le hentry⟩)
    (by simpa [hsum] using hvalid.bytes_le)
  rw [TreeMap.insertAll_toList] at hloop
  have hcount : ¬ (entries.map fun _ value => HexCodec.encode value).size > maxStorageKeys := by
    simpa using hsize
  rw [StorageSnapshot.decodeEntries, StorageSnapshot.ofEntries, rejectIf_of_not _ hcount, ok_bind,
    ExtTreeMap.toList_map, hloop]
  rfl

/-- The snapshot of valid entries passes its checks. -/
theorem validate_ofEntries (hvalid : ValidEntries entries) (hsize : entries.size ≤ maxStorageKeys)
    {name : String} (hname : validateNamespace name = .ok ()) (schema : UInt32) (revision : Nat) :
    (StorageSnapshot.ofEntries name schema revision entries).validate = .ok () := by
  have hdecode := decodeEntries_ofEntries hvalid hsize name schema revision
  rw [StorageSnapshot.validate, hdecode, StorageSnapshot.ofEntries, rejectIf_of_not _ (by simp),
    ok_bind, rejectIf_of_not _ (by simp [snapshotFormatVersion]), ok_bind,
    rejectIf_of_not _ (by simp), ok_bind, hname, mapError, ok_bind, rejectIf_of_not _ (by simp)]
  rfl

omit [Sha256] in
/-- The entries of a snapshot take eight bytes more each than those of the state file. -/
theorem sumOf_snapshotEntryBytes (hvalid : ValidEntries entries) :
    TreeMap.sumOf snapshotEntryBytes (entries.map fun _ value => HexCodec.encode value)
      = TreeMap.sumOf entryBytes entries + 8 * entries.size := by
  have hentry : ∀ entry ∈ entries.toList,
      snapshotEntryBytes entry.1 (HexCodec.encode entry.2) = entryBytes entry.1 entry.2 + 8 := by
    intro entry hmem
    have hkey := hvalid.key_valid (ExtTreeMap.mem_toList_iff_getElem?_eq_some.mp hmem)
    rw [snapshotEntryBytes, byteLength_stringText (plain_of_validateKey hkey),
      byteLength_stringText (plain_hex _), HexCodec.length_encode, entryBytes]
    omega
  rw [TreeMap.sumOf_map, TreeMap.sumOf, TreeMap.sumOf, List.map_congr_left hentry, List.sum_map_add,
    List.map_const', List.sum_replicate_nat, ExtTreeMap.length_toList, Nat.mul_comm]

omit [HexCodec] [Sha256] in
/-- The bulk entries are valid, also where their state file is too long. -/
theorem validEntries_bulkEntries {n : Nat} (hn : n ≤ 65536) : ValidEntries (bulkEntries n) := by
  induction n with
  | zero => exact .empty
  | succ n ih =>
    obtain ⟨-, hbytes, -⟩ := bulkEntries_sums hn
    have hlength : bulkValue.length = 1024 := List.length_replicate
    refine (ih (by omega)).insert (validateKey_bulkKey n) (by omega) ?_
    rw [← bulkEntries, hbytes]
    omega

/-- Each of the bulk entries takes 2318 bytes of a snapshot file. -/
theorem le_snapshotFileBytes_bulkEntries {n : Nat} (hpos : 0 < n) (hn : n ≤ 65536) (schema : UInt32)
    (revision : Nat) :
    2318 * n ≤ snapshotFileBytes (.ofEntries "a" schema revision (bulkEntries n)) := by
  obtain ⟨hsize, -, hfile⟩ := bulkEntries_sums hn
  have hsum := sumOf_snapshotEntryBytes (validEntries_bulkEntries hn)
  have hempty : ((bulkEntries n).map fun _ value => HexCodec.encode value).isEmpty = false := by
    rw [ExtTreeMap.isEmpty_eq_size_beq_zero, ExtTreeMap.size_map, hsize, beq_eq_false_iff_ne]
    omega
  simp only [snapshotFileBytes, StorageSnapshot.ofEntries, hsum, hempty, hsize, hfile,
    Bool.false_eq_true, if_false]
  omega

/-- The snapshot of the largest readable state of bulk entries is written to a file that no reader
accepts. -/
theorem bulkSnapshot_refused (reader : PrettyReader StorageSnapshot.codec) (path : String) :
    ∃ snapshot bytes,
      StorageSnapshot.fromEntriesWithRevision "a" 0 65365 (bulkEntries 65365) = .ok snapshot ∧
        snapshot.validate = .ok () ∧ snapshot.writeNew = .ok bytes ∧
        StorageSnapshot.read reader path bytes
          = .error (.corrupt (path ++ " exceeds the snapshot size limit")) := by
  have hvalid := validEntries_bulkEntries (show 65365 ≤ 65536 by omega)
  have hsize : (bulkEntries 65365).size ≤ maxStorageKeys := by
    rw [(bulkEntries_sums (show 65365 ≤ 65536 by omega)).1, maxStorageKeys]
    omega
  have hchecked := validate_ofEntries hvalid hsize validateNamespace_a 0 65365
  have hlarge := le_snapshotFileBytes_bulkEntries (show 0 < 65365 by omega) (by omega) 0 65365
  rw [← length_prettyBytes_snapshot hchecked] at hlarge
  refine ⟨_, _, fromEntriesWithRevision_of_valid validateNamespace_a _ _ _, hchecked,
    writeNew_of_valid hchecked, ?_⟩
  rw [StorageSnapshot.read, rejectIf_of _ (by unfold maxSnapshotFileBytes; omega), error_bind]

end

attribute [local instance] nibbleCodec Sha2.sha256

/-- A snapshot of one entry is read back. -/
theorem small_snapshot_round_trips :
    let snapshot := StorageSnapshot.ofEntries "a" 0 1 ((∅ : Entries).insert "k" [1])
    snapshot.validate = .ok () ∧
      ∃ bytes, snapshot.writeNew = .ok bytes ∧ bytes.length ≤ maxSnapshotFileBytes ∧
        ∃ found, StorageSnapshot.read StorageSnapshot.codec.prettyReader "/backup" bytes = .ok found ∧
          found.payload.cartridgeId = snapshot.payload.cartridgeId ∧
          found.payload.stateSchema = snapshot.payload.stateSchema ∧
          found.payload.stateRevision = snapshot.payload.stateRevision ∧
          found.decodeEntries = snapshot.decodeEntries ∧
          found.payloadSha256 = snapshot.payloadSha256 := by
  intro snapshot
  have hvalid : ValidEntries ((∅ : Entries).insert "k" [1]) :=
    ValidEntries.empty.insert (by decide) (by decide) (by decide +kernel)
  have hsize : ((∅ : Entries).insert "k" [1]).size ≤ maxStorageKeys := by
    simp [ExtTreeMap.size_insert, maxStorageKeys]
  have hchecked : snapshot.validate = .ok () :=
    validate_ofEntries hvalid hsize validateNamespace_a 0 1
  refine ⟨hchecked, (snapshot_file_round_trips_iff _ _ _ hchecked).mpr ?_⟩
  decide +kernel

/-- A snapshot of 65365 entries passes its checks, but its file is refused. -/
theorem large_snapshot_not_read_back :
    ∃ snapshot bytes,
      StorageSnapshot.fromEntriesWithRevision "a" 0 65365 (bulkEntries 65365) = .ok snapshot ∧
        snapshot.validate = .ok () ∧ snapshot.writeNew = .ok bytes ∧
        StorageSnapshot.read StorageSnapshot.codec.prettyReader "/backup" bytes
          = .error (.corrupt "/backup exceeds the snapshot size limit") := by
  exact bulkSnapshot_refused _ "/backup"

end CartridgeRuntime.Storage
