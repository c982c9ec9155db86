import CartridgeRuntime.Storage.Accounting
import CartridgeRuntime.Storage.Directory

/-!
# Written states are read back

`State.WellFormed` is what `readState` checks of the entries of a file. A well-formed state is read
back from the file that `commitState` writes for it exactly when the file is within the size limit
(`readState_envelope`), and the size of the file is a closed expression in the lengths of the keys
and values (`length_encode_envelope`).
-/

namespace CartridgeRuntime.Storage

open Checked Std Encoding

/-- Entries that the reader of a state file accepts. -/
structure ValidEntries (entries : Entries) : Prop where
  key_valid : ∀ {key : String} {value : List UInt8},
    entries[key]? = some value → validateKey key = .ok ()
  value_le : ∀ {key : String} {value : List UInt8},
    entries[key]? = some value → value.length ≤ 8388608
  bytes_le : totalBytes entries ≤ 67108864

/-- A state with valid entries, not too many of them, and the true usage. -/
structure State.WellFormed (state : State) : Prop where
  valid : ValidEntries state.entries
  size_le : state.entries.size ≤ 100000
  usage_eq : state.usage = trueUsage state.entries

/-! ## The loop over encoded entries -/

theorem ValidEntries.empty : ValidEntries ∅ where
  key_valid h := by simp at h
  value_le h := by simp at h
  bytes_le := by simp [totalBytes]

variable {key name : String} {state : State}

/-- A valid entry that stays within the budget can be added. -/
theorem ValidEntries.insert {entries : Entries} (h : ValidEntries entries) {value : List UInt8}
    (hkey : validateKey key = .ok ()) (hvalue : value.length ≤ 8388608)
    (hbytes : totalBytes (entries.insert key value) ≤ 67108864) :
    ValidEntries (entries.insert key value) where
  key_valid {key' value'} hentry := by
    rw [TreeMap.getElem?_insert'] at hentry
    split at hentry
    · rename_i heq
      exact heq ▸ hkey
    · exact h.key_valid hentry
  value_le {key' value'} hentry := by
    rw [TreeMap.getElem?_insert'] at hentry
    split at hentry
    · cases hentry
      exact hvalue
    · exact h.value_le hentry
  bytes_le := hbytes

section

variable [HexCodec]

variable {loaded : Entries × Nat}

/-- What one turn of the loop has checked when it succeeds. -/
theorem decodeEntry_eq_ok {errors : EntryErrors} {next : Entries × Nat} {entry : String × String}
    (h : decodeEntry errors loaded entry = .ok next) :
    ∃ value, validateKey entry.1 = .ok () ∧ value.length ≤ 8388608 ∧
      loaded.2 + value.length ≤ 67108864 ∧
      next = (loaded.1.insert entry.1 value, loaded.2 + value.length) := by
  simp only [decodeEntry, bind_eq_ok, exists_unit, mapError_eq_ok, rejectIf_eq_ok, okOr_eq_ok,
    checkedAdd_eq_some, pure_eq_ok, Except.ok.injEq] at h
  obtain ⟨hkey, hsize, value, hdecode, _, ⟨-, rfl⟩, hbudget, rfl⟩ := h
  have := HexCodec.size_of_decode _ _ hdecode
  unfold maxStorageValueBytes at hsize
  unfold maxStorageBytes at hbudget
  exact ⟨value, hkey, by omega, by omega, rfl⟩

/-- The loop over encoded entries with new keys keeps the entries valid and counts their bytes. -/
theorem foldlM_decodeEntry {errors : EntryErrors} {encoded : List (String × String)}
    {result : Entries × Nat} (h : encoded.foldlM (decodeEntry errors) loaded = .ok result)
    (hdistinct : (encoded.map Prod.fst).Nodup)
    (hnew : ∀ key ∈ encoded.map Prod.fst, loaded.1[key]? = none) (hvalid : ValidEntries loaded.1)
    (hbytes : totalBytes loaded.1 = loaded.2) :
    ValidEntries result.1 ∧ totalBytes result.1 = result.2 ∧
      result.1.size = loaded.1.size + encoded.length := by
  induction encoded generalizing loaded with
  | nil =>
    cases h
    exact ⟨hvalid, hbytes, rfl⟩
  | cons entry encoded ih =>
    rw [List.foldlM_cons, bind_eq_ok] at h
    obtain ⟨next, hstep, hrest⟩ := h
    obtain ⟨value, hkey, hvalue, hbudget, rfl⟩ := decodeEntry_eq_ok hstep
    rw [List.map_cons, List.nodup_cons] at hdistinct
    have hfresh := hnew entry.1 (by simp)
    have htotal := totalBytes_insert_new hfresh value
    obtain ⟨hvalid', hbytes', hsize'⟩ := ih hrest hdistinct.2
      (fun key hmem => by
        have hne : entry.1 ≠ key := fun heq => hdistinct.1 (heq ▸ hmem)
        simpa [hne] using hnew key (by simp [hmem]))
      (hvalid.insert hkey hvalue (by omega)) (by rw [htotal, hbytes])
    have hsize : (loaded.1.insert entry.1 value).size = loaded.1.size + 1 := by
      rw [ExtTreeMap.size_insert, if_neg]
      rw [ExtTreeMap.contains_eq_isSome_getElem?, hfresh]
      exact Bool.false_ne_true
    exact ⟨hvalid', hbytes', by rw [hsize', hsize, List.length_cons]; omega⟩

/-- A valid entry is decoded from its own encoding. -/
theorem decodeEntry_encode (errors : EntryErrors) {value : List UInt8}
    (hkey : validateKey key = .ok ()) (hvalue : value.length ≤ 8388608)
    (hbudget : loaded.2 + value.length ≤ 67108864) :
    decodeEntry errors loaded (key, HexCodec.encode value)
      = .ok (loaded.1.insert key value, loaded.2 + value.length) := by
  have hsize := HexCodec.size_of_decode _ _ (HexCodec.decode_encode value)
  have hfits : loaded.2 + value.length ≤ wordMax := by
    unfold wordMax
    omega
  simp only [decodeEntry, bind_eq_ok, exists_unit, mapError_eq_ok, rejectIf_eq_ok, okOr_eq_ok,
    checkedAdd_eq_some, pure_eq_ok, Except.ok.injEq]
  refine ⟨hkey, ?_, value, HexCodec.decode_encode value, _, ⟨hfits, rfl⟩, ?_, rfl⟩
  · unfold maxStorageValueBytes
    omega
  · unfold maxStorageBytes
    omega

/-- Valid entries are decoded from their own encodings, in any order. -/
theorem foldlM_decodeEntry_encode (errors : EntryErrors) (entries : List (String × List UInt8))
    (loaded : Entries × Nat)
    (hvalid : ∀ entry ∈ entries, validateKey entry.1 = .ok () ∧ entry.2.length ≤ 8388608)
    (hbudget : loaded.2 + (entries.map (·.2.length)).sum ≤ 67108864) :
    (entries.map fun entry => (entry.1, HexCodec.encode entry.2)).foldlM (decodeEntry errors) loaded
      = .ok (TreeMap.insertAll loaded.1 entries, loaded.2 + (entries.map (·.2.length)).sum) := by
  induction entries generalizing loaded with
  | nil => rfl
  | cons entry entries ih =>
    obtain ⟨hkey, hvalue⟩ := hvalid entry (by simp)
    rw [List.map_cons, List.sum_cons] at hbudget
    rw [List.map_cons, List.foldlM_cons, decodeEntry_encode errors hkey hvalue (by omega), ok_bind,
      ih _ (fun entry hmem => hvalid entry (by simp [hmem])) (by simp only; omega)]
    simp [TreeMap.insertAll, Nat.add_assoc]

end

/-! ## Reading a written state -/

section

variable [HexCodec] [Sha256] [FromJson DiskEnvelope]

/-- A state that was read is well formed and carries the generation it was read for. -/
theorem readState_wellFormed {path : String} {bytes : List UInt8} {generation : Nat}
    (h : readState path bytes name generation = .ok state) :
    state.WellFormed ∧ state.generation = generation := by
  simp only [readState, readPayload, bind_eq_ok, exists_unit, rejectIf_eq_ok, pure_eq_ok,
    Except.ok.injEq] at h
  obtain ⟨-, envelope, -, -, -, hsize, ⟨entries, count⟩, hloop, rfl⟩ := h
  obtain ⟨hvalid, hbytes, hlength⟩ := foldlM_decodeEntry hloop
    (TreeMap.nodup_keys_toList _) (by simp) .empty (by simp [totalBytes])
  refine ⟨⟨hvalid, ?_, by rw [trueUsage, hbytes]⟩, rfl⟩
  rw [hlength, ExtTreeMap.size_empty, ExtTreeMap.length_toList]
  unfold maxStorageKeys at hsize
  omega

omit [Sha256] [FromJson DiskEnvelope] in
/-- The entries of a well-formed state are decoded from the payload it is written as. -/
theorem readPayload_payload (h : state.WellFormed) (path name : String) :
    readPayload path state.generation (state.payload name) = .ok state := by
  have hsize : ¬ (state.payload name).entries.size > maxStorageKeys := by
    simpa [State.payload, maxStorageKeys] using h.size_le
  have hsum : (state.entries.toList.map (·.2.length)).sum = totalBytes state.entries := rfl
  have hloop := foldlM_decodeEntry_encode (stateFileErrors path) state.entries.toList (∅, 0)
    (fun entry hmem => by
      have hentry := ExtTreeMap.mem_toList_iff_getElem?_eq_some.mp hmem
      exact ⟨h.valid.key_valid hentry, h.valid.value_le hentry⟩)
    (by simpa [hsum] using h.valid.bytes_le)
  rw [TreeMap.insertAll_toList, hsum, Nat.zero_add] at hloop
  rw [readPayload, rejectIf_of_not _ hsize, ok_bind, State.payload, ExtTreeMap.toList_map, hloop,
    ok_bind]
  exact congrArg (fun usage => Except.ok { state with usage }) h.usage_eq.symm

/-- A well-formed state is read back from the file it is written as, if the file is not too long;
otherwise the file is reported as corrupt. -/
theorem readState_envelope (h : state.WellFormed) (path name : String) :
    readState path (encode (state.envelope name)) name state.generation
      = if (encode (state.envelope name)).length ≤ maxStateFileBytes then .ok state
        else .error (.corrupt s!"{path} exceeds the state file size limit") := by
  unfold readState
  split
  · rename_i hsize
    rw [rejectIf_of_not _ (by omega), ok_bind, fromSlice_encode, mapError, ok_bind,
      rejectIf_of_not _ (by simp [State.envelope]), ok_bind,
      rejectIf_of_not _ (by simp [State.envelope, State.payload, diskFormatVersion]), ok_bind]
    exact readPayload_payload h path name
  · rename_i hsize
    rw [rejectIf_of _ (by omega), error_bind]

end

/-! ## The size of a state file -/

/-- A character between the digits and the letters of ASCII is not a quote or a backslash. -/
theorem plain_of_range {text : String}
    (h : ∀ c ∈ text.toList, 45 ≤ c.toNat ∧ c.toNat ≤ 122 ∧ c.toNat ≠ 92) : Plain text := by
  intro c hc
  obtain ⟨hlow, hhigh, hslash⟩ := h c hc
  refine ⟨by omega, by omega, ?_, ?_⟩
  · rintro rfl
    exact absurd hlow (by decide)
  · rintro rfl
    exact hslash rfl

/-- The range of the characters of keys and namespaces. -/
theorem isKeyChar_range {c : Char} (h : isKeyChar c = true) :
    45 ≤ c.toNat ∧ c.toNat ≤ 122 ∧ c.toNat ≠ 92 := by
  simp only [isKeyChar, Char.isAlphanum, isAlpha_iff, isUpper_iff, isLower_iff, isDigit_iff,
    Bool.or_eq_true, beq_iff_eq] at h
  rcases h with ((((h | rfl) | rfl) | rfl) | rfl)
  · omega
  all_goals decide

/-- A namespace character is a key character. -/
theorem isKeyChar_of_isNamespaceChar {c : Char} (h : isNamespaceChar c = true) :
    isKeyChar c = true := by
  simp only [isNamespaceChar, Bool.or_eq_true] at h
  simp only [isKeyChar, Char.isAlphanum, isAlpha_iff, Bool.or_eq_true]
  tauto

theorem plain_of_validateKey (h : validateKey key = .ok ()) : Plain key := by
  rw [validateKey, rejectIf_eq_ok] at h
  refine plain_of_range fun c hc => isKeyChar_range ?_
  have hall : key.toList.all isKeyChar = true := by
    by_contra hnot
    exact h (.inr (.inr (.inr (.inr (.inl hnot)))))
  exact List.all_eq_true.mp hall c hc

theorem plain_of_validateNamespace (h : validateNamespace name = .ok ()) : Plain name := by
  rw [validateNamespace, rejectIf_eq_ok] at h
  refine plain_of_range fun c hc => isKeyChar_range (isKeyChar_of_isNamespaceChar ?_)
  have hall : name.toList.all isNamespaceChar = true := by
    by_contra hnot
    exact h (.inr (.inr hnot))
  exact List.all_eq_true.mp hall c hc

/-- The bytes of an entry in a state file: the key, two digits for each byte of the value, four
quotes, a colon, and a comma or the closing brace. -/
def entryBytes (key : String) (value : List UInt8) : Nat :=
  key.length + 2 * value.length + 6

/-- The bytes of a state file. -/
def stateFileBytes (name : String) (state : State) : Nat :=
  157 + name.length + (decimal state.generation).length
    + (if state.schema = 0 then 0 else 16 + (decimal state.schema.toNat).length)
    + (if state.entries.isEmpty then 1 else TreeMap.sumOf entryBytes state.entries)

section

variable [HexCodec]

/-- The size of the object that holds the encoded entries. -/
theorem size_entries {entries : Entries} (h : ValidEntries entries) :
    (Json.obj ((entries.map fun _ value => HexCodec.encode value).toList.map fun entry =>
        (entry.1, Json.str entry.2))).size
      = 1 + if entries.isEmpty then 1 else TreeMap.sumOf entryBytes entries := by
  have hmembers : ((entries.map fun _ value => HexCodec.encode value).toList.map fun entry =>
      (entry.1, Json.str entry.2)) = entries.toList.map fun entry =>
        (entry.1, Json.str (HexCodec.encode entry.2)) := by
    simp [ExtTreeMap.toList_map, Function.comp_def]
  have hsum : ((entries.toList.map fun entry => (entry.1, Json.str (HexCodec.encode entry.2))).map
      fun member => byteLength (stringText member.1) + member.2.size + 2).sum
        = TreeMap.sumOf entryBytes entries := by
    rw [TreeMap.sumOf, List.map_map]
    refine congrArg List.sum (List.map_congr_left fun entry hmem => ?_)
    have hkey := h.key_valid (ExtTreeMap.mem_toList_iff_getElem?_eq_some.mp hmem)
    rw [Function.comp_apply, byteLength_stringText (plain_of_validateKey hkey),
      Json.size_str (plain_hex _), HexCodec.length_encode, entryBytes]
    omega
  have hempty : entries.toList = [] ↔ entries.isEmpty = true := by
    rw [ExtTreeMap.isEmpty_eq_size_beq_zero, beq_iff_eq, ← ExtTreeMap.length_toList,
      List.length_eq_zero_iff]
  rw [hmembers, Json.size_obj, hsum]
  simp only [List.map_eq_nil_iff, hempty]
  split <;> omega

omit [HexCodec] in
/-- The keys of the documents, with their quotes. -/
theorem byteLength_documentKeys :
    byteLength (stringText "payload") = 9 ∧ byteLength (stringText "payload_sha256") = 16 ∧
      byteLength (stringText "format_version") = 16 ∧ byteLength (stringText "namespace") = 11 ∧
      byteLength (stringText "generation") = 12 ∧ byteLength (stringText "state_schema") = 14 ∧
      byteLength (stringText "entries") = 9 := by
  decide

/-- The size of the document of a payload. -/
theorem size_document (hname : validateNamespace name = .ok ()) (h : ValidEntries state.entries) :
    (state.payload name).document.size
      = 61 + name.length + (decimal state.generation).length
        + (if state.schema = 0 then 0 else 16 + (decimal state.schema.toNat).length)
        + (if state.entries.isEmpty then 1 else TreeMap.sumOf entryBytes state.entries) := by
  obtain ⟨-, -, hversion, hnamespace, hgeneration, hschema, hentries⟩ := byteLength_documentKeys
  have hstr := Json.size_str (plain_of_validateNamespace hname)
  have hformat : (Json.num (diskFormatVersion : Nat)).size = 1 := by decide
  have hvalues := size_entries h
  by_cases hzero : state.schema = 0
  · rw [DiskPayload.document, if_pos (show (state.payload name).stateSchema = 0 from hzero),
      if_pos hzero, Json.size_obj]
    simp only [State.payload, hversion, hnamespace, hgeneration, hentries, hstr, hformat, hvalues, Json.size_num,
      List.append_nil, List.cons_append, List.nil_append, List.map_cons, List.map_nil, List.sum_cons,
      List.sum_nil, reduceCtorEq, if_false]
    omega
  · rw [DiskPayload.document, if_neg (show (state.payload name).stateSchema ≠ 0 from hzero),
      if_neg hzero, Json.size_obj]
    simp only [State.payload, hversion, hnamespace, hgeneration, hschema, hentries, hstr, hformat, hvalues,
      Json.size_num, List.cons_append, List.nil_append, List.map_cons, List.map_nil, List.sum_cons,
      List.sum_nil, reduceCtorEq, if_false]
    omega

variable [Sha256]

/-- The size of the file that a state with valid entries is written as. -/
theorem length_encode_envelope (hname : validateNamespace name = .ok ())
    (h : ValidEntries state.entries) :
    (encode (state.envelope name)).length = stateFileBytes name state := by
  obtain ⟨hpayload, hsha, -⟩ := byteLength_documentKeys
  have hdigest := Json.size_str (plain_hex (Sha256.digest (encode (state.payload name))))
  rw [HexCodec.length_encode, Sha256.length_digest] at hdigest
  have hdocument := size_document hname h
  rw [encode, Json.length_bytes]
  simp only [toJson, State.envelope, Json.size_obj, List.map_cons, List.map_nil, List.sum_cons,
    List.sum_nil, reduceCtorEq, if_false, hpayload, hsha, sha256Hex, hdigest, hdocument,
    stateFileBytes]
  omega

end

/-! ## A reader of state files -/

/-- The value of a member of an object. -/
def member? (members : List (String × Json)) (key : String) : Option Json :=
  (members.find? fun member => member.1 = key).map (·.2)

/-- A natural number. -/
def natural? : Json → Option Nat
  | .num (.ofNat n) => some n
  | _ => none

/-- A string. -/
def text? : Json → Option String
  | .str text => some text
  | _ => none

/-- An entry of the object of encoded entries. -/
def encodedEntry? (member : String × Json) : Option (String × String) :=
  (text? member.2).map fun text => (member.1, text)

/-- The object of encoded entries. -/
def encodedEntries? : Json → Option (ExtTreeMap String String)
  | .obj members => (members.mapM encodedEntry?).map (TreeMap.insertAll ∅)
  | _ => none

/-- A payload has its own members only, and may leave out the schema. -/
def DiskPayload.ofJson : Json → Option DiskPayload
  | .obj members =>
    if members.all fun member => member.1 ∈
        ["format_version", "namespace", "generation", "state_schema", "entries"] then do
      let formatVersion ← (member? members "format_version").bind natural?
      let name ← (member? members "namespace").bind text?
      let generation ← (member? members "generation").bind natural?
      let schema ← (member? members "state_schema").elim (some 0) natural?
      let entries ← (member? members "entries").bind encodedEntries?
      some ⟨formatVersion, name, generation, UInt32.ofNat schema, entries⟩
    else none
  | _ => none

def DiskEnvelope.ofJson : Json → Option DiskEnvelope
  | .obj members =>
    if members.all fun member => member.1 ∈ ["payload", "payload_sha256"] then do
      let payload ← (member? members "payload").bind DiskPayload.ofJson
      let digest ← (member? members "payload_sha256").bind text?
      some ⟨payload, digest⟩
    else none
  | _ => none

theorem encodedEntries?_obj (entries : ExtTreeMap String String) :
    encodedEntries? (.obj (entries.toList.map fun entry => (entry.1, .str entry.2)))
      = some entries := by
  have hmap : ∀ list : List (String × String),
      (list.map fun entry => (entry.1, Json.str entry.2)).mapM encodedEntry? = some list := by
    intro list
    induction list with
    | nil => rfl
    | cons entry list ih =>
      rw [List.map_cons, List.mapM_cons, ih]
      rfl
  rw [encodedEntries?, hmap, Option.map_some, TreeMap.insertAll_toList]

theorem DiskPayload.ofJson_document (payload : DiskPayload) :
    DiskPayload.ofJson payload.document = some payload := by
  have hentries := encodedEntries?_obj payload.entries
  have hnat : ∀ n : Nat, natural? (.num n) = some n := fun _ => rfl
  by_cases hzero : payload.stateSchema = 0
  · rw [DiskPayload.document, if_pos hzero]
    simp [DiskPayload.ofJson, member?, hnat, text?, hentries, ← hzero]
  · rw [DiskPayload.document, if_neg hzero]
    simp [DiskPayload.ofJson, member?, hnat, text?, hentries]

/-- The strict reader of state files. -/
@[reducible] def strictEnvelopeReader : FromJson DiskEnvelope :=
  strictReader DiskEnvelope.ofJson fun envelope => by
    have hpayload := DiskPayload.ofJson_document envelope.payload
    simp [toJson, DiskEnvelope.ofJson, member?, text?, hpayload]

end CartridgeRuntime.Storage
