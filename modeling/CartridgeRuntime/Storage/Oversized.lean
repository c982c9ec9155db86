import CartridgeRuntime.Storage.RoundTrip

/-!
# A namespace that outgrows its files

Keys of 256 bytes with values of 1024 bytes are put one after the other. Every put is within the
quota and is accepted. The 65366th state is written to a file that the reader refuses, and with it
every later call on the namespace fails.
-/

namespace CartridgeRuntime.Storage

open Checked Std Encoding

/-! ## The entries -/

/-- The digits of a key, from its sixteen bits. -/
def bulkDigits (i : Nat) : List Char :=
  (List.range 16).map fun bit => if i.testBit bit then 'b' else 'a'

/-- A key of 256 bytes. -/
def bulkKey (i : Nat) : String :=
  String.ofList (List.replicate 240 'k' ++ bulkDigits i)

def bulkValue : List UInt8 :=
  List.replicate 1024 0

/-- The largest limits there are. -/
def bulkLimits : StorageLimits :=
  ⟨67108864, 100000, 8388608⟩

/-- The first `n` entries. -/
def bulkEntries : Nat → Entries
  | 0 => ∅
  | n + 1 => (bulkEntries n).insert (bulkKey n) bulkValue

theorem bulkLimits_valid : bulkLimits.Valid := by
  constructor <;> decide

variable {i n : Nat}

theorem mem_bulkKey {c : Char} (h : c ∈ (bulkKey i).toList) : c = 'k' ∨ c = 'a' ∨ c = 'b' := by
  simp only [bulkKey, String.toList_ofList, List.mem_append, List.mem_replicate, bulkDigits,
    List.mem_map] at h
  rcases h with ⟨-, rfl⟩ | ⟨bit, -, rfl⟩
  · exact .inl rfl
  · split <;> simp

theorem length_bulkKey (i : Nat) : (bulkKey i).length = 256 := by
  rw [bulkKey, String.length_ofList, List.length_append, List.length_replicate, bulkDigits,
    List.length_map, List.length_range]

/-- The keys are valid. -/
theorem validateKey_bulkKey (i : Nat) : validateKey (bulkKey i) = .ok () := by
  have hslash : '/' ∉ (bulkKey i).toList := fun h => by
    rcases mem_bulkKey h with h | h | h <;> exact absurd h (by decide)
  have hascii : ∀ c ∈ (bulkKey i).toList, c.toNat < 128 := fun c hc => by
    rcases mem_bulkKey hc with rfl | rfl | rfl <;> decide
  have hsize : (bulkKey i).utf8ByteSize = 256 := by
    rw [← byteLength_toList, byteLength_ascii hascii, String.length_toList, length_bulkKey]
  have hchars : (bulkKey i).toList.all isKeyChar = true := List.all_eq_true.mpr fun c hc => by
    rcases mem_bulkKey hc with rfl | rfl | rfl <;> decide
  have hne : (bulkKey i).toList ≠ [] := fun h => by
    have := length_bulkKey i
    rw [← String.length_toList, h] at this
    cases this
  have hedge : ∀ c, c ∈ (bulkKey i).toList.head? ∨ c ∈ (bulkKey i).toList.getLast? → c ≠ '/' := by
    rintro c hc rfl
    rcases hc with hc | hc
    · exact hslash (List.mem_of_mem_head? hc)
    · exact hslash (List.mem_of_mem_getLast? hc)
  have hdot : '.' ∉ (bulkKey i).toList := fun h => by
    rcases mem_bulkKey h with h | h | h <;> exact absurd h (by decide)
  have hsegment : isBadSegment (bulkKey i).toList = false := by
    simp only [isBadSegment, Bool.or_eq_false_iff, List.isEmpty_eq_false_iff, beq_eq_false_iff_ne]
    exact ⟨⟨hne, fun h => hdot (by rw [h]; simp)⟩, fun h => hdot (by rw [h]; simp)⟩
  rw [validateKey, rejectIf_eq_ok, List.splitOn_eq_singleton hslash]
  rintro (h | h | h | h | h | h)
  · exact hne (by simpa using h)
  · unfold maxKeyBytes at h
    omega
  · exact hedge '/' (.inl h) rfl
  · exact hedge '/' (.inr h) rfl
  · exact h hchars
  · simp [hsegment] at h

/-- The keys are distinct. -/
theorem bulkKey_injective {j : Nat} (hi : i < 65536) (hj : j < 65536) (h : bulkKey i = bulkKey j) :
    i = j := by
  have hdigits : bulkDigits i = bulkDigits j :=
    List.append_cancel_left (String.ofList_injective h)
  refine Nat.eq_of_testBit_eq fun bit => ?_
  by_cases hbit : bit < 16
  · have hchar := congrArg (·[bit]?) hdigits
    simp only [bulkDigits, List.getElem?_map, List.getElem?_range hbit, Option.map_some,
      Option.some.injEq] at hchar
    cases hi : i.testBit bit <;> cases hj : j.testBit bit <;> simp_all
  · have hpow : 2 ^ 16 ≤ 2 ^ bit := Nat.pow_le_pow_right (by omega) (by omega)
    rw [Nat.testBit_lt_two_pow (by omega), Nat.testBit_lt_two_pow (by omega)]

/-- A later key is not among the first entries. -/
theorem bulkEntries_new (hn : n ≤ i) (hi : i < 65536) : (bulkEntries n)[bulkKey i]? = none := by
  induction n with
  | zero => simp [bulkEntries]
  | succ n ih =>
    have hne : bulkKey n ≠ bulkKey i := fun h =>
      absurd (bulkKey_injective (by omega) hi h) (by omega)
    rw [bulkEntries, TreeMap.getElem?_insert', if_neg hne, ih (by omega)]

/-- The first entries have 1024 bytes each, and take 2310 bytes each in a file. -/
theorem bulkEntries_sums (hn : n ≤ 65536) :
    (bulkEntries n).size = n ∧ totalBytes (bulkEntries n) = 1024 * n ∧
      TreeMap.sumOf entryBytes (bulkEntries n) = 2310 * n := by
  induction n with
  | zero => simp [bulkEntries, totalBytes]
  | succ n ih =>
    obtain ⟨hsize, hbytes, hfile⟩ := ih (by omega)
    have hnew := bulkEntries_new le_rfl (show n < 65536 by omega)
    have hlength : bulkValue.length = 1024 := List.length_replicate
    have hsum := TreeMap.sumOf_insert entryBytes (bulkEntries n) (bulkKey n) bulkValue
    rw [TreeMap.weightAt, hnew, Option.elim_none, hfile, entryBytes, length_bulkKey,
      hlength] at hsum
    rw [bulkEntries, size_insert_new hnew, totalBytes_insert_new hnew, hsize, hbytes, hlength]
    omega

/-- The state after the first `n` puts. -/
def bulkState (n : Nat) : State :=
  .ofContents n 0 (bulkEntries n)

/-- The size of the file of that state. -/
theorem stateFileBytes_bulkState (hpos : 0 < n) (hn : n ≤ 65536) :
    stateFileBytes "a" (bulkState n) = 158 + (decimal n).length + 2310 * n := by
  obtain ⟨hsize, -, hfile⟩ := bulkEntries_sums hn
  have hempty : (bulkEntries n).isEmpty = false := by
    rw [ExtTreeMap.isEmpty_eq_size_beq_zero, hsize, beq_eq_false_iff_ne]
    omega
  have hname : "a".length = 1 := by decide
  simp only [stateFileBytes, bulkState, State.ofContents, hempty, hfile, hname, if_true,
    Bool.false_eq_true, if_false]
  omega

/-! ## The run -/

section

variable [HexCodec] [Sha256] [FromJson DiskEnvelope]

/-- The storage after the first `n` puts, from an empty one. -/
def bulkStorage : Nat → DirectoryStorage
  | 0 => { root := "/state" }
  | n + 1 => ((bulkStorage n).put "a" (bulkKey n) bulkValue bulkLimits).2

omit [HexCodec] [Sha256] [FromJson DiskEnvelope] in
theorem validateNamespace_a : validateNamespace "a" = .ok () := by
  decide

/-- A put that finds the state after the first `n` puts is accepted and commits the next state. -/
theorem bulkStorage_put (hn : n < 65536)
    (hload : loadState ((bulkStorage n).namespaceDirectory "a") "a" ((bulkStorage n).files "a")
      = .ok (bulkState n)) :
    let next := State.ofContents n 0 (bulkEntries (n + 1))
    ((bulkStorage n).put "a" (bulkKey n) bulkValue bulkLimits).1 = .ok () ∧ next.WellFormed ∧
      commitState ((bulkStorage n).files "a").cleanupPending "a" next
        = .ok ((bulkStorage (n + 1)).files "a") := by
  obtain ⟨hsize, hbytes, -⟩ := bulkEntries_sums hn.le
  have hlength : bulkValue.length = 1024 := List.length_replicate
  have hnew : (bulkState n).entries[bulkKey n]? = none := bulkEntries_new le_rfl hn
  have hvalue : bulkValue.length ≤ bulkLimits.maxValueBytes := by
    rw [hlength]
    decide
  refine DirectoryStorage.put_new validateNamespace_a (validateKey_bulkKey n) bulkLimits_valid
    hvalue hload hnew ?_ ?_ ?_
  · simp only [bulkState, State.ofContents, bulkLimits]
    omega
  · simp only [bulkState, State.ofContents, bulkLimits]
    omega
  · simp only [bulkState, State.ofContents, wordMax]
    omega

/-- As long as the files are within the limit, the storage is loaded after each put. -/
theorem bulkStorage_load (hn : n ≤ 65365) :
    loadState ((bulkStorage n).namespaceDirectory "a") "a" ((bulkStorage n).files "a")
      = .ok (bulkState n) := by
  induction n with
  | zero => exact loadState_empty _ _
  | succ n ih =>
    have hload := ih (by omega)
    obtain ⟨-, hwell, hcommit⟩ := bulkStorage_put (by omega) hload
    have hdirectory : (bulkStorage (n + 1)).namespaceDirectory "a"
        = (bulkStorage n).namespaceDirectory "a" := by
      rw [DirectoryStorage.namespaceDirectory, bulkStorage, DirectoryStorage.put,
        DirectoryStorage.write_root, DirectoryStorage.namespaceDirectory]
    rw [hdirectory]
    have hload' : loadState ((bulkStorage n).namespaceDirectory "a") "a"
        ((bulkStorage n).files "a").cleanupPending = .ok (bulkState n) := hload
    have hle : (bulkState n).generation
        ≤ (State.ofContents n 0 (bulkEntries (n + 1))).generation := le_rfl
    have hbytes := stateFileBytes_bulkState (show 0 < n + 1 by omega) (show n + 1 ≤ 65536 by omega)
    have hdigits : (decimal (n + 1)).length ≤ 5 := length_decimal_le (by omega) (by omega)
    have hsize : stateFileBytes "a" (bulkState (n + 1)) ≤ maxStateFileBytes := by
      rw [hbytes, maxStateFileBytes]
      omega
    have hloaded := loadState_commitState validateNamespace_a hload' hle hwell hcommit hsize
    exact hloaded

/-- The file of a state that is too large is not read back. -/
theorem bulkStorage_unreadable (hn : n < 65536)
    (hlarge : maxStateFileBytes ≤ 2310 * (n + 1))
    (hload : loadState ((bulkStorage n).namespaceDirectory "a") "a" ((bulkStorage n).files "a")
      = .ok (bulkState n)) :
    ∃ bytes, ((bulkStorage (n + 1)).files "a").generations[n + 1]? = some bytes ∧
      ∀ path, readState path bytes "a" (n + 1)
        = .error (.corrupt s!"{path} exceeds the state file size limit") := by
  obtain ⟨-, hwell, hcommit⟩ := bulkStorage_put hn hload
  have hmax : ∀ generation ∈ ((bulkStorage n).files "a").cleanupPending.generations,
      generation ≤ n := (loadState_wellFormed hload).2
  have hfile := commitState_newest hmax hcommit
  refine ⟨encode ((bulkState (n + 1)).envelope "a"), hfile, fun path => ?_⟩
  have hnext : (bulkState (n + 1)).WellFormed := ⟨hwell.valid, hwell.size_le, rfl⟩
  have hsize := stateFileBytes_bulkState (show 0 < n + 1 by omega) hn
  have hread := readState_envelope hnext path "a"
  rw [length_encode_envelope validateNamespace_a hnext.valid, hsize, if_neg (by omega)] at hread
  exact hread

end

/-- Every put of the run is accepted, and after the last one the namespace cannot be read. -/
theorem accepted_puts_not_read_back :
    let _ := nibbleCodec
    let _ := Sha2.sha256
    let _ := strictEnvelopeReader
    let last := 65365
    (∀ n ≤ last, ((bulkStorage n).put "a" (bulkKey n) bulkValue bulkLimits).1 = .ok ()) ∧
      ∃ bytes, ((bulkStorage (last + 1)).files "a").generations[last + 1]? = some bytes ∧
        ∀ path, readState path bytes "a" (last + 1)
          = .error (.corrupt s!"{path} exceeds the state file size limit") := by
  intro _ _ _ last
  have hload := bulkStorage_load (Nat.le_refl last)
  exact ⟨fun n hn => (bulkStorage_put (by omega) (bulkStorage_load hn)).1,
    bulkStorage_unreadable (by omega) (by unfold maxStateFileBytes; omega) hload⟩

end CartridgeRuntime.Storage
