import CartridgeRuntime.Storage.BlobLimit
import CartridgeRuntime.Library.Bytes

/-!
# References to blobs in stored values

A reference is stored as a fixed start, the text of the digest and the size in eight bytes.
`blobReference_canonical`: every valid reference has one encoding, which is read back, and a value with
the fixed start that is not one of these encodings is an error.
-/

namespace CartridgeRuntime.Storage

open Checked CartridgeRuntime.Core Encoding
open Sha2 (bigEndian length_bigEndian)

/-- The bytes that a reference starts with, `cartridge-blob-v1` and a zero. -/
def blobReferenceStart : List UInt8 :=
  utf8Bytes "cartridge-blob-v1" ++ [0]

def blobReferenceBytes : Nat :=
  blobReferenceStart.length + 64 + 8

namespace BlobReference

def encode (reference : BlobReference) : Except BlobError (List UInt8) := do
  reference.validate
  return blobReferenceStart ++ utf8Bytes reference.sha256 ++ bigEndian 8 reference.bytes

/-- The reference in a value, if it is meant to be one. -/
def decode (value : List UInt8) : Except BlobError (Option BlobReference) :=
  if ¬ blobReferenceStart <+: value then .ok none
  else do
    rejectIf (value.length ≠ blobReferenceBytes)
      (.corrupt "blob reference has an invalid length")
    let rest := value.drop blobReferenceStart.length
    let sha256 ← okOr (utf8Text? (rest.take 64)) (.corrupt "blob reference digest is not text")
    let reference ← BlobReference.new sha256 (ofBigEndian (rest.drop 64))
    return some reference

variable {reference : BlobReference} {value : List UInt8}

theorem validate_eq_ok :
    reference.validate = .ok () ↔ isDigest reference.sha256 ∧ reference.bytes ≤ maxBlobBytes := by
  rw [validate, bind_eq_ok, exists_unit, validateBlobDigest_eq_ok, rejectIf_eq_ok, Nat.not_lt]

theorem new_eq_ok {sha256 : String} {bytes : Nat} :
    BlobReference.new sha256 bytes = .ok reference ↔
      BlobReference.validate ⟨sha256, bytes⟩ = .ok () ∧ ⟨sha256, bytes⟩ = reference := by
  simp only [BlobReference.new, bind_eq_ok, exists_unit, pure_eq_ok, Except.ok.injEq]

theorem encode_eq_ok :
    reference.encode = .ok value ↔ reference.validate = .ok () ∧
      blobReferenceStart ++ utf8Bytes reference.sha256 ++ bigEndian 8 reference.bytes = value := by
  simp only [encode, bind_eq_ok, exists_unit, pure_eq_ok, Except.ok.injEq]

/-- The text of a valid reference has 64 bytes. -/
theorem length_sha256 (h : reference.validate = .ok ()) :
    (utf8Bytes reference.sha256).length = 64 := by
  obtain ⟨hdigest, -⟩ := validate_eq_ok.mp h
  simp only [isDigest, Bool.and_eq_true, beq_iff_eq] at hdigest
  rw [length_utf8Bytes, hdigest.1]

theorem decode_of_not_start (h : ¬ blobReferenceStart <+: value) : decode value = .ok none :=
  if_pos h

theorem decode_eq_some (hstart : blobReferenceStart <+: value) :
    decode value = .ok (some reference) ↔ value.length = blobReferenceBytes ∧
      utf8Text? ((value.drop blobReferenceStart.length).take 64) = some reference.sha256 ∧
      reference.bytes = ofBigEndian ((value.drop blobReferenceStart.length).drop 64) ∧
      reference.validate = .ok () := by
  rw [decode, if_neg (not_not.mpr hstart)]
  simp only [bind_eq_ok, exists_unit, rejectIf_eq_ok, not_not, okOr_eq_ok, new_eq_ok, pure_eq_ok,
    Except.ok.injEq, Option.some.injEq]
  constructor
  · rintro ⟨hlength, sha256, htext, _, ⟨hvalid, rfl⟩, rfl⟩
    exact ⟨hlength, htext, rfl, hvalid⟩
  · rintro ⟨hlength, htext, hbytes, hvalid⟩
    obtain ⟨sha256, bytes⟩ := reference
    cases hbytes
    exact ⟨hlength, sha256, htext, _, ⟨hvalid, rfl⟩, rfl⟩

/-- With the start of a reference, a value is read as a reference or it is an error. -/
theorem decode_ne_none (hstart : blobReferenceStart <+: value) : decode value ≠ .ok none := by
  rw [decode, if_neg (not_not.mpr hstart)]
  simp only [ne_eq, bind_eq_ok, pure_eq_ok, Except.ok.injEq, reduceCtorEq, and_false, exists_false,
    not_false_eq_true]

/-- A valid reference is read from its encoding. -/
theorem decode_of_encode (h : reference.encode = .ok value) :
    decode value = .ok (some reference) := by
  obtain ⟨hvalid, rfl⟩ := encode_eq_ok.mp h
  have hlength := length_sha256 hvalid
  rw [List.append_assoc]
  refine (decode_eq_some (List.prefix_append _ _)).mpr ⟨?_, ?_, ?_, hvalid⟩
  · rw [List.length_append, List.length_append, hlength, length_bigEndian, blobReferenceBytes,
      Nat.add_assoc]
  · rw [List.drop_left, List.take_left' hlength, utf8Text?_utf8Bytes]
  · have hbytes : reference.bytes < 256 ^ 8 :=
      (validate_eq_ok.mp hvalid).2.trans_lt (by decide)
    rw [List.drop_left, List.drop_left' hlength, ofBigEndian_bigEndian, Nat.mod_eq_of_lt hbytes]

/-- A reference is read only from its encoding. -/
theorem encode_of_decode (h : decode value = .ok (some reference)) :
    reference.encode = .ok value := by
  by_cases hstart : blobReferenceStart <+: value
  · obtain ⟨hlength, htext, hbytes, hvalid⟩ := (decode_eq_some hstart).mp h
    refine encode_eq_ok.mpr ⟨hvalid, ?_⟩
    obtain ⟨rest, rfl⟩ := hstart
    rw [List.drop_left] at htext hbytes
    have hrest : (rest.drop 64).length = 8 := by
      rw [List.length_append, blobReferenceBytes] at hlength
      rw [List.length_drop]
      omega
    have hsize := bigEndian_ofBigEndian (rest.drop 64)
    rw [hrest] at hsize
    rw [utf8Bytes_of_utf8Text? htext, hbytes, hsize, List.append_assoc, List.take_append_drop]
  · rw [decode_of_not_start hstart] at h
    cases h

/-- Encodings and references correspond; every other value either lacks the start of a reference, and
is none, or it is an error. -/
theorem blobReference_canonical :
    (∀ reference : BlobReference, reference.validate = .ok () →
      ∃ value, reference.encode = .ok value ∧ decode value = .ok (some reference)) ∧
    (∀ value reference, decode value = .ok (some reference) → reference.encode = .ok value) ∧
    (∀ value, decode value = .ok none ↔ ¬ blobReferenceStart <+: value) ∧
    (∀ value, blobReferenceStart <+: value → (∀ reference, encode reference ≠ .ok value) →
      ∃ error, decode value = .error error) ∧
    ∀ value value' reference, decode value = .ok (some reference) →
      decode value' = .ok (some reference) → value = value' := by
  refine ⟨fun reference hvalid => ?_, fun _ _ => encode_of_decode, fun value => ?_, ?_, ?_⟩
  · have hencode := encode_eq_ok.mpr ⟨hvalid, rfl⟩
    exact ⟨_, hencode, decode_of_encode hencode⟩
  · exact ⟨fun h hstart => decode_ne_none hstart h, decode_of_not_start⟩
  · intro value hstart hother
    cases hdecode : decode value with
    | error error => exact ⟨error, rfl⟩
    | ok result =>
      cases result with
      | none => exact absurd hdecode (decode_ne_none hstart)
      | some reference => exact absurd (encode_of_decode hdecode) (hother reference)
  · intro value value' reference h h'
    exact Except.ok.inj ((encode_of_decode h).symm.trans (encode_of_decode h'))

/-- The reference of 42 bytes that the source tests. -/
theorem blobReference_canonical_case :
    ∃ value, BlobReference.encode ⟨"".pushn 'a' 64, 42⟩ = .ok value ∧
      decode value = .ok (some ⟨"".pushn 'a' 64, 42⟩) :=
  blobReference_canonical.1 _ (by decide +kernel)

end BlobReference

end CartridgeRuntime.Storage
