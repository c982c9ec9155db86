import CartridgeRuntime.Library.Sha2
import Mathlib.Data.Nat.ModEq

/-!
# Texts and numbers as bytes

The bytes of a text in UTF-8 and the text of some bytes, and numbers as a fixed count of bytes, the
highest first (`Sha2.bigEndian`). Both are read back without loss, and only from their own bytes.
-/

namespace Encoding

open Sha2 (bigEndian length_bigEndian)

/-! ## Texts -/

/-- The bytes of a text. -/
def utf8Bytes (text : String) : List UInt8 :=
  text.toUTF8.data.toList

/-- The text of some bytes, if they are one. -/
def utf8Text? (bytes : List UInt8) : Option String :=
  String.fromUTF8? ⟨bytes.toArray⟩

@[simp] theorem utf8Text?_utf8Bytes (text : String) : utf8Text? (utf8Bytes text) = some text :=
  dif_pos text.isValidUTF8

theorem utf8Bytes_of_utf8Text? {bytes : List UInt8} {text : String}
    (h : utf8Text? bytes = some text) : utf8Bytes text = bytes := by
  unfold utf8Text? String.fromUTF8? at h
  split at h
  · cases h
    rfl
  · cases h

@[simp] theorem length_utf8Bytes (text : String) :
    (utf8Bytes text).length = byteLength text.toList := by
  rw [byteLength_toList]
  rfl

/-! ## Numbers -/

/-- The number of some bytes, the highest first. -/
def ofBigEndian : List UInt8 → Nat
  | [] => 0
  | byte :: rest => byte.toNat * 256 ^ rest.length + ofBigEndian rest

theorem ofBigEndian_lt (bytes : List UInt8) : ofBigEndian bytes < 256 ^ bytes.length := by
  induction bytes with
  | nil => exact Nat.one_pos
  | cons byte rest ih =>
    have hbyte : byte.toNat + 1 ≤ 256 := byte.toNat_lt
    calc byte.toNat * 256 ^ rest.length + ofBigEndian rest
        < (byte.toNat + 1) * 256 ^ rest.length := by rw [Nat.succ_mul]; omega
      _ ≤ 256 * 256 ^ rest.length := Nat.mul_le_mul_right _ hbyte
      _ = 256 ^ (rest.length + 1) := by rw [Nat.pow_succ, Nat.mul_comm]

/-- Only the lower bytes of a number count. -/
theorem ofBigEndian_bigEndian (count n : Nat) :
    ofBigEndian (bigEndian count n) = n % 256 ^ count := by
  induction count with
  | zero => exact (Nat.mod_one n).symm
  | succ count ih =>
    have hlast : n % 256 ^ (count + 1) = n % 256 ^ count + 256 ^ count * (n / 256 ^ count % 256) :=
      Nat.mod_pow_succ
    rw [bigEndian, ofBigEndian, ih, length_bigEndian, UInt8.toNat_ofNat', hlast, Nat.add_comm,
      Nat.mul_comm]

theorem bigEndian_ofBigEndian_add (bytes : List UInt8) (high : Nat) :
    bigEndian bytes.length (high * 256 ^ bytes.length + ofBigEndian bytes) = bytes := by
  induction bytes generalizing high with
  | nil => rfl
  | cons byte rest ih =>
    -- the leading byte belongs to what is above the rest
    have hsplit : high * 256 ^ (rest.length + 1) + ofBigEndian (byte :: rest)
        = (high * 256 + byte.toNat) * 256 ^ rest.length + ofBigEndian rest := by
      rw [ofBigEndian, Nat.pow_succ]
      ring
    have hdiv : ((high * 256 + byte.toNat) * 256 ^ rest.length + ofBigEndian rest)
        / 256 ^ rest.length = high * 256 + byte.toNat := by
      rw [Nat.add_comm, Nat.add_mul_div_right _ _ (by positivity),
        Nat.div_eq_of_lt (ofBigEndian_lt rest), Nat.zero_add]
    rw [List.length_cons, hsplit, bigEndian, ih, hdiv]
    refine congrArg (· :: rest) (UInt8.toNat_inj.mp ?_)
    have hbyte := byte.toNat_lt
    rw [UInt8.toNat_ofNat']
    omega

/-- Bytes are those of their number. -/
theorem bigEndian_ofBigEndian (bytes : List UInt8) :
    bigEndian bytes.length (ofBigEndian bytes) = bytes := by
  have h := bigEndian_ofBigEndian_add bytes 0
  rwa [Nat.zero_mul, Nat.zero_add] at h

end Encoding
