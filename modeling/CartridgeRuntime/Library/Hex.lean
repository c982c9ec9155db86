import CartridgeRuntime.Library.JsonParse

/-!
# Hexadecimal text and digests

`HexCodec` is a lower-case hexadecimal codec and `Sha256` a hash function with 32-byte results, both
known only by what their documentation promises. `nibbleCodec` and `headHash` keep the promise.
-/

namespace Encoding

/-- A lower-case hexadecimal digit. -/
def IsLowerHex (c : Char) : Prop :=
  (48 ≤ c.toNat ∧ c.toNat ≤ 57) ∨ (97 ≤ c.toNat ∧ c.toNat ≤ 102)

instance (c : Char) : Decidable (IsLowerHex c) :=
  inferInstanceAs (Decidable (_ ∨ _))

/-- A hexadecimal codec: two lower-case digits for each byte, read back without loss. The text of
a decoding error is left open. -/
class HexCodec where
  /-- The text of some bytes. -/
  encode : List UInt8 → String
  /-- The bytes of a text. -/
  decode : String → Except String (List UInt8)
  /-- Each byte takes two characters. -/
  length_encode (bytes : List UInt8) : (encode bytes).length = 2 * bytes.length
  /-- The text consists of lower-case digits. -/
  isLowerHex_encode (bytes : List UInt8) : ∀ c ∈ (encode bytes).toList, IsLowerHex c
  /-- A text that is decoded has two digits for each byte. -/
  size_of_decode (text : String) (bytes : List UInt8) :
    decode text = .ok bytes → text.utf8ByteSize = 2 * bytes.length
  /-- A text that was encoded is decoded to the same bytes. -/
  decode_encode (bytes : List UInt8) : decode (encode bytes) = .ok bytes

/-- The hash function, known only by the length of its results. -/
class Sha256 where
  /-- The digest of some bytes. -/
  digest : List UInt8 → List UInt8
  /-- A digest has 32 bytes. -/
  length_digest (bytes : List UInt8) : (digest bytes).length = 32

section

variable [HexCodec] [Sha256]

/-- The digest of some bytes, as text. -/
def sha256Hex (bytes : List UInt8) : String :=
  HexCodec.encode (Sha256.digest bytes)

omit [Sha256] in
/-- Hexadecimal text needs no escape. -/
theorem plain_hex (bytes : List UInt8) : Plain (HexCodec.encode bytes) := by
  intro c hc
  have hvalue : ∀ d : Char, c = d → c.toNat = d.toNat := fun d h => congrArg Char.toNat h
  have hquote : c.toNat ≠ '"'.toNat → c ≠ '"' := mt (hvalue '"')
  have hslash : c.toNat ≠ '\\'.toNat → c ≠ '\\' := mt (hvalue '\\')
  rcases HexCodec.isLowerHex_encode bytes c hc with h | h
  · exact ⟨by omega, by omega, hquote (by simp; omega), hslash (by simp; omega)⟩
  · exact ⟨by omega, by omega, hquote (by simp; omega), hslash (by simp; omega)⟩

/-- A digest is 64 characters long. -/
@[simp] theorem length_sha256Hex (bytes : List UInt8) : (sha256Hex bytes).length = 64 := by
  rw [sha256Hex, HexCodec.length_encode, Sha256.length_digest]

end

/-! ## A codec -/

/-- The two digits of a byte. -/
def byteDigits (byte : UInt8) : List Char :=
  [hexDigit (byte.toNat / 16), hexDigit (byte.toNat % 16)]

/-- The value of a hexadecimal digit in either case. -/
def nibble? (c : Char) : Option Nat :=
  if 65 ≤ c.toNat ∧ c.toNat ≤ 70 then some (c.toNat - 55) else hexValue? c

/-- Read digits in pairs. -/
def decodeDigits : List Char → Except String (List UInt8)
  | [] => .ok []
  | [_] => .error "odd number of digits"
  | high :: low :: rest =>
    match nibble? high, nibble? low with
    | some h, some l => return UInt8.ofNat (16 * h + l) :: (← decodeDigits rest)
    | _, _ => .error "invalid character"

theorem nibble?_hexDigit : ∀ d < 16, nibble? (hexDigit d) = some d := by
  decide

theorem isLowerHex_hexDigit : ∀ d < 16, IsLowerHex (hexDigit d) := by
  decide

/-- The digits of some bytes are read back. -/
theorem decodeDigits_flatMap_byteDigits (bytes : List UInt8) :
    decodeDigits (bytes.flatMap byteDigits) = .ok bytes := by
  induction bytes with
  | nil => rfl
  | cons byte bytes ih =>
    have hbyte := byte.toNat_lt
    have hhigh := nibble?_hexDigit (byte.toNat / 16) (by omega)
    have hlow := nibble?_hexDigit (byte.toNat % 16) (by omega)
    simp only [List.flatMap_cons, byteDigits, List.cons_append, List.nil_append, decodeDigits,
      hhigh, hlow, Nat.div_add_mod, UInt8.ofNat_toNat, ih]
    rfl

variable {c : Char}

/-- A hexadecimal digit takes one byte. -/
theorem utf8Size_of_nibble? {n : Nat} (h : nibble? c = some n) : c.utf8Size = 1 := by
  refine utf8Size_ascii ?_
  unfold nibble? hexValue? at h
  split_ifs at h <;> omega

/-- Digits that are read as bytes come in pairs. -/
theorem byteLength_of_decodeDigits : ∀ {text : List Char} {bytes : List UInt8},
    decodeDigits text = .ok bytes → byteLength text = 2 * bytes.length
  | [], bytes, h => by
    cases h
    rfl
  | [_], bytes, h => by cases h
  | high :: low :: rest, bytes, h => by
    unfold decodeDigits at h
    split at h
    · rename_i x y hhigh hlow
      cases hrest : decodeDigits rest with
      | error e => simp [hrest, bind, Except.bind] at h
      | ok tail =>
        simp only [hrest, bind, Except.bind, pure, Except.pure, Except.ok.injEq] at h
        rw [← h, byteLength_cons, byteLength_cons, utf8Size_of_nibble? hhigh,
          utf8Size_of_nibble? hlow, byteLength_of_decodeDigits hrest, List.length_cons]
        omega
    · cases h

/-- The codec that writes and reads digit by digit. -/
@[reducible] def nibbleCodec : HexCodec where
  encode bytes := String.ofList (bytes.flatMap byteDigits)
  decode text := decodeDigits text.toList
  length_encode bytes := by
    simp [byteDigits, List.length_flatMap, Nat.mul_comm]
  isLowerHex_encode bytes := by
    intro c hc
    simp only [String.toList_ofList, List.mem_flatMap, byteDigits, List.mem_cons, List.not_mem_nil,
      or_false] at hc
    obtain ⟨byte, -, rfl | rfl⟩ := hc
    · exact isLowerHex_hexDigit _ (by have := byte.toNat_lt; omega)
    · exact isLowerHex_hexDigit _ (by omega)
  size_of_decode text bytes h := by
    rw [← byteLength_of_decodeDigits h, byteLength_toList]
  decode_encode bytes := by
    rw [String.toList_ofList, decodeDigits_flatMap_byteDigits]

/-! ## A hash -/

/-- The first 32 bytes of a message, filled up with zeros. -/
def head32 (bytes : List UInt8) : List UInt8 :=
  (bytes ++ List.replicate 32 0).take 32

@[simp] theorem length_head32 (bytes : List UInt8) : (head32 bytes).length = 32 := by
  simp [head32]

/-- A hash that keeps the head of a message. -/
@[reducible] def headHash : Sha256 where
  digest := head32
  length_digest := length_head32

/-! ## ASCII letters and digits -/

theorem isAlpha_iff : c.isAlpha = true ↔ c.isUpper = true ∨ c.isLower = true :=
  Bool.or_eq_true_iff

theorem isUpper_iff : c.isUpper = true ↔ 65 ≤ c.toNat ∧ c.toNat ≤ 90 :=
  decide_eq_true_iff

theorem isLower_iff : c.isLower = true ↔ 97 ≤ c.toNat ∧ c.toNat ≤ 122 :=
  Bool.and_eq_true_iff.trans (and_congr decide_eq_true_iff decide_eq_true_iff)

theorem isDigit_iff : c.isDigit = true ↔ 48 ≤ c.toNat ∧ c.toNat ≤ 57 :=
  Bool.and_eq_true_iff.trans (and_congr decide_eq_true_iff decide_eq_true_iff)

end Encoding
