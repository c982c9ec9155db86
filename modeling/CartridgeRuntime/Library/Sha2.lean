import CartridgeRuntime.Library.Hex

/-!
# SHA-256

The hash function of FIPS 180-4, as an instance of `Sha256`. Nothing is proved about it beyond the
length of its digests; it is here so that statements over any `Sha256` have the intended instance.
-/

namespace Encoding.Sha2

/-- Rotate a word to the right. -/
def rotr (x n : UInt32) : UInt32 :=
  (x >>> n) ||| (x <<< (32 - n))

/-- The eight words that the compression function works on. -/
structure Words where
  a : UInt32
  b : UInt32
  c : UInt32
  d : UInt32
  e : UInt32
  f : UInt32
  g : UInt32
  h : UInt32

/-- The round constants: the fractional parts of the cube roots of the first 64 primes. -/
def roundConstants : List UInt32 :=
  [
    0x428a2f98, 0x71374491, 0xb5c0fbcf, 0xe9b5dba5, 0x3956c25b, 0x59f111f1, 0x923f82a4, 0xab1c5ed5,
    0xd807aa98, 0x12835b01, 0x243185be, 0x550c7dc3, 0x72be5d74, 0x80deb1fe, 0x9bdc06a7, 0xc19bf174,
    0xe49b69c1, 0xefbe4786, 0x0fc19dc6, 0x240ca1cc, 0x2de92c6f, 0x4a7484aa, 0x5cb0a9dc, 0x76f988da,
    0x983e5152, 0xa831c66d, 0xb00327c8, 0xbf597fc7, 0xc6e00bf3, 0xd5a79147, 0x06ca6351, 0x14292967,
    0x27b70a85, 0x2e1b2138, 0x4d2c6dfc, 0x53380d13, 0x650a7354, 0x766a0abb, 0x81c2c92e, 0x92722c85,
    0xa2bfe8a1, 0xa81a664b, 0xc24b8b70, 0xc76c51a3, 0xd192e819, 0xd6990624, 0xf40e3585, 0x106aa070,
    0x19a4c116, 0x1e376c08, 0x2748774c, 0x34b0bcb5, 0x391c0cb3, 0x4ed8aa4a, 0x5b9cca4f, 0x682e6ff3,
    0x748f82ee, 0x78a5636f, 0x84c87814, 0x8cc70208, 0x90befffa, 0xa4506ceb, 0xbef9a3f7, 0xc67178f2
  ]

/-- The initial hash value: the fractional parts of the square roots of the first eight primes. -/
def initial : Words :=
  ⟨0x6a09e667, 0xbb67ae85, 0x3c6ef372, 0xa54ff53a,
    0x510e527f, 0x9b05688c, 0x1f83d9ab, 0x5be0cd19⟩

/-- The big-endian bytes of a number, `count` of them. -/
def bigEndian : Nat → Nat → List UInt8
  | 0, _ => []
  | count + 1, n => UInt8.ofNat (n / 256 ^ count) :: bigEndian count n

/-- The message with its padding: a one bit, zeros, and the length in bits. -/
def pad (message : List UInt8) : List UInt8 :=
  let zeros := (119 - message.length % 64) % 64
  message ++ 0x80 :: List.replicate zeros 0 ++ bigEndian 8 (8 * message.length)

/-- The first `count` big-endian words of some bytes. -/
def toWords : Nat → List UInt8 → List UInt32
  | count + 1, b₀ :: b₁ :: b₂ :: b₃ :: rest =>
    UInt32.ofNat (((b₀.toNat * 256 + b₁.toNat) * 256 + b₂.toNat) * 256 + b₃.toNat) ::
      toWords count rest
  | _, _ => []

/-- One word of the message schedule from the sixteen before it, the newest first. -/
def scheduleWord (recent : List UInt32) : UInt32 :=
  let w₂ := recent.getD 1 0
  let w₇ := recent.getD 6 0
  let w₁₅ := recent.getD 14 0
  let w₁₆ := recent.getD 15 0
  let σ₀ := rotr w₁₅ 7 ^^^ rotr w₁₅ 18 ^^^ (w₁₅ >>> 3)
  let σ₁ := rotr w₂ 17 ^^^ rotr w₂ 19 ^^^ (w₂ >>> 10)
  σ₁ + w₇ + σ₀ + w₁₆

/-- Extend a message schedule, kept newest first, by some words. -/
def extendSchedule : Nat → List UInt32 → List UInt32
  | 0, schedule => schedule
  | count + 1, schedule => extendSchedule count (scheduleWord schedule :: schedule)

/-- One round of the compression function. -/
def round (words : Words) (constant word : UInt32) : Words :=
  let s₁ := rotr words.e 6 ^^^ rotr words.e 11 ^^^ rotr words.e 25
  let ch := (words.e &&& words.f) ^^^ (~~~words.e &&& words.g)
  let t₁ := words.h + s₁ + ch + constant + word
  let s₀ := rotr words.a 2 ^^^ rotr words.a 13 ^^^ rotr words.a 22
  let maj := (words.a &&& words.b) ^^^ (words.a &&& words.c) ^^^ (words.b &&& words.c)
  ⟨t₁ + (s₀ + maj), words.a, words.b, words.c, words.d + t₁, words.e, words.f, words.g⟩

/-- The compression function on one block of 64 bytes. -/
def compress (words : Words) (block : List UInt8) : Words :=
  let schedule := (extendSchedule 48 (toWords 16 block).reverse).reverse
  let final := (roundConstants.zip schedule).foldl (fun acc pair => round acc pair.1 pair.2) words
  ⟨words.a + final.a, words.b + final.b, words.c + final.c, words.d + final.d,
    words.e + final.e, words.f + final.f, words.g + final.g, words.h + final.h⟩

/-- Compress `count` blocks. -/
def compressBlocks : Nat → Words → List UInt8 → Words
  | 0, words, _ => words
  | count + 1, words, bytes => compressBlocks count (compress words bytes) (bytes.drop 64)

/-- The bytes of the hash value. -/
def Words.bytes (words : Words) : List UInt8 :=
  [words.a, words.b, words.c, words.d, words.e, words.f, words.g, words.h].flatMap fun word =>
    bigEndian 4 word.toNat

/-- The hash of a message. -/
def hash (message : List UInt8) : List UInt8 :=
  (compressBlocks ((pad message).length / 64) initial (pad message)).bytes

theorem length_bigEndian (count n : Nat) : (bigEndian count n).length = count := by
  induction count with
  | zero => rfl
  | succ count ih => rw [bigEndian, List.length_cons, ih]

/-- SHA-256. -/
@[reducible] def sha256 : Sha256 where
  digest := hash
  length_digest message := by
    simp [hash, Words.bytes, length_bigEndian]

end Encoding.Sha2
