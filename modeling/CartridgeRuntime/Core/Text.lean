import CartridgeRuntime.Library.Hex
import CartridgeRuntime.Library.Word

/-!
# Names, versions and digests

The checks of texts that the crates share. A byte of a non-ASCII character passes none of the byte
tests of the source, so they are made per character here. Whether a text is a semantic version is
left to a parameter, as the source leaves it to a library.
-/

namespace CartridgeRuntime.Core

open Encoding

/-! ## Names -/

/-- The characters of a name. -/
def isNameChar (c : Char) : Bool :=
  c.isLower || c.isDigit || c == '-'

/-- Characters of a name that neither start nor end with a hyphen. -/
def isSegment (text : List Char) : Bool :=
  !text.isEmpty && text.all isNameChar && text.head? != some '-' && text.getLast? != some '-'

/-- A segment of at most so many bytes. -/
def isBoundedSegment (maximum : Nat) (text : List Char) : Bool :=
  byteLength text ≤ maximum && isSegment text

/-- A local name. -/
def isAlias (value : String) : Bool :=
  isBoundedSegment 48 value.toList

/-- A reverse-domain name. -/
def isCartridgeId (value : String) : Bool :=
  byteLength value.toList ≤ 128 && 3 ≤ (value.toList.splitOn '.').length
    && (value.toList.splitOn '.').all isSegment

/-! ## Texts -/

/-- The control characters: the Unicode category `Cc`. -/
def isControl (c : Char) : Bool :=
  c.val < 32 || (127 ≤ c.val && c.val < 160)

/-- The white space that `trim` removes: the Unicode property `White_Space`. -/
def isWhitespace (c : Char) : Bool :=
  (9 ≤ c.val && c.val ≤ 13) || c.val == 32 || c.val == 0x85 || c.val == 0xA0 || c.val == 0x1680
    || (0x2000 ≤ c.val && c.val ≤ 0x200A) || c.val == 0x2028 || c.val == 0x2029 || c.val == 0x202F
    || c.val == 0x205F || c.val == 0x3000

/-- A printable text of some length. -/
def isBoundedText (value : String) (maximum : Nat) (allowEmpty : Bool) : Bool :=
  (allowEmpty || !value.toList.all isWhitespace) && value.toList.length ≤ maximum
    && !value.toList.any isControl

/-- A lowercase hexadecimal SHA-256 digest. -/
def isDigest (value : String) : Bool :=
  byteLength value.toList == 64 && value.toList.all fun c => decide (IsLowerHex c)

/-! ## Versions and interfaces -/

/-- The semantic versions. -/
class Semver where
  /-- The text is a version. -/
  isVersion : String → Bool

/-- What comes before and after the first occurrence of a character. -/
def splitOnce (c : Char) (text : List Char) : Option (List Char × List Char) :=
  match text.span (· != c) with
  | (before, _ :: after) => some (before, after)
  | (_, []) => none

/-- What comes before and after the last occurrence of a character. -/
def rsplitOnce (c : Char) (text : List Char) : Option (List Char × List Char) :=
  (splitOnce c text.reverse).map fun (after, before) => (before.reverse, after.reverse)

/-! The semantic versions, as their specification defines them. -/

/-- A number without leading zeros. -/
def isNumericIdentifier (text : List Char) : Bool :=
  !text.isEmpty && text.all Char.isDigit && (text.length == 1 || text.head? != some '0')

/-- A number that is a 64-bit word. -/
def isVersionNumber (text : List Char) : Bool :=
  isNumericIdentifier text
    && text.foldl (fun n c => 10 * n + (c.toNat - '0'.toNat)) 0 < 2 ^ 64

/-- Letters, digits and hyphens. -/
def isBuildIdentifier (text : List Char) : Bool :=
  !text.isEmpty && text.all fun c => c.isAlphanum || c == '-'

/-- A build identifier that, if it is a number, has no leading zeros. -/
def isPreReleaseIdentifier (text : List Char) : Bool :=
  isBuildIdentifier text && (!text.all Char.isDigit || isNumericIdentifier text)

/-- What comes before and after the first occurrence of a character, if it occurs. -/
def cutAt (c : Char) (text : List Char) : List Char × Option (List Char) :=
  match splitOnce c text with
  | some (before, after) => (before, some after)
  | none => (text, none)

/-- Three numbers, and optionally a pre-release after a hyphen and a build after a plus sign. -/
@[reducible] def semver2 : Semver where
  isVersion value :=
    let (text, build) := cutAt '+' value.toList
    let (core, preRelease) := cutAt '-' text
    (core.splitOn '.').length == 3 && (core.splitOn '.').all isVersionNumber
      && preRelease.all (fun text => (text.splitOn '.').all isPreReleaseIdentifier)
      && build.all (fun text => (text.splitOn '.').all isBuildIdentifier)

/-- The `validate_interface` of the source, whose errors nothing reads: the text has the form
`namespace:package/interface@version`. -/
def isInterface [Semver] (value : String) : Bool :=
  match rsplitOnce '@' value.toList with
  | none => false
  | some (path, version) =>
    Semver.isVersion (String.ofList version) &&
      match splitOnce '/' path with
      | none => false
      | some (package, interface) =>
        match splitOnce ':' package with
        | none => false
        | some (scope, package) =>
          isBoundedSegment 64 scope && isBoundedSegment 64 package
            && isBoundedSegment 64 interface

/-- What holds of every character between separators holds of every other character. -/
theorem forall_mem_of_splitOn {p : Char → Prop} {separator : Char} {text : List Char}
    (h : ∀ piece ∈ text.splitOn separator, ∀ c ∈ piece, p c) : ∀ c ∈ text, p c ∨ c = separator := by
  have hjoin : [separator].intercalate (text.splitOn separator) = text :=
    List.intercalate_splitOn separator
  rw [← hjoin]
  generalize text.splitOn separator = pieces at h
  induction pieces with
  | nil => simp
  | cons piece pieces ih =>
    obtain ⟨hpiece, hpieces⟩ := List.forall_mem_cons.mp h
    cases pieces with
    | nil => simpa using fun c hc => .inl (hpiece c hc)
    | cons next pieces =>
      rw [List.intercalate_cons_cons]
      intro c hc
      rcases List.mem_append.mp hc with hc | hc
      · rcases List.mem_append.mp hc with hc | hc
        · exact .inl (hpiece c hc)
        · exact .inr (List.mem_singleton.mp hc)
      · exact ih hpieces c hc

variable {c : Char}

/-- A text is what comes before the first occurrence of a character, the character and the rest. -/
theorem mem_of_splitOnce {separator : Char} {text before after : List Char}
    (h : splitOnce separator text = some (before, after)) (hc : c ∈ text) :
    c ∈ before ∨ c = separator ∨ c ∈ after := by
  rw [splitOnce, List.span_eq_takeWhile_dropWhile] at h
  split at h
  · rename_i first head tail hspan
    obtain ⟨rfl, rfl⟩ := Prod.mk.inj (Option.some.inj h)
    obtain ⟨hbefore, hafter⟩ := Prod.mk.inj hspan
    rw [← List.takeWhile_append_dropWhile (p := (· != separator)) (l := text), hbefore, hafter] at hc
    have hhead : head = separator := by
      have hdrop := List.head?_dropWhile_not (· != separator) text
      rw [hafter] at hdrop
      simpa using hdrop
    simpa [hhead] using hc
  · cases h

/-! ## Names and digests in documents -/

/-- A character with a code from a range of letters or digits needs no escape. -/
theorem plain_of_code
    (h : c.toNat = 45 ∨ (48 ≤ c.toNat ∧ c.toNat ≤ 57) ∨ (97 ≤ c.toNat ∧ c.toNat ≤ 122)) :
    32 ≤ c.toNat ∧ c.toNat < 127 ∧ c ≠ '"' ∧ c ≠ '\\' := by
  have hquote : c = '"' → c.toNat = 34 := fun hc => by rw [hc]; rfl
  have hslash : c = '\\' → c.toNat = 92 := fun hc => by rw [hc]; rfl
  refine ⟨by omega, by omega, fun hc => ?_, fun hc => ?_⟩
  · have := hquote hc
    omega
  · have := hslash hc
    omega

theorem code_of_isNameChar (h : isNameChar c) :
    c.toNat = 45 ∨ (48 ≤ c.toNat ∧ c.toNat ≤ 57) ∨ (97 ≤ c.toNat ∧ c.toNat ≤ 122) := by
  simp only [isNameChar, Bool.or_eq_true, isLower_iff, isDigit_iff, beq_iff_eq] at h
  rcases h with (h | h) | rfl
  · exact .inr (.inr h)
  · exact .inr (.inl h)
  · exact .inl rfl

theorem plain_of_isBoundedSegment {value : String} {maximum : Nat}
    (h : isBoundedSegment maximum value.toList) : Plain value ∧ value.length ≤ maximum := by
  simp only [isBoundedSegment, isSegment, Bool.and_eq_true, decide_eq_true_eq, List.all_eq_true]
    at h
  have hcode := fun c hc => code_of_isNameChar (h.2.1.1.2 c hc)
  refine ⟨fun c hc => plain_of_code (hcode c hc), ?_⟩
  have hascii : byteLength value.toList = value.toList.length := byteLength_ascii fun c hc => by
    have := hcode c hc
    omega
  rw [← String.length_toList, ← hascii]
  exact h.1

theorem plain_of_isDigest {value : String} (h : isDigest value) :
    Plain value ∧ value.length = 64 := by
  simp only [isDigest, Bool.and_eq_true, beq_iff_eq, List.all_eq_true, decide_eq_true_eq] at h
  have hcode : ∀ c ∈ value.toList,
      (48 ≤ c.toNat ∧ c.toNat ≤ 57) ∨ (97 ≤ c.toNat ∧ c.toNat ≤ 122) := fun c hc =>
    (h.2 c hc).imp_right fun hrange => ⟨hrange.1, hrange.2.trans (by decide)⟩
  refine ⟨fun c hc => plain_of_code (.inr (hcode c hc)), ?_⟩
  have hascii : byteLength value.toList = value.toList.length := byteLength_ascii fun c hc => by
    have := hcode c hc
    omega
  rw [← String.length_toList, ← hascii]
  exact h.1

theorem isDigest_sha256Hex [HexCodec] [Sha256] (bytes : List UInt8) :
    isDigest (sha256Hex bytes) := by
  have hhex := HexCodec.isLowerHex_encode (Sha256.digest bytes)
  have hlength := length_sha256Hex bytes
  have hascii : byteLength (sha256Hex bytes).toList = (sha256Hex bytes).toList.length :=
    byteLength_ascii fun c hc => by
      rcases hhex c hc with hrange | hrange <;> omega
  simp only [isDigest, Bool.and_eq_true, beq_iff_eq, List.all_eq_true, decide_eq_true_eq]
  exact ⟨by rw [hascii, String.length_toList, hlength], hhex⟩

end CartridgeRuntime.Core
