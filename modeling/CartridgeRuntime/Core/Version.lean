import CartridgeRuntime.Core.Text

/-!
# Versions and requirements

Semantic versions as values: their order and the requirements that a dependency makes of them. Both
are left to a parameter, as the source leaves them to a library; `semver2Values` is the parameter as
the documentation of that library describes it.
-/

namespace CartridgeRuntime.Core

/-- The characters of versions. -/
def isVersionChar (c : Char) : Bool :=
  c.isAlphanum || c == '.' || c == '-' || c == '+'

/-- The semantic versions as values, and requirements on them. The texts of errors are left open. -/
class SemverValues extends Semver where
  /-- A version that was read. -/
  Version : Type
  /-- A requirement that was read. -/
  Requirement : Type
  /-- Read a version. -/
  parse : String → Except String Version
  /-- Exactly the texts that are versions are read. -/
  isOk_parse (text : String) : (parse text).isOk = isVersion text
  /-- The text of a version. -/
  display : Version → String
  /-- A version is displayed as it was written. -/
  display_of_parse (text : String) (version : Version) :
    parse text = .ok version → display version = text
  /-- A version is written with these characters and has at least one. -/
  isVersionChar_of_isVersion (text : String) :
    isVersion text → text ≠ "" ∧ ∀ c ∈ text.toList, isVersionChar c
  /-- The first number of a version. -/
  major : Version → Nat
  /-- The order of versions. -/
  order : Version → Version → Ordering
  /-- Read a requirement. -/
  parseRequirement : String → Except String Requirement
  /-- A version meets a requirement. -/
  satisfies : Requirement → Version → Bool

/-! The library that the source uses. -/

/-- The number that digits stand for. -/
def decimalValue (text : List Char) : Nat :=
  text.foldl (fun n c => 10 * n + (c.toNat - '0'.toNat)) 0

/-- A version and its parts. -/
structure VersionValue where
  text : String
  major : Nat
  minor : Nat
  patch : Nat
  preRelease : List (List Char)
  build : List (List Char)
deriving DecidableEq

/-- The order of two identifiers: numbers by their values and before the others. -/
def compareIdentifier (left right : List Char) : Ordering :=
  match left.all Char.isDigit, right.all Char.isDigit with
  | true, true => compare (decimalValue left) (decimalValue right)
  | true, false => .lt
  | false, true => .gt
  | false, false => compare (String.ofList left) (String.ofList right)

/-- Identifiers in turn; a longer list comes after its beginnings. -/
def compareIdentifiers : List (List Char) → List (List Char) → Ordering
  | [], [] => .eq
  | [], _ :: _ => .lt
  | _ :: _, [] => .gt
  | left :: lefts, right :: rights =>
    (compareIdentifier left right).then (compareIdentifiers lefts rights)

/-- A version without a pre-release comes after those with one. -/
def comparePreRelease (left right : List (List Char)) : Ordering :=
  match left, right with
  | [], [] => .eq
  | [], _ :: _ => .gt
  | _ :: _, [] => .lt
  | _, _ => compareIdentifiers left right

/-- Compare part by part. -/
def VersionValue.order (left right : VersionValue) : Ordering :=
  (compare left.major right.major).then <| (compare left.minor right.minor).then <|
    (compare left.patch right.patch).then <|
    (comparePreRelease left.preRelease right.preRelease).then <|
    compareIdentifiers left.build right.build

/-- The identifiers between the points of a text, if there is one. -/
def identifiers (text : Option (List Char)) : List (List Char) :=
  text.elim [] (List.splitOn '.')

/-- The parts of a text that is a version. -/
def VersionValue.ofText (text : String) : VersionValue :=
  let (rest, build) := cutAt '+' text.toList
  let (core, preRelease) := cutAt '-' rest
  let number (index : Nat) := decimalValue ((core.splitOn '.').getD index [])
  { text, major := number 0, minor := number 1, patch := number 2
    preRelease := identifiers preRelease, build := identifiers build }

/-- How a comparator compares. -/
inductive RequirementOp where
  | exact | greater | greaterEq | less | lessEq | tilde | caret
deriving DecidableEq

/-- One condition of a requirement; the minor and the patch number may be left open. -/
structure Comparator where
  op : RequirementOp
  major : Nat
  minor : Option Nat
  patch : Option Nat
  preRelease : List (List Char)
deriving DecidableEq

namespace Comparator

/-- The numbers and the pre-release of a version against those of a comparator, as far as the
latter go: at the first difference the outcome is known. -/
def compareParts (comparator : Comparator) (version : VersionValue) : Option Ordering :=
  if version.major ≠ comparator.major then some (compare version.major comparator.major)
  else match comparator.minor with
    | none => none
    | some minor =>
      if version.minor ≠ minor then some (compare version.minor minor)
      else match comparator.patch with
        | none => none
        | some patch =>
          if version.patch ≠ patch then some (compare version.patch patch)
          else some (comparePreRelease version.preRelease comparator.preRelease)

def matchesExact (comparator : Comparator) (version : VersionValue) : Bool :=
  version.major = comparator.major ∧ comparator.minor.all (· = version.minor)
    ∧ comparator.patch.all (· = version.patch) ∧ version.preRelease = comparator.preRelease

def matchesTilde (comparator : Comparator) (version : VersionValue) : Bool :=
  version.major = comparator.major ∧ comparator.minor.all (· = version.minor)
    ∧ comparator.patch.all fun patch =>
      if version.patch ≠ patch then patch < version.patch
      else comparePreRelease version.preRelease comparator.preRelease ≠ .lt

def matchesCaret (comparator : Comparator) (version : VersionValue) : Bool :=
  version.major = comparator.major ∧ comparator.minor.all fun minor =>
    match comparator.patch with
    | none => if 0 < comparator.major then minor ≤ version.minor else version.minor = minor
    | some patch =>
      if 0 < comparator.major ∧ version.minor ≠ minor then minor < version.minor
      else if version.minor ≠ minor then false
      else if version.patch ≠ patch then
        (0 < comparator.major ∨ 0 < minor) ∧ patch < version.patch
      else comparePreRelease version.preRelease comparator.preRelease ≠ .lt

/-- The comparator accepts the version. -/
def satisfied (comparator : Comparator) (version : VersionValue) : Bool :=
  match comparator.op with
  | .exact => comparator.matchesExact version
  | .greater => comparator.compareParts version = some .gt
  | .greaterEq => comparator.matchesExact version ∨ comparator.compareParts version = some .gt
  | .less => comparator.compareParts version = some .lt
  | .lessEq => comparator.matchesExact version ∨ comparator.compareParts version = some .lt
  | .tilde => comparator.matchesTilde version
  | .caret => comparator.matchesCaret version

/-- A pre-release is only accepted by a comparator that names one of the same version. -/
def acceptsPreRelease (comparator : Comparator) (version : VersionValue) : Bool :=
  comparator.preRelease ≠ [] ∧ version.major = comparator.major
    ∧ comparator.minor = some version.minor ∧ comparator.patch = some version.patch

end Comparator

/-- The operator that a comparator starts with, and the rest. -/
def takeOp : List Char → RequirementOp × List Char
  | '=' :: rest => (.exact, rest)
  | '>' :: '=' :: rest => (.greaterEq, rest)
  | '>' :: rest => (.greater, rest)
  | '<' :: '=' :: rest => (.lessEq, rest)
  | '<' :: rest => (.less, rest)
  | '~' :: rest => (.tilde, rest)
  | '^' :: rest => (.caret, rest)
  | rest => (.caret, rest)

/-- A number that is left open. -/
def isWildcard (text : List Char) : Bool :=
  text ∈ [['*'], ['x'], ['X']]

/-- Without the spaces at both ends. -/
def trimSpaces (text : List Char) : List Char :=
  ((text.dropWhile (· == ' ')).reverse.dropWhile (· == ' ')).reverse

/-- A comparator: an operator and up to three numbers, of which the last ones may be left open. Without
an operator such a comparator asks for exactly the numbers that are given. -/
def parseComparator (text : List Char) : Option Comparator :=
  let (op, rest) := takeOp (trimSpaces text)
  let (parts, build) := cutAt '+' (trimSpaces rest)
  let (core, preRelease) := cutAt '-' parts
  let pieces := core.splitOn '.'
  let numbers := pieces.takeWhile isVersionNumber
  let wildcards := pieces.dropWhile isVersionNumber
  if pieces.length ≤ 3 ∧ numbers ≠ [] ∧ wildcards.all isWildcard
      ∧ (numbers.length = 3 ∨ (preRelease = none ∧ build = none))
      ∧ (identifiers preRelease).all isPreReleaseIdentifier
      ∧ (identifiers build).all isBuildIdentifier then
    some { op := if wildcards ≠ [] ∧ rest = trimSpaces text then .exact else op
           major := decimalValue (numbers.getD 0 [])
           minor := numbers[1]?.map decimalValue, patch := numbers[2]?.map decimalValue
           preRelease := identifiers preRelease }
  else none

/-- The comparators between commas; a star alone asks for nothing. -/
def parseComparators (text : String) : Except String (List Comparator) :=
  if trimSpaces text.toList = ['*'] then .ok []
  else match (text.toList.splitOn ',').mapM parseComparator with
    | some comparators => .ok comparators
    | none => .error "unexpected character in version requirement"

theorem mem_of_cutAt {separator c : Char} {text before : List Char} {after : Option (List Char)}
    (h : cutAt separator text = (before, after)) (hc : c ∈ text) :
    c ∈ before ∨ c = separator ∨ ∃ rest ∈ after, c ∈ rest := by
  rw [cutAt] at h
  split at h
  · rename_i first rest hsplit
    obtain ⟨rfl, rfl⟩ := Prod.mk.inj h
    simpa using mem_of_splitOnce hsplit hc
  · obtain ⟨rfl, rfl⟩ := Prod.mk.inj h
    exact .inl hc

/-- Texts between points, all of whose characters are those of a version, make such a text. -/
theorem isVersionChar_of_splitOn {text : List Char} {p : List Char → Bool}
    (hp : ∀ piece, p piece → ∀ c ∈ piece, isVersionChar c)
    (h : (text.splitOn '.').all p) : ∀ c ∈ text, isVersionChar c := by
  intro c hc
  rcases forall_mem_of_splitOn (fun piece hmem => hp piece (List.all_eq_true.mp h piece hmem)) c hc
    with hchar | rfl
  · exact hchar
  · decide

theorem isVersionChar_of_isBuildIdentifier (piece : List Char) (h : isBuildIdentifier piece) :
    ∀ c ∈ piece, isVersionChar c := by
  intro c hc
  simp only [isBuildIdentifier, Bool.and_eq_true, List.all_eq_true, Bool.or_eq_true] at h
  rcases h.2 c hc with halnum | hhyphen
  · simp [isVersionChar, halnum]
  · simp [isVersionChar, hhyphen]

theorem isVersionChar_of_isVersionNumber (piece : List Char) (h : isVersionNumber piece) :
    ∀ c ∈ piece, isVersionChar c := by
  intro c hc
  simp only [isVersionNumber, isNumericIdentifier, Bool.and_eq_true, List.all_eq_true] at h
  have hdigit : c.isDigit := h.1.1.2 c hc
  simp [isVersionChar, Char.isAlphanum, hdigit]

/-- The versions of `semver2` are not empty and have only the characters of versions. -/
theorem isVersionChar_of_semver2 (text : String) (h : semver2.isVersion text) :
    text ≠ "" ∧ ∀ c ∈ text.toList, isVersionChar c := by
  refine ⟨?_, ?_⟩
  · rintro rfl
    exact absurd h (by decide)
  · cases hbuild : cutAt '+' text.toList with
    | mk rest build =>
    cases hcore : cutAt '-' rest with
    | mk core preRelease =>
    unfold semver2 at h
    simp only [hbuild, hcore, Bool.and_eq_true] at h
    obtain ⟨⟨⟨-, hnumbers⟩, hpre⟩, hmeta⟩ := h
    intro c hc
    rcases mem_of_cutAt hbuild hc with hc | rfl | ⟨tail, htail, hc⟩
    · rcases mem_of_cutAt hcore hc with hc | rfl | ⟨tail, htail, hc⟩
      · exact isVersionChar_of_splitOn isVersionChar_of_isVersionNumber hnumbers c hc
      · decide
      · obtain rfl := Option.mem_def.mp htail
        refine isVersionChar_of_splitOn (fun piece hpiece => ?_) hpre c hc
        rw [isPreReleaseIdentifier, Bool.and_eq_true] at hpiece
        exact isVersionChar_of_isBuildIdentifier piece hpiece.1
    · decide
    · obtain rfl := Option.mem_def.mp htail
      exact isVersionChar_of_splitOn isVersionChar_of_isBuildIdentifier hmeta c hc

/-- The versions of `semver2` as values. -/
@[reducible] def semver2Values : SemverValues where
  toSemver := semver2
  Version := VersionValue
  Requirement := List Comparator
  parse text := if semver2.isVersion text then .ok (.ofText text) else .error "invalid version"
  isOk_parse text := by
    split <;> simp_all [Except.isOk, Except.toBool]
  display := VersionValue.text
  display_of_parse text version h := by
    split at h
    · rw [← Except.ok.inj h]
      rfl
    · cases h
  isVersionChar_of_isVersion := isVersionChar_of_semver2
  major := VersionValue.major
  order := VersionValue.order
  parseRequirement := parseComparators
  satisfies comparators version :=
    (comparators.all fun comparator => comparator.satisfied version)
      && (version.preRelease == []
        || comparators.any fun comparator => comparator.acceptsPreRelease version)

example : ["^1.2", "1.*", "1.9.x", ">=1, <2"].all (fun text =>
    (semver2Values.parseRequirement text).toOption.any
      (semver2Values.satisfies · (.ofText "1.9.0"))) = true := by
  decide +kernel

end CartridgeRuntime.Core
