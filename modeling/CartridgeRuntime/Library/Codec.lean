import CartridgeRuntime.Library.Ascending
import CartridgeRuntime.Library.JsonParse
import CartridgeRuntime.Library.TreeMap
import Mathlib.Data.Finset.Sort

/-!
# Codecs of typed documents

A `Codec` writes the values of a type as JSON documents and reads them back. The codec of a record
is put together from its fields: `Fields` are members in a fixed order, of which some are left out
when they have their default value. A codec gives a type its document and a reader that keeps the
promise of `FromJson`.
-/

namespace Encoding

open Ascending Std

/-- A type with documents that are read back without loss. -/
structure Codec (α : Type) where
  toJson : α → Json
  ofJson : Json → Option α
  ofJson_toJson : ∀ value, ofJson (toJson value) = some value

namespace Codec

variable {α β : Type}

/-! ## Values -/

def string : Codec String where
  toJson := .str
  ofJson
    | .str value => some value
    | _ => none
  ofJson_toJson _ := rfl

def boolean : Codec Bool where
  toJson := .bool
  ofJson
    | .bool value => some value
    | _ => none
  ofJson_toJson _ := rfl

def natural : Codec Nat where
  toJson value := .num value
  ofJson
    | .num (.ofNat value) => some value
    | _ => none
  ofJson_toJson _ := rfl

def integer : Codec Int where
  toJson := .num
  ofJson
    | .num value => some value
    | _ => none
  ofJson_toJson _ := rfl

def word : Codec UInt64 where
  toJson value := .num value.toNat
  ofJson
    | .num (.ofNat value) => some (.ofNat value)
    | _ => none
  ofJson_toJson _ := congrArg some UInt64.ofNat_toNat

def byte : Codec UInt8 where
  toJson value := .num value.toNat
  ofJson
    | .num (.ofNat value) => some (.ofNat value)
    | _ => none
  ofJson_toJson _ := congrArg some UInt8.ofNat_toNat

/-- An enumeration, written as the names of its values. -/
def enumeration (values : List α) (name : α → String)
    (h : ∀ value, values.find? (fun other => name other == name value) = some value) : Codec α where
  toJson value := .str (name value)
  ofJson
    | .str text => values.find? fun other => name other == text
    | _ => none
  ofJson_toJson := h

/-- A value or null. -/
def nullable (codec : Codec α) (h : ∀ value, codec.toJson value ≠ .null) : Codec (Option α) where
  toJson
    | none => .null
    | some value => codec.toJson value
  ofJson
    | .null => some none
    | document => (codec.ofJson document).map some
  ofJson_toJson
    | none => rfl
    | some value => by
      have hread := codec.ofJson_toJson value
      cases hdocument : codec.toJson value with
      | null => exact (h value hdocument).elim
      | _ =>
        rw [hdocument] at hread
        simp [hdocument, hread]

/-- A word or null. -/
def nullableWord : Codec (Option UInt64) :=
  word.nullable fun _ h => by cases h

/-- A text or null. -/
def nullableString : Codec (Option String) :=
  string.nullable fun _ h => by cases h

/-! ## Collections -/

theorem mapM_ofJson (codec : Codec α) (values : List α) :
    (values.map codec.toJson).mapM codec.ofJson = some values := by
  induction values with
  | nil => rfl
  | cons value values ih => simp [codec.ofJson_toJson, ih]

def list (codec : Codec α) : Codec (List α) where
  toJson values := .arr (values.map codec.toJson)
  ofJson
    | .arr items => items.mapM codec.ofJson
    | _ => none
  ofJson_toJson values := codec.mapM_ofJson values

/-- A type whose values are those of another one. -/
def convert (codec : Codec α) (write : β → α) (read : α → β)
    (h : ∀ value, read (write value) = value) : Codec β where
  toJson value := codec.toJson (write value)
  ofJson document := (codec.ofJson document).map read
  ofJson_toJson value := by simp [codec.ofJson_toJson, h]

/-- A set of numbers, in ascending order. -/
def numbers : Codec (Finset Nat) :=
  natural.list.convert ascending List.toFinset fun s => by
    ext n
    simp

/-- A set of texts, in ascending order. -/
def texts : Codec (Finset String) :=
  string.list.convert (fun s => s.sort (· ≤ ·)) List.toFinset fun s => by
    ext text
    simp

/-- The number that a key of a map stands for. -/
def decimalKey? (key : String) : Option Nat :=
  match readDecimal key.toList with
  | some (n, []) => some n
  | _ => none

theorem decimalKey?_decimal (n : Nat) : decimalKey? (String.ofList (decimal n)) = some n := by
  have hread := readDecimal_decimal n EndsNumber.nil
  rw [List.append_nil] at hread
  simp [decimalKey?, hread]

/-- The entry that a member of a map stands for. -/
def ofMember (codec : Codec α) (member : String × Json) : Option (Nat × α) :=
  (decimalKey? member.1).bind fun key => (codec.ofJson member.2).map fun value => (key, value)

/-- A map from numbers, in ascending order. -/
def numberMap (codec : Codec α) : Codec (ExtTreeMap Nat α) where
  toJson m := .obj (m.toList.map fun entry =>
    (String.ofList (decimal entry.1), codec.toJson entry.2))
  ofJson
    | .obj members => (members.mapM codec.ofMember).map (TreeMap.insertAll ∅)
    | _ => none
  ofJson_toJson m := by
    have hread : ∀ entries : List (Nat × α), (entries.map fun entry =>
        (String.ofList (decimal entry.1), codec.toJson entry.2)).mapM codec.ofMember
          = some entries := by
      intro entries
      induction entries with
      | nil => rfl
      | cons entry entries ih =>
        simp [ofMember, decimalKey?_decimal, codec.ofJson_toJson, ih]
    simp only [hread, Option.map_some, TreeMap.insertAll_toList]

/-- A map from texts, in ascending order. -/
def textMap (codec : Codec α) : Codec (ExtTreeMap String α) where
  toJson m := .obj (m.toList.map fun entry => (entry.1, codec.toJson entry.2))
  ofJson
    | .obj members =>
      (members.mapM fun member => (codec.ofJson member.2).map fun value => (member.1, value)).map
        (TreeMap.insertAll ∅)
    | _ => none
  ofJson_toJson m := by
    have hread : ∀ entries : List (String × α), (entries.map fun entry =>
        (entry.1, codec.toJson entry.2)).mapM (fun member =>
          (codec.ofJson member.2).map fun value => (member.1, value)) = some entries := by
      intro entries
      induction entries with
      | nil => rfl
      | cons entry entries ih => simp [codec.ofJson_toJson, ih]
    simp only [hread, Option.map_some, TreeMap.insertAll_toList]

end Codec

/-! ## Records -/

/-- Members of an object in a fixed order. Those that may be left out are named, so that the reader
can tell whether they are there. -/
structure Fields (α : Type) where
  names : List String
  optional : List String
  toMembers : α → List (String × Json)
  ofMembers : List (String × Json) → Option (α × List (String × Json))
  mem_names : ∀ value, ∀ member ∈ toMembers value, member.1 ∈ names
  ofMembers_toMembers : ∀ value rest,
    (∀ member, rest.head? = some member → member.1 ∉ optional) →
      ofMembers (toMembers value ++ rest) = some (value, rest)

namespace Fields

variable {α β σ : Type}

/-- A member that is always there. -/
def required (name : String) (codec : Codec α) : Fields α where
  names := [name]
  optional := []
  toMembers value := [(name, codec.toJson value)]
  ofMembers
    | (key, document) :: rest =>
      if key = name then (codec.ofJson document).map fun value => (value, rest) else none
    | [] => none
  mem_names := by simp
  ofMembers_toMembers value rest _ := by simp [codec.ofJson_toJson]

/-- A member that is left out when it has its default value. -/
def unlessDefault [DecidableEq α] (name : String) (codec : Codec α) (default : α) : Fields α where
  names := [name]
  optional := [name]
  toMembers value := if value = default then [] else [(name, codec.toJson value)]
  ofMembers
    | (key, document) :: rest =>
      if key = name then (codec.ofJson document).map fun value => (value, rest)
      else some (default, (key, document) :: rest)
    | [] => some (default, [])
  mem_names value member := by
    split <;> simp
    rintro rfl
    rfl
  ofMembers_toMembers value rest hrest := by
    by_cases hdefault : value = default
    · subst hdefault
      cases rest with
      | nil => simp
      | cons member rest =>
        have hkey : member.1 ≠ name := by simpa using hrest member rfl
        simp [hkey]
    · simp [hdefault, codec.ofJson_toJson]

/-- Members one after the other. -/
def followedBy (first : Fields α) (second : Fields β)
    (h : ∀ name ∈ second.names, name ∉ first.optional := by decide) : Fields (α × β) where
  names := first.names ++ second.names
  optional := first.optional ++ second.optional
  toMembers value := first.toMembers value.1 ++ second.toMembers value.2
  ofMembers members := (first.ofMembers members).bind fun (a, members) =>
    (second.ofMembers members).map fun (b, rest) => ((a, b), rest)
  mem_names value member hmem := by
    rcases List.mem_append.mp hmem with hmem | hmem
    · exact List.mem_append_left _ (first.mem_names _ _ hmem)
    · exact List.mem_append_right _ (second.mem_names _ _ hmem)
  ofMembers_toMembers value rest hrest := by
    have hsecond := second.ofMembers_toMembers value.2 rest fun member hmember hopt =>
      hrest member hmember (List.mem_append_right _ hopt)
    have hfirst := first.ofMembers_toMembers value.1 (second.toMembers value.2 ++ rest)
      fun member hmember hopt => by
        cases hmembers : second.toMembers value.2 with
        | nil =>
          rw [hmembers, List.nil_append] at hmember
          exact hrest member hmember (List.mem_append_left _ hopt)
        | cons head tail =>
          rw [hmembers, List.cons_append, List.head?_cons, Option.some.injEq] at hmember
          subst hmember
          have hmem : head ∈ second.toMembers value.2 := hmembers ▸ List.mem_cons_self
          exact h _ (second.mem_names value.2 head hmem) hopt
    simp only [List.append_assoc, hfirst, Option.bind_some, hsecond, Option.map_some]

theorem notMem_optional_required (name : String) (codec : Codec α) (other : String) :
    other ∉ (required name codec).optional :=
  List.not_mem_nil

/-- A member that is always there, and the members after it. -/
abbrev member (name : String) (codec : Codec α) (rest : Fields β) : Fields (α × β) :=
  (required name codec).followedBy rest fun other _ => notMem_optional_required name codec other

/-- The object with these members, as the codec of a record. -/
def record (fields : Fields α) (write : σ → α) (read : α → σ)
    (h : ∀ value, read (write value) = value) : Codec σ where
  toJson value := .obj (fields.toMembers (write value))
  ofJson
    | .obj members =>
      match fields.ofMembers members with
      | some (value, []) => some (read value)
      | _ => none
    | _ => none
  ofJson_toJson value := by
    have hread := fields.ofMembers_toMembers (write value) [] (by simp)
    rw [List.append_nil] at hread
    simp [hread, h]

end Fields

/-- The reader of a type whose documents are those of a codec. -/
@[reducible] def Codec.reader {α : Type} (codec : Codec α) [ToJson α]
    (h : ∀ value : α, ToJson.toJson value = codec.toJson value) : FromJson α :=
  strictReader codec.ofJson fun value => by rw [h, codec.ofJson_toJson]

end Encoding
