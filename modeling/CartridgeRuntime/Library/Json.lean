import Mathlib.Data.Nat.Digits.Lemmas
import Mathlib.Data.List.Basic
import Mathlib.Algebra.BigOperators.Group.List.Basic

/-!
# Compact JSON text

A JSON document, its compact text without insignificant whitespace, and the UTF-8 bytes of that
text. `Json.size` is the number of bytes, and the `size_*` lemmas compute it from the parts of a
document. Escapes follow RFC 8259: the two-character escapes where they exist, a `u00xx` escape
for the other control characters, and every other character as itself.
-/

namespace Encoding

/-- A JSON document. The members of an object keep their order, and numbers are integers. -/
inductive Json where
  | null
  | bool (value : Bool)
  | num (value : Int)
  | str (value : String)
  | arr (items : List Json)
  | obj (members : List (String × Json))

/-- The number of bytes of a text in UTF-8. -/
def byteLength (text : List Char) : Nat :=
  (text.map Char.utf8Size).sum

@[simp] theorem byteLength_nil : byteLength [] = 0 := rfl

@[simp] theorem byteLength_cons (c : Char) (text : List Char) :
    byteLength (c :: text) = c.utf8Size + byteLength text := by
  simp [byteLength]

@[simp] theorem byteLength_append (left right : List Char) :
    byteLength (left ++ right) = byteLength left + byteLength right := by
  simp [byteLength]

/-- The bytes of a string are the bytes of its characters. -/
theorem byteLength_toList (text : String) : byteLength text.toList = text.utf8ByteSize := by
  rw [← String.ofList_toList (s := text), String.toList_ofList]
  induction text.toList with
  | nil => rfl
  | cons c rest ih =>
    rw [byteLength_cons, ih, String.ofList_cons, String.utf8ByteSize_append]
    simp

/-- The UTF-8 bytes of a text. -/
def utf8 (text : List Char) : List UInt8 :=
  text.flatMap String.utf8EncodeChar

@[simp] theorem length_utf8 (text : List Char) : (utf8 text).length = byteLength text := by
  induction text with
  | nil => rfl
  | cons c text ih => simpa [utf8] using ih

/-- The eight bytes of a 64-bit number, the lowest first. -/
def toLeBytes (n : Nat) : List UInt8 :=
  (List.range 8).map fun position => UInt8.ofNat (n / 256 ^ position)

/-! ## Numbers and strings -/

/-- The decimal digits of a natural number, most significant first. -/
def decimal (n : Nat) : List Char :=
  if n = 0 then ['0'] else (Nat.digits 10 n).reverse.map Nat.digitChar

/-- The text of an integer. -/
def integerText : Int → List Char
  | .ofNat n => decimal n
  | .negSucc n => '-' :: decimal (n + 1)

/-- The lower-case hexadecimal digit of a value below sixteen. -/
def hexDigit (n : Nat) : Char :=
  Nat.digitChar n

/-- One character of a string literal. -/
def escapeChar (c : Char) : List Char :=
  if c = '"' then ['\\', '"']
  else if c = '\\' then ['\\', '\\']
  else if c.toNat = 8 then ['\\', 'b']
  else if c.toNat = 9 then ['\\', 't']
  else if c.toNat = 10 then ['\\', 'n']
  else if c.toNat = 12 then ['\\', 'f']
  else if c.toNat = 13 then ['\\', 'r']
  else if c.toNat < 32 then
    ['\\', 'u', '0', '0', hexDigit (c.toNat / 16), hexDigit (c.toNat % 16)]
  else [c]

/-- The string literal of a text, with its quotes. -/
def stringText (value : String) : List Char :=
  '"' :: value.toList.flatMap escapeChar ++ ['"']

/-! ## Documents -/

mutual
/-- The compact text of a document. -/
def Json.compact : Json → List Char
  | .null => ['n', 'u', 'l', 'l']
  | .bool true => ['t', 'r', 'u', 'e']
  | .bool false => ['f', 'a', 'l', 's', 'e']
  | .num value => integerText value
  | .str value => stringText value
  | .arr [] => ['[', ']']
  | .arr (item :: items) => '[' :: item.compact ++ Json.compactItems items
  | .obj [] => ['{', '}']
  | .obj ((key, value) :: members) =>
    '{' :: stringText key ++ ':' :: value.compact ++ Json.compactMembers members

/-- The items of an array after its first, with the closing bracket. -/
def Json.compactItems : List Json → List Char
  | [] => [']']
  | item :: items => ',' :: item.compact ++ Json.compactItems items

/-- The members of an object after its first, with the closing brace. -/
def Json.compactMembers : List (String × Json) → List Char
  | [] => ['}']
  | (key, value) :: members =>
    ',' :: stringText key ++ ':' :: value.compact ++ Json.compactMembers members
end

/-! ## Sizes -/

/-- The text needs no escape and is ASCII, so it stands for itself between its quotes. -/
def Plain (value : String) : Prop :=
  ∀ c ∈ value.toList, 32 ≤ c.toNat ∧ c.toNat < 127 ∧ c ≠ '"' ∧ c ≠ '\\'

variable {c : Char}

/-- An ASCII character takes one byte. -/
theorem utf8Size_ascii (h : c.toNat < 128) : c.utf8Size = 1 := by
  rw [Char.utf8Size_eq_one_iff, UInt32.le_iff_toNat_le]
  have hval : c.val.toNat = c.toNat := rfl
  have hmax : (127 : UInt32).toNat = 127 := rfl
  omega

/-- An ASCII text takes one byte for each character. -/
theorem byteLength_ascii {text : List Char} (h : ∀ c ∈ text, c.toNat < 128) :
    byteLength text = text.length := by
  induction text with
  | nil => rfl
  | cons c text ih =>
    have hrest := ih fun d hd => h d (List.mem_cons_of_mem _ hd)
    rw [byteLength_cons, utf8Size_ascii (h c List.mem_cons_self), hrest, List.length_cons]
    omega

/-- A plain character is its own escape. -/
theorem escapeChar_plain (h : 32 ≤ c.toNat ∧ c.toNat < 127 ∧ c ≠ '"' ∧ c ≠ '\\') :
    escapeChar c = [c] := by
  obtain ⟨hlow, -, hquote, hslash⟩ := h
  have h8 : c.toNat ≠ 8 := by omega
  have h9 : c.toNat ≠ 9 := by omega
  have h10 : c.toNat ≠ 10 := by omega
  have h12 : c.toNat ≠ 12 := by omega
  have h13 : c.toNat ≠ 13 := by omega
  have hcontrol : ¬ c.toNat < 32 := by omega
  simp [escapeChar, hquote, hslash, h8, h9, h10, h12, h13, hcontrol]

/-- A plain text is its own escaped form. -/
theorem flatMap_escapeChar_plain {text : List Char}
    (h : ∀ c ∈ text, 32 ≤ c.toNat ∧ c.toNat < 127 ∧ c ≠ '"' ∧ c ≠ '\\') :
    text.flatMap escapeChar = text := by
  induction text with
  | nil => rfl
  | cons c text ih =>
    rw [List.flatMap_cons, escapeChar_plain (h c List.mem_cons_self),
      ih fun d hd => h d (List.mem_cons_of_mem _ hd)]
    rfl

/-- A plain string literal is two bytes longer than its text. -/
theorem byteLength_stringText {value : String} (h : Plain value) :
    byteLength (stringText value) = value.length + 2 := by
  have hquote : Char.utf8Size '"' = 1 := by decide
  have hascii : ∀ c ∈ value.toList, c.toNat < 128 := fun c hc => by
    have := (h c hc).2.1
    omega
  rw [stringText, List.cons_append, byteLength_cons, byteLength_append,
    flatMap_escapeChar_plain h, byteLength_ascii hascii, byteLength_cons, byteLength_nil, hquote,
    String.length_toList]
  omega

/-- The characters of a decimal text are digits. -/
theorem decimal_digits {n : Nat} (h : c ∈ decimal n) : ∃ d, d < 10 ∧ c = Nat.digitChar d := by
  unfold decimal at h
  split at h
  · exact ⟨0, by omega, List.mem_singleton.mp h⟩
  · obtain ⟨d, hd, rfl⟩ := List.mem_map.mp h
    exact ⟨d, Nat.digits_lt_base (by omega) (List.mem_reverse.mp hd), rfl⟩

/-- The first ten digit characters are ASCII. -/
theorem digitChar_ascii {d : Nat} (h : d < 10) : (Nat.digitChar d).toNat < 128 := by
  rw [Nat.toNat_digitChar_of_lt_ten h]
  omega

/-- A decimal text takes one byte for each digit. -/
theorem byteLength_decimal (n : Nat) : byteLength (decimal n) = (decimal n).length :=
  byteLength_ascii fun c hc => by
    obtain ⟨d, hd, rfl⟩ := decimal_digits hc
    exact digitChar_ascii hd

theorem length_decimal_pos (n : Nat) : 0 < (decimal n).length := by
  unfold decimal
  split
  · exact Nat.one_pos
  · simpa [List.length_pos_iff, Nat.digits_ne_nil_iff_ne_zero]

/-- A number below `10 ^ k` has at most `k` digits. -/
theorem length_decimal_le {n k : Nat} (hk : 0 < k) (h : n < 10 ^ k) : (decimal n).length ≤ k := by
  unfold decimal
  split
  · exact hk
  · simpa using (Nat.digits_length_le_iff (by omega) n).mpr h

/-- The bytes of the compact text. -/
def Json.bytes (document : Json) : List UInt8 :=
  utf8 document.compact

/-- The number of bytes of the compact text. -/
def Json.size (document : Json) : Nat :=
  byteLength document.compact

@[simp] theorem Json.length_bytes (document : Json) : document.bytes.length = document.size :=
  length_utf8 _

/-- A natural number takes one byte for each digit. -/
theorem Json.size_num (n : Nat) : (Json.num n).size = (decimal n).length := by
  simpa [Json.size, Json.compact, integerText] using byteLength_decimal n

/-- A plain string is two bytes longer than its text. -/
theorem Json.size_str {value : String} (h : Plain value) :
    (Json.str value).size = value.length + 2 := by
  simpa [Json.size, Json.compact] using byteLength_stringText h

/-- The members after the first, with a comma each, and the closing brace. -/
theorem Json.byteLength_compactMembers (members : List (String × Json)) :
    byteLength (Json.compactMembers members)
      = (members.map fun member => byteLength (stringText member.1) + member.2.size + 2).sum + 1 := by
  induction members with
  | nil => rfl
  | cons member members ih =>
    have hcomma : Char.utf8Size ',' = 1 := by decide
    have hcolon : Char.utf8Size ':' = 1 := by decide
    simp only [Json.compactMembers, List.cons_append, byteLength_cons, byteLength_append, hcomma,
      hcolon, ih, List.map_cons, List.sum_cons, Json.size]
    omega

/-- An object takes two bytes, or one and two for each member beyond its key and value. -/
theorem Json.size_obj (members : List (String × Json)) :
    (Json.obj members).size
      = if members = [] then 2
        else (members.map fun member =>
          byteLength (stringText member.1) + member.2.size + 2).sum + 1 := by
  cases members with
  | nil => rfl
  | cons member members =>
    have hopen : Char.utf8Size '{' = 1 := by decide
    have hcolon : Char.utf8Size ':' = 1 := by decide
    simp only [Json.size, Json.compact, List.cons_append, byteLength_cons, byteLength_append,
      Json.byteLength_compactMembers, hopen, hcolon, List.map_cons, List.sum_cons, reduceCtorEq,
      if_false]
    omega

/-! ## Quoted texts -/

/-- One character of a quoted text in an error message. -/
def debugChar (c : Char) : List Char :=
  if c = '"' then ['\\', '"']
  else if c = '\\' then ['\\', '\\']
  else if c.toNat = 0 then ['\\', '0']
  else if c.toNat = 9 then ['\\', 't']
  else if c.toNat = 10 then ['\\', 'n']
  else if c.toNat = 13 then ['\\', 'r']
  else if c.toNat < 32 ∨ c.toNat = 127 then
    ['\\', 'u', '{'] ++ Nat.toDigits 16 c.toNat ++ ['}']
  else [c]

/-- A text in quotes, as error messages show it. -/
def debugText (text : String) : String :=
  String.ofList ('"' :: text.toList.flatMap debugChar ++ ['"'])

end Encoding
