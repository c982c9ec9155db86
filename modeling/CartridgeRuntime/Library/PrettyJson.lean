import CartridgeRuntime.Library.Codec

/-!
# Indented JSON text

The text of a document over several lines, two spaces for each level and one member or item on a
line. Empty arrays and objects stay on their line. `squeeze` takes the blanks out again, which gives
a reader of indented documents.
-/

namespace Encoding

/-- A new line, indented for a level. -/
def lineBreak (level : Nat) : List Char :=
  '\n' :: List.replicate (2 * level) ' '

mutual
/-- The indented text of a document that starts at a level. -/
def Json.pretty (level : Nat) : Json → List Char
  | .null => ['n', 'u', 'l', 'l']
  | .bool true => ['t', 'r', 'u', 'e']
  | .bool false => ['f', 'a', 'l', 's', 'e']
  | .num value => integerText value
  | .str value => stringText value
  | .arr [] => ['[', ']']
  | .arr (item :: items) =>
    '[' :: lineBreak (level + 1) ++ item.pretty (level + 1) ++ Json.prettyItems level items
  | .obj [] => ['{', '}']
  | .obj ((key, value) :: members) =>
    '{' :: lineBreak (level + 1) ++ stringText key ++ ':' :: ' ' :: value.pretty (level + 1)
      ++ Json.prettyMembers level members

/-- The items of an array after its first, with the closing bracket. -/
def Json.prettyItems (level : Nat) : List Json → List Char
  | [] => lineBreak level ++ [']']
  | item :: items =>
    ',' :: lineBreak (level + 1) ++ item.pretty (level + 1) ++ Json.prettyItems level items

/-- The members of an object after its first, with the closing brace. -/
def Json.prettyMembers (level : Nat) : List (String × Json) → List Char
  | [] => lineBreak level ++ ['}']
  | (key, value) :: members =>
    ',' :: lineBreak (level + 1) ++ stringText key ++ ':' :: ' ' :: value.pretty (level + 1)
      ++ Json.prettyMembers level members
end

/-- The number of bytes of the indented text of a value. -/
def Codec.prettySize {α : Type} (codec : Codec α) (value : α) : Nat :=
  byteLength ((codec.toJson value).pretty 0)

/-- The bytes of the indented text of a value. -/
def Codec.prettyBytes {α : Type} (codec : Codec α) (value : α) : List UInt8 :=
  utf8 ((codec.toJson value).pretty 0)

theorem Codec.length_prettyBytes {α : Type} (codec : Codec α) (value : α) :
    (codec.prettyBytes value).length = codec.prettySize value :=
  length_utf8 _

/-! ## Reading -/

/-- A text without the blanks that are not part of a string. The flag says whether the text starts
inside a string. -/
def squeeze : Bool → List Char → List Char
  | _, [] => []
  | true, '\\' :: c :: rest => '\\' :: c :: squeeze true rest
  | true, '"' :: rest => '"' :: squeeze false rest
  | true, c :: rest => c :: squeeze true rest
  | false, '"' :: rest => '"' :: squeeze true rest
  | false, c :: rest => if c = ' ' ∨ c = '\n' then squeeze false rest else c :: squeeze false rest

variable {c : Char} {rest : List Char}

theorem squeeze_plain (hquote : c ≠ '"') (hslash : c ≠ '\\') :
    squeeze true (c :: rest) = c :: squeeze true rest := by
  rw [squeeze.eq_def]
  split <;> simp_all

theorem squeeze_blank (h : c = ' ' ∨ c = '\n') :
    squeeze false (c :: rest) = squeeze false rest := by
  rcases h with rfl | rfl <;> simp [squeeze]

theorem squeeze_mark (hquote : c ≠ '"') (hspace : c ≠ ' ') (hline : c ≠ '\n') :
    squeeze false (c :: rest) = c :: squeeze false rest := by
  rw [squeeze.eq_def]
  split <;> simp_all

theorem hexDigit_plain : ∀ d < 16, hexDigit d ≠ '"' ∧ hexDigit d ≠ '\\' := by
  decide

/-- Inside a string nothing is taken out. -/
theorem squeeze_escapeChar (c : Char) (rest : List Char) :
    squeeze true (escapeChar c ++ rest) = escapeChar c ++ squeeze true rest := by
  unfold escapeChar
  split_ifs with h1 h2 h3 h4 h5 h6 h7 h8
  iterate 7 simp [squeeze]
  · have hhigh := hexDigit_plain (c.toNat / 16) (by omega)
    have hlow := hexDigit_plain (c.toNat % 16) (by omega)
    simp only [List.cons_append, List.nil_append, squeeze]
    rw [squeeze_plain (by decide) (by decide), squeeze_plain (by decide) (by decide),
      squeeze_plain hhigh.1 hhigh.2, squeeze_plain hlow.1 hlow.2]
  · exact squeeze_plain h1 h2

theorem squeeze_stringText (value : String) (rest : List Char) :
    squeeze false (stringText value ++ rest) = stringText value ++ squeeze false rest := by
  have hinside : ∀ text : List Char, squeeze true (text.flatMap escapeChar ++ '"' :: rest)
      = text.flatMap escapeChar ++ '"' :: squeeze false rest := by
    intro text
    induction text with
    | nil => simp [squeeze]
    | cons c text ih =>
      rw [List.flatMap_cons, List.append_assoc, squeeze_escapeChar, ih, List.append_assoc]
  simp only [stringText, List.cons_append, List.append_assoc, List.nil_append, squeeze, hinside]

theorem squeeze_lineBreak (level : Nat) (rest : List Char) :
    squeeze false (lineBreak level ++ rest) = squeeze false rest := by
  have hspaces : ∀ n, squeeze false (List.replicate n ' ' ++ rest) = squeeze false rest := by
    intro n
    induction n with
    | zero => rfl
    | succ n ih => rw [List.replicate_succ, List.cons_append, squeeze_blank (.inl rfl), ih]
  rw [lineBreak, List.cons_append, squeeze_blank (.inr rfl), hspaces]

theorem digitChar_mark : ∀ d < 10, Nat.digitChar d ≠ '"' ∧ Nat.digitChar d ≠ ' '
    ∧ Nat.digitChar d ≠ '\n' := by
  decide

theorem squeeze_decimal (n : Nat) (rest : List Char) :
    squeeze false (decimal n ++ rest) = decimal n ++ squeeze false rest := by
  have hdigits : ∀ digits : List Nat, (∀ d ∈ digits, d < 10) →
      squeeze false (digits.map Nat.digitChar ++ rest)
        = digits.map Nat.digitChar ++ squeeze false rest := by
    intro digits hlt
    induction digits with
    | nil => rfl
    | cons d digits ih =>
      obtain ⟨hquote, hspace, hline⟩ := digitChar_mark d (hlt d List.mem_cons_self)
      rw [List.map_cons, List.cons_append, squeeze_mark hquote hspace hline,
        ih fun e he => hlt e (List.mem_cons_of_mem _ he), List.cons_append]
  unfold decimal
  split
  · exact squeeze_mark (by decide) (by decide) (by decide)
  · exact hdigits _ fun d hd => Nat.digits_lt_base (by omega) (List.mem_reverse.mp hd)

theorem squeeze_integerText (value : Int) (rest : List Char) :
    squeeze false (integerText value ++ rest) = integerText value ++ squeeze false rest := by
  cases value with
  | ofNat n => exact squeeze_decimal n rest
  | negSucc n =>
    rw [integerText, List.cons_append, squeeze_mark (by decide) (by decide) (by decide),
      squeeze_decimal, List.cons_append]

mutual
/-- Without its blanks, the indented text of a document is the compact one. -/
theorem squeeze_pretty : ∀ (document : Json) (level : Nat) (rest : List Char),
    squeeze false (document.pretty level ++ rest) = document.compact ++ squeeze false rest
  | .null, _, _ => by simp [Json.pretty, Json.compact, squeeze]
  | .bool true, _, _ => by simp [Json.pretty, Json.compact, squeeze]
  | .bool false, _, _ => by simp [Json.pretty, Json.compact, squeeze]
  | .num value, _, rest => squeeze_integerText value rest
  | .str value, _, rest => squeeze_stringText value rest
  | .arr [], _, _ => by simp [Json.pretty, Json.compact, squeeze]
  | .arr (item :: items), level, rest => by
    simp only [Json.pretty, Json.compact, List.cons_append, List.append_assoc]
    rw [squeeze_mark (by decide) (by decide) (by decide), squeeze_lineBreak,
      squeeze_pretty item, squeeze_prettyItems items]
  | .obj [], _, _ => by simp [Json.pretty, Json.compact, squeeze]
  | .obj ((key, value) :: members), level, rest => by
    simp only [Json.pretty, Json.compact, List.cons_append, List.append_assoc]
    rw [squeeze_mark (by decide) (by decide) (by decide), squeeze_lineBreak, squeeze_stringText,
      squeeze_mark (by decide) (by decide) (by decide), squeeze_blank (.inl rfl),
      squeeze_pretty value, squeeze_prettyMembers members]

theorem squeeze_prettyItems : ∀ (items : List Json) (level : Nat) (rest : List Char),
    squeeze false (Json.prettyItems level items ++ rest)
      = Json.compactItems items ++ squeeze false rest
  | [], level, rest => by
    simp only [Json.prettyItems, Json.compactItems, List.append_assoc, List.cons_append,
      List.nil_append]
    rw [squeeze_lineBreak, squeeze_mark (by decide) (by decide) (by decide)]
  | item :: items, level, rest => by
    simp only [Json.prettyItems, Json.compactItems, List.cons_append, List.append_assoc]
    rw [squeeze_mark (by decide) (by decide) (by decide), squeeze_lineBreak,
      squeeze_pretty item, squeeze_prettyItems items]

theorem squeeze_prettyMembers :
    ∀ (members : List (String × Json)) (level : Nat) (rest : List Char),
    squeeze false (Json.prettyMembers level members ++ rest)
      = Json.compactMembers members ++ squeeze false rest
  | [], level, rest => by
    simp only [Json.prettyMembers, Json.compactMembers, List.append_assoc, List.cons_append,
      List.nil_append]
    rw [squeeze_lineBreak, squeeze_mark (by decide) (by decide) (by decide)]
  | (key, value) :: members, level, rest => by
    simp only [Json.prettyMembers, Json.compactMembers, List.cons_append, List.append_assoc]
    rw [squeeze_mark (by decide) (by decide) (by decide), squeeze_lineBreak, squeeze_stringText,
      squeeze_mark (by decide) (by decide) (by decide), squeeze_blank (.inl rfl),
      squeeze_pretty value, squeeze_prettyMembers members]
end

/-- Read an indented document. -/
def Json.parsePretty (bytes : List UInt8) : Option Json := do
  let text ← bytes.toByteArray.utf8Decode?
  Json.parse (utf8 (squeeze false text.toList))

theorem Json.parsePretty_pretty (document : Json) :
    Json.parsePretty (utf8 (document.pretty 0)) = some document := by
  have hsqueeze : squeeze false (document.pretty 0) = document.compact := by
    have h := squeeze_pretty document 0 []
    rwa [List.append_nil, squeeze, List.append_nil] at h
  simp only [Json.parsePretty, utf8Decode?_utf8, Option.bind_eq_bind, Option.bind_some, hsqueeze]
  exact Json.parse_bytes document

/-- A reader of the indented documents of a codec. What it does with any other file, and the text of
its errors, is left open. -/
structure PrettyReader {α : Type} (codec : Codec α) where
  /-- Read the bytes of a file. -/
  read : List UInt8 → Except String α
  /-- A written value is read back. -/
  read_prettyBytes (value : α) : read (codec.prettyBytes value) = .ok value

/-- The reader of the documents as they are written. -/
def Codec.prettyReader {α : Type} (codec : Codec α) : PrettyReader codec where
  read bytes :=
    match (Json.parsePretty bytes).bind codec.ofJson with
    | some value => .ok value
    | none => .error "invalid document"
  read_prettyBytes value := by
    simp [Codec.prettyBytes, Json.parsePretty_pretty, codec.ofJson_toJson]

end Encoding
