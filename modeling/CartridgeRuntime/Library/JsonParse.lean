import CartridgeRuntime.Library.Json

/-!
# Reading compact JSON back

`Json.parse` reads the UTF-8 bytes of a compact document. `Json.parse_bytes` says that it returns
exactly the document that was written. `FromJson` is what a user of the format may assume of any
typed reader: that it inverts the writer.
-/

namespace Encoding

/-! ## Numbers and strings -/

/-- The value of a decimal digit. -/
def digitValue? (c : Char) : Option Nat :=
  if 48 ≤ c.toNat ∧ c.toNat ≤ 57 then some (c.toNat - 48) else none

/-- The longest run of digits at the front of a text, least significant first after `acc`. -/
def readDigits (acc : List Nat) : List Char → List Nat × List Char
  | [] => (acc, [])
  | c :: rest =>
    match digitValue? c with
    | some d => readDigits (d :: acc) rest
    | none => (acc, c :: rest)

/-- A natural number at the front of a text. -/
def readDecimal (text : List Char) : Option (Nat × List Char) :=
  match readDigits [] text with
  | ([], _) => none
  | (digits, rest) => some (Nat.ofDigits 10 digits, rest)

/-- The value of a lower-case hexadecimal digit. -/
def hexValue? (c : Char) : Option Nat :=
  if 48 ≤ c.toNat ∧ c.toNat ≤ 57 then some (c.toNat - 48)
  else if 97 ≤ c.toNat ∧ c.toNat ≤ 102 then some (c.toNat - 87)
  else none

/-- The character of a two-character escape. -/
def unescape? (c : Char) : Option Char :=
  if c = '"' then some '"'
  else if c = '\\' then some '\\'
  else if c = 'b' then some (Char.ofNat 8)
  else if c = 't' then some (Char.ofNat 9)
  else if c = 'n' then some (Char.ofNat 10)
  else if c = 'f' then some (Char.ofNat 12)
  else if c = 'r' then some (Char.ofNat 13)
  else none

/-- The rest of a string literal after its opening quote. -/
def readString : List Char → Option (List Char × List Char)
  | [] => none
  | '"' :: rest => some ([], rest)
  | '\\' :: 'u' :: '0' :: '0' :: high :: low :: rest => do
    let h ← hexValue? high
    let l ← hexValue? low
    let (text, tail) ← readString rest
    some (Char.ofNat (16 * h + l) :: text, tail)
  | '\\' :: c :: rest => do
    let d ← unescape? c
    let (text, tail) ← readString rest
    some (d :: text, tail)
  | c :: rest => do
    let (text, tail) ← readString rest
    some (c :: text, tail)

/-! ## Documents -/

mutual
/-- A document at the front of a text, read with a bound on its depth. -/
def Json.readValue : Nat → List Char → Option (Json × List Char)
  | 0, _ => none
  | _ + 1, 'n' :: 'u' :: 'l' :: 'l' :: rest => some (.null, rest)
  | _ + 1, 't' :: 'r' :: 'u' :: 'e' :: rest => some (.bool true, rest)
  | _ + 1, 'f' :: 'a' :: 'l' :: 's' :: 'e' :: rest => some (.bool false, rest)
  | _ + 1, '"' :: rest => do
    let (text, tail) ← readString rest
    some (.str (String.ofList text), tail)
  | _ + 1, '[' :: ']' :: rest => some (.arr [], rest)
  | fuel + 1, '[' :: rest => do
    let (item, tail) ← Json.readValue fuel rest
    let (items, tail) ← Json.readItems fuel tail
    some (.arr (item :: items), tail)
  | _ + 1, '{' :: '}' :: rest => some (.obj [], rest)
  | fuel + 1, '{' :: rest => do
    let (member, tail) ← Json.readMember fuel rest
    let (members, tail) ← Json.readMembers fuel tail
    some (.obj (member :: members), tail)
  | _ + 1, '-' :: rest => do
    let (n, tail) ← readDecimal rest
    some (.num (-n), tail)
  | _ + 1, text => do
    let (n, tail) ← readDecimal text
    some (.num n, tail)

/-- The items of an array after its first. -/
def Json.readItems : Nat → List Char → Option (List Json × List Char)
  | 0, _ => none
  | _ + 1, ']' :: rest => some ([], rest)
  | fuel + 1, ',' :: rest => do
    let (item, tail) ← Json.readValue fuel rest
    let (items, tail) ← Json.readItems fuel tail
    some (item :: items, tail)
  | _ + 1, _ => none

/-- A key, a colon and a value. -/
def Json.readMember : Nat → List Char → Option ((String × Json) × List Char)
  | 0, _ => none
  | fuel + 1, '"' :: rest => do
    let (key, tail) ← readString rest
    match tail with
    | ':' :: tail => do
      let (value, tail) ← Json.readValue fuel tail
      some ((String.ofList key, value), tail)
    | _ => none
  | _ + 1, _ => none

/-- The members of an object after its first. -/
def Json.readMembers : Nat → List Char → Option (List (String × Json) × List Char)
  | 0, _ => none
  | _ + 1, '}' :: rest => some ([], rest)
  | fuel + 1, ',' :: rest => do
    let (member, tail) ← Json.readMember fuel rest
    let (members, tail) ← Json.readMembers fuel tail
    some (member :: members, tail)
  | _ + 1, _ => none
end

/-- Read a whole file: its bytes are UTF-8 and hold one document and nothing else. -/
def Json.parse (bytes : List UInt8) : Option Json := do
  let text ← bytes.toByteArray.utf8Decode?
  let (document, rest) ← Json.readValue text.size text.toList
  if rest = [] then some document else none

/-! ## Numbers and strings are read back -/

/-- A text that a number can stand in front of: it does not start with a digit. -/
def EndsNumber (rest : List Char) : Prop :=
  ∀ c ∈ rest.head?, digitValue? c = none

theorem EndsNumber.nil : EndsNumber [] := by
  simp [EndsNumber]

variable {rest : List Char}

theorem EndsNumber.cons {c : Char} (h : digitValue? c = none) : EndsNumber (c :: rest) := by
  simpa [EndsNumber] using h

theorem digitValue?_digitChar : ∀ d < 10, digitValue? (Nat.digitChar d) = some d := by
  decide

theorem hexValue?_hexDigit : ∀ d < 16, hexValue? (hexDigit d) = some d := by
  decide

/-- A run of digits is read up to its end. -/
theorem readDigits_map_digitChar {digits : List Nat} (hdigits : ∀ d ∈ digits, d < 10)
    (hrest : EndsNumber rest) (acc : List Nat) :
    readDigits acc (digits.map Nat.digitChar ++ rest) = (digits.reverse ++ acc, rest) := by
  induction digits generalizing acc with
  | nil =>
    cases rest with
    | nil => rfl
    | cons c rest => simp [readDigits, hrest c rfl]
  | cons d digits ih =>
    have hd := digitValue?_digitChar d (hdigits d List.mem_cons_self)
    have ih := ih (fun e he => hdigits e (List.mem_cons_of_mem _ he)) (d :: acc)
    simp only [List.map_cons, List.cons_append, readDigits, hd, ih, List.reverse_cons,
      List.append_assoc, List.nil_append]

/-- A number is the value of the digits in front of a text. -/
theorem readDecimal_of_readDigits {text : List Char} {digits : List Nat}
    (h : readDigits [] text = (digits, rest)) (hne : digits ≠ []) :
    readDecimal text = some (Nat.ofDigits 10 digits, rest) := by
  cases digits with
  | nil => exact (hne rfl).elim
  | cons d digits => simp only [readDecimal, h]

/-- A decimal text is read back, whatever follows it. -/
theorem readDecimal_decimal (n : Nat) (hrest : EndsNumber rest) :
    readDecimal (decimal n ++ rest) = some (n, rest) := by
  unfold decimal
  split
  · rename_i hzero
    have h := readDigits_map_digitChar (fun d (hd : d ∈ [0]) => by simp_all) hrest []
    rw [hzero]
    exact readDecimal_of_readDigits h (by simp)
  · rename_i hne
    have hlt : ∀ d ∈ (Nat.digits 10 n).reverse, d < 10 := fun d hd =>
      Nat.digits_lt_base (by omega) (List.mem_reverse.mp hd)
    have h := readDigits_map_digitChar hlt hrest []
    rw [List.reverse_reverse, List.append_nil] at h
    rw [readDecimal_of_readDigits h (Nat.digits_ne_nil_iff_ne_zero.mpr hne), Nat.ofDigits_digits]

/-- An escaped character is read back in front of what follows it. -/
theorem readString_escapeChar (c : Char) (rest : List Char) :
    readString (escapeChar c ++ rest)
      = (readString rest).map fun parsed => (c :: parsed.1, parsed.2) := by
  have hcontrol : ∀ n, c.toNat = n → c = Char.ofNat n := fun n h => by
    rw [← h, Char.ofNat_toNat]
  unfold escapeChar
  split_ifs with h1 h2 h3 h4 h5 h6 h7 h8
  · subst h1
    cases h : readString rest <;> simp [readString, unescape?, h]
  · subst h2
    cases h : readString rest <;> simp [readString, unescape?, h]
  · cases h : readString rest <;> simp [readString, unescape?, h, hcontrol _ h3]
  · cases h : readString rest <;> simp [readString, unescape?, h, hcontrol _ h4]
  · cases h : readString rest <;> simp [readString, unescape?, h, hcontrol _ h5]
  · cases h : readString rest <;> simp [readString, unescape?, h, hcontrol _ h6]
  · cases h : readString rest <;> simp [readString, unescape?, h, hcontrol _ h7]
  · have hhigh := hexValue?_hexDigit (c.toNat / 16) (by omega)
    have hlow := hexValue?_hexDigit (c.toNat % 16) (by omega)
    have hvalue : Char.ofNat (16 * (c.toNat / 16) + c.toNat % 16) = c := by
      rw [Nat.div_add_mod, Char.ofNat_toNat]
    cases h : readString rest <;> simp [readString, h, hhigh, hlow, hvalue]
  · rw [List.singleton_append, readString.eq_def]
    cases h : readString rest <;> split <;> simp_all

/-- A string literal is read back, whatever follows it. -/
theorem readString_flatMap_escapeChar (text rest : List Char) :
    readString (text.flatMap escapeChar ++ '"' :: rest) = some (text, rest) := by
  induction text with
  | nil => simp [readString]
  | cons c text ih =>
    rw [List.flatMap_cons, List.append_assoc, readString_escapeChar, ih]
    rfl

/-! ## Documents are read back -/

/-- Nothing that follows a value in a document starts with a digit. -/
theorem EndsNumber.compactItems (items : List Json) (rest : List Char) :
    EndsNumber (Json.compactItems items ++ rest) := by
  cases items <;> exact .cons (by decide)

theorem EndsNumber.compactMembers (members : List (String × Json)) (rest : List Char) :
    EndsNumber (Json.compactMembers members ++ rest) := by
  rcases members with _ | ⟨⟨key, value⟩, members⟩ <;> exact .cons (by decide)

/-- A decimal text starts with a digit. -/
theorem decimal_eq_cons (n : Nat) : ∃ d digits, d < 10 ∧ decimal n = Nat.digitChar d :: digits := by
  cases h : decimal n with
  | nil =>
    have := length_decimal_pos n
    simp [h] at this
  | cons c digits =>
    have hmem : c ∈ decimal n := by simp [h]
    obtain ⟨d, hd, rfl⟩ := decimal_digits hmem
    exact ⟨d, digits, hd, rfl⟩

/-- A document that starts with a digit is a number. -/
theorem Json.readValue_digit (fuel : Nat) {d : Nat} (hd : d < 10) (rest : List Char) :
    Json.readValue (fuel + 1) (Nat.digitChar d :: rest)
      = (readDecimal (Nat.digitChar d :: rest)).map fun parsed => (.num parsed.1, parsed.2) := by
  have hopening : Nat.digitChar d ∉ ['n', 't', 'f', '"', '[', '{', '-'] := by
    revert d
    decide
  rw [Json.readValue]
  · cases readDecimal (Nat.digitChar d :: rest) <;> rfl
  all_goals
    intro tail heq
    simp_all

/-- No document starts with a closing bracket. -/
theorem Json.readValue_bracket (fuel : Nat) (rest : List Char) :
    Json.readValue fuel (']' :: rest) = none := by
  cases fuel with
  | zero => rfl
  | succ fuel => simp [Json.readValue, readDecimal, readDigits, digitValue?]

/-- A number is read back. -/
theorem Json.readValue_num (value : Int) (fuel : Nat) (hrest : EndsNumber rest) :
    Json.readValue (fuel + 1) (integerText value ++ rest) = some (.num value, rest) := by
  cases value with
  | ofNat n =>
    obtain ⟨d, digits, hd, hdecimal⟩ := decimal_eq_cons n
    have h := readDecimal_decimal n hrest
    rw [hdecimal, List.cons_append] at h
    rw [integerText, hdecimal, List.cons_append, Json.readValue_digit fuel hd, h]
    rfl
  | negSucc n =>
    simp only [integerText, List.cons_append, Json.readValue, readDecimal_decimal (n + 1) hrest]
    rfl

/-- No document has an empty text. -/
theorem Json.length_compact_pos (document : Json) : 0 < document.compact.length := by
  cases document with
  | null => simp [Json.compact]
  | bool value => cases value <;> simp [Json.compact]
  | num value =>
    cases value with
    | ofNat n => simpa [Json.compact, integerText] using length_decimal_pos n
    | negSucc n => simp [Json.compact, integerText]
  | str value => simp [Json.compact, stringText]
  | arr items => cases items <;> simp [Json.compact]
  | obj members => rcases members with _ | ⟨⟨key, value⟩, members⟩ <;> simp [Json.compact]

theorem Json.length_compactItems_pos (items : List Json) : 0 < (Json.compactItems items).length := by
  cases items <;> simp [Json.compactItems]

theorem Json.length_compactMembers_pos (members : List (String × Json)) :
    0 < (Json.compactMembers members).length := by
  rcases members with _ | ⟨⟨key, value⟩, members⟩ <;> simp [Json.compactMembers]

/-- A member is read back once its value is. -/
theorem Json.readMember_of_readValue {fuel : Nat} {text tail : List Char} {value : Json}
    (h : Json.readValue fuel text = some (value, tail)) (key : String) :
    Json.readMember (fuel + 1) (stringText key ++ ':' :: text) = some ((key, value), tail) := by
  simp [stringText, Json.readMember, readString_flatMap_escapeChar, h]

mutual
/-- A document is read back, whatever follows it, with a step for each of its characters. -/
theorem Json.readValue_compact : ∀ (document : Json) (fuel : Nat) (rest : List Char),
    document.compact.length ≤ fuel → EndsNumber rest →
    Json.readValue fuel (document.compact ++ rest) = some (document, rest)
  | document, 0, _, hfuel, _ => absurd document.length_compact_pos (by omega)
  | .null, fuel + 1, rest, _, _ => by simp [Json.compact, Json.readValue]
  | .bool true, fuel + 1, rest, _, _ => by simp [Json.compact, Json.readValue]
  | .bool false, fuel + 1, rest, _, _ => by simp [Json.compact, Json.readValue]
  | .num value, fuel + 1, rest, _, hrest => by
    simpa [Json.compact] using Json.readValue_num value fuel hrest
  | .str value, fuel + 1, rest, _, _ => by
    simp [Json.compact, stringText, Json.readValue, readString_flatMap_escapeChar]
  | .arr [], fuel + 1, rest, _, _ => by simp [Json.compact, Json.readValue]
  | .arr (item :: items), fuel + 1, rest, hfuel, _ => by
    simp only [Json.compact, List.cons_append, List.length_cons, List.length_append] at hfuel
    have hitem := Json.readValue_compact item fuel (Json.compactItems items ++ rest) (by omega)
      (.compactItems items rest)
    have hitems := Json.readItems_compactItems items fuel rest (by omega)
    have hopen : ∀ tail, item.compact ++ (Json.compactItems items ++ rest) ≠ ']' :: tail := by
      intro tail heq
      rw [heq, Json.readValue_bracket] at hitem
      cases hitem
    simp [Json.compact, Json.readValue, hitem, hitems]
  | .obj [], fuel + 1, rest, _, _ => by simp [Json.compact, Json.readValue]
  | .obj ((key, value) :: members), fuel + 1, rest, hfuel, _ => by
    simp only [Json.compact, stringText, List.cons_append, List.length_cons,
      List.length_append] at hfuel
    obtain ⟨below, rfl⟩ : ∃ below, fuel = below + 1 := ⟨fuel - 1, by omega⟩
    have hvalue := Json.readValue_compact value below (Json.compactMembers members ++ rest)
      (by omega) (.compactMembers members rest)
    have hmember := Json.readMember_of_readValue hvalue key
    have hmembers := Json.readMembers_compactMembers members (below + 1) rest (by omega)
    simp only [stringText, List.cons_append, List.append_assoc, List.nil_append] at hmember
    simp [Json.compact, stringText, Json.readValue, hmember, hmembers]

/-- The items of an array after its first are read back. -/
theorem Json.readItems_compactItems : ∀ (items : List Json) (fuel : Nat) (rest : List Char),
    (Json.compactItems items).length ≤ fuel →
    Json.readItems fuel (Json.compactItems items ++ rest) = some (items, rest)
  | items, 0, _, hfuel => absurd (Json.length_compactItems_pos items) (by omega)
  | [], fuel + 1, rest, _ => by simp [Json.compactItems, Json.readItems]
  | item :: items, fuel + 1, rest, hfuel => by
    simp only [Json.compactItems, List.cons_append, List.length_cons, List.length_append] at hfuel
    have hitem := Json.readValue_compact item fuel (Json.compactItems items ++ rest) (by omega)
      (.compactItems items rest)
    have hitems := Json.readItems_compactItems items fuel rest (by omega)
    simp [Json.compactItems, Json.readItems, hitem, hitems]

/-- The members of an object after its first are read back. -/
theorem Json.readMembers_compactMembers :
    ∀ (members : List (String × Json)) (fuel : Nat) (rest : List Char),
    (Json.compactMembers members).length ≤ fuel →
    Json.readMembers fuel (Json.compactMembers members ++ rest) = some (members, rest)
  | members, 0, _, hfuel => absurd (Json.length_compactMembers_pos members) (by omega)
  | [], fuel + 1, rest, _ => by simp [Json.compactMembers, Json.readMembers]
  | (key, value) :: members, fuel + 1, rest, hfuel => by
    simp only [Json.compactMembers, stringText, List.cons_append, List.length_cons,
      List.length_append] at hfuel
    obtain ⟨below, rfl⟩ : ∃ below, fuel = below + 1 := ⟨fuel - 1, by omega⟩
    have hvalue := Json.readValue_compact value below (Json.compactMembers members ++ rest)
      (by omega) (.compactMembers members rest)
    have hmember := Json.readMember_of_readValue hvalue key
    have hmembers := Json.readMembers_compactMembers members (below + 1) rest (by omega)
    simp [Json.compactMembers, Json.readMembers, hmember, hmembers]
end

/-- The bytes of a text decode to the text. -/
theorem utf8Decode?_utf8 (text : List Char) :
    (utf8 text).toByteArray.utf8Decode? = some text.toArray :=
  List.utf8Decode?_utf8Encode

/-- Reading a written document returns the document. -/
theorem Json.parse_bytes (document : Json) : Json.parse document.bytes = some document := by
  have h := Json.readValue_compact document document.compact.length [] le_rfl .nil
  rw [List.append_nil] at h
  simp [Json.parse, Json.bytes, utf8Decode?_utf8, h]

/-! ## Typed documents -/

/-- A type whose values are written as JSON documents. -/
class ToJson (α : Type) where
  /-- The document of a value. -/
  toJson : α → Json

export ToJson (toJson)

/-- The bytes that a value is written as. -/
def encode {α : Type} [ToJson α] (value : α) : List UInt8 :=
  (toJson value).bytes

/-- A typed JSON reader, known only by that it returns what the writer wrote. What it does with
any other file, and the text of its errors, is left open. -/
class FromJson (α : Type) [ToJson α] where
  /-- Read the bytes of a file. -/
  fromSlice : List UInt8 → Except String α
  /-- A written value is read back. -/
  fromSlice_encode (value : α) : fromSlice (encode value) = .ok value

export FromJson (fromSlice fromSlice_encode)

/-- The strict reader of compact documents, for a type whose documents can be decoded. -/
@[reducible] def strictReader {α : Type} [ToJson α] (ofJson : Json → Option α)
    (h : ∀ value, ofJson (toJson value) = some value) : FromJson α where
  fromSlice bytes :=
    match (Json.parse bytes).bind ofJson with
    | some value => .ok value
    | none => .error "invalid document"
  fromSlice_encode value := by
    simp [encode, Json.parse_bytes, h]

end Encoding
