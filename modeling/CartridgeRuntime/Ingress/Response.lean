import CartridgeRuntime.Ingress.Request

/-!
# Writing a response to a socket

A guest decides the status, the headers and the body of a response, the gateway how they are written.
`encodeResponse_framed` reads the written bytes with a parser of HTTP messages: whatever the guest
has answered, they are one message, and its framing is the gateway's.
-/

namespace CartridgeRuntime.Ingress

open Checked CartridgeRuntime.Core Encoding Network Std

/-! ## Encoding -/

/-- The response to a failed request. -/
def errorResponse (status : Nat) : ServiceResponse :=
  { status, body := utf8 ("request failed (".toList ++ decimal status ++ ")\n".toList) }

/-- The response that is written in answer to the one of a guest. -/
def finalResponse (response : ServiceResponse) : ServiceResponse :=
  if response.validate.isOk ∧ 200 ≤ response.status then response else errorResponse 502

/-- The statuses without a body. -/
def hasNoBody (status : Nat) : Bool :=
  status ∈ [204, 205, 304]

/-- The bytes that a client receives in answer to any other method than `HEAD`. -/
def payload (response : ServiceResponse) : List UInt8 :=
  if hasNoBody response.status then [] else response.body

/-- A character that may stand in a line. -/
def isPrintable (c : Char) : Bool :=
  32 ≤ c.toNat ∧ c.toNat ≤ 126

/-- The headers that a guest cannot set. -/
def droppedHeaders : List String :=
  ["cache-control", "x-content-type-options", "trailer", "te", "keep-alive", "proxy-connection"]

/-- The headers of a response that are not written. -/
def isDropped (name value : String) : Bool :=
  toAsciiLowercase name.toList ∈ droppedHeaders.map String.toList
    ∨ "access-control-".toList <+: toAsciiLowercase name.toList
    ∨ ¬ value.toList.all isPrintable

/-- The bytes of a response. -/
def encodeResponse (response : ServiceResponse) (head : Bool) : List UInt8 :=
  let response := finalResponse response
  let noBody := hasNoBody response.status
  let length := if noBody then 0 else response.body.length
  let encoded := "HTTP/1.1 ".toList ++ decimal response.status
    ++ " Response\r\nConnection: close\r\n".toList
  let encoded :=
    if response.status ∈ [204, 304] then encoded
    else encoded ++ ("Content-Length: ".toList ++ decimal length ++ "\r\n".toList)
  let encoded := encoded ++ "Cache-Control: no-store\r\nX-Content-Type-Options: nosniff\r\n".toList
  let encoded := response.headers.toList.foldl (fun encoded (name, value) =>
    if isDropped name value then encoded
    else encoded ++ (name.toList ++ ": ".toList ++ value.toList ++ "\r\n".toList)) encoded
  let encoded := encoded ++ "\r\n".toList
  utf8 encoded ++ (if !head && !noBody then response.body else [])

/-! ## Reading a message -/

/-- A message as a client reads it. -/
structure Message where
  status : Nat
  fields : List (List Char × List Char)
  body : List UInt8

/-- The values of the fields of a name, which is given in lower case. -/
def valuesOf (fields : List (List Char × List Char)) (name : String) : List (List Char) :=
  (fields.filter fun field => toAsciiLowercase field.1 = name.toList).map Prod.snd

/-- Read the line of a status. -/
def readStatus (line : List Char) : Option Nat :=
  match line.splitOn ' ' with
  | [version, code, _] => do
    guard (version = "HTTP/1.1".toList ∧ code.length = 3)
    Codec.decimalKey? (String.ofList code)
  | _ => none

/-- Read the line of a field. -/
def readField (line : List Char) : Option (List Char × List Char) := do
  let (name, rest) ← splitOnce ':' line
  guard (name ≠ [] ∧ name.all isHeaderNameChar ∧ rest.all isPrintable ∧ rest.head? = some ' ')
  some (name, rest.tail)

/-- The length of the body that follows the head of a message. A message with two lengths, with none
or with a transfer coding is not read. -/
def bodyLength (head : Bool) (status : Nat) (fields : List (List Char × List Char)) : Option Nat :=
  if valuesOf fields "transfer-encoding" ≠ [] then none
  else
    match valuesOf fields "content-length" with
    | [] => if head ∨ status < 200 ∨ status ∈ [204, 304] then some 0 else none
    | [text] => (Codec.decimalKey? (String.ofList text)).map fun length =>
      if head ∨ status < 200 ∨ status ∈ [204, 304] then 0 else length
    | _ => none

/-- Read the bytes of a connection that is closed after one message: nothing may be left over. -/
def readMessage (head : Bool) (bytes : List UInt8) : Option Message := do
  let index ← headEnd bytes
  let lines := (splitLines ((bytes.take (index - 2)).map fun byte => Char.ofNat byte.toNat)).dropLast
  let status ← readStatus (lines.headD [])
  let fields ← lines.tail.mapM readField
  let length ← bodyLength head status fields
  guard ((bytes.drop index).length = length)
  some { status, fields, body := bytes.drop index }

/-! ## Lines -/

/-- Lines with their line ends. -/
def joinLines (lines : List (List Char)) : List Char :=
  lines.flatMap (· ++ ['\r', '\n'])

/-- The bytes of a text of ASCII characters. -/
def ascii (text : List Char) : List UInt8 :=
  text.map fun c => UInt8.ofNat c.toNat

theorem utf8_eq_ascii {text : List Char} (h : ∀ c ∈ text, c.toNat < 128) :
    utf8 text = ascii text := by
  induction text with
  | nil => rfl
  | cons c text ih =>
    rw [List.forall_mem_cons] at h
    show String.utf8EncodeChar c ++ utf8 text = _
    rw [ih h.2, String.utf8EncodeChar, if_pos (show c.val.toNat ≤ 127 from Nat.le_of_lt_succ h.1)]
    rfl

theorem chars_ascii {text : List Char} (h : ∀ c ∈ text, c.toNat < 128) :
    ((ascii text).map fun byte => Char.ofNat byte.toNat) = text := by
  rw [ascii, List.map_map]
  refine (List.map_congr_left fun c hc => ?_).trans (List.map_id _)
  have hsmall : (UInt8.ofNat c.toNat).toNat = c.toNat := UInt8.toNat_ofNat_of_lt' (by
    have := h c hc
    show c.toNat < 256
    omega)
  show Char.ofNat (UInt8.ofNat c.toNat).toNat = c
  rw [hsmall, Char.ofNat_toNat]

/-- A line of a head: some printable characters. -/
def IsLine (line : List Char) : Prop :=
  line ≠ [] ∧ ∀ c ∈ line, isPrintable c

variable {c : Char} {lines : List (List Char)} {line : List Char} {field : List Char × List Char}
    {response : ServiceResponse}

theorem ascii_of_isPrintable (h : isPrintable c) : c.toNat < 128 := by
  have := of_decide_eq_true h
  omega

theorem byte_ne_of_isPrintable (h : isPrintable c) : UInt8.ofNat c.toNat ≠ 13 := by
  intro heq
  have hc := of_decide_eq_true h
  have hbyte := congrArg UInt8.toNat heq
  rw [UInt8.toNat_ofNat_of_lt' (show c.toNat < 256 by omega)] at hbyte
  have hreturn : (13 : UInt8).toNat = 13 := rfl
  omega

theorem ascii_joinLines (h : ∀ line ∈ lines, IsLine line) :
    ∀ c ∈ joinLines lines, c.toNat < 128 := by
  intro c hc
  obtain ⟨line, hline, hc⟩ := List.mem_flatMap.mp hc
  rcases List.mem_append.mp hc with hc | hc
  · exact ascii_of_isPrintable ((h line hline).2 c hc)
  · simp only [List.mem_cons, List.not_mem_nil, or_false] at hc
    rcases hc with rfl | rfl <;> decide

theorem splitLines_append {rest : List Char} (h : ∀ c ∈ line, isPrintable c) :
    splitLines (line ++ '\r' :: '\n' :: rest) = line :: splitLines rest := by
  induction line with
  | nil => rw [List.nil_append, splitLines]
  | cons c line ih =>
    rw [List.forall_mem_cons] at h
    have hc : c ≠ '\r' := by
      rintro rfl
      exact absurd h.1 (by decide)
    rw [List.cons_append, splitLines, ih h.2]
    · rfl
    · exact fun _ heq _ => hc heq

theorem splitLines_joinLines (h : ∀ line ∈ lines, IsLine line) :
    splitLines (joinLines lines) = lines ++ [[]] := by
  induction lines with
  | nil => rfl
  | cons line lines ih =>
    rw [List.forall_mem_cons] at h
    show splitLines ((line ++ ['\r', '\n']) ++ joinLines lines) = _
    rw [List.append_assoc]
    exact (splitLines_append h.1.2).trans (congrArg (line :: ·) (ih h.2))

/-- The first blank line does not begin in the printable characters before it. -/
theorem headEnd_ascii (h : ∀ c ∈ line, isPrintable c) (rest : List UInt8) :
    headEnd (ascii line ++ rest) = (headEnd rest).map (· + line.length) := by
  induction line with
  | nil => exact (Option.map_id' ..).symm
  | cons c line ih =>
    rw [List.forall_mem_cons] at h
    show headEnd (UInt8.ofNat c.toNat :: (ascii line ++ rest)) = _
    rw [headEnd, if_neg, ih h.2, Option.map_map]
    · rfl
    · exact fun hblank => byte_ne_of_isPrintable h.1 (List.cons_prefix_cons.mp hblank).1.symm

theorem headEnd_joinLines (h : ∀ part ∈ line :: lines, IsLine part) (body : List UInt8) :
    headEnd (ascii (joinLines (line :: lines)) ++ (13 :: 10 :: body))
      = some ((joinLines (line :: lines)).length + 2) := by
  induction lines generalizing line with
  | nil =>
    have hline := (h line (List.mem_singleton_self _)).2
    have hbytes : ascii (joinLines [line]) ++ (13 :: 10 :: body)
        = ascii line ++ 13 :: 10 :: 13 :: 10 :: body := by
      simp [ascii, joinLines]
    rw [hbytes, headEnd_ascii hline, headEnd,
      if_pos (show [13, 10, 13, 10] <+: 13 :: 10 :: 13 :: 10 :: body from ⟨body, rfl⟩)]
    simp [joinLines]
    omega
  | cons next lines ih =>
    obtain ⟨hline, h⟩ := List.forall_mem_cons.mp h
    have hbytes : ascii (joinLines (line :: next :: lines)) ++ (13 :: 10 :: body)
        = ascii line ++ 13 :: 10 :: (ascii (joinLines (next :: lines)) ++ (13 :: 10 :: body)) := by
      simp [ascii, joinLines]
    obtain ⟨hne, hprintable⟩ := h next List.mem_cons_self
    obtain ⟨c, tail, rfl⟩ := List.exists_cons_of_ne_nil hne
    rw [hbytes, headEnd_ascii hline.2, headEnd, if_neg, headEnd, if_neg, ih h]
    · simp [joinLines]
      omega
    · exact fun hblank => absurd (List.cons_prefix_cons.mp hblank).1 (by decide)
    · intro hblank
      simp only [ascii, joinLines, List.flatMap_cons, List.map_append, List.map_cons,
        List.cons_append, List.cons_prefix_cons] at hblank
      exact byte_ne_of_isPrintable (hprintable c List.mem_cons_self) hblank.2.2.1.symm

/-! ## Fields -/

/-- A field with a token for a name and a printable value. -/
def IsField (field : List Char × List Char) : Prop :=
  field.1 ≠ [] ∧ (∀ c ∈ field.1, isHeaderNameChar c) ∧ ∀ c ∈ field.2, isPrintable c

/-- A field whose characters pass the tests is one. -/
theorem isField_of_all {name value : List Char} (hne : name ≠ [])
    (hname : name.all isHeaderNameChar = true) (hvalue : value.all isPrintable = true) :
    IsField (name, value) :=
  ⟨hne, List.all_eq_true.mp hname, List.all_eq_true.mp hvalue⟩

def fieldLine (field : List Char × List Char) : List Char :=
  field.1 ++ ':' :: ' ' :: field.2

theorem of_isHeaderNameChar (h : isHeaderNameChar c) : isPrintable c ∧ c ≠ ':' := by
  rw [isHeaderNameChar, Bool.or_eq_true] at h
  rcases h with h | h
  · simp only [Char.isAlphanum, isAlpha_iff, isUpper_iff, isLower_iff, isDigit_iff,
      Bool.or_eq_true] at h
    refine ⟨decide_eq_true ?_, ?_⟩
    · show 32 ≤ c.toNat ∧ c.toNat ≤ 126
      omega
    · rintro rfl
      exact absurd h (by decide)
  · have hmem := List.contains_iff_mem.mp h
    have hall : ("!#$%&'*+-.^_`|~".toList.all fun c => isPrintable c && c != ':') = true := by
      decide
    have hc := List.all_eq_true.mp hall c hmem
    rw [Bool.and_eq_true, bne_iff_ne] at hc
    exact hc

theorem IsField.isLine (h : IsField field) : IsLine (fieldLine field) := by
  refine ⟨List.append_ne_nil_of_right_ne_nil _ (List.cons_ne_nil _ _), fun c hc => ?_⟩
  simp only [fieldLine, List.mem_append, List.mem_cons] at hc
  rcases hc with hc | rfl | rfl | hc
  · exact (of_isHeaderNameChar (h.2.1 c hc)).1
  · rfl
  · rfl
  · exact h.2.2 c hc

theorem splitOnce_append {separator : Char} {before : List Char} (after : List Char)
    (h : ∀ c ∈ before, c ≠ separator) :
    splitOnce separator (before ++ separator :: after) = some (before, after) := by
  have hspan : (before ++ separator :: after).span (· != separator) = (before, separator :: after) := by
    rw [List.span_eq_takeWhile_dropWhile, List.takeWhile_append_of_pos fun c hc => bne_iff_ne.mpr (h c hc),
      List.dropWhile_append_of_pos fun c hc => bne_iff_ne.mpr (h c hc)]
    simp
  rw [splitOnce, hspan]

/-- A field is read back. -/
theorem IsField.readField_fieldLine (h : IsField field) :
    readField (fieldLine field) = some field := by
  have hsplit := splitOnce_append (' ' :: field.2) fun c hc => (of_isHeaderNameChar (h.2.1 c hc)).2
  rw [readField, fieldLine, hsplit]
  have hblank : isPrintable ' ' = true := rfl
  simp [guard, h.1, hblank, if_pos (And.intro h.2.1 h.2.2)]

theorem mapM_readField {fields : List (List Char × List Char)} (h : ∀ field ∈ fields, IsField field) :
    (fields.map fieldLine).mapM readField = some fields := by
  induction fields with
  | nil => rfl
  | cons field fields ih =>
    rw [List.forall_mem_cons] at h
    simp [h.1.readField_fieldLine, ih h.2]

theorem isPrintable_of_mem_decimal {n : Nat} (h : c ∈ decimal n) : isPrintable c ∧ c ≠ ' ' := by
  obtain ⟨d, hd, rfl⟩ := decimal_digits h
  have hchar := Nat.toNat_digitChar_of_lt_ten hd
  refine ⟨decide_eq_true (by omega), fun heq => ?_⟩
  have hblank : ' '.toNat = 32 := rfl
  rw [heq] at hchar
  omega

/-! ## Written responses -/

def statusLine (status : Nat) : List Char :=
  "HTTP/1.1".toList ++ ' ' :: (decimal status ++ ' ' :: "Response".toList)

/-- The fields of the gateway. -/
def hostFields (status length : Nat) : List (List Char × List Char) :=
  [("Connection".toList, "close".toList)]
    ++ (if status ∈ [204, 304] then [] else [("Content-Length".toList, decimal length)])
    ++ [("Cache-Control".toList, "no-store".toList),
      ("X-Content-Type-Options".toList, "nosniff".toList)]

/-- The fields that are left of the headers of a guest. -/
def guestFields (headers : List (String × String)) : List (List Char × List Char) :=
  (headers.filter fun entry => !isDropped entry.1 entry.2).map
    fun entry => (entry.1.toList, entry.2.toList)

def writtenFields (response : ServiceResponse) : List (List Char × List Char) :=
  hostFields response.status (payload response).length ++ guestFields response.headers.toList

theorem foldl_written (entries : List (String × String)) (encoded : List Char) :
    entries.foldl (fun encoded (name, value) =>
      if isDropped name value then encoded
      else encoded ++ (name.toList ++ ": ".toList ++ value.toList ++ "\r\n".toList)) encoded
    = encoded ++ joinLines ((guestFields entries).map fieldLine) := by
  unfold guestFields
  induction entries generalizing encoded with
  | nil => exact (List.append_nil _).symm
  | cons entry entries ih =>
    rw [List.foldl_cons, ih]
    cases hdropped : isDropped entry.1 entry.2 with
    | true => simp [hdropped]
    | false => simp [hdropped, joinLines, fieldLine]

theorem length_payload (response : ServiceResponse) :
    (payload response).length = if hasNoBody response.status then 0 else response.body.length := by
  unfold payload
  split <;> rfl

/-- The lines before the gateway's other fields. -/
theorem joinLines_sized (status length : Nat) :
    (if status ∈ [204, 304] then
        "HTTP/1.1 ".toList ++ decimal status ++ " Response\r\nConnection: close\r\n".toList
      else "HTTP/1.1 ".toList ++ decimal status ++ " Response\r\nConnection: close\r\n".toList
        ++ ("Content-Length: ".toList ++ decimal length ++ "\r\n".toList)) =
    joinLines (statusLine status :: fieldLine ("Connection".toList, "close".toList)
      :: (if status ∈ [204, 304] then [] else [("Content-Length".toList, decimal length)]).map
        fieldLine) := by
  have hstart : " Response\r\nConnection: close\r\n".toList = ' ' :: "Response".toList ++ ['\r', '\n']
      ++ (fieldLine ("Connection".toList, "close".toList) ++ ['\r', '\n']) := by decide
  have hversion : "HTTP/1.1 ".toList = "HTTP/1.1".toList ++ [' '] := by decide
  have hlength : "Content-Length: ".toList = "Content-Length".toList ++ [':', ' '] := by decide
  have hend : "\r\n".toList = ['\r', '\n'] := by decide
  have hstatus : statusLine status
      = "HTTP/1.1".toList ++ ' ' :: (decimal status ++ ' ' :: "Response".toList) := rfl
  rw [hstart, hversion, hlength, hend]
  split <;> simp [joinLines, hstatus, fieldLine, -String.reduceToList]

/-- The bytes are those of the status line, the fields, a blank line and the body. -/
theorem encodeResponse_eq (response : ServiceResponse) (head : Bool) :
    encodeResponse response head =
      utf8 (joinLines (statusLine (finalResponse response).status
        :: (writtenFields (finalResponse response)).map fieldLine) ++ ['\r', '\n'])
      ++ (if head then [] else payload (finalResponse response)) := by
  have hbody : (if !head && !hasNoBody (finalResponse response).status
      then (finalResponse response).body else []) =
      if head then [] else payload (finalResponse response) := by
    unfold payload
    cases head <;> cases hasNoBody (finalResponse response).status <;> rfl
  have hhost : "Cache-Control: no-store\r\nX-Content-Type-Options: nosniff\r\n".toList =
      fieldLine ("Cache-Control".toList, "no-store".toList) ++ ['\r', '\n']
      ++ (fieldLine ("X-Content-Type-Options".toList, "nosniff".toList) ++ ['\r', '\n']) := by decide
  have hend : "\r\n".toList = ['\r', '\n'] := by decide
  unfold encodeResponse
  extract_lets final noBody length start sized hosted written complete
  have hsized : sized = _ := joinLines_sized final.status length
  have hwritten : written = _ := foldl_written final.headers.toList hosted
  have hlength : length = (payload final).length := (length_payload final).symm
  rw [hbody, show complete = written ++ _ from rfl, hwritten, show hosted = sized ++ _ from rfl, hsized,
    hhost, hend, writtenFields, hostFields, hlength]
  refine congrArg (fun text => utf8 text ++ _) ?_
  simp only [joinLines, List.flatMap_cons, List.flatMap_append, List.map_append, List.map_cons,
    List.append_assoc, List.nil_append, List.cons_append, final]

/-- What the checks of a response leave to a guest. -/
structure Guarded (response : ServiceResponse) : Prop where
  status : 200 ≤ response.status ∧ response.status ≤ 599
  headers : ∀ entry ∈ response.headers.toList, entry.1.toList ≠ []
    ∧ (∀ c ∈ entry.1.toList, isHeaderNameChar c)
    ∧ toAsciiLowercase entry.1.toList ∉ forbiddenHeaders.map String.toList

theorem headers_of_foldlM {entries : List (String × String)} {scan scan' : HeaderScan}
    (h : entries.foldlM HeaderScan.header scan = .ok scan') :
    ∀ entry ∈ entries, entry.1.toList ≠ [] ∧ (∀ c ∈ entry.1.toList, isHeaderNameChar c)
      ∧ toAsciiLowercase entry.1.toList ∉ forbiddenHeaders.map String.toList := by
  induction entries generalizing scan with
  | nil => exact List.forall_mem_nil _
  | cons entry entries ih =>
    rw [List.foldlM_cons, bind_eq_ok] at h
    obtain ⟨next, hnext, hrest⟩ := h
    refine List.forall_mem_cons.mpr ⟨?_, ih hrest⟩
    simp only [HeaderScan.header, bind_eq_ok, exists_unit, rejectIf_eq_ok, not_or, not_not] at hnext
    obtain ⟨⟨hname, -, hchars, -⟩, -, hforbidden, -⟩ := hnext
    exact ⟨fun heq => hname (String.toList_eq_nil_iff.mp heq), List.all_eq_true.mp hchars, hforbidden⟩

theorem guarded_of_validate (h : response.validate = .ok ()) (hstatus : 200 ≤ response.status) :
    Guarded response := by
  simp only [ServiceResponse.validate, validateHeaders, bind_eq_ok, exists_unit, rejectIf_eq_ok, not_or,
    not_not] at h
  obtain ⟨⟨hrange, -⟩, -, scan, hscan, -⟩ := h
  exact ⟨⟨hstatus, hrange.2⟩, headers_of_foldlM hscan⟩

theorem finalResponse_of (h : response.validate = .ok () ∧ 200 ≤ response.status) :
    finalResponse response = response :=
  if_pos ⟨isOk_iff.mpr ⟨_, h.1⟩, h.2⟩

theorem finalResponse_of_not (h : ¬ (response.validate = .ok () ∧ 200 ≤ response.status)) :
    finalResponse response = errorResponse 502 :=
  if_neg fun hfinal => h ⟨exists_unit.mp (isOk_iff.mp hfinal.1), hfinal.2⟩

theorem guarded_finalResponse (response : ServiceResponse) : Guarded (finalResponse response) := by
  by_cases h : response.validate = .ok () ∧ 200 ≤ response.status
  · rw [finalResponse_of h]
    exact guarded_of_validate h.1 h.2
  · rw [finalResponse_of_not h]
    exact ⟨by decide, by simp [errorResponse]⟩

/-- A header of the final response is one that the guest has given. -/
theorem mem_of_mem_finalResponse {entry : String × String}
    (h : entry ∈ (finalResponse response).headers.toList) : entry ∈ response.headers.toList := by
  unfold finalResponse at h
  split at h
  · exact h
  · obtain ⟨name, value⟩ := entry
    exact absurd h (by simp [errorResponse])

theorem isPrintable_of_not_isDropped {name value : String} (h : (!isDropped name value) = true) :
    ∀ c ∈ value.toList, isPrintable c := by
  simp only [isDropped, Bool.not_eq_true', decide_eq_false_iff_not, not_or, not_not] at h
  exact List.all_eq_true.mp h.2.2

theorem Guarded.isField (h : Guarded response) :
    ∀ field ∈ writtenFields response, IsField field := by
  have hfixed : IsField ("Connection".toList, "close".toList)
      ∧ IsField ("Cache-Control".toList, "no-store".toList)
      ∧ IsField ("X-Content-Type-Options".toList, "nosniff".toList) := by
    refine ⟨?_, ?_, ?_⟩ <;> exact isField_of_all (by decide) (by decide) (by decide)
  have hlength : "Content-Length".toList.all isHeaderNameChar = true := by decide
  intro field hfield
  simp only [writtenFields, hostFields, guestFields, List.mem_append, List.mem_cons, List.not_mem_nil, or_false,
    List.mem_map, List.mem_filter] at hfield
  rcases hfield with ((rfl | hfield) | rfl | rfl) | ⟨entry, ⟨hentry, hkept⟩, rfl⟩
  · exact hfixed.1
  · split at hfield
    · cases hfield
    · obtain rfl := List.mem_singleton.mp hfield
      exact ⟨List.cons_ne_nil _ _, List.all_eq_true.mp hlength, fun c hc => (isPrintable_of_mem_decimal hc).1⟩
  · exact hfixed.2.1
  · exact hfixed.2.2
  · obtain ⟨hne, hchars, -⟩ := h.headers entry hentry
    exact ⟨hne, hchars, isPrintable_of_not_isDropped hkept⟩

theorem length_decimal_status {status : Nat} (h : 200 ≤ status ∧ status ≤ 599) :
    (decimal status).length = 3 := by
  have hlt : 2 < (Nat.digits 10 status).length := (Nat.lt_digits_length_iff (by omega) status).mpr (by omega)
  have hle := length_decimal_le (show 0 < 3 by omega) (show status < 10 ^ 3 by omega)
  rw [decimal, if_neg (by omega), List.length_map, List.length_reverse] at hle ⊢
  omega

theorem readStatus_statusLine {status : Nat} (h : 200 ≤ status ∧ status ≤ 599) :
    readStatus (statusLine status) = some status := by
  have hparts : (statusLine status).splitOn ' ' = ["HTTP/1.1".toList, decimal status, "Response".toList] := by
    have hversion : ' ' ∉ "HTTP/1.1".toList := by decide
    have hreason : ' ' ∉ "Response".toList := by decide
    have hdigits : ' ' ∉ decimal status := fun hc => (isPrintable_of_mem_decimal hc).2 rfl
    rw [show statusLine status = _ ++ _ :: (_ ++ _ :: _) from rfl, List.splitOn_append_cons_self,
      List.splitOn_append_cons_self, List.splitOn_eq_singleton hversion,
      List.splitOn_eq_singleton hdigits, List.splitOn_eq_singleton hreason]
    rfl
  rw [readStatus, hparts]
  simp [guard, length_decimal_status h, Codec.decimalKey?_decimal]

theorem valuesOf_append (fields fields' : List (List Char × List Char)) (name : String) :
    valuesOf (fields ++ fields') name = valuesOf fields name ++ valuesOf fields' name := by
  rw [valuesOf, List.filter_append, List.map_append]
  rfl

/-- A guest has no part in the fields that the checks keep from it. -/
theorem Guarded.valuesOf_writtenFields (h : Guarded response) {name : String}
    (hname : name ∈ forbiddenHeaders ++ droppedHeaders) :
    valuesOf (writtenFields response) name
      = valuesOf (hostFields response.status (payload response).length) name := by
  have hguest : valuesOf (guestFields response.headers.toList) name = [] := by
    rw [valuesOf, List.map_eq_nil_iff, List.filter_eq_nil_iff]
    intro field hfield heq
    obtain ⟨entry, hentry, rfl⟩ := List.mem_map.mp hfield
    obtain ⟨hentry, hkept⟩ := List.mem_filter.mp hentry
    have hlower : toAsciiLowercase entry.1.toList = name.toList := of_decide_eq_true heq
    simp only [isDropped, Bool.not_eq_true', decide_eq_false_iff_not, not_or, hlower] at hkept
    rcases List.mem_append.mp hname with hname | hname
    · exact (h.headers entry hentry).2.2 (hlower ▸ List.mem_map_of_mem hname)
    · exact hkept.1 (List.mem_map_of_mem hname)
  rw [writtenFields, valuesOf_append, hguest, List.append_nil]

theorem valuesOf_hostFields (status length : Nat) :
    valuesOf (hostFields status length) "connection" = ["close".toList]
    ∧ valuesOf (hostFields status length) "cache-control" = ["no-store".toList]
    ∧ valuesOf (hostFields status length) "x-content-type-options" = ["nosniff".toList]
    ∧ valuesOf (hostFields status length) "transfer-encoding" = []
    ∧ valuesOf (hostFields status length) "content-length"
      = if status ∈ [204, 304] then [] else [decimal length] := by
  unfold hostFields
  split
  · exact ⟨rfl, rfl, rfl, rfl, rfl⟩
  · exact ⟨rfl, rfl, rfl, rfl, rfl⟩

/-- The fields say how many bytes follow. -/
theorem Guarded.bodyLength_eq (h : Guarded response) (head : Bool) :
    bodyLength head response.status (writtenFields response)
      = some (if head then [] else payload response).length := by
  obtain ⟨-, -, -, hcoding, hlength⟩ :=
    valuesOf_hostFields response.status (payload response).length
  rw [bodyLength, h.valuesOf_writtenFields (by decide), h.valuesOf_writtenFields (by decide), hcoding,
    hlength, if_neg (not_not.mpr rfl)]
  by_cases hstatus : response.status ∈ [204, 304]
  · have hempty : payload response = [] := by
      rw [payload, if_pos]
      simp only [List.mem_cons, List.not_mem_nil, or_false] at hstatus
      rcases hstatus with hstatus | hstatus <;> rw [hstatus] <;> rfl
    simp [hstatus, hempty]
  · have hfinal : ¬ response.status < 200 := Nat.not_lt.mpr h.status.1
    cases head <;> simp [hstatus, hfinal, Codec.decimalKey?_decimal]

theorem isLine_statusLine (status : Nat) : IsLine (statusLine status) := by
  have hshape : statusLine status
      = "HTTP/1.1".toList ++ ' ' :: (decimal status ++ ' ' :: "Response".toList) := rfl
  have hversion : "HTTP/1.1".toList.all isPrintable = true := by decide
  have hreason : "Response".toList.all isPrintable = true := by decide
  refine ⟨List.append_ne_nil_of_right_ne_nil _ (List.cons_ne_nil _ _), fun c hc => ?_⟩
  rw [hshape, List.mem_append, List.mem_cons, List.mem_append, List.mem_cons] at hc
  rcases hc with hc | rfl | hc | rfl | hc
  · exact List.all_eq_true.mp hversion c hc
  · rfl
  · exact (isPrintable_of_mem_decimal hc).1
  · rfl
  · exact List.all_eq_true.mp hreason c hc

/-- The bytes of a response are read as a message of its fields and its body. -/
theorem Guarded.readMessage_eq (h : Guarded response) (head : Bool) :
    readMessage head (utf8 (joinLines (statusLine response.status
        :: (writtenFields response).map fieldLine) ++ ['\r', '\n'])
      ++ (if head then [] else payload response)) =
    some { status := response.status, fields := writtenFields response
           body := if head then [] else payload response } := by
  have hlines : ∀ line ∈ statusLine response.status :: (writtenFields response).map fieldLine,
      IsLine line := by
    refine List.forall_mem_cons.mpr ⟨isLine_statusLine _, fun line hline => ?_⟩
    obtain ⟨field, hfield, rfl⟩ := List.mem_map.mp hline
    exact (h.isField field hfield).isLine
  have hascii := ascii_joinLines hlines
  have hend := headEnd_joinLines hlines (if head then [] else payload response)
  have hsplit := splitLines_joinLines hlines
  have hfields := mapM_readField h.isField
  have hlength := h.bodyLength_eq head
  generalize (if head then [] else payload response) = body at hend hlength ⊢
  generalize joinLines (statusLine response.status :: (writtenFields response).map fieldLine) = text
    at hascii hend hsplit ⊢
  have hbytes : utf8 (text ++ ['\r', '\n']) ++ body = ascii text ++ (13 :: 10 :: body) := by
    rw [show utf8 (text ++ ['\r', '\n']) = utf8 text ++ utf8 ['\r', '\n'] from List.flatMap_append,
      utf8_eq_ascii hascii, List.append_assoc]
    rfl
  have hlen : (ascii text).length = text.length := List.length_map _
  have htake : (ascii text ++ (13 :: 10 :: body)).take (text.length + 2 - 2) = ascii text := by
    rw [Nat.add_sub_cancel, ← hlen, List.take_left]
  have hdrop : (ascii text ++ (13 :: 10 :: body)).drop (text.length + 2) = body := by
    rw [← hlen, List.drop_append]
    simp
  rw [hbytes, readMessage, hend]
  simp only [Option.bind_eq_bind, Option.bind_some, htake, hdrop, chars_ascii hascii, hsplit,
    List.dropLast_concat, List.headD_cons, List.tail_cons, readStatus_statusLine h.status, hfields,
    hlength, guard_true]
  rfl

/-- No field of the gateway or of a guest is about access control, and the gateway has only four. -/
theorem of_mem_writtenFields (h : field ∈ writtenFields response) :
    ¬ "access-control-".toList <+: toAsciiLowercase field.1
    ∧ (toAsciiLowercase field.1 ∈ ["connection", "content-length", "cache-control",
          "x-content-type-options"].map String.toList
      ∨ ∃ entry ∈ response.headers.toList, field = (entry.1.toList, entry.2.toList)) := by
  rcases List.mem_append.mp h with hfield | hfield
  · have hname : field.1 ∈ ["Connection", "Content-Length", "Cache-Control",
        "X-Content-Type-Options"].map String.toList := by
      simp only [hostFields, List.mem_append, List.mem_cons, List.not_mem_nil, or_false] at hfield
      rcases hfield with (rfl | hfield) | rfl | rfl
      · exact .head _
      · split at hfield
        · cases hfield
        · obtain rfl := List.mem_singleton.mp hfield
          exact .tail _ (.head _)
      · exact .tail _ (.tail _ (.head _))
      · exact .tail _ (.tail _ (.tail _ (.head _)))
    have hall : ∀ name ∈ ["Connection", "Content-Length", "Cache-Control",
        "X-Content-Type-Options"].map String.toList,
        ¬ "access-control-".toList <+: toAsciiLowercase name
        ∧ toAsciiLowercase name ∈ ["connection", "content-length", "cache-control",
          "x-content-type-options"].map String.toList := by decide
    exact ⟨(hall _ hname).1, .inl (hall _ hname).2⟩
  · obtain ⟨entry, hentry, rfl⟩ := List.mem_map.mp hfield
    obtain ⟨hentry, hkept⟩ := List.mem_filter.mp hentry
    simp only [isDropped, Bool.not_eq_true', decide_eq_false_iff_not, not_or] at hkept
    exact ⟨hkept.2.1, .inr ⟨entry, hentry, rfl⟩⟩

/-- A message gives the status, the length, the body and the headers of a response. -/
structure Carries (message : Message) (head : Bool) (response : ServiceResponse) : Prop where
  status : message.status = response.status
  length : valuesOf message.fields "content-length" = if response.status ∈ [204, 304] then []
    else [decimal (if response.status = 205 then 0 else response.body.length)]
  body : message.body = if head ∨ response.status ∈ [204, 205, 304] then [] else response.body
  headers : ∀ entry ∈ response.headers.toList, ¬ isDropped entry.1 entry.2 →
    (entry.1.toList, entry.2.toList) ∈ message.fields

theorem Guarded.carries (h : Guarded response) (head : Bool) :
    Carries { status := response.status, fields := writtenFields response
              body := if head then [] else payload response } head response where
  status := rfl
  length := by
    obtain ⟨-, -, -, -, hlength⟩ := valuesOf_hostFields response.status (payload response).length
    refine ((h.valuesOf_writtenFields (by decide)).trans hlength).trans ?_
    split
    · rfl
    · rename_i hstatus
      rw [length_payload, hasNoBody]
      simp_all
  body := by
    rw [payload, hasNoBody]
    cases head <;> simp
  headers := by
    intro entry hentry hkept
    refine List.mem_append_right _ (List.mem_map.mpr ⟨entry, List.mem_filter.mpr ⟨hentry, ?_⟩, rfl⟩)
    simpa using hkept

/-- **The framing of a response is the gateway's.** Whatever a guest answers, the bytes that are
written are one complete message with a final status and the gateway's fields, each once. A response
that is valid and final gives its own status, length and body, any other that of an error 502. The
body follows unless the request was a `HEAD` request, and every other field is a header of the guest. -/
theorem encodeResponse_framed (response : ServiceResponse) (head : Bool) :
    ∃ message, readMessage head (encodeResponse response head) = some message
      ∧ (response.validate = .ok () ∧ 200 ≤ response.status → Carries message head response)
      ∧ (¬ (response.validate = .ok () ∧ 200 ≤ response.status) →
        Carries message head (errorResponse 502))
      ∧ 200 ≤ message.status ∧ message.status ≤ 599
      ∧ valuesOf message.fields "connection" = ["close".toList]
      ∧ valuesOf message.fields "cache-control" = ["no-store".toList]
      ∧ valuesOf message.fields "x-content-type-options" = ["nosniff".toList]
      ∧ (message.status ∈ [204, 205, 304] → message.body = [])
      ∧ ∀ field ∈ message.fields, ¬ "access-control-".toList <+: toAsciiLowercase field.1
        ∧ (toAsciiLowercase field.1 ∈ ["connection", "content-length", "cache-control",
              "x-content-type-options"].map String.toList
          ∨ ∃ entry ∈ response.headers.toList, field = (entry.1.toList, entry.2.toList)) := by
  have hguarded := guarded_finalResponse response
  have hcarries := hguarded.carries head
  obtain ⟨hconnection, hcache, hsniff, -, -⟩ :=
    valuesOf_hostFields (finalResponse response).status (payload (finalResponse response)).length
  refine ⟨_, encodeResponse_eq response head ▸ hguarded.readMessage_eq head, fun hfinal => ?_,
    fun hfinal => ?_, hguarded.status.1, hguarded.status.2, ?_, ?_, ?_, fun hstatus => ?_,
    fun field hfield => ?_⟩
  · rwa [finalResponse_of hfinal] at hcarries ⊢
  · rwa [finalResponse_of_not hfinal] at hcarries ⊢
  · exact (hguarded.valuesOf_writtenFields (by decide)).trans hconnection
  · exact (hguarded.valuesOf_writtenFields (by decide)).trans hcache
  · exact (hguarded.valuesOf_writtenFields (by decide)).trans hsniff
  · exact hcarries.body.trans (if_pos (.inr hstatus))
  · obtain ⟨haccess, hname | ⟨entry, hentry, rfl⟩⟩ := of_mem_writtenFields hfield
    · exact ⟨haccess, .inl hname⟩
    · exact ⟨haccess, .inr ⟨entry, mem_of_mem_finalResponse hentry, rfl⟩⟩

end CartridgeRuntime.Ingress
