import CartridgeRuntime.Library.Bytes
import CartridgeRuntime.Network.Service
import Mathlib.Data.Vector.Basic

/-!
# Reading a request from a socket

The gateway reads the head of a request up to its blank line and then as many bytes as the head
declares. A read returns what has arrived, so the same request can come in many pieces:
`readRequest_fragmentation` says that the pieces make no difference, unless bytes follow the body, and
that the body has the length that the header lines declare (`Declares`).
-/

namespace CartridgeRuntime.Ingress

open Checked CartridgeRuntime.Core Encoding Network Std

def maxHead : Nat := 16 * 1024

/-! ## The head -/

/-- The parts of a text between line ends. -/
def splitLines : List Char → List (List Char)
  | '\r' :: '\n' :: rest => [] :: splitLines rest
  | c :: rest => (splitLines rest).modifyHead (c :: ·)
  | [] => [[]]

/-- A text without the blanks around it. -/
def trim (text : List Char) : List Char :=
  ((text.dropWhile isWhitespace).reverse.dropWhile isWhitespace).reverse

/-- The method of a request line. -/
def methodOf (text : List Char) : Except Nat HttpMethod :=
  if text = "GET".toList then .ok .get
  else if text = "HEAD".toList then .ok .head
  else if text = "POST".toList then .ok .post
  else if text = "PUT".toList then .ok .put
  else if text = "PATCH".toList then .ok .patch
  else if text = "DELETE".toList then .ok .delete
  else .error 405

/-- One turn of the loop over the header lines. -/
def parseHeader (headers : ExtTreeMap String String) (line : List Char) :
    Except Nat (ExtTreeMap String String) := do
  let (name, value) ← okOr (splitOnce ':' line) 400
  rejectIf (name = [] ∨ ¬ name.all isHeaderNameChar
    ∨ ¬ value.all fun c => 32 ≤ c.toNat ∧ c.toNat ≤ 126) 400
  let lower := String.ofList (toAsciiLowercase name)
  let inserted := headers.insert lower (String.ofList (trim value))
  rejectIf (lower ∈ headers ∨ inserted.size > 128) 400
  pure inserted

/-- The comparison of credentials, which looks at every byte. -/
def sameBytes (actual expected : List UInt8) : Bool :=
  actual.length = expected.length
    ∧ (actual.zip expected).foldl (fun acc (a, b) => acc ||| (a ^^^ b)) 0 = 0

/-- The length that a header declares. -/
def contentLength : Option String → Except Nat Nat
  | none => .ok 0
  | some value => do
    rejectIf (value = "" ∨ ¬ value.toList.all Char.isDigit) 400
    let length := value.toList.foldl (fun number c => 10 * number + (c.toNat - 48)) 0
    rejectIf (length > wordMax) 413
    pure length

/-- What a head says: a request without its identity and body, and the length of the body. -/
structure Head where
  method : HttpMethod
  path : String
  headers : ExtTreeMap String String
  length : Nat

/-- The checks of the headers, which take out what the host has used. -/
def authorizeHeaders (headers : ExtTreeMap String String) (authority token : String) :
    Except Nat (ExtTreeMap String String × Nat) := do
  rejectIf (headers["host"]? ≠ some authority) 421
  let headers := headers.erase "host"
  rejectIf ("origin" ∈ headers ∨ headers["sec-fetch-site"]?.any (· ≠ "none")) 403
  let actual ← okOr headers["authorization"]? 401
  let headers := headers.erase "authorization"
  rejectIf (¬ sameBytes (utf8 actual.toList) (utf8 ("Bearer " ++ token).toList)) 401
  rejectIf (["transfer-encoding", "expect", "upgrade", "trailer", "te", "proxy-authorization",
    "proxy-connection"].any (headers.contains ·)) 400
  rejectIf (headers["connection"]?.any fun value =>
    ¬ eqIgnoreAsciiCase value "close" ∧ ¬ eqIgnoreAsciiCase value "keep-alive") 400
  let headers := headers.erase "connection"
  let length ← contentLength headers["content-length"]?
  rejectIf (length > maxServiceRequestBytes) 413
  pure (headers.erase "content-length", length)

/-- Read the request line and the headers. -/
def parseLines (bytes : List UInt8) (authority token : String) : Except Nat Head := do
  let text ← okOr (String.fromUTF8? ⟨bytes.toArray⟩) 400
  let text := text.toList
  rejectIf (¬ "\r\n\r\n".toList <:+ text) 400
  let lines := splitLines (text.take (text.length - 4))
  let parts := lines.headD [] |>.splitOn ' '
  let method ← methodOf (parts.headD [])
  let path ← okOr parts[1]? 400
  rejectIf (parts.drop 2 ≠ ["HTTP/1.1".toList]) 400
  let headers ← lines.tail.foldlM parseHeader ∅
  let (headers, length) ← authorizeHeaders headers authority token
  pure { method, path := String.ofList path, headers, length }

section

variable [HexCodec]

/-- The request of a head, under a random identity. -/
def Head.request (head : Head) (random : List.Vector UInt8 32) : ServiceRequest :=
  { id := HexCodec.encode random.toList, method := head.method, path := head.path
    headers := head.headers }

/-- The request of a head, and the length of its body. -/
def parseHead (random : List.Vector UInt8 32) (bytes : List UInt8) (authority token : String) :
    Except Nat (ServiceRequest × Nat) := do
  let head ← parseLines bytes authority token
  mapError (fun _ => 400) (head.request random).validate
  pure (head.request random, head.length)

end

/-! ## Reading -/

/-- A stream: the bytes that are still to come, and how many of them the next reads return at most.
A read returns at least one byte until the end of the stream. -/
structure Source where
  rest : List UInt8
  sizes : List Nat

/-- Read some bytes of a stream. -/
def Source.read (source : Source) (limit : Nat) : List UInt8 × Source :=
  let count := min (max 1 (source.sizes.headD limit)) limit
  (source.rest.take count, { rest := source.rest.drop count, sizes := source.sizes.tail })

theorem Source.read_append (source : Source) (limit : Nat) :
    (source.read limit).1 ++ (source.read limit).2.rest = source.rest :=
  List.take_append_drop _ _

theorem Source.length_read_le (source : Source) (limit : Nat) :
    (source.read limit).1.length ≤ limit :=
  (List.length_take_le ..).trans (Nat.min_le_right ..)

theorem Source.length_rest_lt (source : Source) {limit : Nat} (h : (source.read limit).1 ≠ []) :
    (source.read limit).2.rest.length < source.rest.length := by
  have hlength := congrArg List.length (source.read_append limit)
  have hpos := List.length_pos_iff.mpr h
  rw [List.length_append] at hlength
  omega

/-- Nothing is read only at the end of the stream. -/
theorem Source.rest_eq_nil (source : Source) {limit : Nat} (hlimit : 0 < limit)
    (h : (source.read limit).1 = []) : source.rest = [] := by
  rcases List.take_eq_nil_iff.mp h with hcount | hrest
  · omega
  · exact hrest

/-- The index after the first blank line. -/
def headEnd : List UInt8 → Option Nat
  | [] => none
  | byte :: rest =>
    if [13, 10, 13, 10] <+: byte :: rest then some 4 else (headEnd rest).map (· + 1)

/-- Read until the head is complete. The result is the index after it, all bytes that were read and
the stream that is left. -/
def readHead (bytes : List UInt8) (source : Source) : Except Nat Nat × List UInt8 × Source :=
  match headEnd bytes with
  | some index => (.ok index, bytes, source)
  | none =>
    if bytes.length ≥ maxHead then (.error 431, bytes, source)
    else if _ : (source.read 1024).1 = [] then (.error 400, bytes, (source.read 1024).2)
    else readHead (bytes ++ (source.read 1024).1) (source.read 1024).2
termination_by source.rest.length
decreasing_by exact source.length_rest_lt ‹_›

/-- Read until the body has its length. -/
def readBody (length : Nat) (body : List UInt8) (source : Source) : Except Nat (List UInt8) :=
  if body.length < length then
    let limit := min 8192 (length - body.length)
    if _ : (source.read limit).1 = [] then .error 400
    else readBody length (body ++ (source.read limit).1) (source.read limit).2
  else .ok body
termination_by source.rest.length
decreasing_by exact source.length_rest_lt ‹_›

/-- Read a request from a stream. -/
def readRequest [HexCodec] (random : List.Vector UInt8 32) (authority token : String)
    (source : Source) : Except Nat ServiceRequest := do
  let (found, bytes, source) := readHead [] source
  let index ← found
  rejectIf (index > maxHead) 431
  let (request, length) ← parseHead random (bytes.take index) authority token
  rejectIf (bytes.length - index > length) 400
  let body ← readBody length (request.body ++ bytes.drop index) source
  pure { request with body }

/-! ## The declared length -/

/-- The values of a header in some lines, without the spaces around them. -/
def fieldValues (name : String) (lines : List (List Char)) : List (List Char) :=
  lines.filterMap fun line => (splitOnce ':' line).bind fun (field, value) =>
    if toAsciiLowercase field = name.toList then some (trim value) else none

/-- The number that decimal digits stand for. -/
def decimalValue : List Char → Nat
  | [] => 0
  | c :: rest => (c.toNat - 48) * 10 ^ rest.length + decimalValue rest

/-- The length of a body that header lines declare: the number on the only content-length line, and
zero without one. -/
def Declares (lines : List (List Char)) (length : Nat) : Prop :=
  fieldValues "content-length" lines = [] ∧ length = 0
    ∨ ∃ digits, fieldValues "content-length" lines = [digits] ∧ digits ≠ []
      ∧ (∀ c ∈ digits, c.isDigit) ∧ length = decimalValue digits

theorem fieldValues_cons {line field value : List Char} (h : splitOnce ':' line = some (field, value))
    (name : String) (lines : List (List Char)) : fieldValues name (line :: lines)
      = (if toAsciiLowercase field = name.toList then [trim value] else []) ++ fieldValues name lines := by
  rw [fieldValues, List.filterMap_cons, h, Option.bind_some]
  by_cases hname : toAsciiLowercase field = name.toList <;> simp [hname, fieldValues]

/-- The loop over the header lines keeps one value of each header. -/
theorem foldlM_parseHeader {lines : List (List Char)} {headers result : ExtTreeMap String String}
    (h : lines.foldlM parseHeader headers = .ok result) (name : String) :
    result[name]?.toList = headers[name]?.toList ++ (fieldValues name lines).map String.ofList := by
  induction lines generalizing headers with
  | nil =>
    cases h
    exact (List.append_nil _).symm
  | cons line lines ih =>
    simp only [List.foldlM_cons, parseHeader, bind_eq_ok, okOr_eq_ok, rejectIf_eq_ok, exists_unit,
      pure_eq_ok, Except.ok.injEq, Prod.exists, not_or] at h
    obtain ⟨_, ⟨field, value, hsplit, -, hnew, rfl⟩, hrest⟩ := h
    rw [ih hrest, fieldValues_cons hsplit, TreeMap.getElem?_insert']
    by_cases hname : toAsciiLowercase field = name.toList
    · have hlower : String.ofList (toAsciiLowercase field) = name := by
        rw [hname, String.ofList_toList]
      rw [if_pos hlower, if_pos hname, ← hlower, ExtTreeMap.getElem?_eq_none hnew.1]
      rfl
    · have hlower : String.ofList (toAsciiLowercase field) ≠ name := by
        rintro rfl
        exact hname String.toList_ofList.symm
      rw [if_neg hlower, if_neg hname, List.nil_append]

theorem foldl_decimalValue (digits : List Char) (number : Nat) :
    digits.foldl (fun number c => 10 * number + (c.toNat - 48)) number
      = number * 10 ^ digits.length + decimalValue digits := by
  induction digits generalizing number with
  | nil => simp [decimalValue]
  | cons c rest ih =>
    rw [List.foldl_cons, ih, decimalValue, List.length_cons, Nat.pow_succ]
    ring

theorem declares_of_contentLength {lines : List (List Char)} {field : Option String} {length : Nat}
    (hfield : field.toList = (fieldValues "content-length" lines).map String.ofList)
    (h : contentLength field = .ok length) : Declares lines length := by
  cases field with
  | none => exact .inl ⟨List.map_eq_nil_iff.mp hfield.symm, (Except.ok.inj h).symm⟩
  | some value =>
    simp only [contentLength, bind_eq_ok, rejectIf_eq_ok, exists_unit, not_or, not_not,
      pure_eq_ok, Except.ok.injEq, List.all_eq_true] at h
    obtain ⟨⟨hne, hdigits⟩, -, rfl⟩ := h
    obtain ⟨digits, hvalues, hdigit⟩ := List.map_eq_singleton_iff.mp hfield.symm
    subst hdigit
    rw [String.toList_ofList] at hdigits
    refine .inr ⟨digits, hvalues, ?_, hdigits, ?_⟩
    · rintro rfl
      exact hne rfl
    · rw [String.toList_ofList, foldl_decimalValue, Nat.zero_mul, Nat.zero_add]

/-- The length of an accepted head is the one that its lines declare. -/
theorem declares_of_parseLines {bytes : List UInt8} {authority token : String} {head : Head}
    (h : parseLines bytes authority token = .ok head) :
    ∃ text, bytes = utf8Bytes (String.ofList (text ++ "\r\n\r\n".toList))
      ∧ Declares (splitLines text).tail head.length := by
  simp only [parseLines, bind_eq_ok, okOr_eq_ok, rejectIf_eq_ok, exists_unit, not_not, pure_eq_ok,
    Except.ok.injEq, Prod.exists] at h
  obtain ⟨text, htext, hend, _, -, _, -, -, headers, hheaders, _, length, hauthorize, rfl⟩ := h
  obtain ⟨start, hstart⟩ := hend
  have htake : text.toList.take (text.toList.length - 4) = start := by
    rw [← hstart, List.length_append]
    exact List.take_left
  rw [htake] at hheaders
  refine ⟨start, ?_, ?_⟩
  · rw [hstart, String.ofList_toList]
    exact (utf8Bytes_of_utf8Text? htext).symm
  · simp only [authorizeHeaders, bind_eq_ok, okOr_eq_ok, rejectIf_eq_ok, exists_unit, pure_eq_ok,
      Except.ok.injEq, Prod.mk.injEq] at hauthorize
    obtain ⟨-, -, -, -, -, -, -, _, hlength, -, -, rfl⟩ := hauthorize
    refine declares_of_contentLength ?_ hlength
    simp only [TreeMap.getElem?_erase', String.reduceEq, if_false]
    simpa using foldlM_parseHeader hheaders "content-length"

/-! ## Whole streams -/

/-- The answer to a stream that is read in one piece up to the end of the body. -/
def requestOf [HexCodec] (random : List.Vector UInt8 32) (authority token : String)
    (stream : List UInt8) : Except Nat ServiceRequest :=
  match headEnd stream with
  | none => .error (if maxHead ≤ stream.length then 431 else 400)
  | some index => do
    rejectIf (index > maxHead) 431
    let (request, length) ← parseHead random (stream.take index) authority token
    rejectIf ((stream.drop index).length < length) 400
    pure { request with body := (stream.drop index).take length }

/-- The answer without the random identity. -/
def anonymous (result : Except Nat ServiceRequest) : Except Nat ServiceRequest :=
  result.map ({ · with id := "" })

/-- A blank line has four bytes, which are within the bytes where it is found. -/
theorem headEnd_bounds {bytes : List UInt8} {index : Nat} (h : headEnd bytes = some index) :
    4 ≤ index ∧ index ≤ bytes.length := by
  induction bytes generalizing index with
  | nil => cases h
  | cons byte bytes ih =>
    rw [headEnd] at h
    split at h
    · rename_i hblank
      cases h
      exact ⟨le_rfl, hblank.length_le⟩
    · obtain ⟨index, hindex, rfl⟩ := Option.map_eq_some_iff.mp h
      have := ih hindex
      rw [List.length_cons]
      omega

/-- A blank line is found in the first bytes of a stream exactly when it is the first one of the
stream and lies within them. -/
theorem headEnd_eq_some_iff (bytes rest : List UInt8) (index : Nat) :
    headEnd bytes = some index ↔ headEnd (bytes ++ rest) = some index ∧ index ≤ bytes.length := by
  induction bytes generalizing index with
  | nil =>
    refine ⟨fun h => (by cases h), fun ⟨h, hle⟩ => ?_⟩
    have := headEnd_bounds h
    rw [List.length_nil] at hle
    omega
  | cons byte bytes ih =>
    rw [List.cons_append, headEnd, headEnd]
    by_cases hblank : [13, 10, 13, 10] <+: byte :: bytes
    · have hstream : [13, 10, 13, 10] <+: byte :: (bytes ++ rest) :=
        hblank.trans (List.prefix_append (byte :: bytes) rest)
      rw [if_pos hblank, if_pos hstream]
      refine ⟨fun h => ⟨h, ?_⟩, And.left⟩
      cases h
      exact hblank.length_le
    · rw [if_neg hblank]
      by_cases hstream : [13, 10, 13, 10] <+: byte :: (bytes ++ rest)
      · -- the blank line ends after these bytes, so they are too few for another one
        have hshort : (byte :: bytes).length < 4 := by
          by_contra hlong
          exact hblank (List.prefix_of_prefix_length_le hstream
            (List.prefix_append (byte :: bytes) rest) (Nat.not_lt.mp hlong))
        rw [List.length_cons] at hshort ⊢
        rw [if_pos hstream]
        constructor
        · intro h
          obtain ⟨before, hbefore, rfl⟩ := Option.map_eq_some_iff.mp h
          have := headEnd_bounds hbefore
          omega
        · rintro ⟨h, hle⟩
          cases h
          omega
      · rw [if_neg hstream, List.length_cons]
        constructor
        · intro h
          obtain ⟨before, hbefore, rfl⟩ := Option.map_eq_some_iff.mp h
          obtain ⟨hrest, hle⟩ := (ih before).mp hbefore
          exact ⟨by rw [hrest]; rfl, Nat.succ_le_succ hle⟩
        · rintro ⟨h, hle⟩
          obtain ⟨before, hbefore, rfl⟩ := Option.map_eq_some_iff.mp h
          rw [(ih before).mpr ⟨hbefore, Nat.le_of_succ_le_succ hle⟩]
          rfl

/-- What reading the head finds depends on the whole stream only. -/
theorem readHead_spec (bytes : List UInt8) (source : Source) :
    let result := readHead bytes source
    let stream := bytes ++ source.rest
    result.2.1 ++ result.2.2.rest = stream
      ∧ (bytes.length < maxHead + 1024 → result.2.1.length < maxHead + 1024)
      ∧ match result.1 with
        | .ok index => headEnd stream = some index ∧ index ≤ result.2.1.length
        | .error status =>
          (status = 431 ∧ maxHead ≤ stream.length ∧ ∀ index, headEnd stream = some index →
            maxHead < index)
          ∨ status = 400 ∧ stream.length < maxHead ∧ headEnd stream = none := by
  fun_induction readHead bytes source with
  | case1 bytes source index hindex =>
    exact ⟨rfl, id, (headEnd_eq_some_iff bytes source.rest index).mp hindex⟩
  | case2 bytes source hnone hlong =>
    refine ⟨rfl, id, .inl ⟨rfl, ?_, fun index hindex => ?_⟩⟩
    · rw [List.length_append]
      omega
    · by_contra hle
      rw [(headEnd_eq_some_iff bytes source.rest index).mpr ⟨hindex, by omega⟩] at hnone
      cases hnone
  | case3 bytes source hnone hshort hend =>
    have hrest := source.rest_eq_nil (by decide) hend
    have hleft : (source.read 1024).2.rest = [] := by
      have := source.read_append 1024
      rwa [hend, hrest] at this
    refine ⟨by rw [hleft, hrest], id, .inr ⟨rfl, ?_, ?_⟩⟩
    · rw [hrest, List.append_nil]
      omega
    · rw [hrest, List.append_nil, hnone]
  | case4 bytes source hnone hshort hchunk ih =>
    rw [List.append_assoc, source.read_append] at ih
    refine ⟨ih.1, fun _ => ih.2.1 ?_, ih.2.2⟩
    have := source.length_read_le 1024
    rw [List.length_append]
    omega

/-- A body that is short of its length gets what it lacks from the stream. -/
theorem readBody_eq (length : Nat) (body : List UInt8) (source : Source) (h : body.length ≤ length) :
    readBody length body source
      = if (body ++ source.rest).length < length then .error 400
        else .ok ((body ++ source.rest).take length) := by
  fun_induction readBody length body source with
  | case1 body source hshort limit hend =>
    have hrest := source.rest_eq_nil (by omega) hend
    rw [hrest, List.append_nil, if_pos hshort]
  | case2 body source hshort limit hchunk ih =>
    have hle := source.length_read_le limit
    rw [ih (by rw [List.length_append]; omega), List.append_assoc, source.read_append]
  | case3 body source hfull =>
    have hlength : body.length = length := by omega
    rw [if_neg (by rw [List.length_append]; omega), ← hlength, List.take_left]

section

variable [HexCodec]

theorem isDigest_random (head : Head) (random : List.Vector UInt8 32) :
    isDigest (head.request random).id :=
  let _ : Sha256 := ⟨fun _ => random.toList, fun _ => random.toList_length⟩
  isDigest_sha256Hex []

/-- The identity is always valid, so it makes no other difference. -/
theorem anonymous_requestOf (random random' : List.Vector UInt8 32) (authority token : String)
    (stream : List UInt8) :
    anonymous (requestOf random authority token stream)
      = anonymous (requestOf random' authority token stream) := by
  have hvalidate (head : Head) :
      (head.request random).validate = (head.request random').validate := by
    rw [ServiceRequest.validate, ServiceRequest.validate,
      rejectIf_of_not _ (not_not.mpr (isDigest_random head random)),
      rejectIf_of_not _ (not_not.mpr (isDigest_random head random'))]
    rfl
  unfold requestOf
  cases headEnd stream with
  | none => rfl
  | some index =>
    by_cases hlong : index > maxHead
    · simp only [rejectIf_of _ hlong, error_bind]
    · simp only [rejectIf_of_not _ hlong, ok_bind, parseHead, hvalidate]
      cases parseLines (stream.take index) authority token with
      | error status => rfl
      | ok head =>
        simp only [ok_bind]
        cases (head.request random').validate with
        | error error => rfl
        | ok valid =>
          simp only [mapError, ok_bind, pure_eq_ok]
          by_cases hshort : (stream.drop index).length < head.length
          · simp only [rejectIf_of _ hshort, error_bind]
          · simp only [rejectIf_of_not _ hshort, ok_bind]
            rfl

theorem requestOf_eq_ok {random : List.Vector UInt8 32} {authority token : String}
    {stream : List UInt8} {request : ServiceRequest} :
    requestOf random authority token stream = .ok request
      ↔ ∃ index, headEnd stream = some index ∧ index ≤ maxHead
        ∧ ∃ parsed length, parseHead random (stream.take index) authority token = .ok (parsed, length)
          ∧ length ≤ (stream.drop index).length
          ∧ { parsed with body := (stream.drop index).take length } = request := by
  unfold requestOf
  cases headEnd stream with
  | none => simp
  | some index => simp [bind_eq_ok, exists_unit, pure_eq_ok]

/-- A stream gives the same answer however it is read, unless bytes follow the body. -/
theorem readRequest_eq (random : List.Vector UInt8 32) (authority token : String) (source : Source) :
    readRequest random authority token source = requestOf random authority token source.rest
      ∨ readRequest random authority token source = .error 400
        ∧ ∃ index request length, headEnd source.rest = some index ∧ index ≤ maxHead
          ∧ parseHead random (source.rest.take index) authority token = .ok (request, length)
          ∧ length < (source.rest.drop index).length := by
  obtain ⟨hstream, -, hfound⟩ := readHead_spec [] source
  rw [List.nil_append] at hstream hfound
  unfold readRequest
  generalize readHead [] source = result at hstream hfound
  obtain ⟨found, bytes, left⟩ := result
  dsimp only at hstream hfound ⊢
  cases found with
  | error status =>
    refine .inl ?_
    rw [error_bind, requestOf]
    rcases hfound with ⟨rfl, hlong, hlate⟩ | ⟨rfl, hshort, hnone⟩
    · cases hindex : headEnd source.rest with
      | none => exact congrArg Except.error (if_pos hlong).symm
      | some index =>
        have hlong : index > maxHead := hlate index hindex
        dsimp only
        rw [rejectIf_of _ hlong]
        rfl
    · rw [hnone]
      exact congrArg Except.error (if_neg (Nat.not_le.mpr hshort)).symm
  | ok index =>
    obtain ⟨hindex, hle⟩ := hfound
    have htake : bytes.take index = source.rest.take index := by
      rw [← hstream, List.take_append_of_le_length hle]
    have hdrop : source.rest.drop index = bytes.drop index ++ left.rest := by
      rw [← hstream, List.drop_append_of_le_length hle]
    rw [ok_bind, requestOf, hindex, htake]
    dsimp only
    by_cases hlong : index > maxHead
    · exact .inl (by rw [rejectIf_of _ hlong]; rfl)
    · rw [rejectIf_of_not _ hlong, ok_bind, ok_bind]
      cases hparse : parseHead random (source.rest.take index) authority token with
      | error status => exact .inl rfl
      | ok parsed =>
        obtain ⟨request, length⟩ := parsed
        rw [ok_bind, ok_bind]
        dsimp only
        by_cases hmore : bytes.length - index > length
        · refine .inr ⟨by rw [rejectIf_of _ hmore]; rfl, index, request, length, rfl,
            Nat.not_lt.mp hlong, hparse, ?_⟩
          rw [hdrop, List.length_append, List.length_drop]
          omega
        · refine .inl ?_
          have hbody : request.body = [] := by
            simp only [parseHead, bind_eq_ok, exists_unit, pure_eq_ok, Except.ok.injEq,
              Prod.mk.injEq] at hparse
            obtain ⟨head, -, -, rfl, -⟩ := hparse
            rfl
          rw [rejectIf_of_not _ hmore, ok_bind, hbody, List.nil_append,
            readBody_eq _ _ _ (by rw [List.length_drop]; omega), ← hdrop]
          by_cases hshort : (source.rest.drop index).length < length
          · rw [if_pos hshort, rejectIf_of _ hshort]
            rfl
          · rw [if_neg hshort, rejectIf_of_not _ hshort]
            rfl

/-- For every stream and every way to read it: the answer is that to the whole stream, up to the
random identity, or bytes follow the body and the status is 400. The body of a request is what follows
the blank line, of the length that the header lines declare, and no more than the limit and one chunk
is read before the head is complete. -/
theorem readRequest_fragmentation (random random' : List.Vector UInt8 32) (authority token : String)
    (source : Source) :
    (anonymous (readRequest random authority token source)
        = anonymous (requestOf random' authority token source.rest)
      ∨ readRequest random authority token source = .error 400
        ∧ ∃ request index, requestOf random' authority token source.rest = .ok request
          ∧ headEnd source.rest = some index
          ∧ request.body.length < (source.rest.drop index).length)
    ∧ (∀ request, readRequest random authority token source = .ok request →
        ∃ index head text, headEnd source.rest = some index
          ∧ parseLines (source.rest.take index) authority token = .ok head
          ∧ request.body.length = head.length
          ∧ source.rest.take index = utf8Bytes (String.ofList (text ++ "\r\n\r\n".toList))
          ∧ Declares (splitLines text).tail request.body.length
          ∧ request.body <+: source.rest.drop index)
    ∧ (readHead [] source).2.1.length < maxHead + 1024 := by
  refine ⟨?_, fun request hrequest => ?_, (readHead_spec [] source).2.1 (by decide)⟩
  · rcases readRequest_eq random authority token source with
      heq | ⟨herror, index, parsed, length, hindex, hle, hparse, hmore⟩
    · exact .inl (heq ▸ anonymous_requestOf random random' authority token source.rest)
    · have hwhole := requestOf_eq_ok.mpr ⟨index, hindex, hle, parsed, length, hparse, hmore.le, rfl⟩
      have hsame := anonymous_requestOf random random' authority token source.rest
      rw [hwhole] at hsame
      obtain ⟨request, hrequest, hanonymous⟩ := map_eq_ok.mp hsame.symm
      refine .inr ⟨herror, request, index, hrequest, hindex, ?_⟩
      have hbody : request.body = (source.rest.drop index).take length :=
        congrArg ServiceRequest.body hanonymous
      rw [hbody, List.length_take]
      exact (Nat.min_le_left ..).trans_lt hmore
  · rcases readRequest_eq random authority token source with heq | ⟨herror, -⟩
    · rw [heq] at hrequest
      obtain ⟨index, hindex, -, parsed, length, hparse, hle, rfl⟩ := requestOf_eq_ok.mp hrequest
      simp only [parseHead, bind_eq_ok, exists_unit, pure_eq_ok, Except.ok.injEq,
        Prod.mk.injEq] at hparse
      obtain ⟨head, hhead, -, -, rfl⟩ := hparse
      obtain ⟨text, htext, hdeclares⟩ := declares_of_parseLines hhead
      have hlength : ((source.rest.drop index).take head.length).length = head.length := by
        rw [List.length_take, Nat.min_eq_left hle]
      exact ⟨index, head, text, hindex, hhead, hlength, htext, hlength.symm ▸ hdeclares,
        List.take_prefix _ _⟩
    · rw [herror] at hrequest
      cases hrequest

end

end CartridgeRuntime.Ingress
