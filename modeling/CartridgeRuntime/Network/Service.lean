import CartridgeRuntime.Library.Codec
import CartridgeRuntime.Network.Policy

/-!
# Requests to a service and its responses

A service is invoked with a request that has the form of an HTTP request, and it answers with a
status, headers and a body. Both are checked wherever they cross a boundary.
-/

namespace CartridgeRuntime.Network

open Checked CartridgeRuntime.Core Encoding Std

/-- The limits of a request and of its answer. -/
def maxHttpHeaders : Nat := 128
def maxHttpHeaderBytes : Nat := 64 * 1024
def maxServiceRequestBytes : Nat := 256 * 1024
def maxServiceResponseBytes : Nat := 256 * 1024
def maxServicePathBytes : Nat := 8192
def minServiceTimeoutMs : UInt64 := 10
def maxServiceTimeoutMs : UInt64 := 30000

/-- A request to a service. -/
structure ServiceRequest where
  id : String
  method : HttpMethod
  path : String
  headers : ExtTreeMap String String := ∅
  body : List UInt8 := []
deriving DecidableEq

/-- The answer of a service. -/
structure ServiceResponse where
  status : Nat
  headers : ExtTreeMap String String := ∅
  body : List UInt8 := []
deriving DecidableEq

/-! ## Checks -/

/-- A character of an HTTP token. -/
def isHeaderNameChar (c : Char) : Bool :=
  c.isAlphanum || "!#$%&'*+-.^_`|~".toList.contains c

/-- The text with its ASCII letters in lower case. -/
def toAsciiLowercase (text : List Char) : List Char :=
  text.map Char.toLower

/-- The headers that belong to a connection or to the host. -/
def forbiddenHeaders : List String :=
  ["connection", "proxy-authorization", "proxy-authenticate", "transfer-encoding", "upgrade", "host",
    "content-length"]

/-- The test whether a name is in a list of names is exact. -/
instance lawfulBEq_chars : LawfulBEq (List Char) := inferInstance

/-- What the check of headers has seen: the names in lower case and the bytes. -/
structure HeaderScan where
  normalized : List (List Char) := []
  bytes : Nat := 0

/-- Check a header after those that were scanned. -/
def HeaderScan.header (scan : HeaderScan) (entry : String × String) : Except String HeaderScan := do
  let (name, value) := entry
  rejectIf (name = "" ∨ byteLength name.toList > 256 ∨ ¬ name.toList.all isHeaderNameChar
      ∨ value.toList.any fun c => c == '\r' || c == '\n' || c == '\x00')
    "HTTP header is invalid"
  let lower := toAsciiLowercase name.toList
  rejectIf (lower ∈ scan.normalized) "duplicate HTTP header names are not allowed"
  rejectIf (lower ∈ forbiddenHeaders.map String.toList)
    "hop-by-hop or host-controlled HTTP header is forbidden"
  let bytes ← okOr (checkedAdd scan.bytes (byteLength name.toList + byteLength value.toList))
    "HTTP header size overflow"
  pure { normalized := lower :: scan.normalized, bytes }

/-- Check the headers in the order of their names. -/
def validateHeaders (headers : ExtTreeMap String String) : Except String Unit := do
  rejectIf (headers.size > maxHttpHeaders) "HTTP header count exceeded"
  let scan ← headers.toList.foldlM HeaderScan.header {}
  rejectIf (scan.bytes > maxHttpHeaderBytes) "HTTP headers exceed their byte limit"

/-- An absolute path without encoded separators or dot segments. -/
def validServicePath (path : String) : Bool :=
  let text := path.toList
  let lower := toAsciiLowercase text
  !(text.isEmpty || byteLength text > maxServicePathBytes || text.head? != some '/'
      || ['/', '/'].isPrefixOf text || text.contains '\\' || text.contains '#'
      || text.any isControl)
    && !(decide ("%2e".toList <:+: lower) || decide ("%2f".toList <:+: lower)
      || decide ("%5c".toList <:+: lower))
    && ((text.takeWhile (· != '?')).splitOn '/').all fun part =>
      part != ['.'] && part != ['.', '.']

/-- Check the identity, the path, the size and the headers of a request. -/
def ServiceRequest.validate (request : ServiceRequest) : Except String Unit := do
  rejectIf (¬ isDigest request.id) "service request identity is invalid"
  rejectIf (¬ validServicePath request.path ∨ request.body.length > maxServiceRequestBytes)
    "service request exceeds its limits"
  validateHeaders request.headers

/-- Check the status, the size and the headers of an answer. -/
def ServiceResponse.validate (response : ServiceResponse) : Except String Unit := do
  rejectIf (¬ (100 ≤ response.status ∧ response.status ≤ 599)
      ∨ response.body.length > maxServiceResponseBytes)
    "service response exceeds its limits"
  validateHeaders response.headers

/-! ## Documents -/

open Codec Fields in
def ServiceResponse.codec : Codec ServiceResponse :=
  (member "status" natural <| member "headers" string.textMap <|
    required "body" byte.list).record
    (fun ⟨a, b, c⟩ => (a, b, c)) (fun (a, b, c) => ⟨a, b, c⟩) fun _ => rfl

end CartridgeRuntime.Network
