import CartridgeRuntime.Core.Text

/-!
# The HTTP policy of a cartridge

The scopes in which a cartridge may send requests, with the limits of requests and responses, and
their checks.
-/

namespace CartridgeRuntime.Network

open Checked CartridgeRuntime.Core Encoding

/-- The limits of a policy. -/
def maxHttpRequestBytes : Nat := 1024 * 1024
def maxHttpResponseBytes : Nat := 4 * 1024 * 1024
def maxHttpScopes : Nat := 128

/-- The methods that a scope can allow. -/
inductive HttpMethod where
  | get | head | post | put | patch | delete
deriving DecidableEq, Repr

/-- A host and a path that may be requested, with some methods. -/
structure HttpScope where
  scheme : String
  host : String
  port : Option Nat
  pathPrefix : String
  methods : Finset HttpMethod
deriving DecidableEq

/-- The scopes and limits of the requests of a cartridge. -/
structure HttpPolicy where
  scopes : List HttpScope := []
  maxRequestBytes : Nat := maxHttpRequestBytes
  maxResponseBytes : Nat := maxHttpResponseBytes
  maxRedirects : Nat := 0
deriving DecidableEq

/-- Equal up to the case of ASCII letters. -/
def eqIgnoreAsciiCase (left right : String) : Bool :=
  left.toList.map Char.toLower = right.toList.map Char.toLower

/-- A host on this machine. -/
def isLoopbackHost (host : String) : Bool :=
  eqIgnoreAsciiCase host "localhost" || host == "127.0.0.1" || host == "[::1]" || host == "::1"

/-- Check the scheme, host, path and methods of a scope. -/
def HttpScope.validate (scope : HttpScope) : Except String Unit := do
  rejectIf (scope.scheme ≠ "https" ∧ scope.scheme ≠ "http") "HTTP scope scheme must be http or https"
  rejectIf (scope.scheme = "http" ∧ ¬ isLoopbackHost scope.host)
    "unencrypted HTTP is limited to loopback hosts"
  rejectIf (scope.host = "" ∨ byteLength scope.host.toList > 253 ∨ '/' ∈ scope.host.toList
      ∨ '@' ∈ scope.host.toList ∨ scope.host.toList.any isControl)
    "HTTP scope host is invalid"
  rejectIf (scope.pathPrefix.toList.head? ≠ some '/' ∨ ['.', '.'] <:+: scope.pathPrefix.toList
      ∨ byteLength scope.pathPrefix.toList > 2048)
    "HTTP path prefix must be an absolute normalized path"
  rejectIf (scope.methods = ∅) "HTTP scope must allow at least one method"

/-- Check the limits of a policy and each of its scopes. -/
def HttpPolicy.validate (policy : HttpPolicy) : Except String Unit := do
  rejectIf (policy.scopes.length > maxHttpScopes ∨ policy.maxRequestBytes = 0
      ∨ policy.maxRequestBytes > maxHttpRequestBytes ∨ policy.maxResponseBytes = 0
      ∨ policy.maxResponseBytes > maxHttpResponseBytes ∨ policy.maxRedirects > 10)
    "HTTP policy limits are invalid"
  policy.scopes.forM HttpScope.validate

end CartridgeRuntime.Network
