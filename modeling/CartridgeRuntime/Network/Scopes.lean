import CartridgeRuntime.Network.Service

/-!
# Requests within the scopes of a policy

A request is allowed when the path of its URL starts with the prefix of a scope. The servers that get
the request decode escapes, and an encoded slash then makes new segments: `authorized_confined_iff`
says when the decoded path is still below the prefix, namely when what the rest of the path climbs up
it also goes down again.
-/

namespace CartridgeRuntime.Network

open Checked Encoding Std

/-! ## Authorization -/

/-- A request of a cartridge. -/
structure HttpRequest where
  method : HttpMethod
  url : String
  headers : ExtTreeMap String String := ∅
  body : List UInt8 := []

/-- Check the sizes and the headers. -/
def HttpRequest.validate (request : HttpRequest) (maxBody : Nat) : Except String Unit := do
  rejectIf (byteLength request.url.toList > 8192 ∨ request.body.length > maxBody)
    "HTTP request exceeds its size limit"
  validateHeaders request.headers

/-- The parts of a parsed URL. -/
structure Url where
  scheme : String
  username : String := ""
  password : Option String := none
  host : Option String
  port : Option Nat := none
  path : List Char
  fragment : Option String := none

/-- The segments of an absolute path. -/
def segmentsOf (path : List Char) : List (List Char) :=
  (path.splitOn '/').tail

/-- Decode every escape, once. -/
def percentDecode : List Char → List Char
  | '%' :: first :: second :: rest =>
    match nibble? first, nibble? second with
    | some high, some low => Char.ofNat (16 * high + low) :: percentDecode rest
    | _, _ => '%' :: percentDecode (first :: second :: rest)
  | c :: rest => c :: percentDecode rest
  | [] => []

/-- A parser of URLs. The path of a web address is absolute. -/
class UrlParser where
  parse : String → Option Url
  path_absolute : ∀ {text url}, parse text = some url → url.scheme = "http" ∨ url.scheme = "https" →
    url.path.head? = some '/'

/-- The path is the prefix or below it. -/
def pathPrefixMatches (pathPrefix path : List Char) : Bool :=
  pathPrefix = ['/'] ∨ path = pathPrefix
    ∨ pathPrefix <+: path ∧ (pathPrefix.getLast? = some '/'
      ∨ (path.drop pathPrefix.length).head? = some '/')

def defaultPort (scheme : String) : Option Nat :=
  if scheme = "https" then some 443 else if scheme = "http" then some 80 else none

/-- The schemes of the scopes are among those whose default the URL library knows. -/
def effectivePort (url : Url) : Option Nat :=
  url.port.or (defaultPort url.scheme)

/-- The scope permits a request. -/
def HttpScope.permits (scope : HttpScope) (method : HttpMethod) (url : Url) : Bool :=
  method ∈ scope.methods ∧ url.scheme = scope.scheme ∧ url.host.any (eqIgnoreAsciiCase · scope.host)
    ∧ effectivePort url = scope.port.or (defaultPort scope.scheme)
    ∧ pathPrefixMatches scope.pathPrefix.toList url.path

/-- The URL of a request that a scope permits. -/
def HttpPolicy.authorize [UrlParser] (policy : HttpPolicy) (request : HttpRequest) :
    Except String Url := do
  policy.validate
  request.validate policy.maxRequestBytes
  let url ← okOr (UrlParser.parse request.url) "request URL is invalid"
  rejectIf (url.username ≠ "" ∨ url.password.isSome ∨ url.fragment.isSome)
    "request URLs cannot contain credentials or fragments"
  rejectIf (¬ policy.scopes.any (·.permits request.method url))
    "request URL is outside the declared HTTP scopes"
  pure url

/-! ## Where a path leads -/

/-- Follow segments from a place. Above the root is the root. -/
def follow (place : List (List Char)) : List (List Char) → List (List Char)
  | [] => place
  | segment :: segments =>
    follow (if segment = ['.'] then place else if segment = ['.', '.'] then place.dropLast
      else place ++ [segment]) segments

/-- The place that a path leads to, once it is decoded. -/
def placeOf (path : List Char) : List (List Char) :=
  follow [] (segmentsOf (percentDecode path))

/-- A prefix without the slash at its end. -/
def baseOf (pathPrefix : List Char) : List Char :=
  if pathPrefix.getLast? = some '/' then pathPrefix.dropLast else pathPrefix

/-- A path leads to the place of a prefix or below it. -/
def Confined (pathPrefix path : List Char) : Prop :=
  placeOf (baseOf pathPrefix) <+: placeOf path

/-- How far segments lead up, and where they lead down from there. -/
def excursion (state : Nat × List (List Char)) : List (List Char) → Nat × List (List Char)
  | [] => state
  | segment :: segments =>
    excursion (if segment = ['.'] then state
      else if segment = ['.', '.'] then
        if state.2 = [] then (state.1 + 1, []) else (state.1, state.2.dropLast)
      else (state.1, state.2 ++ [segment])) segments

/-- The part of a path after a prefix goes down again where it has led up. -/
def Returns (pathPrefix path : List Char) : Prop :=
  let base := baseOf pathPrefix
  let (up, down) := excursion (0, [])
    ((percentDecode (path.drop (base.length + 1))).splitOn '/')
  path = base ∨ (placeOf base).drop ((placeOf base).length - up) <+: down

instance (pathPrefix path : List Char) : Decidable (Confined pathPrefix path) :=
  inferInstanceAs (Decidable (_ <+: _))

instance (pathPrefix path : List Char) : Decidable (Returns pathPrefix path) :=
  inferInstanceAs (Decidable (_ ∨ _))

theorem follow_append (place first second : List (List Char)) :
    follow place (first ++ second) = follow (follow place first) second := by
  induction first generalizing place with
  | nil => rfl
  | cons segment first ih => exact ih _

/-- Segments lead from a place up, and then down. -/
theorem follow_eq (place : List (List Char)) (segments : List (List Char))
    (state : Nat × List (List Char)) :
    follow (place.take (place.length - state.1) ++ state.2) segments
      = place.take (place.length - (excursion state segments).1) ++ (excursion state segments).2 := by
  induction segments generalizing state with
  | nil => rfl
  | cons segment segments ih =>
    obtain ⟨up, down⟩ := state
    rw [follow, excursion]
    refine Eq.trans (congrArg (follow · segments) ?_) (ih _)
    split
    · rfl
    · split
      · split
        · rename_i hdown
          dsimp only at hdown ⊢
          subst hdown
          rw [List.append_nil, List.append_nil, List.dropLast_eq_take, List.take_take,
            List.length_take]
          congr 1
          omega
        · rename_i hdown
          exact List.dropLast_append_of_ne_nil hdown
      · exact List.append_assoc ..

/-- A character that starts no escape. -/
theorem percentDecode_cons {c : Char} {rest : List Char}
    (h : c = '%' → ∀ first second after, rest = first :: second :: after →
      nibble? first = none ∨ nibble? second = none) :
    percentDecode (c :: rest) = c :: percentDecode rest := by
  rw [percentDecode.eq_def]
  split
  · rename_i first second after heq
    obtain ⟨rfl, rfl⟩ := List.cons.inj heq
    split
    · rename_i hfirst hsecond
      rcases h rfl first second after rfl with hnone | hnone
      · rw [hnone] at hfirst
        cases hfirst
      · rw [hnone] at hsecond
        cases hsecond
    · rfl
  · rename_i heq
    obtain ⟨rfl, rfl⟩ := List.cons.inj heq
    rfl
  · rename_i heq
    cases heq

/-- A slash is no digit, so that no escape goes over it. -/
theorem percentDecode_append_slash (first second : List Char) :
    percentDecode (first ++ '/' :: second) = percentDecode first ++ '/' :: percentDecode second := by
  have hslash : nibble? '/' = none := by decide
  fun_induction percentDecode first with
  | case1 c d rest high low hlow hhigh ih => simp [percentDecode, hhigh, hlow, ih]
  | case2 c d rest hnone ih =>
    refine (percentDecode_cons fun _ first second after heq => ?_).trans (congrArg _ ih)
    cases heq
    cases hc : nibble? c with
    | none => exact .inl rfl
    | some high =>
      cases hd : nibble? d with
      | none => exact .inr rfl
      | some low => exact (hnone high low hc hd).elim
  | case3 c rest hother ih =>
    refine (percentDecode_cons fun hc first second after heq => ?_).trans (congrArg _ ih)
    subst hc
    match rest, heq with
    | [], heq =>
      cases heq
      exact .inl hslash
    | [_], heq =>
      cases heq
      exact .inr hslash
    | _ :: _ :: _, _ => exact (hother _ _ _ rfl rfl).elim
  | case4 =>
    refine percentDecode_cons fun hc => ?_
    cases hc

theorem segmentsOf_append_slash (first second : List Char) :
    segmentsOf (first ++ '/' :: second) = segmentsOf first ++ second.splitOn '/' := by
  rw [segmentsOf, List.splitOn_append_cons_self, List.tail_append_of_ne_nil (List.splitOn_ne_nil _ _),
    segmentsOf]

/-- The place of a path that goes on after a base. -/
theorem placeOf_append_slash (base rest : List Char) :
    placeOf (base ++ '/' :: rest)
      = follow (placeOf base) ((percentDecode rest).splitOn '/') := by
  rw [placeOf, percentDecode_append_slash, segmentsOf_append_slash, follow_append, placeOf]

/-- A path that matches a prefix is its base, or goes on after it. -/
theorem eq_of_pathPrefixMatches {pathPrefix path : List Char} (hpath : path.head? = some '/')
    (h : pathPrefixMatches pathPrefix path) :
    path = baseOf pathPrefix ∨ ∃ rest, path = baseOf pathPrefix ++ '/' :: rest := by
  simp only [pathPrefixMatches, decide_eq_true_eq] at h
  unfold baseOf
  split
  · rename_i hlast
    obtain ⟨base, rfl⟩ := List.getLast?_eq_some_iff.mp hlast
    rw [List.dropLast_concat]
    refine .inr ?_
    rcases h with hroot | rfl | ⟨⟨rest, rfl⟩, -⟩
    · obtain ⟨rest, rfl⟩ := List.head?_eq_some_iff.mp hpath
      have hbase : base = [] := by simpa using hroot
      exact ⟨rest, by rw [hbase, List.nil_append]⟩
    · exact ⟨[], rfl⟩
    · exact ⟨rest, by rw [List.append_assoc, List.singleton_append]⟩
  · rename_i hlast
    rcases h with rfl | rfl | ⟨⟨rest, rfl⟩, hends | hslash⟩
    · exact (hlast rfl).elim
    · exact .inl rfl
    · exact (hlast hends).elim
    · rw [List.drop_left] at hslash
      obtain ⟨after, rfl⟩ := List.head?_eq_some_iff.mp hslash
      exact .inr ⟨after, rfl⟩

theorem prefix_take_append_iff {place down : List (List Char)} (n : Nat) :
    place <+: place.take n ++ down ↔ place.drop n <+: down := by
  nth_rewrite 1 [← List.take_append_drop n place]
  exact List.prefix_append_right_inj _

theorem confined_iff_returns {pathPrefix path : List Char} (hpath : path.head? = some '/')
    (h : pathPrefixMatches pathPrefix path) : Confined pathPrefix path ↔ Returns pathPrefix path := by
  rcases eq_of_pathPrefixMatches hpath h with heq | ⟨rest, rfl⟩
  · exact iff_of_true (by rw [Confined, ← heq]) (.inl heq)
  · have hrest : (baseOf pathPrefix ++ '/' :: rest).drop ((baseOf pathPrefix).length + 1) = rest := by
      rw [List.append_cons, List.drop_left' (by simp)]
    have hne : baseOf pathPrefix ++ '/' :: rest ≠ baseOf pathPrefix := by simp
    have hplace := follow_eq (placeOf (baseOf pathPrefix)) ((percentDecode rest).splitOn '/') (0, [])
    rw [Nat.sub_zero, List.take_length, List.append_nil] at hplace
    simp only [Confined, Returns, hrest, hne, false_or, placeOf_append_slash, hplace]
    exact prefix_take_append_iff _

/-- For every request that a policy allows: the decoded path is below the prefix of a scope that
permits the request exactly when, for such a scope, the rest of the path goes down again where it has
led up. -/
theorem authorized_confined_iff [UrlParser] {policy : HttpPolicy} {request : HttpRequest} {url : Url}
    (h : policy.authorize request = .ok url) :
    (∃ scope ∈ policy.scopes, scope.permits request.method url
        ∧ Confined scope.pathPrefix.toList url.path)
      ↔ ∃ scope ∈ policy.scopes, scope.permits request.method url
        ∧ Returns scope.pathPrefix.toList url.path := by
  simp only [HttpPolicy.authorize, HttpPolicy.validate, bind_eq_ok, exists_unit, okOr_eq_ok,
    pure_eq_ok, Except.ok.injEq, forM_eq_ok] at h
  obtain ⟨⟨-, hscopes⟩, -, _, hparse, -, -, rfl⟩ := h
  refine exists_congr fun scope => and_congr_right fun hscope => and_congr_right fun hpermits => ?_
  simp only [HttpScope.permits, decide_eq_true_eq] at hpermits
  obtain ⟨-, hscheme, -, -, hmatches⟩ := hpermits
  have hvalid := hscopes scope hscope
  simp only [HttpScope.validate, bind_eq_ok, exists_unit, rejectIf_eq_ok, not_and, not_not] at hvalid
  refine confined_iff_returns (UrlParser.path_absolute hparse ?_) hmatches
  rw [hscheme]
  by_cases hhttps : scope.scheme = "https"
  · exact .inr hhttps
  · exact .inl (hvalid.1 hhttps)

/-! ## Two requests -/

def itemsScope : HttpScope :=
  { scheme := "https", host := "api.example.com", port := none, pathPrefix := "/v1"
    methods := {.get} }

/-- A parser that knows one URL. -/
@[reducible] def knownUrl (text : String) (path : List Char) (habsolute : path.head? = some '/') :
    UrlParser where
  parse other :=
    if other = text then some { scheme := "https", host := some "api.example.com", path } else none
  path_absolute h := by
    split at h
    · cases h
      exact fun _ => habsolute
    · cases h

/-- An encoded slash alone does no harm. -/
theorem authorized_confined_items :
    let _ := knownUrl "https://api.example.com/v1/a%2fb" "/v1/a%2fb".toList (by decide)
    ∃ url, HttpPolicy.authorize { scopes := [itemsScope] }
        { method := .get, url := "https://api.example.com/v1/a%2fb" } = .ok url
      ∧ ∃ scope ∈ [itemsScope], scope.permits .get url ∧ Confined scope.pathPrefix.toList url.path := by
  intro _
  have hauthorized : HttpPolicy.authorize { scopes := [itemsScope] }
      { method := .get, url := "https://api.example.com/v1/a%2fb" }
      = .ok { scheme := "https", host := some "api.example.com", path := "/v1/a%2fb".toList } := by
    rfl
  exact ⟨_, hauthorized, (authorized_confined_iff hauthorized).mpr
    ⟨itemsScope, List.mem_cons_self, by decide, by decide⟩⟩

/-- With dots before it, an encoded slash leads out of the scope: `..%2fadmin` is one segment, which a
parser does not resolve. -/
theorem authorized_path_leaves_scope :
    let _ := knownUrl "https://api.example.com/v1/..%2fadmin" "/v1/..%2fadmin".toList (by decide)
    ∃ url, HttpPolicy.authorize { scopes := [itemsScope] }
        { method := .get, url := "https://api.example.com/v1/..%2fadmin" } = .ok url
      ∧ placeOf url.path = ["admin".toList]
      ∧ ¬ ∃ scope ∈ [itemsScope], scope.permits .get url
        ∧ Confined scope.pathPrefix.toList url.path := by
  intro _
  refine ⟨{ scheme := "https", host := some "api.example.com", path := "/v1/..%2fadmin".toList },
    rfl, by decide, by decide⟩

end CartridgeRuntime.Network
