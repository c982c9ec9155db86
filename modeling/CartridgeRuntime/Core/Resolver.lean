import CartridgeRuntime.Core.Manifest
import Mathlib.Data.List.MinMax

/-!
# Resolving dependencies

The dependencies of a package are resolved among candidates: each is given the best candidate that
satisfies its requirement, or, when it is optional, none.
-/

namespace CartridgeRuntime.Core

open Checked Encoding

/-! ## Dependencies -/

def maxResolutionCandidates : Nat := 4096

/-- Why the resolver fails. -/
inductive ResolveError where
  | invalidManifest (message : String)
  | duplicateCandidate (cartridge version : String)
  | candidateLimit (maximum : Nat)
  | requiredUnavailable (aliasName cartridge version reason : String)
deriving DecidableEq

/-- The cartridge and the version of a package. -/
abbrev PackageKey := String × String

/-- The key of a package. -/
def PackageManifest.key (manifest : PackageManifest) : PackageKey :=
  (manifest.cartridge.id, manifest.cartridge.version)

/-- The interfaces that a package offers to others. -/
def offeredInterfaces (manifest : PackageManifest) : List String :=
  (manifest.provides.filter (·.visibility ≠ .private)).map (·.interface)

section

variable [SemverValues]

/-- The candidates of a cartridge with a version that meets a requirement, in their order. -/
def matchingCandidates (cartridge : String) (candidates : List PackageManifest)
    (requirement : SemverValues.Requirement) : List (SemverValues.Version × PackageManifest) :=
  (candidates.filter (·.cartridge.id = cartridge)).filterMap fun candidate =>
    match SemverValues.parse candidate.cartridge.version with
    | .ok version =>
      if SemverValues.satisfies requirement version then some (version, candidate) else none
    | .error _ => none

/-- Why no candidate fits. -/
def unavailableReason (dependency : CartridgeDependency) (candidates : List PackageManifest)
    (requirement : SemverValues.Requirement) : String :=
  if candidates.filter (·.cartridge.id = dependency.cartridge) = [] then
    "cartridge is not installed"
  else
    let matchingVersion := matchingCandidates dependency.cartridge candidates requirement
    if matchingVersion = [] then "installed versions do not satisfy the requested range"
    else
      let missing := (matchingVersion.map fun (_, candidate) =>
        dependency.interfaces.filter (· ∉ offeredInterfaces candidate)).argmin List.length
      "compatible versions do not provide: "
        ++ ", ".intercalate (missing.getD dependency.interfaces)

/-- One turn of the loop over the dependencies. -/
def resolveDependency (candidates : List PackageManifest) (plan : ResolutionPlan)
    (dependency : CartridgeDependency) : Except ResolveError ResolutionPlan := do
  let requirement ← mapError .invalidManifest (SemverValues.parseRequirement dependency.version)
  let sorted := (matchingCandidates dependency.cartridge candidates requirement).mergeSort
    fun left right => SemverValues.order right.1 left.1 ≠ .gt
  match sorted.find? fun (_, candidate) =>
      dependency.interfaces.all (· ∈ offeredInterfaces candidate) with
  | some (version, _) =>
    pure { plan with resolved := plan.resolved ++ [
      { aliasName := dependency.aliasName, cartridge := dependency.cartridge
        version := SemverValues.display version, interfaces := dependency.interfaces }] }
  | none =>
    let reason := unavailableReason dependency candidates requirement
    if dependency.optional then
      pure { plan with unavailableOptional := plan.unavailableOptional ++ [
        { aliasName := dependency.aliasName, cartridge := dependency.cartridge, reason }] }
    else .error (.requiredUnavailable dependency.aliasName dependency.cartridge
      dependency.version reason)

variable [HexCodec] [Sha256]

/-- Resolve every dependency, one after another. -/
def resolveDependencies (root : PackageManifest) (candidates : List PackageManifest) :
    Except ResolveError ResolutionPlan := do
  rejectIf (candidates.length > maxResolutionCandidates) (.candidateLimit maxResolutionCandidates)
  mapError .invalidManifest root.validate
  candidates.forM fun candidate => mapError .invalidManifest candidate.validate
  discard <| candidates.foldlM (fun (versions : Finset PackageKey) candidate => do
    rejectIf (candidate.key ∈ versions)
      (.duplicateCandidate candidate.cartridge.id candidate.cartridge.version)
    pure (insert candidate.key versions)) ∅
  root.dependencies.foldlM (resolveDependency candidates)
    { resolved := [], unavailableOptional := [] }

end

end CartridgeRuntime.Core
