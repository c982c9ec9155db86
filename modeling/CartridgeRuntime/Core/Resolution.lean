import CartridgeRuntime.Core.Resolver
import CartridgeRuntime.Library.Sha2
import Mathlib.Data.List.Nodup

/-!
# Which candidate a dependency is resolved to

`resolution_exact`: a dependency is resolved to the greatest version among the candidates that can
provide it, it is unavailable exactly when there is none, and the order of the candidates makes no
difference.
-/

namespace CartridgeRuntime.Core

open Checked Encoding
open Std (TransCmp OrientedCmp)

/-! ## The greatest member -/

/-- An order of values is one of what they are values of. -/
theorem transCmp_on {α β : Type} (cmp : α → α → Ordering) [TransCmp cmp] (f : β → α) :
    TransCmp fun a b => cmp (f a) (f b) where
  eq_swap := OrientedCmp.eq_swap
  isLE_trans := TransCmp.isLE_trans

section

variable {α : Type} {cmp : α → α → Ordering} [TransCmp cmp]

/-- The order of a descending sort. -/
def descending (cmp : α → α → Ordering) (left right : α) : Bool :=
  cmp right left ≠ .gt

omit [TransCmp cmp] in
theorem descending_iff {left right : α} :
    descending cmp left right = true ↔ (cmp right left).isLE := by
  rw [descending, decide_eq_true_eq]
  cases cmp right left <;> simp

theorem descending_trans (a b c : α) (hab : descending cmp a b = true)
    (hbc : descending cmp b c = true) : descending cmp a c = true :=
  descending_iff.mpr (TransCmp.isLE_trans (descending_iff.mp hbc) (descending_iff.mp hab))

theorem descending_total (a b : α) : (descending cmp a b || descending cmp b a) = true := by
  have hswap : cmp a b = (cmp b a).swap := OrientedCmp.eq_swap
  rw [Bool.or_eq_true, descending_iff, descending_iff, hswap]
  cases cmp b a <;> simp

/-- The first member of a descending sort that satisfies a condition is a greatest one. -/
theorem find?_descending {l : List α} {p : α → Bool} {found : α}
    (h : (l.mergeSort (descending cmp)).find? p = some found) :
    found ∈ l ∧ p found ∧ ∀ other ∈ l, p other → (cmp other found).isLE := by
  obtain ⟨hfound, before, after, hsplit, hbefore⟩ := List.find?_eq_some_iff_append.mp h
  have hmem : ∀ a, a ∈ l ↔ a ∈ before ++ found :: after := fun a => by
    rw [← hsplit, List.mem_mergeSort]
  refine ⟨(hmem found).mpr (by simp), hfound, fun other hother hp => ?_⟩
  have hsorted : (l.mergeSort (descending cmp)).Pairwise fun a b => descending cmp a b = true :=
    List.pairwise_mergeSort descending_trans descending_total l
  rw [hsplit, List.pairwise_append, List.pairwise_cons] at hsorted
  rcases List.mem_append.mp ((hmem other).mp hother) with hother | hother
  · exact absurd hp (by simpa using hbefore other hother)
  · rcases List.mem_cons.mp hother with rfl | hother
    · have hself : cmp other other = .eq := Std.ReflCmp.compare_self
      rw [hself]
      rfl
    · exact descending_iff.mp (hsorted.2.1.1 other hother)

end

/-! ## Providers -/

section

variable [SemverValues]

/-- The versions have a total order, and versions that are equal in it are written alike. -/
class TotalVersions : Prop where
  /-- The order is a total one. -/
  transCmp : TransCmp (@SemverValues.order _)
  /-- Equal versions have one text. -/
  eq_of_order (text text' : String) (version version' : SemverValues.Version) :
    SemverValues.parse text = .ok version → SemverValues.parse text' = .ok version' →
      SemverValues.order version version' = .eq → text = text'

/-- A candidate that can provide a dependency: it is the cartridge, its version meets the
requirement, and it offers every interface. -/
def Provides (dependency : CartridgeDependency) (candidate : PackageManifest) : Prop :=
  candidate.cartridge.id = dependency.cartridge ∧
    (∃ requirement version, SemverValues.parseRequirement dependency.version = .ok requirement ∧
      SemverValues.parse candidate.cartridge.version = .ok version ∧
      SemverValues.satisfies requirement version) ∧
    ∀ interface ∈ dependency.interfaces, ∃ service ∈ candidate.provides,
      service.visibility ≠ .private ∧ service.interface = interface

/-- The version of a candidate is not after that of another. -/
def NotAfter (candidate other : PackageManifest) : Prop :=
  ∀ version version', SemverValues.parse candidate.cartridge.version = .ok version →
    SemverValues.parse other.cartridge.version = .ok version' →
      (SemverValues.order version version').isLE

/-- A provider with the greatest version. -/
def Greatest (candidates : List PackageManifest) (dependency : CartridgeDependency)
    (candidate : PackageManifest) : Prop :=
  candidate ∈ candidates ∧ Provides dependency candidate ∧
    ∀ other ∈ candidates, Provides dependency other → NotAfter other candidate

/-- A dependency is resolved to these versions: that of a greatest provider, or none if there is no
provider. -/
def Chosen (candidates : List PackageManifest) (dependency : CartridgeDependency) :
    Option String → Prop
  | some version => ∃ candidate, Greatest candidates dependency candidate ∧
      candidate.cartridge.version = version
  | none => ∀ candidate ∈ candidates, ¬ Provides dependency candidate

omit [SemverValues] in
theorem mem_offeredInterfaces {manifest : PackageManifest} {interface : String} :
    interface ∈ offeredInterfaces manifest ↔ ∃ service ∈ manifest.provides,
      service.visibility ≠ .private ∧ service.interface = interface := by
  simp only [offeredInterfaces, List.mem_map, List.mem_filter, decide_eq_true_eq, and_assoc]

variable {candidates : List PackageManifest} {requirement : SemverValues.Requirement}
    {dependency : CartridgeDependency}

theorem mem_matchingCandidates {cartridge : String} {version : SemverValues.Version}
    {candidate : PackageManifest} :
    (version, candidate) ∈ matchingCandidates cartridge candidates requirement ↔
      candidate ∈ candidates ∧ candidate.cartridge.id = cartridge ∧
      SemverValues.parse candidate.cartridge.version = .ok version ∧
      SemverValues.satisfies requirement version := by
  simp only [matchingCandidates, List.mem_filterMap, List.mem_filter, decide_eq_true_eq]
  constructor
  · rintro ⟨other, ⟨hother, hid⟩, hmatch⟩
    split at hmatch
    · rename_i found hparse
      split at hmatch
      · rename_i hsatisfies
        cases hmatch
        exact ⟨hother, hid, hparse, hsatisfies⟩
      · cases hmatch
    · cases hmatch
  · rintro ⟨hmem, hid, hparse, hsatisfies⟩
    refine ⟨candidate, ⟨hmem, hid⟩, ?_⟩
    rw [hparse]
    exact if_pos hsatisfies

/-- The provider that the source finds. -/
def findProvider (candidates : List PackageManifest) (dependency : CartridgeDependency)
    (requirement : SemverValues.Requirement) : Option (SemverValues.Version × PackageManifest) :=
  ((matchingCandidates dependency.cartridge candidates requirement).mergeSort
    fun left right => SemverValues.order right.1 left.1 ≠ .gt).find? fun (_, candidate) =>
      dependency.interfaces.all (· ∈ offeredInterfaces candidate)

theorem mem_matching_iff_provides
    (hrequirement : SemverValues.parseRequirement dependency.version = .ok requirement)
    {candidate : PackageManifest} :
    (candidate ∈ candidates ∧ Provides dependency candidate) ↔
      ∃ version, (version, candidate) ∈
          matchingCandidates dependency.cartridge candidates requirement ∧
        dependency.interfaces.all (· ∈ offeredInterfaces candidate) = true := by
  simp only [mem_matchingCandidates, Provides, List.all_eq_true, decide_eq_true_eq,
    mem_offeredInterfaces]
  constructor
  · rintro ⟨hmem, hid, ⟨requirement', version, hother, hparse, hsatisfies⟩, hoffers⟩
    cases hrequirement.symm.trans hother
    exact ⟨version, ⟨hmem, hid, hparse, hsatisfies⟩, hoffers⟩
  · rintro ⟨version, ⟨hmem, hid, hparse, hsatisfies⟩, hoffers⟩
    exact ⟨hmem, hid, ⟨requirement, version, hrequirement, hparse, hsatisfies⟩, hoffers⟩

/-- The source chooses a greatest provider. -/
theorem chosen_findProvider [TotalVersions]
    (hrequirement : SemverValues.parseRequirement dependency.version = .ok requirement) :
    Chosen candidates dependency ((findProvider candidates dependency requirement).map fun found =>
      SemverValues.display found.1) := by
  have htrans : TransCmp (@SemverValues.order _) := TotalVersions.transCmp
  have hcmp : TransCmp fun left right : SemverValues.Version × PackageManifest =>
      SemverValues.order left.1 right.1 := transCmp_on _ Prod.fst
  cases hfind : findProvider candidates dependency requirement with
  | none =>
    intro candidate hmem hprovides
    obtain ⟨version, hmatching, hoffers⟩ :=
      (mem_matching_iff_provides hrequirement).mp ⟨hmem, hprovides⟩
    have hnone := List.find?_eq_none.mp hfind (version, candidate)
      (List.mem_mergeSort.mpr hmatching)
    exact hnone hoffers
  | some found =>
    obtain ⟨version, candidate⟩ := found
    obtain ⟨hmatching, hoffers, hgreatest⟩ := find?_descending hfind
    obtain ⟨hmem, hprovides⟩ :=
      (mem_matching_iff_provides hrequirement).mpr ⟨version, hmatching, hoffers⟩
    obtain ⟨-, -, hparse, -⟩ := mem_matchingCandidates.mp hmatching
    refine ⟨candidate, ⟨hmem, hprovides, fun other hother hprovides' => ?_⟩,
      (SemverValues.display_of_parse _ _ hparse).symm⟩
    intro version' version'' hparse' hparse''
    cases hparse.symm.trans hparse''
    obtain ⟨found, hmatching', hoffers'⟩ :=
      (mem_matching_iff_provides hrequirement).mp ⟨hother, hprovides'⟩
    cases hparse'.symm.trans (mem_matchingCandidates.mp hmatching').2.2.1
    exact hgreatest (version', other) hmatching' hoffers'

/-- The order of the candidates does not matter for a choice. -/
theorem Chosen.perm {candidates' : List PackageManifest} {version : Option String}
    (h : Chosen candidates dependency version) (hperm : candidates.Perm candidates') :
    Chosen candidates' dependency version := by
  cases version with
  | none => exact fun candidate hmem => h candidate (hperm.mem_iff.mpr hmem)
  | some version =>
    obtain ⟨candidate, ⟨hmem, hprovides, hgreatest⟩, hversion⟩ := h
    exact ⟨candidate, ⟨hperm.mem_iff.mp hmem, hprovides, fun other hother =>
      hgreatest other (hperm.mem_iff.mpr hother)⟩, hversion⟩

/-- There is one choice. -/
theorem Chosen.unique [TotalVersions] {first second : Option String}
    (hfirst : Chosen candidates dependency first) (hsecond : Chosen candidates dependency second) :
    first = second := by
  have htrans : TransCmp (@SemverValues.order _) := TotalVersions.transCmp
  cases first with
  | none =>
    cases second with
    | none => rfl
    | some version =>
      obtain ⟨candidate, ⟨hmem, hprovides, -⟩, -⟩ := hsecond
      exact absurd hprovides (hfirst candidate hmem)
  | some version =>
    obtain ⟨candidate, ⟨hmem, hprovides, hgreatest⟩, rfl⟩ := hfirst
    cases second with
    | none => exact absurd hprovides (hsecond candidate hmem)
    | some version =>
      obtain ⟨candidate', ⟨hmem', hprovides', hgreatest'⟩, rfl⟩ := hsecond
      have hafter := hgreatest candidate' hmem' hprovides'
      have hafter' := hgreatest' candidate hmem hprovides
      obtain ⟨-, ⟨-, value, -, hparse, -⟩, -⟩ := hprovides
      obtain ⟨-, ⟨-, value', -, hparse', -⟩, -⟩ := hprovides'
      have hle := hafter value' value hparse' hparse
      have hle' := hafter' value value' hparse hparse'
      have hswap : SemverValues.order value' value = (SemverValues.order value value').swap :=
        OrientedCmp.eq_swap
      refine congrArg some (TotalVersions.eq_of_order _ _ value value' hparse hparse' ?_)
      cases horder : SemverValues.order value value' with
      | eq => rfl
      | lt =>
        rw [hswap, horder] at hle
        cases hle
      | gt =>
        rw [horder] at hle'
        cases hle'

/-! ## Outcomes -/

/-- The dependencies of a plan, and the aliases and cartridges of those that are unavailable. -/
abbrev Outline : Type := List ResolvedDependency × List (String × String)

section

omit [SemverValues]

/-- A plan without the reasons. -/
def ResolutionPlan.outline (plan : ResolutionPlan) : Outline :=
  (plan.resolved, plan.unavailableOptional.map fun missing => (missing.aliasName, missing.cartridge))

/-- An error without the reason. -/
def ResolveError.outline : ResolveError → ResolveError
  | .requiredUnavailable aliasName cartridge version _ =>
    .requiredUnavailable aliasName cartridge version ""
  | error => error

/-- A result without the reasons. -/
def outcome : Except ResolveError ResolutionPlan → Except ResolveError Outline
  | .ok plan => .ok plan.outline
  | .error error => .error error.outline

/-- What a dependency is resolved to. -/
def resolvedTo (dependency : CartridgeDependency) (version : String) : ResolvedDependency where
  aliasName := dependency.aliasName
  cartridge := dependency.cartridge
  version := version
  interfaces := dependency.interfaces

/-- The outcome of choices: the first required dependency without a provider is an error; otherwise
every dependency is resolved or unavailable, in the order of the manifest. -/
def outcomeOf (choice : CartridgeDependency → Option String)
    (dependencies : List CartridgeDependency) : Except ResolveError Outline :=
  match dependencies.find? fun dependency => choice dependency = none ∧ ¬ dependency.optional with
  | some dependency => .error
      (.requiredUnavailable dependency.aliasName dependency.cartridge dependency.version "")
  | none => .ok
      (dependencies.filterMap fun dependency => (choice dependency).map (resolvedTo dependency),
        (dependencies.filter fun dependency => choice dependency = none).map fun dependency =>
          (dependency.aliasName, dependency.cartridge))

end

/-- The version that the source resolves a dependency to. -/
def chosenVersion (candidates : List PackageManifest) (dependency : CartridgeDependency) :
    Option String :=
  match SemverValues.parseRequirement dependency.version with
  | .ok requirement => (findProvider candidates dependency requirement).map fun found =>
    SemverValues.display found.1
  | .error _ => none

/-- One turn of the loop, by what is chosen. -/
theorem resolveDependency_eq {plan : ResolutionPlan}
    (hrequirement : SemverValues.parseRequirement dependency.version = .ok requirement) :
    resolveDependency candidates plan dependency
      = match chosenVersion candidates dependency with
        | some version =>
          .ok { plan with resolved := plan.resolved ++ [resolvedTo dependency version] }
        | none =>
          let reason := unavailableReason dependency candidates requirement
          if dependency.optional then
            .ok { plan with unavailableOptional := plan.unavailableOptional ++
              [⟨dependency.aliasName, dependency.cartridge, reason⟩] }
          else .error (.requiredUnavailable dependency.aliasName dependency.cartridge
            dependency.version reason) := by
  rw [resolveDependency, chosenVersion, hrequirement]
  dsimp only [mapError, ok_bind, findProvider]
  generalize List.find? _ (List.mergeSort _ _) = found
  cases found with
  | none => rfl
  | some found => rfl

omit [SemverValues] in
/-- The outcome of choices, one dependency after the other. -/
theorem outcomeOf_cons (choice : CartridgeDependency → Option String)
    (dependency : CartridgeDependency) (dependencies : List CartridgeDependency) :
    outcomeOf choice (dependency :: dependencies)
      = match choice dependency with
        | some version => (outcomeOf choice dependencies).map fun outline =>
          (resolvedTo dependency version :: outline.1, outline.2)
        | none =>
          if dependency.optional then (outcomeOf choice dependencies).map fun outline =>
            (outline.1, (dependency.aliasName, dependency.cartridge) :: outline.2)
          else .error (.requiredUnavailable dependency.aliasName dependency.cartridge
            dependency.version "") := by
  rw [outcomeOf, outcomeOf]
  cases hchoice : choice dependency with
  | some version =>
    rw [List.find?_cons_of_neg (by simp [hchoice])]
    cases dependencies.find? fun dependency => choice dependency = none ∧ ¬ dependency.optional with
    | some other => rfl
    | none => simp [hchoice, Except.map]
  | none =>
    cases hoptional : dependency.optional with
    | true =>
      rw [List.find?_cons_of_neg (by simp [hoptional])]
      cases dependencies.find? fun dependency =>
          choice dependency = none ∧ ¬ dependency.optional with
      | some other => rfl
      | none => simp [hchoice, Except.map]
    | false =>
      rw [List.find?_cons_of_pos (by simp [hoptional, hchoice])]
      rfl

omit [SemverValues] in
theorem outcomeOf_congr {choice choice' : CartridgeDependency → Option String}
    {dependencies : List CartridgeDependency}
    (h : ∀ dependency ∈ dependencies, choice dependency = choice' dependency) :
    outcomeOf choice dependencies = outcomeOf choice' dependencies := by
  induction dependencies with
  | nil => rfl
  | cons dependency dependencies ih =>
    rw [List.forall_mem_cons] at h
    rw [outcomeOf_cons, outcomeOf_cons, h.1, ih h.2]

/-- The loop over the dependencies, from any plan. -/
theorem outcome_foldlM {dependencies : List CartridgeDependency} (plan : ResolutionPlan)
    (hrequirements : ∀ dependency ∈ dependencies,
      ∃ requirement, SemverValues.parseRequirement dependency.version = .ok requirement) :
    outcome (dependencies.foldlM (resolveDependency candidates) plan)
      = (outcomeOf (chosenVersion candidates) dependencies).map fun outline =>
        (plan.outline.1 ++ outline.1, plan.outline.2 ++ outline.2) := by
  induction dependencies generalizing plan with
  | nil => simp [outcomeOf, outcome, Except.map]
  | cons dependency dependencies ih =>
    obtain ⟨⟨requirement, hrequirement⟩, hrest⟩ := List.forall_mem_cons.mp hrequirements
    rw [List.foldlM_cons, resolveDependency_eq hrequirement, outcomeOf_cons]
    cases chosenVersion candidates dependency with
    | some version =>
      dsimp only [ok_bind]
      rw [ih _ hrest]
      cases outcomeOf (chosenVersion candidates) dependencies with
      | error error => rfl
      | ok outline => simp [Except.map, ResolutionPlan.outline]
    | none =>
      cases dependency.optional with
      | true =>
        dsimp only
        rw [if_pos rfl, if_pos rfl, ok_bind, ih _ hrest]
        cases outcomeOf (chosenVersion candidates) dependencies with
        | error error => rfl
        | ok outline => simp [Except.map, ResolutionPlan.outline]
      | false => rfl

/-! ## Candidates that are accepted -/

variable [HexCodec] [Sha256]

/-- The root and the candidates pass the checks before the resolution. -/
structure Accepted (root : PackageManifest) (candidates : List PackageManifest) : Prop where
  length_le : candidates.length ≤ maxResolutionCandidates
  root_valid : root.validate = .ok ()
  valid : ∀ candidate ∈ candidates, candidate.validate = .ok ()
  nodup : (candidates.map PackageManifest.key).Nodup

theorem Accepted.perm {root : PackageManifest} {candidates' : List PackageManifest}
    (h : Accepted root candidates) (hperm : candidates.Perm candidates') :
    Accepted root candidates' where
  length_le := hperm.length_eq ▸ h.length_le
  root_valid := h.root_valid
  valid candidate hmem := h.valid candidate (hperm.mem_iff.mpr hmem)
  nodup := (hperm.map _).nodup_iff.mp h.nodup

omit [SemverValues] [HexCodec] [Sha256] in
/-- The check for duplicates passes when no package is there twice. -/
theorem foldlM_key_of_nodup {versions : Finset PackageKey}
    (hnodup : (candidates.map PackageManifest.key).Nodup)
    (hfresh : ∀ candidate ∈ candidates, candidate.key ∉ versions) :
    ∃ all, candidates.foldlM (fun (versions : Finset PackageKey) candidate => do
      rejectIf (candidate.key ∈ versions)
        (ResolveError.duplicateCandidate candidate.cartridge.id candidate.cartridge.version)
      pure (insert candidate.key versions)) versions = .ok all := by
  induction candidates generalizing versions with
  | nil => exact ⟨versions, rfl⟩
  | cons candidate candidates ih =>
    rw [List.map_cons, List.nodup_cons] at hnodup
    rw [List.forall_mem_cons] at hfresh
    rw [List.foldlM_cons, rejectIf_of_not _ hfresh.1]
    refine ih hnodup.2 fun other hother hmem => ?_
    rcases Finset.mem_insert.mp hmem with heq | hmem
    · exact hnodup.1 (heq ▸ List.mem_map_of_mem hother)
    · exact hfresh.2 other hother hmem

theorem Accepted.resolveDependencies_eq {root : PackageManifest} (h : Accepted root candidates) :
    resolveDependencies root candidates = root.dependencies.foldlM (resolveDependency candidates)
      { resolved := [], unavailableOptional := [] } := by
  have hvalid : candidates.forM (fun candidate => mapError ResolveError.invalidManifest
      candidate.validate) = .ok () :=
    forM_eq_ok.mpr fun candidate hmem => mapError_eq_ok.mpr (h.valid candidate hmem)
  have hunique := discard_eq_ok.mpr (foldlM_key_of_nodup h.nodup fun _ _ => Finset.notMem_empty _)
  rw [resolveDependencies, rejectIf_of_not _ (Nat.not_lt.mpr h.length_le), ok_bind, h.root_valid,
    mapError_eq_ok.mpr rfl, ok_bind, hvalid, ok_bind, hunique, ok_bind]

theorem parseRequirement_of_validate {manifest : PackageManifest} (h : manifest.validate = .ok ()) :
    ∀ dependency ∈ manifest.dependencies,
      ∃ requirement, SemverValues.parseRequirement dependency.version = .ok requirement := by
  simp only [PackageManifest.validate, validateRelationships, bind_eq_ok, exists_unit,
    discard_eq_ok, mapError_eq_ok] at h
  obtain ⟨-, -, -, -, -, -, -, -, -, -, -, -, -, ⟨scan, hscan⟩, -⟩ := h
  generalize ((∅, ∅) : Finset String × Finset String) = start at hscan
  generalize manifest.dependencies = dependencies at hscan
  induction dependencies generalizing start with
  | nil => simp
  | cons dependency dependencies ih =>
    simp only [List.foldlM_cons, validateDependency, bind_eq_ok, exists_unit, discard_eq_ok,
      mapError_eq_ok] at hscan
    obtain ⟨next, ⟨-, -, -, hrequirement, -⟩, hrest⟩ := hscan
    exact List.forall_mem_cons.mpr ⟨hrequirement, ih next hrest⟩

/-- Dependencies are resolved exactly: the outcome is that of choosing a greatest provider for each
of them, and it does not depend on the order of the candidates. -/
theorem resolution_exact [TotalVersions] {root : PackageManifest}
    {candidates : List PackageManifest} (h : Accepted root candidates) :
    (∃ choice, (∀ dependency ∈ root.dependencies,
        Chosen candidates dependency (choice dependency)) ∧
      outcome (resolveDependencies root candidates) = outcomeOf choice root.dependencies) ∧
    ∀ candidates', candidates.Perm candidates' →
      outcome (resolveDependencies root candidates')
        = outcome (resolveDependencies root candidates) := by
  have hrequirements := parseRequirement_of_validate h.root_valid
  have hchosen : ∀ others, ∀ dependency ∈ root.dependencies,
      Chosen others dependency (chosenVersion others dependency) := by
    intro others dependency hmem
    obtain ⟨requirement, hrequirement⟩ := hrequirements dependency hmem
    rw [chosenVersion, hrequirement]
    exact chosen_findProvider hrequirement
  have houtcome : ∀ others, Accepted root others →
      outcome (resolveDependencies root others)
        = outcomeOf (chosenVersion others) root.dependencies := by
    intro others hothers
    rw [hothers.resolveDependencies_eq, outcome_foldlM _ hrequirements]
    cases outcomeOf (chosenVersion others) root.dependencies with
    | error error => rfl
    | ok outline => simp [Except.map, ResolutionPlan.outline]
  refine ⟨⟨chosenVersion candidates, hchosen candidates, houtcome candidates h⟩, ?_⟩
  intro candidates' hperm
  rw [houtcome candidates' (h.perm hperm), houtcome candidates h]
  refine outcomeOf_congr fun dependency hmem => ?_
  exact ((hchosen candidates' dependency hmem).perm hperm.symm).unique
    (hchosen candidates dependency hmem)

end

/-! ## The order of semantic versions -/

theorem transCmp_then {α : Type} {first second : α → α → Ordering} (hfirst : TransCmp first)
    (hsecond : TransCmp second) : TransCmp fun a b => (first a b).then (second a b) :=
  inferInstanceAs (TransCmp (compareLex first second))

theorem transCmp_compareIdentifier : TransCmp compareIdentifier where
  eq_swap {left right} := by
    unfold compareIdentifier
    cases left.all Char.isDigit <;> cases right.all Char.isDigit
    · exact (OrientedCmp.eq_swap : compare (String.ofList left) (String.ofList right) = _)
    · rfl
    · rfl
    · exact (OrientedCmp.eq_swap : compare (decimalValue left) (decimalValue right) = _)
  isLE_trans {a b c} := by
    unfold compareIdentifier
    cases a.all Char.isDigit <;> cases b.all Char.isDigit <;> cases c.all Char.isDigit <;>
      simp only [Ordering.isLE_lt, Ordering.isLE_gt, Bool.false_eq_true, false_implies,
        implies_true]
    · exact TransCmp.isLE_trans
    · exact TransCmp.isLE_trans

theorem transCmp_compareIdentifiers : TransCmp compareIdentifiers := by
  have hlex : compareIdentifiers = List.compareLex compareIdentifier := by
    funext left right
    induction left generalizing right with
    | nil => cases right <;> rfl
    | cons first left ih =>
      cases right with
      | nil => rfl
      | cons second right => rw [compareIdentifiers, ih, List.compareLex_cons_cons]
  have := transCmp_compareIdentifier
  rw [hlex]
  infer_instance

theorem transCmp_comparePreRelease : TransCmp comparePreRelease := by
  have hthen : comparePreRelease = fun left right =>
      (compare left.isEmpty right.isEmpty).then (compareIdentifiers left right) := by
    funext left right
    cases left <;> cases right <;> rfl
  rw [hthen]
  exact transCmp_then (transCmp_on compare List.isEmpty) transCmp_compareIdentifiers

theorem transCmp_order : TransCmp VersionValue.order := by
  have := transCmp_comparePreRelease
  have := transCmp_compareIdentifiers
  exact transCmp_then (transCmp_on compare VersionValue.major) <|
    transCmp_then (transCmp_on compare VersionValue.minor) <|
    transCmp_then (transCmp_on compare VersionValue.patch) <|
    transCmp_then (transCmp_on comparePreRelease VersionValue.preRelease) <|
    transCmp_on compareIdentifiers VersionValue.build

/-- The versions of `semver2Values`, with those that only differ in zeros in front of the numbers of
their build ordered by their texts. -/
@[reducible] def semver2Total : SemverValues :=
  { semver2Values with
    order := fun left right => (VersionValue.order left right).then (compare left.text right.text) }

theorem totalVersions_semver2Total : @TotalVersions semver2Total :=
  let _ := semver2Total
  { transCmp := transCmp_then transCmp_order (transCmp_on compare VersionValue.text)
    eq_of_order := by
      intro text text' version version' hparse hparse' horder
      have hdisplay := SemverValues.display_of_parse text version hparse
      have hdisplay' := SemverValues.display_of_parse text' version' hparse'
      have htext : compare version.text version'.text = .eq := (Ordering.then_eq_eq.mp horder).2
      exact hdisplay.symm.trans ((Std.compare_eq_iff_eq.mp htext).trans hdisplay') }

/-- A package that needs a codec. -/
def codecUser : PackageManifest where
  cartridge := { id := "dev.example.root", name := "Test", version := "1.0.0" }
  dependencies := [{ aliasName := "codec", cartridge := "dev.example.codec", version := "^1.0"
                     interfaces := ["example:codec/decode@1.0.0"] }]

/-- A codec of a version. -/
def codecOf (version : String) : PackageManifest where
  cartridge := { id := "dev.example.codec", name := "Test", version }
  provides := [{ name := "decoder", interface := "example:codec/decode@1.0.0" }]

section

attribute [local instance] semver2Total nibbleCodec Sha2.sha256

theorem codec_accepted : Accepted codecUser [codecOf "1.2.0", codecOf "1.9.0"] where
  length_le := by decide
  root_valid := by decide +kernel
  valid := List.forall_mem_cons.mpr ⟨by decide +kernel,
    List.forall_mem_singleton.mpr (by decide +kernel)⟩
  nodup := by decide +kernel

/-- The two codecs in either order give the same outcome. -/
theorem resolution_exact_codec :
    outcome (resolveDependencies codecUser [codecOf "1.9.0", codecOf "1.2.0"])
      = outcome (resolveDependencies codecUser [codecOf "1.2.0", codecOf "1.9.0"]) :=
  have := totalVersions_semver2Total
  (resolution_exact codec_accepted).2 _ (.swap _ _ _)

end

end CartridgeRuntime.Core
