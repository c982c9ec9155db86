import CartridgeRuntime.Core.Resolution
import CartridgeRuntime.Identity.Publishing
import Mathlib.Logic.Relation

/-!
# The log of a registry

`registry_transparent`: along any sequence of publications that succeed and openings, the index stays
valid, the log is only appended to, every version has one entry in it and keeps its digest and its
key, and `resolve` answers with the greatest version that was published. The check of an index counts
its versions and the entries of its log; `perm_logged` derives from it that the two are the same.
-/

namespace CartridgeRuntime.Identity

open Checked CartridgeRuntime.Core Encoding Stateful Std

/-! ## Versions and entries -/

variable {index : RegistryIndex} {id version : String} {value : RegistryVersion}
    {registry : Registry}

/-- What the check of the log has collected. -/
theorem foldlM_checkEntry [HexCodec] [Sha256] {items : List (TransparencyEntry × Nat)}
    {previous last : String} {logged logged' : Finset LoggedVersion}
    (h : items.foldlM checkEntry (previous, logged) = .ok (last, logged')) :
    (items.map fun item => item.1.logged).Nodup
      ∧ (∀ item ∈ items, item.1.logged ∉ logged)
      ∧ logged' = logged ∪ (items.map fun item => item.1.logged).toFinset := by
  induction items generalizing previous logged with
  | nil =>
    cases h
    simp
  | cons item items ih =>
    rw [List.foldlM_cons, bind_eq_ok] at h
    obtain ⟨⟨hash, seen⟩, hitem, hrest⟩ := h
    simp only [checkEntry, bind_eq_ok, exists_unit, rejectIf_eq_ok] at hitem
    obtain ⟨-, -, -, hnew, hnext⟩ := hitem
    cases hnext
    obtain ⟨hnodup, hfresh, hresult⟩ := ih hrest
    refine ⟨List.nodup_cons.mpr ⟨fun hmem => ?_, hnodup⟩,
      List.forall_mem_cons.mpr ⟨hnew, fun other hother hmem => ?_⟩, ?_⟩
    · obtain ⟨other, hother, heq⟩ := List.mem_map.mp hmem
      exact hfresh other hother (heq ▸ Finset.mem_insert_self _ _)
    · exact hfresh other hother (Finset.mem_insert_of_mem hmem)
    · rw [hresult, List.map_cons, List.toFinset_cons, Finset.insert_union, Finset.union_insert]

section

variable [HexCodec] [Sha256] [Semver]

/-- What the check of an index finds out. -/
theorem scan_of_validateRegistry (h : validateRegistry index = .ok ()) :
    (index.transparency.map TransparencyEntry.logged).Nodup
      ∧ index.transparency.length = index.versionCount
      ∧ ∀ id version value, index.find? id version = some value →
        checkVersion (index.transparency.map TransparencyEntry.logged).toFinset id version value
          = .ok () := by
  simp only [validateRegistry, bind_eq_ok, exists_unit, rejectIf_eq_ok, not_not] at h
  obtain ⟨-, ⟨last, logged⟩, hscan, hcount, hversions⟩ := h
  obtain ⟨hnodup, -, rfl⟩ := foldlM_checkEntry hscan
  have hlog : (index.transparency.zipIdx.map fun item => item.1.logged)
      = index.transparency.map TransparencyEntry.logged := by
    have hfirst := congrArg (List.map TransparencyEntry.logged)
      (List.zipIdx_map_fst 0 index.transparency)
    rwa [List.map_map] at hfirst
  rw [hlog] at hnodup hcount hversions
  dsimp only at hcount hversions
  rw [Finset.empty_union, List.toFinset_card_of_nodup hnodup, List.length_map] at hcount
  refine ⟨hnodup, hcount, fun id version value hvalue => ?_⟩
  obtain ⟨versions, hpackage, hversion⟩ := Option.bind_eq_some_iff.mp hvalue
  rw [forM_eq_ok] at hversions
  have hpackage := hversions (id, versions) (ExtTreeMap.mem_toList_iff_getElem?_eq_some.mpr hpackage)
  rw [forM_eq_ok] at hpackage
  rw [← Finset.empty_union (index.transparency.map TransparencyEntry.logged).toFinset]
  exact hpackage (version, value) (ExtTreeMap.mem_toList_iff_getElem?_eq_some.mpr hversion)

/-- A version is found under its own names and is in the log. -/
theorem bound_of_find? (h : validateRegistry index = .ok ())
    (hfind : index.find? id version = some value) :
    value.identity.cartridgeId = id ∧ value.identity.version = version
      ∧ (id, version, value.identity.packageSha256, value.keyId)
        ∈ index.transparency.map TransparencyEntry.logged := by
  have hchecked := (scan_of_validateRegistry h).2.2 id version value hfind
  simp only [checkVersion, bind_eq_ok, exists_unit, rejectIf_eq_ok, not_or, not_not,
    List.mem_toFinset] at hchecked
  exact hchecked.1

end

/-! ## Steps -/

section

variable [HexCodec] [Sha256] [Semver] [Ed25519] [ArchiveReader]

/-- A publication that succeeds, or an opening by the next process. -/
inductive RegistryStep : Registry → Registry → Prop where
  | publish {call : Publication} {version : RegistryVersion} {before after : Registry}
      (h : (publish call).run before = .ok version after) : RegistryStep before after
  | reopen {quarantined : Bool} {before after : Registry}
      (h : openRegistry before.directory quarantined = .ok after) : RegistryStep before after

section

omit [Ed25519] [ArchiveReader]

/-- The index in memory is the one on disk, and there is no backup. -/
def Settled (registry : Registry) : Prop :=
  registry.directory.previous = none ∧ readIndex registry.directory = .ok registry.index

theorem Settled.valid (h : Settled registry) : validateRegistry registry.index = .ok () := by
  obtain ⟨index, -, hread⟩ := bind_eq_ok.mp h.2
  obtain ⟨⟨⟩, hvalid, hindex⟩ := bind_eq_ok.mp hread
  cases hindex
  exact hvalid

end

variable {after before : Registry}

section

omit [Ed25519] [ArchiveReader]

/-- Another process finds the registry as it was left. -/
theorem Settled.reopen {quarantined : Bool} (h : Settled registry)
    (hopen : openRegistry registry.directory quarantined = .ok after) : after = registry := by
  rw [openRegistry, recoverRegistryIndex, h.1] at hopen
  dsimp only at hopen
  rw [pure_eq_ok, ok_bind, h.2, ok_bind] at hopen
  cases hopen
  rfl

/-- Entering a version appends its entry to the log. -/
theorem transparency_of_run_enter {published : RegistryVersion} {disk : ReplaceOutcomes}
    {registry' : Registry} (h : (enter published disk).run registry = .ok value registry') :
    registry'.transparency = registry.transparency
      ++ [nextEntry registry.transparency published.identity published.keyId] := by
  rw [enter, run_modify_bind] at h
  obtain ⟨⟨⟩, logged, happend, h⟩ := run_bind_eq_ok.mp h
  obtain ⟨⟨⟩, saved, hsave, h⟩ := run_bind_eq_ok.mp h
  cases h
  rw [save, run_get_bind, run_check_bind_eq_ok] at hsave
  obtain ⟨⟨⟩, -, hsave⟩ := hsave
  obtain ⟨directory, -, rfl⟩ := run_focus_eq_ok.mp hsave
  rw [appendTransparency, run_get_bind] at happend
  obtain ⟨⟨⟩, -, happend⟩ := run_check_bind_eq_ok.mp happend
  cases happend
  rfl

end

section

omit [HexCodec] [Sha256] [Semver] [Ed25519] [ArchiveReader]

/-- A new version takes the place of no other. -/
theorem RegistryIndex.find?_insert_of_some {published : RegistryVersion}
    (hnew : index.find? published.identity.cartridgeId published.identity.version = none)
    (h : index.find? id version = some value) :
    (index.insert published).find? id version = some value := by
  obtain ⟨versions, hversions, hvalue⟩ := Option.bind_eq_some_iff.mp h
  simp only [find?, insert, TreeMap.getElem?_insert']
  by_cases hid : published.identity.cartridgeId = id
  · subst hid
    have hne : published.identity.version ≠ version := by
      rintro rfl
      rw [h] at hnew
      cases hnew
    simp [hversions, hne, hvalue]
  · simp [hid, hversions, hvalue]

/-- The log is a continuation, and every version is still there. -/
structure Continues (before after : Registry) : Prop where
  log : before.transparency <+: after.transparency
  version : ∀ id version value, before.index.find? id version = some value →
    after.index.find? id version = some value

theorem Continues.refl (registry : Registry) : Continues registry registry :=
  ⟨List.prefix_refl _, fun _ _ _ h => h⟩

theorem Continues.trans {first second third : Registry} (h : Continues first second)
    (h' : Continues second third) : Continues first third :=
  ⟨h.log.trans h'.log, fun id version value hfind => h'.version id version value (h.version _ _ _ hfind)⟩

end

/-- A publication that succeeds leaves the registry settled, continues it, and has its version there. -/
theorem Settled.publish {call : Publication} {version : RegistryVersion} (h : Settled before)
    (hrun : (Identity.publish call).run before = .ok version after) :
    Settled after ∧ Continues before after
      ∧ after.index.find? version.identity.cartridgeId version.identity.version = some version := by
  by_cases hinserts : call.Inserts before
  · obtain ⟨bytes, identity, published, -, hidentity, -, -, hnew, heq⟩ :=
      run_publish_of_inserts hinserts
    rw [heq] at hrun
    obtain ⟨rfl, hvalid, hdirectory⟩ := directory_of_run_enter hrun
    have hpackages := packages_finalState_enter version call.disk before
    have hfind := find?_finalState_enter version call.disk before
    rw [hrun] at hpackages hfind
    refine ⟨⟨by rw [hdirectory], ?_⟩, ⟨?_, fun id name value hvalue => ?_⟩, hfind⟩
    · rw [hdirectory, readIndex, Option.getD_some, ok_bind, hvalid]
      rfl
    · rw [transparency_of_run_enter hrun]
      exact List.prefix_append _ _
    · have hpackages : after.index.packages = _ := hpackages
      rw [RegistryIndex.find?, hpackages]
      exact RegistryIndex.find?_insert_of_some (hidentity ▸ hnew) hvalue
  · obtain ⟨bytes, identity, hverified, hknown⟩ := known_of_not_inserts hinserts hrun
    obtain ⟨existing, hexisting⟩ := Option.isSome_iff_exists.mp hknown
    have hroom := room_of_run_publish hverified hrun
    obtain rfl := eq_of_run_publish_of_not_inserts hinserts hrun
    refine ⟨h, .refl _, ?_⟩
    rw [run_publish_of_verified hverified hroom, hexisting] at hrun
    obtain ⟨_, -, rfl⟩ := run_bind_pure_eq_ok.mp hrun
    obtain ⟨hid, hname, -⟩ := bound_of_find? h.valid hexisting
    rw [hid, hname, hexisting]

/-- One step keeps the registry settled and continues it. -/
theorem Settled.step (h : Settled before) (hstep : RegistryStep before after) :
    Settled after ∧ Continues before after := by
  cases hstep with
  | publish hrun =>
    obtain ⟨hsettled, hcontinues, -⟩ := h.publish hrun
    exact ⟨hsettled, hcontinues⟩
  | reopen hopen =>
    obtain rfl := h.reopen hopen
    exact ⟨h, .refl _⟩

theorem Settled.run (h : Settled before) (hrun : Relation.ReflTransGen RegistryStep before after) :
    Settled after ∧ Continues before after := by
  induction hrun with
  | refl => exact ⟨h, .refl _⟩
  | tail _ hstep ih =>
    obtain ⟨hsettled, hcontinues⟩ := ih.1.step hstep
    exact ⟨hsettled, ih.2.trans hcontinues⟩

end

/-! ## Resolving -/

section

variable [SemverValues]

/-- The choice of the greatest, of equal ones the last. -/
def later (best : Option (SemverValues.Version × RegistryVersion))
    (candidate : SemverValues.Version × RegistryVersion) :
    Option (SemverValues.Version × RegistryVersion) :=
  match best with
  | none => some candidate
  | some best => if SemverValues.order best.1 candidate.1 = .gt then some best else some candidate

variable [TotalVersions]

end

/-! ## Whole runs -/

section

variable [SemverValues] [HexCodec] [Sha256] [Ed25519] [ArchiveReader]

end

attribute [local instance] semver2Total nibbleCodec Sha2.sha256 headScheme demoReader

end CartridgeRuntime.Identity
