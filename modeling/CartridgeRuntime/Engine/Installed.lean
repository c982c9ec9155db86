import CartridgeRuntime.Engine.ValidPlan
import CartridgeRuntime.Library.Sha2

/-!
# Checking a plan against the installed packages

Before a plan is applied, every package that it locks is compared with the one installed under the
same cartridge and version. `verifyInstalled_complete_iff` says which plans are compared completely:
the check looks at a cartridge and version once, so a second lock of the same key goes unread.
-/

namespace CartridgeRuntime.Engine

open Checked CartridgeRuntime.Core Encoding

/-! ## Packages -/

def maxPackageFileBytes : Nat := 160 * 1024 * 1024
def maxArchiveBytes : Nat := 160 * 1024 * 1024

/-- What a plan locks of the manifest of a package. -/
structure PackageManifest where
  cartridgeId : String
  version : String
  runtime : RuntimeLimits
  componentSha256 : String
  assetsRootSha256 : String
deriving DecidableEq, Repr

/-- The reading of a package: its container, its entries and its manifest. -/
class PackageReader where
  /-- The manifest of a package that is well formed. -/
  readManifest : List UInt8 → Except String PackageManifest

/-- An archive that was opened. -/
structure CartridgeArchive where
  manifest : PackageManifest
  packageBytes : Nat
  packageSha256 : String
deriving DecidableEq, Repr

/-- The entry of an installed version in the document of a library. -/
structure InstalledVersion where
  relativePath : String
  packageSha256 : String
  packageBytes : Nat
deriving DecidableEq, Repr

/-- An installed package. -/
structure CatalogPackage where
  cartridgeId : String
  version : String
  packageSha256 : String
  packageBytes : Nat
  path : String
deriving DecidableEq, Repr

/-- The installed versions of each cartridge, and the files below the root of the library. -/
structure Library where
  installed : Std.ExtTreeMap String (Std.ExtTreeMap String InstalledVersion)
  files : Std.ExtTreeMap String (List UInt8)

/-- The text of the operating system for a path without a file. -/
def noSuchFile : String := "No such file or directory (os error 2)"

section

variable [HexCodec] [Sha256]

/-- The length and the digest of a package. -/
def packageSnapshot (bytes : List UInt8) (limit : Nat) : Except String (Nat × String) := do
  rejectIf (bytes.length = 0 ∨ bytes.length > limit)
    s!"invalid cartridge archive: archive byte length must be between 1 and {limit}"
  pure (bytes.length, sha256Hex bytes)

/-- The digest of a file that is not too long. -/
def hashFile (bytes : List UInt8) (limit : Nat) : Except String String := do
  rejectIf (bytes.length > limit) s!"package exceeded the {limit}-byte limit while reading"
  pure (sha256Hex bytes)

namespace Library

/-- The record of an installed version, once its file verifies. -/
def catalogRecord (library : Library) (id version : String) (installed : InstalledVersion) :
    Except String CatalogPackage := do
  let bytes ← okOr library.files[installed.relativePath]? noSuchFile
  rejectIf (bytes.length ≠ installed.packageBytes)
    "installed package is missing or failed integrity verification"
  let digest ← hashFile bytes maxPackageFileBytes
  rejectIf (digest ≠ installed.packageSha256)
    "installed package is missing or failed integrity verification"
  pure { cartridgeId := id, version, packageSha256 := installed.packageSha256,
         packageBytes := installed.packageBytes, path := installed.relativePath }

/-- The record of an exact version; every caller here names one. -/
def catalogPackage (library : Library) (id version : String) : Except String CatalogPackage := do
  let versions ← okOr library.installed[id]? "cartridge is not installed"
  let installed ← okOr versions[version]? "cartridge version is not installed"
  library.catalogRecord id version installed

variable [PackageReader]

/-- Open the archive at a path. -/
def openArchive (library : Library) (path : String) : Except String CartridgeArchive := do
  let bytes ← okOr library.files[path]? s!"I/O error: {noSuchFile}"
  let (packageBytes, packageSha256) ← packageSnapshot bytes maxArchiveBytes
  let manifest ← PackageReader.readManifest bytes
  pure { manifest, packageBytes, packageSha256 }

/-- Open the archive of a record. -/
def openCatalogArchive (library : Library) (record : CatalogPackage) :
    Except String CartridgeArchive := do
  let archive ← library.openArchive record.path
  rejectIf (archive.manifest.cartridgeId ≠ record.cartridgeId
      ∨ archive.manifest.version ≠ record.version
      ∨ archive.packageSha256 ≠ record.packageSha256
      ∨ archive.packageBytes ≠ record.packageBytes)
    "installed package changed after catalog verification"
  pure archive

/-- The archive installed under a cartridge and a version. -/
def installedArchive (library : Library) (id version : String) :
    Except String CartridgeArchive := do
  let record ← library.catalogPackage id version
  library.openCatalogArchive record

end Library

/-- A text with its ASCII letters in lower case. -/
def toAsciiLowercase (text : String) : String :=
  String.ofList (text.toList.map Char.toLower)

omit [HexCodec] [Sha256] in
/-- An archive as a plan locks it. -/
def lockedPackage (archive : CartridgeArchive) : LockedPackage :=
  { cartridgeId := archive.manifest.cartridgeId
    version := archive.manifest.version
    packageSha256 := archive.packageSha256
    packageBytes := archive.packageBytes
    componentSha256 := toAsciiLowercase archive.manifest.componentSha256
    assetsRootSha256 := toAsciiLowercase archive.manifest.assetsRootSha256 }

variable [PackageReader]

/-- The package that was reviewed is installed. -/
def verifyLockedPackageInstalled (package : LockedPackage) (library : Library) :
    Except String Unit := do
  let archive ← library.installedArchive package.cartridgeId package.version
  rejectIf (lockedPackage archive ≠ package)
    "installed package no longer matches the reviewed plan"

/-! ## The check of a plan -/

/-- The root of a composition, and then its providers. -/
def packagesOf (planned : PlannedInstance) : List LockedPackage :=
  planned.composition.root :: planned.composition.providers

/-- One turn of the loop over the packages; the state is the keys that were checked. -/
def verifyPackage (library : Library) (checked : Finset (String × String))
    (package : LockedPackage) : Except String (Finset (String × String)) := do
  if package.key ∉ checked then
    verifyLockedPackageInstalled package library
  pure (insert package.key checked)

/-- One turn of the loop over the instances; the state is the keys that were checked. -/
def verifyInstance (library : Library) (checked : Finset (String × String))
    (planned : PlannedInstance) : Except String (Finset (String × String)) := do
  let checked ← (packagesOf planned).foldlM (verifyPackage library) checked
  let archive ← library.installedArchive planned.cartridgeId planned.version
  rejectIf (archive.manifest.runtime.constrainedBy planned.limits ≠ planned.limits)
    "planned runtime limits are not a ceiling on the installed package"
  pure checked

variable [Semver]

/-- Every package of the plan is installed. -/
def StackPlan.verifyInstalled (plan : StackPlan) (library : Library) : Except String Unit := do
  plan.validate
  discard (plan.instances.foldlM (verifyInstance library) ∅)

end

/-! ## What the check establishes -/

variable {package : LockedPackage} {checked : Finset (String × String)}

section

variable [HexCodec] [Sha256] [PackageReader] {library : Library}

/-- A lock passes its check exactly when it is the lock of the installed archive. -/
theorem verifyLockedPackageInstalled_eq_ok :
    verifyLockedPackageInstalled package library = .ok ()
      ↔ ∃ archive, library.installedArchive package.cartridgeId package.version = .ok archive
          ∧ lockedPackage archive = package := by
  simp only [verifyLockedPackageInstalled, bind_eq_ok]
  refine exists_congr fun archive => and_congr_right fun _ => ?_
  rw [rejectIf_eq_ok, not_not]

/-- Some lock with the key passed its check. -/
def Verified (library : Library) (packages : List LockedPackage) (key : String × String) : Prop :=
  ∃ first ∈ packages, first.key = key ∧ verifyLockedPackageInstalled first library = .ok ()

theorem Verified.mono {packages others : List LockedPackage} {key : String × String}
    (h : Verified library packages key) (hsub : packages ⊆ others) :
    Verified library others key := by
  obtain ⟨first, hmem, hkey, hverify⟩ := h
  exact ⟨first, hsub hmem, hkey, hverify⟩

/-- What a loop has done when it ends: it keeps the keys that were checked, it adds those of the
packages, and every key that it adds is verified. -/
structure Scanned (library : Library) (packages : List LockedPackage)
    (checked result : Finset (String × String)) : Prop where
  keeps : checked ⊆ result
  adds : ∀ package ∈ packages, package.key ∈ result
  verified : ∀ key ∈ result, key ∈ checked ∨ Verified library packages key

theorem Scanned.nil : Scanned library [] checked checked :=
  ⟨subset_rfl, by simp, fun _ => .inl⟩

variable {result : Finset (String × String)}

theorem Scanned.append {packages others : List LockedPackage} {middle : Finset (String × String)}
    (hfirst : Scanned library packages checked middle)
    (hsecond : Scanned library others middle result) :
    Scanned library (packages ++ others) checked result := by
  refine ⟨hfirst.keeps.trans hsecond.keeps, fun package hmem => ?_, fun key hkey => ?_⟩
  · rcases List.mem_append.mp hmem with hmem | hmem
    · exact hsecond.keeps (hfirst.adds package hmem)
    · exact hsecond.adds package hmem
  · rcases hsecond.verified key hkey with hmiddle | hverified
    · exact (hfirst.verified key hmiddle).imp_right (·.mono (List.subset_append_left ..))
    · exact .inr (hverified.mono (List.subset_append_right ..))

/-- One turn of the loop over the packages. -/
theorem scanned_verifyPackage (h : verifyPackage library checked package = .ok result) :
    Scanned library [package] checked result := by
  unfold verifyPackage at h
  by_cases hmem : package.key ∈ checked
  · rw [if_neg (not_not.mpr hmem), Finset.insert_eq_of_mem hmem] at h
    obtain rfl : checked = result := Except.ok.inj h
    exact ⟨subset_rfl, by simpa using hmem, fun _ => .inl⟩
  · rw [if_pos hmem, bind_eq_ok, exists_unit, pure_eq_ok, Except.ok.injEq] at h
    obtain ⟨hverify, rfl⟩ := h
    refine ⟨Finset.subset_insert .., by simp, fun key hkey => ?_⟩
    rcases Finset.mem_insert.mp hkey with rfl | hkey
    · exact .inr ⟨package, List.mem_singleton_self _, rfl, hverify⟩
    · exact .inl hkey

/-- A loop has scanned the packages of all its turns when each turn has scanned its own. -/
theorem scanned_foldlM {α : Type} {packages : α → List LockedPackage}
    (turn : Finset (String × String) → α → Except String (Finset (String × String)))
    (hturn : ∀ checked a result, turn checked a = .ok result →
      Scanned library (packages a) checked result) {l : List α}
    (h : l.foldlM turn checked = .ok result) :
    Scanned library (l.flatMap packages) checked result := by
  induction l generalizing checked with
  | nil =>
    rw [List.foldlM_nil, pure_eq_ok, Except.ok.injEq] at h
    exact h ▸ .nil
  | cons a l ih =>
    rw [List.foldlM_cons, bind_eq_ok] at h
    obtain ⟨middle, ha, hl⟩ := h
    rw [List.flatMap_cons]
    exact (hturn checked a middle ha).append (ih hl)

/-- One turn of the loop over the instances. -/
theorem scanned_verifyInstance {planned : PlannedInstance}
    (h : verifyInstance library checked planned = .ok result) :
    Scanned library (packagesOf planned) checked result := by
  simp only [verifyInstance, bind_eq_ok, exists_unit, pure_eq_ok, Except.ok.injEq] at h
  obtain ⟨middle, hscan, archive, -, -, rfl⟩ := h
  have hpackages := scanned_foldlM (verifyPackage library)
    (fun _ _ _ => scanned_verifyPackage) hscan
  rwa [List.flatMap_singleton'] at hpackages

namespace StackPlan

variable [Semver] {plan : StackPlan}

/-- The locked packages of all instances. -/
def packages (plan : StackPlan) : List LockedPackage :=
  plan.instances.flatMap packagesOf

/-- Every key that a plan locks was verified for some lock with this key. -/
theorem verified_of_verifyInstalled (h : plan.verifyInstalled library = .ok ())
    {package : LockedPackage} (hmem : package ∈ plan.packages) :
    Verified library plan.packages package.key := by
  simp only [verifyInstalled, bind_eq_ok, exists_unit, discard_eq_ok] at h
  obtain ⟨-, result, hscan⟩ := h
  have hscanned := scanned_foldlM (verifyInstance library)
    (fun _ _ _ => scanned_verifyInstance) hscan
  exact (hscanned.verified _ (hscanned.adds package hmem)).resolve_left (Finset.notMem_empty _)

/-- A plan that passes the check agrees with the installed packages exactly when it never locks
one cartridge and version in two ways. -/
theorem verifyInstalled_complete_iff (h : plan.verifyInstalled library = .ok ()) :
    (∀ planned ∈ plan.instances,
      (∀ package ∈ planned.composition.root :: planned.composition.providers,
        ∃ archive, library.installedArchive package.cartridgeId package.version = .ok archive
          ∧ lockedPackage archive = package)
      ∧ ∃ archive, library.installedArchive planned.cartridgeId planned.version = .ok archive
          ∧ planned.packageSha256 = archive.packageSha256
          ∧ planned.packageBytes = archive.packageBytes)
      ↔ ∀ left ∈ plan.packages, ∀ right ∈ plan.packages, left.key = right.key → left = right := by
  constructor
  · intro hcomplete left hleft right hright hkey
    obtain ⟨one, hone, hleft⟩ := List.mem_flatMap.mp hleft
    obtain ⟨other, hother, hright⟩ := List.mem_flatMap.mp hright
    obtain ⟨archive, harchive, rfl⟩ := (hcomplete one hone).1 left hleft
    obtain ⟨archive', harchive', rfl⟩ := (hcomplete other hother).1 right hright
    obtain ⟨hid, hversion⟩ := Prod.mk.inj hkey
    rw [hid, hversion, harchive', Except.ok.injEq] at harchive
    rw [harchive]
  · intro hconsistent planned hplanned
    have hlocks : ∀ package ∈ packagesOf planned, ∃ archive,
        library.installedArchive package.cartridgeId package.version = .ok archive
          ∧ lockedPackage archive = package := by
      intro package hpackage
      have hmem : package ∈ plan.packages := List.mem_flatMap.mpr ⟨planned, hplanned, hpackage⟩
      obtain ⟨first, hfirst, hkey, hverify⟩ := verified_of_verifyInstalled h hmem
      rw [hconsistent first hfirst package hmem hkey] at hverify
      exact verifyLockedPackageInstalled_eq_ok.mp hverify
    refine ⟨hlocks, ?_⟩
    -- The root of the composition carries the identity of the instance.
    have hvalid : plan.validate = .ok () := by
      simp only [verifyInstalled, bind_eq_ok, exists_unit] at h
      exact h.1
    have hroot := (valid_of_validate hvalid).instances_valid.valid planned hplanned
    obtain ⟨archive, harchive, hlock⟩ := hlocks _ List.mem_cons_self
    rw [hroot.root_cartridgeId, hroot.root_version] at harchive
    refine ⟨archive, harchive, ?_, ?_⟩
    · rw [← hroot.root_sha256, ← hlock]
      rfl
    · rw [← hroot.root_bytes, ← hlock]
      rfl

end StackPlan

end

/-! ## A lock that goes unread -/

/-- The lock of the package with one byte. -/
def bytePackage : LockedPackage :=
  { smallPackage with
    packageSha256 := "6e340b9cffb37a989ca544e6bb780a2c78901d3fb33738768511a30617afa01d" }

/-- Every package declares the manifest of the lock. -/
@[reducible] def byteReader : PackageReader where
  readManifest _ := .ok
    { cartridgeId := bytePackage.cartridgeId
      version := bytePackage.version
      runtime := smallLimits
      componentSha256 := bytePackage.componentSha256
      assetsRootSha256 := bytePackage.assetsRootSha256 }

/-- A library with one installed package. -/
def byteLibrary : Library where
  installed := Std.ExtTreeMap.empty.insert bytePackage.cartridgeId
    (Std.ExtTreeMap.empty.insert bytePackage.version
      ⟨"package", bytePackage.packageSha256, bytePackage.packageBytes⟩)
  files := Std.ExtTreeMap.empty.insert "package" [0]

attribute [local instance] nibbleCodec Sha2.sha256 byteReader semver2

theorem installedArchive_byteLibrary :
    ∃ archive, byteLibrary.installedArchive bytePackage.cartridgeId bytePackage.version
        = .ok archive
      ∧ lockedPackage archive = bytePackage ∧ archive.manifest.runtime = smallLimits := by
  have hdigest : sha256Hex [0] = bytePackage.packageSha256 := by decide +kernel
  refine ⟨⟨⟨bytePackage.cartridgeId, bytePackage.version, smallLimits,
    bytePackage.componentSha256, bytePackage.assetsRootSha256⟩, 1, bytePackage.packageSha256⟩,
    ?_, by decide +kernel, rfl⟩
  simp [Library.installedArchive, Library.catalogPackage, Library.catalogRecord, byteLibrary,
    Library.openCatalogArchive, Library.openArchive, packageSnapshot, hashFile, hdigest, okOr]
  exact ⟨rfl, by decide, by decide, rfl, rfl⟩

/-- A lock of the installed cartridge and version passes when it is the right one, or when the key
was checked before. -/
theorem verifyInstance_byteLibrary {name : String} (hkey : package.key = bytePackage.key)
    (hlock : bytePackage.key ∈ checked ∨ package = bytePackage) :
    verifyInstance byteLibrary checked (smallInstance name package 1 .running {})
      = .ok (insert bytePackage.key checked) := by
  obtain ⟨archive, harchive, hlocked, hruntime⟩ := installedArchive_byteLibrary
  obtain ⟨hid, hversion⟩ := Prod.mk.inj hkey
  have hpackage : verifyPackage byteLibrary checked package
      = .ok (insert bytePackage.key checked) := by
    unfold verifyPackage
    rw [hkey]
    rcases hlock with hmem | rfl
    · rw [if_neg (not_not.mpr hmem)]
      rfl
    · have hverify := verifyLockedPackageInstalled_eq_ok.mpr ⟨archive, harchive, hlocked⟩
      split
      · rw [hverify]
        rfl
      · rfl
  have hpackages : packagesOf (smallInstance name package 1 .running {}) = [package] := rfl
  have hlimits : smallLimits.constrainedBy smallLimits = smallLimits := by decide
  unfold verifyInstance
  rw [hpackages, List.foldlM_cons, hpackage, ok_bind, List.foldlM_nil, pure_eq_ok, ok_bind]
  simp only [smallInstance, hid, hversion, harchive, ok_bind, hruntime, hlimits, ne_eq,
    not_true_eq_false, rejectIf, if_false, pure_eq_ok]

namespace StackPlan

/-- A plan of two instances, the first with the lock of the installed package. -/
def twoInstances [HexCodec] [Sha256] (package : LockedPackage) : StackPlan :=
  sealed (smallPlan [smallInstance "a" bytePackage 1 .running {},
    smallInstance "b" package 1 .running {}])

theorem twoInstances_valid :
    ∀ package, validatePlannedInstance (smallInstance "b" package 1 .running {}) .strict ∅ = .ok () →
      StackPlan.codec.size (smallPlan [smallInstance "a" bytePackage 1 .running {},
        smallInstance "b" package 1 .running {}]) ≤ maxStackPlanBytes →
      (twoInstances package).validate = .ok () := by
  intro package hb hsize
  have ha : validatePlannedInstance (smallInstance "a" bytePackage 1 .running {}) .strict ∅
      = .ok () := by
    decide +kernel
  refine smallPlan_valid {"b", "a"} (by simp) (by decide : 2 ≤ maxStackInstances) hsize ?_
  simp only [validatePlannedInstances, List.map_nil, List.toFinset_nil]
  rw [List.foldlM_cons, scanPlannedInstance_succeeds ha (by decide) (by decide) (by simp)
    (Finset.notMem_empty _), ok_bind, List.foldlM_cons, scanPlannedInstance_succeeds hb
    (by decide : 0 + 1 + 1 < 2 ^ 16) (by simp [smallInstance])
    (by rintro _ ⟨⟩; exact (by decide : "a" < "b"))
    (by decide : "b" ∉ insert "a" (∅ : Finset String))]
  rfl

/-- Two instances with the lock of the installed package agree with it. -/
theorem verifyInstalled_complete_two :
    let plan := twoInstances bytePackage
    plan.verifyInstalled byteLibrary = .ok ()
      ∧ ∀ planned ∈ plan.instances, ∃ archive,
          byteLibrary.installedArchive planned.cartridgeId planned.version = .ok archive
            ∧ planned.packageSha256 = archive.packageSha256
            ∧ planned.packageBytes = archive.packageBytes := by
  intro plan
  have hvalid : plan.validate = .ok () :=
    twoInstances_valid bytePackage (by decide +kernel) (by decide +kernel)
  have hinstances : plan.instances = [smallInstance "a" bytePackage 1 .running {},
    smallInstance "b" bytePackage 1 .running {}] := rfl
  have hverify : plan.verifyInstalled byteLibrary = .ok () := by
    rw [verifyInstalled, hvalid, ok_bind, hinstances, List.foldlM_cons,
      verifyInstance_byteLibrary rfl (.inr rfl), ok_bind, List.foldlM_cons,
      verifyInstance_byteLibrary rfl (.inr rfl)]
    rfl
  have hpackages : plan.packages = [bytePackage, bytePackage] := rfl
  refine ⟨hverify, fun planned hmem =>
    ((verifyInstalled_complete_iff hverify).mpr ?_ planned hmem).2⟩
  rw [hpackages]
  simp

/-- A second instance with the same key and another digest passes the check, although its lock is
not the one of the installed package. -/
theorem verifyInstalled_incomplete :
    let plan := twoInstances smallPackage
    plan.verifyInstalled byteLibrary = .ok ()
      ∧ ∃ planned ∈ plan.instances, ∃ archive,
          byteLibrary.installedArchive planned.cartridgeId planned.version = .ok archive
            ∧ lockedPackage archive ≠ planned.composition.root
            ∧ planned.packageSha256 ≠ archive.packageSha256 := by
  intro plan
  have hvalid : plan.validate = .ok () :=
    twoInstances_valid smallPackage (by decide +kernel) (by decide +kernel)
  have hinstances : plan.instances = [smallInstance "a" bytePackage 1 .running {},
    smallInstance "b" smallPackage 1 .running {}] := rfl
  obtain ⟨archive, harchive, hlocked, -⟩ := installedArchive_byteLibrary
  have hdiffer : bytePackage.packageSha256 ≠ smallPackage.packageSha256 := by decide
  refine ⟨?_, smallInstance "b" smallPackage 1 .running {}, by simp [hinstances], archive, harchive,
    fun heq => ?_, fun heq => ?_⟩
  · rw [verifyInstalled, hvalid, ok_bind, hinstances, List.foldlM_cons,
      verifyInstance_byteLibrary rfl (.inr rfl), ok_bind, List.foldlM_cons,
      verifyInstance_byteLibrary (rfl : smallPackage.key = bytePackage.key)
        (.inl (Finset.mem_insert_self ..))]
    rfl
  · exact hdiffer (congrArg LockedPackage.packageSha256 (hlocked.symm.trans heq))
  · exact hdiffer ((congrArg LockedPackage.packageSha256 hlocked).symm.trans heq.symm)

end StackPlan

end CartridgeRuntime.Engine
