import CartridgeRuntime.Identity.Registry
import CartridgeRuntime.Library.Sha2

/-!
# Publishing is not all or nothing

`publish_all_or_nothing_iff`: a call that fails leaves the registry as it was exactly when it does
not come to enter the version, and a call that succeeds is found by the next process exactly when
the version was new to the registry or was found before the call. The index in memory is extended
before the limit of the log, the checks of the whole index and the replacement of the file, and a
version that is in memory is not written again.
-/

namespace CartridgeRuntime.Identity

open Checked CartridgeRuntime.Core Encoding Stateful Std

variable {registry registry' : Registry} {call : Publication} {published : RegistryVersion}
  {identity : PackageIdentity} {bytes : List UInt8} {disk : ReplaceOutcomes}

/-! ## Storing -/

/-- The package and its signature are stored or can be, and the package and the clock can be read. -/
structure Publication.Storable (call : Publication) (bytes : List UInt8) : Prop where
  object : call.objects.object = some (.ok bytes)
    ∨ call.objects.object = none ∧ call.objects.writeObject = .ok ()
  signature : call.objects.signatureExists
    ∨ PackageSignature.codec.prettySize call.signature ≤ maxIdentityDocumentBytes
      ∧ call.objects.writeSignature = .ok ()
  archive : ∃ manifest, call.objects.archive = .ok manifest
  now : ∃ time, call.now = .ok time

theorem storeObject_eq_ok {objects : ObjectReadings} :
    storeObject objects bytes = .ok () ↔ objects.object = some (.ok bytes)
      ∨ objects.object = none ∧ objects.writeObject = .ok () := by
  unfold storeObject
  cases objects.object with
  | none => simp
  | some content =>
    cases content with
    | error error => simp [error_bind]
    | ok stored => simp [ok_bind, rejectIf_eq_ok]

theorem storeSignature_eq_ok {objects : ObjectReadings} {signature : PackageSignature} :
    storeSignature objects signature = .ok () ↔ objects.signatureExists
      ∨ PackageSignature.codec.prettySize signature ≤ maxIdentityDocumentBytes
        ∧ objects.writeSignature = .ok () := by
  unfold storeSignature
  cases objects.signatureExists with
  | true => simp [pure, Except.pure]
  | false => simp [bind_eq_ok, rejectIf_eq_ok]

/-- The entry of a stored package has its identity and the key of its signature. -/
theorem store_eq_ok (h : call.store identity bytes = .ok published) :
    published.identity = identity ∧ published.keyId = call.signature.keyId := by
  simp only [Publication.store, bind_eq_ok] at h
  obtain ⟨-, -, -, -, manifest, -, time, -, h⟩ := h
  cases h
  exact ⟨rfl, rfl⟩

theorem exists_store_iff :
    (∃ published, call.store identity bytes = .ok published) ↔ call.Storable bytes := by
  simp only [Publication.store, bind_eq_ok]
  constructor
  · rintro ⟨published, ⟨⟩, hobject, ⟨⟩, hsignature, manifest, harchive, time, hnow, -⟩
    exact ⟨storeObject_eq_ok.mp hobject, storeSignature_eq_ok.mp hsignature,
      ⟨manifest, harchive⟩, ⟨time, hnow⟩⟩
  · rintro ⟨hobject, hsignature, ⟨manifest, harchive⟩, ⟨time, hnow⟩⟩
    exact ⟨_, (), storeObject_eq_ok.mpr hobject, (), storeSignature_eq_ok.mpr hsignature,
      manifest, harchive, time, hnow, rfl⟩

/-! ## Entering a version -/

section

variable [HexCodec] [Sha256]

/-- The packages of the index are the same. -/
def SamePackages (before after : Registry) : Prop :=
  after.index.packages = before.index.packages

section

omit [HexCodec] [Sha256]

theorem SamePackages.refl (registry : Registry) : SamePackages registry registry := rfl

theorem SamePackages.trans (first second third : Registry) (h : SamePackages first second)
    (h' : SamePackages second third) : SamePackages first third :=
  Eq.trans h' h

end

theorem keeps_appendTransparency (identity : PackageIdentity) (signingKey : String) :
    Keeps SamePackages (appendTransparency identity signingKey) := by
  refine Keeps.get_bind fun registry => Keeps.bind SamePackages.trans ?_ (fun _ => ?_) registry
  · exact Keeps.check SamePackages.refl _
  · exact Keeps.modify fun _ => rfl

variable [Semver]

theorem keeps_save (disk : ReplaceOutcomes) : Keeps SamePackages (save disk) := by
  refine Keeps.get_bind fun registry => Keeps.bind SamePackages.trans ?_ (fun _ => ?_) registry
  · exact Keeps.check SamePackages.refl _
  · refine Keeps.focus ?_ _
    exact fun registry _ => SamePackages.refl registry

/-- Entering a version adds it to the packages in memory, however the call ends. -/
theorem packages_finalState_enter (published : RegistryVersion) (disk : ReplaceOutcomes)
    (registry : Registry) :
    (finalState ((enter published disk).run registry)).index.packages
      = (registry.index.insert published).packages := by
  have hkeeps : Keeps SamePackages (do
      appendTransparency published.identity published.keyId
      save disk
      pure published) :=
    Keeps.bind SamePackages.trans (keeps_appendTransparency _ _) fun _ =>
      Keeps.bind SamePackages.trans (keeps_save disk) fun _ => Keeps.pure SamePackages.refl _
  rw [enter, run_modify_bind]
  exact hkeeps { registry with index := registry.index.insert published }

theorem find?_finalState_enter (published : RegistryVersion) (disk : ReplaceOutcomes)
    (registry : Registry) :
    (finalState ((enter published disk).run registry)).index.find?
      published.identity.cartridgeId published.identity.version = some published := by
  rw [RegistryIndex.find?, packages_finalState_enter]
  exact registry.index.find?_insert published

/-- A version that was entered and saved is what the directory holds, without a backup. -/
theorem directory_of_run_enter {value : RegistryVersion}
    (h : (enter published disk).run registry = .ok value registry') :
    value = published ∧ validateRegistry registry'.index = .ok ()
      ∧ registry'.directory = { current := some (.ok registry'.index), previous := none } := by
  rw [enter, run_modify_bind] at h
  obtain ⟨⟨⟩, logged, -, h⟩ := run_bind_eq_ok.mp h
  obtain ⟨⟨⟩, saved, hsave, h⟩ := run_bind_eq_ok.mp h
  cases h
  rw [save, run_get_bind, run_check_bind_eq_ok] at hsave
  obtain ⟨⟨⟩, hvalid, hsave⟩ := hsave
  obtain ⟨directory, hreplace, rfl⟩ := run_focus_eq_ok.mp hsave
  exact ⟨rfl, hvalid, eq_of_run_atomicJsonReplace hreplace⟩

/-! ## What a call does -/

variable [Ed25519] [ArchiveReader]

/-- The package of a call can be read and its signature is trusted. -/
def Publication.Verified (call : Publication) (bytes : List UInt8) (identity : PackageIdentity) :
    Prop :=
  call.package = .ok bytes ∧ call.trust.verifyBytes bytes call.signature = .ok identity

/-- The call comes to enter the version: the package is trusted, there is room for another version,
this one is new, and its files can be stored. -/
def Publication.Inserts (call : Publication) (registry : Registry) : Prop :=
  ∃ bytes identity, call.Verified bytes identity
    ∧ registry.index.versionCount < maxRegistryVersions
    ∧ registry.index.find? identity.cartridgeId identity.version = none ∧ call.Storable bytes

theorem run_publish_of_verified (hverified : call.Verified bytes identity)
    (hroom : registry.index.versionCount < maxRegistryVersions) :
    (publish call).run registry =
      match registry.index.find? identity.cartridgeId identity.version with
      | some existing => (do
          check (rejectIf (existing.identity.packageSha256 ≠ identity.packageSha256)
            "registry versions are immutable")
          pure existing : RegistryM RegistryVersion).run registry
      | none => (do
          let published ← check (call.store identity bytes)
          enter published call.disk : RegistryM RegistryVersion).run registry := by
  rw [publish, hverified.1, run_check_ok_bind, hverified.2, run_check_ok_bind, run_get_bind]
  dsimp only
  rw [rejectIf_of_not _ (Nat.not_le.mpr hroom), run_check_ok_bind]
  cases registry.index.find? identity.cartridgeId identity.version <;> rfl

/-- A call that does not come to enter the version leaves the registry as it is. -/
theorem finalState_publish_of_not_inserts (h : ¬ call.Inserts registry) :
    finalState ((publish call).run registry) = registry := by
  cases hpackage : call.package with
  | error error => rw [publish, hpackage, run_check_error_bind, finalState]
  | ok bytes =>
  cases hverify : call.trust.verifyBytes bytes call.signature with
  | error error =>
    rw [publish, hpackage, run_check_ok_bind, hverify, run_check_error_bind, finalState]
  | ok identity =>
  by_cases hroom : registry.index.versionCount < maxRegistryVersions
  · rw [run_publish_of_verified ⟨hpackage, hverify⟩ hroom]
    cases hfind : registry.index.find? identity.cartridgeId identity.version with
    | some existing =>
      rw [finalState_bind_pure (f := fun _ => existing)]
      cases rejectIf (existing.identity.packageSha256 ≠ identity.packageSha256)
        "registry versions are immutable" <;> rfl
    | none =>
      cases hstore : call.store identity bytes with
      | error error => rfl
      | ok published =>
        exact absurd ⟨bytes, identity, ⟨hpackage, hverify⟩, hroom, hfind,
          exists_store_iff.mp ⟨published, hstore⟩⟩ h
  · rw [publish, hpackage, run_check_ok_bind, hverify, run_check_ok_bind, run_get_bind]
    dsimp only
    rw [rejectIf_of _ (Nat.not_lt.mp hroom), run_check_error_bind, finalState]

/-- A call that comes to enter the version does that, and nothing else. -/
theorem run_publish_of_inserts (h : call.Inserts registry) :
    ∃ bytes identity published, call.Verified bytes identity ∧ published.identity = identity
      ∧ published.keyId = call.signature.keyId
      ∧ registry.index.versionCount < maxRegistryVersions
      ∧ registry.index.find? identity.cartridgeId identity.version = none
      ∧ (publish call).run registry = (enter published call.disk).run registry := by
  obtain ⟨bytes, identity, hverified, hroom, hfind, hstorable⟩ := h
  obtain ⟨published, hstore⟩ := exists_store_iff.mpr hstorable
  obtain ⟨hidentity, hkey⟩ := store_eq_ok hstore
  refine ⟨bytes, identity, published, hverified, hidentity, hkey, hroom, hfind, ?_⟩
  rw [run_publish_of_verified hverified hroom, hfind, hstore]
  exact run_check_ok_bind _ _ _

variable {version : RegistryVersion}

/-- A call that succeeds without entering the version changes nothing and returns what is in
memory. -/
theorem eq_of_run_publish_of_not_inserts (h : ¬ call.Inserts registry)
    (hrun : (publish call).run registry = .ok version registry') : registry' = registry := by
  have hstate := finalState_publish_of_not_inserts h
  rw [hrun] at hstate
  exact hstate

/-- Every call that succeeds has a trusted package. -/
theorem verified_of_run_publish (h : (publish call).run registry = .ok version registry') :
    ∃ bytes identity, call.Verified bytes identity := by
  rw [publish, run_check_bind_eq_ok] at h
  obtain ⟨bytes, hpackage, h⟩ := h
  rw [run_check_bind_eq_ok] at h
  obtain ⟨identity, hverify, -⟩ := h
  exact ⟨bytes, identity, hpackage, hverify⟩

/-- Every call that succeeds found room for another version. -/
theorem room_of_run_publish (hverified : call.Verified bytes identity)
    (h : (publish call).run registry = .ok version registry') :
    registry.index.versionCount < maxRegistryVersions := by
  by_contra hfull
  rw [publish, hverified.1, run_check_ok_bind, hverified.2, run_check_ok_bind, run_get_bind] at h
  dsimp only at h
  rw [rejectIf_of _ (Nat.not_lt.mp hfull), run_check_error_bind] at h
  cases h

/-! ## Reopening -/

/-- The version of a call is in memory. -/
def Publication.Known (call : Publication) (registry : Registry) : Prop :=
  ∃ bytes identity, call.Verified bytes identity
    ∧ (registry.index.find? identity.cartridgeId identity.version).isSome

/-- A process that opens the directory finds the version of a call with its digest and a key. -/
def Publication.FoundIn (call : Publication) (directory : Directory RegistryIndex)
    (quarantined : Bool) (key : String) : Prop :=
  ∃ bytes identity reopened stored, call.Verified bytes identity
    ∧ openRegistry directory quarantined = .ok reopened
    ∧ reopened.index.find? identity.cartridgeId identity.version = some stored
    ∧ stored.identity.packageSha256 = identity.packageSha256 ∧ stored.keyId = key

omit [Ed25519] [ArchiveReader] in
theorem openRegistry_of_valid {index : RegistryIndex} (quarantined : Bool)
    (h : validateRegistry index = .ok ()) :
    openRegistry { current := some (.ok index), previous := none } quarantined
      = .ok { index, directory := { current := some (.ok index), previous := none } } := by
  simp only [openRegistry, recoverRegistryIndex, readIndex, Option.getD_some, pure, Except.pure,
    ok_bind, h]

theorem Publication.Verified.unique {bytes' : List UInt8} {identity' : PackageIdentity}
    (h : call.Verified bytes identity) (h' : call.Verified bytes' identity') :
    identity' = identity := by
  obtain rfl : bytes' = bytes := Except.ok.inj (h'.1.symm.trans h.1)
  exact Except.ok.inj (h'.2.symm.trans h.2)

theorem not_known_of_inserts (h : call.Inserts registry) : ¬ call.Known registry := by
  rintro ⟨bytes', identity', hverified', hknown⟩
  obtain ⟨bytes, identity, hverified, -, hfind, -⟩ := h
  rw [hverified.unique hverified', hfind] at hknown
  cases hknown

/-- A version that was entered and saved is found with the key of its signature. -/
theorem foundIn_of_inserts (quarantined : Bool) (h : call.Inserts registry)
    (hrun : (publish call).run registry = .ok version registry') :
    version.keyId = call.signature.keyId
      ∧ call.FoundIn registry'.directory quarantined call.signature.keyId := by
  obtain ⟨bytes, identity, published, hverified, hidentity, hkey, -, -, heq⟩ :=
    run_publish_of_inserts h
  rw [heq] at hrun
  obtain ⟨rfl, hvalid, hdirectory⟩ := directory_of_run_enter hrun
  have hfind := find?_finalState_enter version call.disk registry
  rw [hrun, hidentity] at hfind
  have hopen : openRegistry registry'.directory quarantined = .ok registry' := by
    rw [hdirectory, openRegistry_of_valid quarantined hvalid, ← hdirectory]
  exact ⟨hkey, bytes, identity, registry', version, hverified, hopen, hfind, by rw [hidentity],
    hkey⟩

/-- A call that succeeds without entering the version has it in memory. -/
theorem known_of_not_inserts (h : ¬ call.Inserts registry)
    (hrun : (publish call).run registry = .ok version registry') : call.Known registry := by
  obtain ⟨bytes, identity, hverified⟩ := verified_of_run_publish hrun
  have hroom := room_of_run_publish hverified hrun
  refine ⟨bytes, identity, hverified, ?_⟩
  cases hfind : registry.index.find? identity.cartridgeId identity.version with
  | some existing => rfl
  | none =>
    rw [run_publish_of_verified hverified hroom, hfind] at hrun
    dsimp only at hrun
    rw [run_check_bind_eq_ok] at hrun
    obtain ⟨published, hstore, -⟩ := hrun
    exact absurd ⟨bytes, identity, hverified, hroom, hfind, exists_store_iff.mp ⟨_, hstore⟩⟩ h

end

/-! ## Later operations -/

/-- What can be done with an open registry. -/
inductive Operation where
  | resolve (id requirement : String)
  | transparency
  | audit (trust : TrustStore) (stored : StoredObjects)
  | publish (call : Publication)

/-- What an operation answers. -/
inductive Reply where
  | resolved (version : Except String (Option RegistryVersion))
  | transparency (log : List TransparencyEntry)
  | audited (count : Except String Nat)
  | published (version : Except String RegistryVersion)

section

variable [SemverValues] [HexCodec] [Sha256] [Ed25519] [ArchiveReader]

/-- What a registry answers. -/
def Operation.reply (registry : Registry) : Operation → Reply
  | .resolve id requirement => .resolved (registry.resolve id requirement)
  | .transparency => .transparency registry.transparency
  | .audit trust stored => .audited (registry.audit trust stored)
  | .publish call => .published (answer ((Identity.publish call).run registry))

/-- The registry after an operation. -/
def Operation.next (registry : Registry) : Operation → Registry
  | .publish call => finalState ((Identity.publish call).run registry)
  | _ => registry

/-- The answers of operations one after the other. -/
def replies (registry : Registry) : List Operation → List Reply
  | [] => []
  | operation :: operations =>
    operation.reply registry :: replies (operation.next registry) operations

/-- No later operations tell the two registries apart. -/
def Unaffected (before after : Registry) : Prop :=
  ∀ operations, replies after operations = replies before operations

/-- The same call when the stored package can no longer be read. -/
def Publication.unreadable (call : Publication) : Publication :=
  { call with objects := { call.objects with archive := .error "unreadable" } }

omit [SemverValues] [HexCodec] [Sha256] [Ed25519] [ArchiveReader] in
theorem store_unreadable (hstorable : call.Storable bytes) :
    call.unreadable.store identity bytes = .error "unreadable" := by
  have hobject : storeObject call.unreadable.objects bytes = .ok () :=
    storeObject_eq_ok.mpr hstorable.object
  have hsignature : storeSignature call.unreadable.objects call.unreadable.signature = .ok () :=
    storeSignature_eq_ok.mpr hstorable.signature
  rw [Publication.store, hobject, ok_bind, hsignature, ok_bind]
  rfl

/-- Before the version is in memory, an unreadable package is an error. -/
theorem answer_unreadable_of_inserts (h : call.Inserts registry) :
    answer ((publish call.unreadable).run registry) = .error "unreadable" := by
  obtain ⟨bytes, identity, hverified, hroom, hfind, hstorable⟩ := h
  have hunreadable : call.unreadable.Verified bytes identity := hverified
  rw [run_publish_of_verified hunreadable hroom, hfind, store_unreadable hstorable]
  rfl

/-- Once the version is in memory, the package is not read again. -/
theorem answer_unreadable_of_find? (hverified : call.Verified bytes identity)
    (hfind : registry.index.find? identity.cartridgeId identity.version = some published) 
    (hdigest : published.identity = identity) :
    answer ((publish call.unreadable).run registry) ≠ .error "unreadable" := by
  have hunreadable : call.unreadable.Verified bytes identity := hverified
  by_cases hroom : registry.index.versionCount < maxRegistryVersions
  · rw [run_publish_of_verified hunreadable hroom, hfind]
    dsimp only
    rw [rejectIf_of_not _ (not_not.mpr (congrArg PackageIdentity.packageSha256 hdigest)),
      run_check_ok_bind]
    simp [answer]
  · rw [publish, hunreadable.1, run_check_ok_bind, hunreadable.2, run_check_ok_bind, run_get_bind]
    dsimp only
    rw [rejectIf_of _ (Nat.not_lt.mp hroom), run_check_error_bind]
    simp [answer]

/-- A call that enters the version and then fails is noticed. -/
theorem not_unaffected_of_inserts (h : call.Inserts registry) :
    ¬ Unaffected registry (finalState ((publish call).run registry)) := by
  intro hunaffected
  have hreplies := hunaffected [.publish call.unreadable]
  simp only [replies, Operation.reply, List.cons.injEq, Reply.published.injEq, and_true] at hreplies
  rw [answer_unreadable_of_inserts h] at hreplies
  obtain ⟨bytes, identity, published, hverified, hidentity, -, -, -, hrun⟩ :=
    run_publish_of_inserts h
  have hfind := find?_finalState_enter published call.disk registry
  rw [hidentity] at hfind
  rw [← hrun] at hfind
  exact answer_unreadable_of_find? hverified hfind hidentity hreplies

/-- A call that fails goes unnoticed exactly when it does not come to enter its version. A call that
succeeds is found by the next process, under the key it was signed with or the key it returns,
exactly when the version was not in memory before or was found before. -/
theorem publish_all_or_nothing_iff (call : Publication) (registry : Registry)
    (quarantined : Bool) :
    match (publish call).run registry with
    | .error _ registry' => Unaffected registry registry' ↔ ¬ call.Inserts registry
    | .ok version registry' => ∀ key ∈ [version.keyId, call.signature.keyId],
        (call.FoundIn registry'.directory quarantined key
          ↔ (call.Known registry → call.FoundIn registry.directory quarantined key)) := by
  cases hrun : (publish call).run registry with
  | error error registry' =>
    have hstate : finalState ((publish call).run registry) = registry' := by rw [hrun]; rfl
    constructor
    · intro hunaffected hinserts
      exact not_unaffected_of_inserts hinserts (hstate ▸ hunaffected)
    · intro hinserts
      obtain rfl : registry' = registry :=
        hstate.symm.trans (finalState_publish_of_not_inserts hinserts)
      exact fun _ => rfl
  | ok version registry' =>
    intro key hkey
    by_cases hinserts : call.Inserts registry
    · obtain ⟨hversion, hfound⟩ := foundIn_of_inserts quarantined hinserts hrun
      obtain rfl : key = call.signature.keyId := by simpa [hversion] using hkey
      exact iff_of_true hfound fun hknown => absurd hknown (not_known_of_inserts hinserts)
    · obtain rfl := eq_of_run_publish_of_not_inserts hinserts hrun
      exact ⟨fun hfound _ => hfound, fun h => h (known_of_not_inserts hinserts hrun)⟩

end

/-! ## A publication that is repeated -/

section

variable [HexCodec] [Sha256] [Ed25519] [ArchiveReader]

/-- A store that trusts one developer key. -/
def demoTrust : TrustStore :=
  match TrustStore.new.trust ⟨Ed25519.publicKey [7], Ed25519.length_publicKey [7]⟩ "developer" ∅ with
  | .ok (store, _) => store
  | .error _ => .new

/-- The publication of a signed package, with an objects directory that is empty. -/
def demoCall (disk : ReplaceOutcomes) : Option Publication :=
  match signPackage [7] [1, 2, 3], ArchiveReader.readManifest [1, 2, 3] with
  | .ok signature, .ok manifest => some
      { package := .ok [1, 2, 3]
        signature
        trust := demoTrust
        objects :=
          { object := none
            writeObject := .ok ()
            signatureExists := false
            writeSignature := .ok ()
            archive := .ok manifest }
        now := .ok 1
        disk }
  | _, _ => none

end

attribute [local instance] semver2Values nibbleCodec Sha2.sha256 headScheme demoReader

/-- The disk is full when the index is replaced, and has room again when the call is repeated. The
repeated call succeeds, but the directory has no index: the next process does not find the version,
while the registry that was open resolves it. -/
theorem publish_repeated_not_stored :
    ∃ full call failed repeated,
      demoCall { writeTemporary := .error "No space left on device" } = some full
      ∧ demoCall {} = some call
      ∧ (publish full).run {} = .error "No space left on device" failed
      ∧ ¬ Unaffected {} failed
      ∧ (∃ version, (publish call).run failed = .ok version repeated)
      ∧ (repeated.resolve "dev.test.signed" "^1.0.0").map Option.isSome = .ok true
      ∧ (openRegistry repeated.directory false).map
          (fun reopened => reopened.index.find? "dev.test.signed" "1.0.0") = .ok none := by
  have hrun : ((demoCall { writeTemporary := .error "No space left on device" }).bind fun full =>
      (demoCall {}).map fun call =>
        let failed := (publish full).run {}
        let repeated := (publish call).run (finalState failed)
        (decide (answer failed = .error "No space left on device"),
          (finalState failed).transparency.length, (answer repeated).isOk,
          ((finalState repeated).resolve "dev.test.signed" "^1.0.0").map Option.isSome,
          decide ((openRegistry (finalState repeated).directory false).map
            (fun reopened => reopened.index.find? "dev.test.signed" "1.0.0") = .ok none)))
      = some (true, 1, true, .ok true, true) := by
    decide +kernel
  obtain ⟨full, hfull, hrun⟩ := Option.bind_eq_some_iff.mp hrun
  obtain ⟨call, hcall, hrun⟩ := Option.map_eq_some_iff.mp hrun
  simp only [Prod.mk.injEq, decide_eq_true_eq] at hrun
  obtain ⟨hfailed, hlog, hrepeated, hresolve, hreopened⟩ := hrun
  refine ⟨full, call, _, _, hfull, hcall, eq_error_of_answer hfailed, fun hunaffected => ?_, ?_,
    hresolve, hreopened⟩
  · have hreplies := hunaffected [.transparency]
    simp only [replies, Operation.reply, List.cons.injEq, Reply.transparency.injEq,
      and_true] at hreplies
    rw [hreplies] at hlog
    cases hlog
  · cases hanswer : answer ((publish call).run (finalState ((publish full).run {}))) with
    | error error =>
      rw [hanswer] at hrepeated
      cases hrepeated
    | ok version => exact ⟨version, eq_ok_of_answer hanswer⟩

end CartridgeRuntime.Identity
