import CartridgeRuntime.Identity.Trust
import CartridgeRuntime.Library.Sha2

/-!
# Where an accepted key comes from

`revocation_final`: in every history of a trust store in which no rotation away from a revoked key is
applied, a key whose signature is accepted is not revoked and was trusted, or was reached from a
trusted key by rotations whose old keys were not revoked at the time. `applyRotation` does not
consult the revocations, so the condition on the history is needed: `revoked_key_names_successor`.
-/

namespace CartridgeRuntime.Identity

open Checked CartridgeRuntime.Core Encoding Std

/-! ## Histories -/

/-- A call that changes a trust store. -/
inductive TrustCall where
  | trust (publicKey : PublicKey) (label : String) (recoveryKeys : Finset String)
  | applyRotation (rotation : KeyRotation)
  | applyRevocation (record : RevocationRecord)

section

variable [HexCodec] [Sha256] [Ed25519]

/-- The store after a call. -/
def TrustCall.run (store : TrustStore) : TrustCall → Except String TrustStore
  | .trust publicKey label recoveryKeys =>
    (store.trust publicKey label recoveryKeys).map Prod.fst
  | .applyRotation rotation => store.applyRotation rotation
  | .applyRevocation record => store.applyRevocation record

/-- The store after a call. One that fails changes nothing: all checks come first. -/
def TrustCall.next (store : TrustStore) (call : TrustCall) : TrustStore :=
  match call.run store with
  | .ok store' => store'
  | .error _ => store

/-- The store after some calls, of which the last comes first. -/
def storeAfter (start : TrustStore) : List TrustCall → TrustStore
  | [] => start
  | call :: past => call.next (storeAfter start past)

/-- The key was trusted, or reached from a trusted key by rotations, none of which was applied when
its old key was revoked. -/
inductive Authorized (start : TrustStore) : List TrustCall → String → Prop where
  | initial {id : String} (h : id ∈ start.trusted) : Authorized start [] id
  | trusted {past : List TrustCall} {publicKey : PublicKey} {label : String}
      {recoveryKeys : Finset String}
      (h : ((TrustCall.trust publicKey label recoveryKeys).run (storeAfter start past)).isOk) :
      Authorized start (.trust publicKey label recoveryKeys :: past) (keyId publicKey.val)
  | rotated {past : List TrustCall} {rotation : KeyRotation}
      (hold : Authorized start past rotation.oldKeyId)
      (hrevoked : rotation.oldKeyId ∉ (storeAfter start past).revoked)
      (h : ((TrustCall.applyRotation rotation).run (storeAfter start past)).isOk) :
      Authorized start (.applyRotation rotation :: past) rotation.newKeyId
  | later {past : List TrustCall} {id : String} (call : TrustCall)
      (h : Authorized start past id) : Authorized start (call :: past) id

/-- No rotation away from a revoked key is asked for. -/
def Prudent (start : TrustStore) : List TrustCall → Prop
  | [] => True
  | .applyRotation rotation :: past =>
    Prudent start past ∧ rotation.oldKeyId ∉ (storeAfter start past).revoked
  | _ :: past => Prudent start past

/-! ## What a call does to the trusted keys -/

variable {start store store' : TrustStore} {past : List TrustCall} {id : String}

omit [Ed25519] in
theorem mem_trusted_of_trust {publicKey : PublicKey} {label added : String}
    {recoveryKeys : Finset String}
    (h : store.trust publicKey label recoveryKeys = .ok (store', added)) :
    id ∈ store'.trusted → id = keyId publicKey.val ∨ id ∈ store.trusted := by
  simp only [TrustStore.trust, bind_eq_ok] at h
  obtain ⟨-, -, -, -, h⟩ := h
  cases h
  intro hmem
  rw [ExtTreeMap.mem_insert, Std.compare_eq_iff_eq] at hmem
  exact hmem.imp_left Eq.symm

/-- What a rotation that was applied says of its keys. -/
theorem applyRotation_eq_ok {rotation : KeyRotation}
    (h : store.applyRotation rotation = .ok store') :
    rotation.oldKeyId ∈ store.trusted
      ∧ (id ∈ store'.trusted → id = rotation.newKeyId ∨ id ∈ store.trusted) := by
  simp only [TrustStore.applyRotation, bind_eq_ok, okOr_eq_ok] at h
  obtain ⟨-, -, old, hold, -, -, key, -, ⟨⟩, hkey, h⟩ := h
  have hid := not_not.mp (rejectIf_eq_ok.mp hkey)
  cases h
  refine ⟨ExtTreeMap.mem_iff_isSome_getElem?.mpr (by rw [hold]; rfl), fun hmem => ?_⟩
  rw [ExtTreeMap.mem_insert, Std.compare_eq_iff_eq, hid] at hmem
  exact hmem.imp Eq.symm ExtTreeMap.mem_of_mem_erase

theorem trusted_of_applyRevocation {record : RevocationRecord}
    (h : store.applyRevocation record = .ok store') : store'.trusted = store.trusted := by
  simp only [TrustStore.applyRevocation, bind_eq_ok] at h
  obtain ⟨-, -, trusted, -, signer, -, -, -, h⟩ := h
  cases h
  rfl

/-- Every trusted key is authorized. -/
theorem authorized_of_mem_trusted (hprudent : Prudent start past)
    (h : id ∈ (storeAfter start past).trusted) : Authorized start past id := by
  induction past generalizing id with
  | nil => exact .initial h
  | cons call past ih =>
    rw [storeAfter, TrustCall.next] at h
    split at h
    · rename_i store' hrun
      have hok : (call.run (storeAfter start past)).isOk := by rw [hrun]; rfl
      cases call with
      | trust publicKey label recoveryKeys =>
        obtain ⟨⟨_, added⟩, htrust, rfl⟩ := map_eq_ok.mp hrun
        rcases mem_trusted_of_trust htrust h with rfl | h
        · exact .trusted hok
        · exact .later _ (ih hprudent h)
      | applyRotation rotation =>
        obtain ⟨hold, hmem⟩ := applyRotation_eq_ok hrun
        rcases hmem h with rfl | h
        · exact .rotated (ih hprudent.1 hold) hprudent.2 hok
        · exact .later _ (ih hprudent.1 h)
      | applyRevocation record =>
        rw [trusted_of_applyRevocation hrun] at h
        exact .later _ (ih hprudent h)
    · -- a call that failed left the store alone
      have hpast : Prudent start past := by
        cases call with
        | applyRotation rotation => exact hprudent.1
        | trust | applyRevocation => exact hprudent
      exact .later _ (ih hpast h)

/-! ## Verification -/

theorem not_revoked_of_verifyTrustedBytes {publicKey domain signature : String}
    {bytes : List UInt8}
    (h : store.verifyTrustedBytes id publicKey domain bytes signature = .ok ()) :
    id ∉ store.revoked ∧ id ∈ store.trusted := by
  simp only [TrustStore.verifyTrustedBytes, bind_eq_ok, okOr_eq_ok] at h
  obtain ⟨-, -, ⟨⟩, hrevoked, trusted, htrusted, -⟩ := h
  exact ⟨rejectIf_eq_ok.mp hrevoked, ExtTreeMap.mem_iff_isSome_getElem?.mpr (by rw [htrusted]; rfl)⟩

variable [Semver] [ArchiveReader]

theorem not_revoked_of_verifyBytes {bytes : List UInt8} {signature : PackageSignature}
    {identity : PackageIdentity} (h : store.verifyBytes bytes signature = .ok identity) :
    signature.keyId ∉ store.revoked ∧ signature.keyId ∈ store.trusted := by
  simp only [TrustStore.verifyBytes, bind_eq_ok, okOr_eq_ok] at h
  obtain ⟨-, -, ⟨⟩, hrevoked, trusted, htrusted, -⟩ := h
  exact ⟨rejectIf_eq_ok.mp hrevoked, ExtTreeMap.mem_iff_isSome_getElem?.mpr (by rw [htrusted]; rfl)⟩

/-- The verifications of a store accept no revoked key, and only keys that were trusted or reached
by rotations from keys that were not revoked at the time. -/
theorem revocation_final (start : TrustStore) (past : List TrustCall)
    (hprudent : Prudent start past) :
    (∀ bytes signature identity,
      (storeAfter start past).verifyBytes bytes signature = .ok identity →
        signature.keyId ∉ (storeAfter start past).revoked
          ∧ Authorized start past signature.keyId)
    ∧ ∀ id publicKey domain bytes signature,
      (storeAfter start past).verifyTrustedBytes id publicKey domain bytes signature = .ok () →
        id ∉ (storeAfter start past).revoked ∧ Authorized start past id := by
  constructor
  · intro bytes signature identity hverify
    obtain ⟨hrevoked, htrusted⟩ := not_revoked_of_verifyBytes hverify
    exact ⟨hrevoked, authorized_of_mem_trusted hprudent htrusted⟩
  · intro id publicKey domain bytes signature hverify
    obtain ⟨hrevoked, htrusted⟩ := not_revoked_of_verifyTrustedBytes hverify
    exact ⟨hrevoked, authorized_of_mem_trusted hprudent htrusted⟩

end

section

variable [HexCodec] [Sha256] [Ed25519]

/-- The public key of a developer. -/
def developerPublicKey (secret : List UInt8) : PublicKey :=
  ⟨Ed25519.publicKey secret, Ed25519.length_publicKey secret⟩

/-- A developer key is trusted. -/
def trustDeveloper (secret : List UInt8) : TrustCall :=
  .trust (developerPublicKey secret) "developer" ∅

end

attribute [local instance] semver2Values nibbleCodec Sha2.sha256 headScheme demoReader

/-- Two developer keys are trusted, one of them is revoked and the other one rotated. A package that
is signed with the new key is accepted. -/
theorem revocation_final_rotated_key :
    ∃ record rotation signature identity,
      let past := [.applyRotation rotation, .applyRevocation record, trustDeveloper [9],
        trustDeveloper [7]]
      Prudent .new past
        ∧ developerKeyId [9] ∈ (storeAfter .new past).revoked
        ∧ rotation.oldKeyId = developerKeyId [7] ∧ rotation.newKeyId = signature.keyId
        ∧ (storeAfter .new past).verifyBytes [1, 2, 3] signature = .ok identity
        ∧ signature.keyId ∉ (storeAfter .new past).revoked
        ∧ Authorized .new past signature.keyId := by
  have hrun : (do
      let record ← RevocationRecord.create (developerKeyId [9]) [9] "lost key"
      let rotation ← KeyRotation.create [7] [8] "routine rotation"
      let signature ← signPackage [8] [1, 2, 3]
      let before := storeAfter .new [.applyRevocation record, trustDeveloper [9],
        trustDeveloper [7]]
      let store := storeAfter .new [.applyRotation rotation, .applyRevocation record,
        trustDeveloper [9], trustDeveloper [7]]
      let identity ← store.verifyBytes [1, 2, 3] signature
      return (identity.cartridgeId, decide (rotation.oldKeyId ∉ before.revoked),
        decide (developerKeyId [9] ∈ store.revoked),
        decide (rotation.oldKeyId = developerKeyId [7]),
        decide (rotation.newKeyId = signature.keyId)))
      = Except.ok ("dev.test.signed", true, true, true, true) := by
    decide +kernel
  simp only [bind_eq_ok, pure, Except.pure, Except.ok.injEq, Prod.mk.injEq, decide_eq_true_eq]
    at hrun
  obtain ⟨record, -, rotation, -, signature, -, identity, hverify, -, hbefore, hrevoked, hold,
    hnew⟩ := hrun
  have hprudent : Prudent .new [.applyRotation rotation, .applyRevocation record,
      trustDeveloper [9], trustDeveloper [7]] := ⟨trivial, hbefore⟩
  obtain ⟨hnotRevoked, hauthorized⟩ := (revocation_final _ _ hprudent).1 _ _ _ hverify
  exact ⟨record, rotation, signature, identity, hprudent, hrevoked, hold, hnew, hverify, hnotRevoked,
    hauthorized⟩

/-- A developer key is trusted and revoked. Whoever holds it rotates it to another key afterwards,
and a package signed with that key is accepted. -/
theorem revoked_key_names_successor :
    ∃ record rotation signature identity,
      RevocationRecord.create (developerKeyId [7]) [7] "lost key" = .ok record
      ∧ KeyRotation.create [7] [8] "routine rotation" = .ok rotation
      ∧ signPackage [8] [1, 2, 3] = .ok signature
      ∧ developerKeyId [7] ∈ (storeAfter .new [.applyRevocation record, trustDeveloper [7]]).revoked
      ∧ (storeAfter .new [.applyRotation rotation, .applyRevocation record,
          trustDeveloper [7]]).verifyBytes [1, 2, 3] signature = .ok identity
      ∧ ¬ Authorized .new [.applyRotation rotation, .applyRevocation record,
          trustDeveloper [7]] signature.keyId := by
  have hrun : (do
      let record ← RevocationRecord.create (developerKeyId [7]) [7] "lost key"
      let rotation ← KeyRotation.create [7] [8] "routine rotation"
      let signature ← signPackage [8] [1, 2, 3]
      let identity ← (storeAfter .new [.applyRotation rotation, .applyRevocation record,
        trustDeveloper [7]]).verifyBytes [1, 2, 3] signature
      return (identity.cartridgeId, decide (developerKeyId [7] = rotation.oldKeyId),
        decide (signature.keyId = developerKeyId [7]), decide (developerKeyId [7]
          ∈ (storeAfter .new [.applyRevocation record, trustDeveloper [7]]).revoked)))
      = Except.ok ("dev.test.signed", true, false, true) := by
    decide +kernel
  simp only [bind_eq_ok, pure, Except.pure, Except.ok.injEq, Prod.mk.injEq, decide_eq_true_eq,
    decide_eq_false_iff_not] at hrun
  obtain ⟨record, hrecord, rotation, hrotation, signature, hsignature, identity, hverify, -, hold,
    hkey, hrevoked⟩ := hrun
  refine ⟨record, rotation, signature, identity, hrecord, hrotation, hsignature, hrevoked, hverify,
    fun h => ?_⟩
  generalize signature.keyId = id at h hkey
  -- only the rotation could have authorized the key, and its old key was revoked
  cases h with
  | rotated _ hnotRevoked _ => exact hnotRevoked (hold ▸ hrevoked)
  | later _ h =>
  cases h with
  | later _ h =>
  cases h with
  | trusted _ => exact hkey rfl
  | later _ h =>
  cases h with
  | initial h => exact ExtTreeMap.not_mem_empty h

end CartridgeRuntime.Identity
