import CartridgeRuntime.Identity.Files
import CartridgeRuntime.Identity.Revocation

/-!
# The file of a trust store

A trust store is replaced with `atomicJsonReplace`, and a process that finds no file starts with an
empty store. `load_after_stop_iff`: when a process stops in the middle of a replacement, the next one
finds the old or the new store exactly when it did not stop between the two renames, in which case
only the backup is there and nobody reads it.
-/

namespace CartridgeRuntime.Identity

open Checked CartridgeRuntime.Core Encoding Stateful Std

section

variable [HexCodec] [Sha256] [Ed25519]

/-- Read a store that is valid. -/
def TrustStore.read (content : FileContent TrustStore) : Except String TrustStore := do
  let value ← content
  value.validate
  return value

/-- Read the store, or begin with an empty one. -/
def loadOrCreateTrust (directory : Directory TrustStore) : Except String TrustStore :=
  match directory.current with
  | some content => TrustStore.read content
  | none => return .new

/-- Replace the file of a trust store. -/
def TrustStore.writeReplace (store : TrustStore) (outcomes : ReplaceOutcomes) :
    EStateM String (Directory TrustStore) Unit := do
  check store.validate
  atomicJsonReplace TrustStore.codec store outcomes

/-- The file operations of `writeReplace`, when none of them fails. -/
def TrustStore.replaceOperations (store : TrustStore) (directory : Directory TrustStore) :
    List FileOperation :=
  if TrustStore.codec.prettySize store ≤ maxIdentityDocumentBytes then
    directory.replaceOperations
  else []

variable {old new : TrustStore} {directory : Directory TrustStore}

/-- `replaceOperations` are the operations of a replacement that is not interrupted, which succeeds
unless the document is too large. -/
theorem finalState_writeReplace (hvalid : new.validate = .ok ()) :
    finalState ((new.writeReplace {}).run directory)
      = directory.after new (new.replaceOperations directory) := by
  rw [TrustStore.writeReplace, hvalid, run_check_ok_bind, TrustStore.replaceOperations]
  split
  · rename_i hsize
    rw [run_atomicJsonReplace_of_ok hsize]
    rfl
  · rename_i hsize
    rw [atomicJsonReplace, rejectIf_of _ (Nat.not_le.mp hsize)]
    rfl

theorem loadOrCreateTrust_of_valid (hcurrent : directory.current = some (.ok old))
    (hvalid : old.validate = .ok ()) : loadOrCreateTrust directory = .ok old := by
  rw [loadOrCreateTrust, hcurrent]
  show TrustStore.read (.ok old) = .ok old
  rw [TrustStore.read, ok_bind, hvalid, ok_bind]
  rfl

omit [HexCodec] [Sha256] [Ed25519] in
/-- A process that stopped did so at one of the points of a replacement. -/
theorem stopped_writeReplace (directory : Directory TrustStore) (new : TrustStore) (stopped : Nat) :
    Stopped directory new ((new.replaceOperations directory).take stopped)
      (directory.after new ((new.replaceOperations directory).take stopped)) := by
  unfold TrustStore.replaceOperations
  split
  · exact stopped_after_take directory new stopped
  · rw [List.take_nil]
    exact .before (by decide) (by decide) (.inl rfl)

/-- A process stops after some operations of a replacement. The next one finds the old or the new
store exactly when the last operation was not the renaming of the old file, or when the empty store
it starts with is one of the two. -/
theorem load_after_stop_iff (hcurrent : directory.current = some (.ok old))
    (hold : old.validate = .ok ()) (hnew : new.validate = .ok ()) (stopped : Nat) :
    (loadOrCreateTrust
        (directory.after new ((new.replaceOperations directory).take stopped)) = .ok old
      ∨ loadOrCreateTrust
        (directory.after new ((new.replaceOperations directory).take stopped)) = .ok new)
    ↔ ((new.replaceOperations directory).take stopped).getLast? ≠ some .moveAway
      ∨ old = .new ∨ new = .new := by
  have hstopped := stopped_writeReplace directory new stopped
  generalize (new.replaceOperations directory).take stopped = operations at hstopped ⊢
  generalize directory.after new operations = left at hstopped ⊢
  cases hstopped with
  | before hlast _ _ => exact iff_of_true (.inl (loadOrCreateTrust_of_valid hcurrent hold)) (.inl hlast)
  | after hlast _ => exact iff_of_true (.inr (loadOrCreateTrust_of_valid rfl hnew)) (.inl hlast)
  | between hlast _ _ =>
    have hempty : loadOrCreateTrust { current := none, previous := directory.current }
        = .ok .new := rfl
    simp only [hempty, hlast, Except.ok.injEq, ne_eq, not_true_eq_false, false_or]
    exact or_congr eq_comm eq_comm

end

attribute [local instance] nibbleCodec Sha2.sha256 headScheme

/-- A store is replaced, and the process stops when the temporary file is written. -/
theorem load_after_stop_iff_temporary :
    let old := storeAfter .new [trustDeveloper [7]]
    let new := storeAfter .new [trustDeveloper [8]]
    let directory : Directory TrustStore := { current := some (.ok old) }
    old.validate = .ok () ∧ new.validate = .ok ()
      ∧ (loadOrCreateTrust (directory.after new ((new.replaceOperations directory).take 1)) = .ok old
        ∨ loadOrCreateTrust (directory.after new ((new.replaceOperations directory).take 1))
          = .ok new) := by
  intro old new directory
  have hold : old.validate = .ok () := by decide +kernel
  have hnew : new.validate = .ok () := by decide +kernel
  exact ⟨hold, hnew, (load_after_stop_iff rfl hold hnew 1).mpr (.inl (by decide +kernel))⟩

/-- A store in which a key is revoked is replaced by one in which another key is trusted as well. The
process stops between the two renames, and the next one starts with an empty store, in which the
revoked key can be trusted again. -/
theorem load_after_stop_empty :
    ∃ record, RevocationRecord.create (developerKeyId [7]) [7] "lost key" = .ok record ∧
      let old := storeAfter .new [.applyRevocation record, trustDeveloper [7]]
      let new := storeAfter old [trustDeveloper [8]]
      let directory : Directory TrustStore := { current := some (.ok old) }
      old.validate = .ok () ∧ new.validate = .ok ()
        ∧ developerKeyId [7] ∈ old.revoked ∧ developerKeyId [7] ∈ new.revoked
        ∧ loadOrCreateTrust (directory.after new ((new.replaceOperations directory).take 2))
          = .ok .new := by
  have hrun : (do
      let record ← RevocationRecord.create (developerKeyId [7]) [7] "lost key"
      let old := storeAfter .new [.applyRevocation record, trustDeveloper [7]]
      let new := storeAfter old [trustDeveloper [8]]
      old.validate
      new.validate
      return (decide (developerKeyId [7] ∈ old.revoked), decide (developerKeyId [7] ∈ new.revoked),
        decide (TrustStore.codec.prettySize new ≤ maxIdentityDocumentBytes)))
      = Except.ok (true, true, true) := by
    decide +kernel
  simp only [bind_eq_ok, pure, Except.pure, Except.ok.injEq, Prod.mk.injEq,
    decide_eq_true_eq] at hrun
  obtain ⟨record, hrecord, ⟨⟩, hold, ⟨⟩, hnew, holdRevoked, hnewRevoked, hsize⟩ := hrun
  refine ⟨record, hrecord, hold, hnew, holdRevoked, hnewRevoked, ?_⟩
  rw [TrustStore.replaceOperations, if_pos hsize]
  rfl

end CartridgeRuntime.Identity
