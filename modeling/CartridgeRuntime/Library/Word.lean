import CartridgeRuntime.Library.Checked

/-!
# Words

The saturating and checked operations on 64-bit words, and checked sums of 16-bit numbers.
-/

namespace Checked

/-- A difference of words, or 0. -/
def saturatingSub (a b : UInt64) : UInt64 :=
  if b ≤ a then a - b else 0

/-- A sum of words, or the largest word. -/
def saturatingAdd (a b : UInt64) : UInt64 :=
  if a.toNat + b.toNat ≤ wordMax then a + b else .ofNat wordMax

/-- A sum of 16-bit numbers, when it is one. -/
def checkedAddShort (a b : Nat) : Option Nat :=
  if a + b ≤ 65535 then some (a + b) else none

@[simp] theorem checkedAddShort_eq_some {a b c : Nat} :
    checkedAddShort a b = some c ↔ a + b ≤ 65535 ∧ a + b = c := by
  unfold checkedAddShort
  split <;> simp [*]

@[simp] theorem toNat_saturatingSub (a b : UInt64) :
    (saturatingSub a b).toNat = a.toNat - b.toNat := by
  unfold saturatingSub
  split
  · rename_i h
    rw [UInt64.toNat_sub_of_le _ _ h]
  · rename_i h
    rw [UInt64.not_le, UInt64.lt_iff_toNat_lt] at h
    simp
    omega

theorem toNat_saturatingAdd (a b : UInt64) :
    (saturatingAdd a b).toNat = min (a.toNat + b.toNat) wordMax := by
  unfold saturatingAdd
  split
  · rename_i hle
    rw [Nat.min_eq_left hle]
    unfold wordMax at hle
    rw [UInt64.toNat_add, Nat.mod_eq_of_lt (by omega)]
  · rename_i hle
    rw [Nat.min_eq_right (Nat.le_of_lt (not_le.mp hle))]
    rfl

end Checked
