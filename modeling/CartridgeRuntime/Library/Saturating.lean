import Mathlib.Order.Lattice
import Mathlib.Tactic.Linarith

/-!
# Saturating 32-bit arithmetic

Signed 32-bit numbers as integers: every operation is the exact one followed by `clampI32`. A
product with a fraction of `2 ^ 15` parts (`scaleQ15`) keeps its sign and, for a fraction of at most
one, is no larger than the number (`scaleQ15_nonneg`, `scaleQ15_nonpos`).
-/

namespace Saturating

/-- The nearest 32-bit number. -/
def clampI32 (value : Int) : Int :=
  max (-2147483648) (min value 2147483647)

def saturatingAdd (a b : Int) : Int :=
  clampI32 (a + b)

def saturatingSub (a b : Int) : Int :=
  clampI32 (a - b)

/-- A number times a count of `1 / 2 ^ 15`, rounded towards zero. -/
def scaleQ15 (value factor : Int) : Int :=
  clampI32 ((value * factor).tdiv 32768)

variable {value factor : Int}

theorem clampI32_of_mem (hlow : -2147483648 ≤ value) (hhigh : value ≤ 2147483647) :
    clampI32 value = value := by
  unfold clampI32
  omega

theorem clampI32_mem (value : Int) :
    -2147483648 ≤ clampI32 value ∧ clampI32 value ≤ 2147483647 := by
  unfold clampI32
  omega

/-- A fraction of at most one of a number that is not negative. -/
theorem scaleQ15_nonneg (hvalue : 0 ≤ value) (hfactor : 0 ≤ factor) (hone : factor ≤ 32768) :
    0 ≤ scaleQ15 value factor ∧ scaleQ15 value factor ≤ value := by
  have hlow : 0 ≤ value * factor := Int.mul_nonneg hvalue hfactor
  have hhigh : value * factor ≤ value * 32768 := Int.mul_le_mul_of_nonneg_left hone hvalue
  have hdiv : (value * factor).tdiv 32768 = value * factor / 32768 :=
    Int.tdiv_eq_ediv_of_nonneg hlow
  unfold scaleQ15 clampI32
  rw [hdiv]
  omega

/-- A fraction of at most one of a number that is not positive. -/
theorem scaleQ15_nonpos (hvalue : value ≤ 0) (hrange : -2147483648 ≤ value) (hfactor : 0 ≤ factor)
    (hone : factor ≤ 32768) : value ≤ scaleQ15 value factor ∧ scaleQ15 value factor ≤ 0 := by
  have hlow : 0 ≤ -value * factor := Int.mul_nonneg (by omega) hfactor
  have hhigh : -value * factor ≤ -value * 32768 := Int.mul_le_mul_of_nonneg_left hone (by omega)
  have hdiv : (value * factor).tdiv 32768 = -(-value * factor / 32768) := by
    rw [← Int.tdiv_eq_ediv_of_nonneg hlow, ← Int.neg_tdiv, Int.neg_mul, neg_neg]
  unfold scaleQ15 clampI32
  rw [hdiv]
  omega

/-- A step by a fraction of at most one of the way stays between the place and the target. -/
theorem step_mem {place target low high : Int} (hplace : low ≤ place ∧ place ≤ high)
    (htarget : low ≤ target ∧ target ≤ high) (hlow : -2147483648 ≤ low) (hhigh : high ≤ 2147483647)
    (hfactor : 0 ≤ factor) (hone : factor ≤ 32768) :
    low ≤ saturatingAdd place (scaleQ15 (saturatingSub target place) factor)
      ∧ saturatingAdd place (scaleQ15 (saturatingSub target place) factor) ≤ high := by
  have hway := clampI32_mem (target - place)
  rcases le_total place target with hup | hdown
  · have hsub : 0 ≤ saturatingSub target place ∧ saturatingSub target place ≤ target - place := by
      unfold saturatingSub clampI32
      omega
    have hscaled := scaleQ15_nonneg hsub.1 hfactor hone
    unfold saturatingAdd
    rw [clampI32_of_mem (by omega) (by omega)]
    omega
  · have hsub : saturatingSub target place ≤ 0 ∧ target - place ≤ saturatingSub target place := by
      unfold saturatingSub clampI32
      omega
    have hscaled := scaleQ15_nonpos hsub.1 hway.1 hfactor hone
    unfold saturatingAdd
    rw [clampI32_of_mem (by omega) (by omega)]
    omega

end Saturating
