import Mathlib.Data.Finset.Card
import Mathlib.Data.Finset.Lattice.Fold
import Mathlib.Data.List.Sort
import Mathlib.Order.Lattice.Nat

/-!
# Finite sets of numbers in ascending order

A finite set of numbers is walked in ascending order, as an ordered set of a program is. `ascending`
computes, so that walks over small sets can be evaluated.
-/

namespace Ascending

/-- The members of a set, smallest first. -/
def ascending (s : Finset ℕ) : List ℕ :=
  (List.range (s.sup id + 1)).filter (· ∈ s)

@[simp] theorem mem_ascending {s : Finset ℕ} {n : ℕ} : n ∈ ascending s ↔ n ∈ s := by
  simp only [ascending, List.mem_filter, List.mem_range, decide_eq_true_eq, and_iff_right_iff_imp]
  intro hmem
  exact Nat.lt_succ_of_le (Finset.le_sup (f := id) hmem)

theorem nodup_ascending (s : Finset ℕ) : (ascending s).Nodup :=
  List.nodup_range.filter _

@[simp] theorem length_ascending (s : Finset ℕ) : (ascending s).length = s.card := by
  rw [← List.toFinset_card_of_nodup (nodup_ascending s)]
  congr 1
  ext n
  simp

/-- The first members of a set. -/
theorem card_toFinset_take (s : Finset ℕ) (count : ℕ) :
    ((ascending s).take count).toFinset.card = min count s.card := by
  rw [List.toFinset_card_of_nodup ((nodup_ascending s).sublist (List.take_sublist _ _)),
    List.length_take, length_ascending]

theorem mem_of_mem_take {s : Finset ℕ} {count n : ℕ} (h : n ∈ (ascending s).take count) : n ∈ s :=
  mem_ascending.mp (List.mem_of_mem_take h)

/-- Ascending without repetitions is strictly ascending. -/
theorem pairwise_lt_insertionSort {l : List ℕ} (h : l.Nodup) :
    (l.insertionSort (· ≤ ·)).Pairwise (· < ·) := by
  have hsorted := List.pairwise_insertionSort (· ≤ ·) l
  have hnodup : (l.insertionSort (· ≤ ·)).Nodup := (List.perm_insertionSort _ l).nodup_iff.mpr h
  exact hsorted.imp₂ (fun _ _ hle hne => lt_of_le_of_ne hle hne) hnodup

/-! Texts are ordered as well: what a sort of a set of them asks for. -/

instance isTrans_text : IsTrans String (· ≤ ·) := inferInstance

instance antisymm_text : Std.Antisymm (fun a b : String => a ≤ b) := inferInstance

instance total_text : Std.Total (fun a b : String => a ≤ b) := inferInstance

end Ascending
