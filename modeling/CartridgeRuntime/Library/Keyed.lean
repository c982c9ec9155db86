import Mathlib.Algebra.BigOperators.Group.List.Basic
import Mathlib.Algebra.BigOperators.Group.Finset.Piecewise
import Mathlib.Algebra.Order.BigOperators.Group.List
import Mathlib.Algebra.Order.Group.Nat

/-!
# Lists with keys

A list in which no two members have the same key is a map: looking a key up finds the member that
has it, and looking different keys up finds different members.
-/

namespace Keyed

variable {α κ : Type} [DecidableEq κ] {key : α → κ} {l : List α}

/-- No two members have the same key. -/
def Distinct (key : α → κ) (l : List α) : Prop :=
  l.Pairwise fun a b => key a ≠ key b

section

omit [DecidableEq κ]

theorem Distinct.of_lt [Preorder κ] (h : l.Pairwise fun a b => key a < key b) :
    Distinct key l :=
  h.imp fun hlt => hlt.ne

theorem Distinct.nodup_map (h : Distinct key l) : (l.map key).Nodup :=
  List.pairwise_map.mpr h

theorem Distinct.eq_of_key (h : Distinct key l) {a b : α} (ha : a ∈ l) (hb : b ∈ l)
    (hkey : key a = key b) : a = b :=
  List.inj_on_of_nodup_map h.nodup_map ha hb hkey

end

end Keyed
