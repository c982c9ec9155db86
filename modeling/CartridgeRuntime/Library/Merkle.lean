import Mathlib.Data.List.Nodup
import Mathlib.Data.Set.Function

/-!
# Hash trees that repeat the last node

The nodes of a level are combined two by two, and a last node alone is combined with itself, until one
is left. `eq_of_root_eq`: the root determines the leaves, if these are distinct and no pair is combined
to a leaf, for any combination that is injective on the pairs that are really combined. Without
distinct leaves this fails, since a repeated last leaf does not change the root.
-/

namespace Merkle

variable {α : Type*} {node : α × α → α} {leaves leaves' : List α}

/-- The nodes of a level two by two. -/
def pairs : List α → List (α × α)
  | [] => []
  | [last] => [(last, last)]
  | left :: right :: rest => (left, right) :: pairs rest

/-- Both nodes of a pair are of the level. -/
theorem mem_of_mem_pairs {pair : α × α} : ∀ {leaves : List α}, pair ∈ pairs leaves →
    pair.1 ∈ leaves ∧ pair.2 ∈ leaves
  | [], h => by cases h
  | [last], h => by
    obtain rfl := List.mem_singleton.mp h
    exact ⟨List.mem_cons_self, List.mem_cons_self⟩
  | left :: right :: rest, h => by
    rcases List.mem_cons.mp h with rfl | hrest
    · simp
    · obtain ⟨hfirst, hsecond⟩ := mem_of_mem_pairs hrest
      exact ⟨by simp [hfirst], by simp [hsecond]⟩

theorem length_pairs_le : ∀ leaves : List α, (pairs leaves).length ≤ leaves.length
  | [] | [_] => Nat.le_refl _
  | left :: right :: rest => by
    have := length_pairs_le rest
    simp only [pairs, List.length_cons]
    omega

/-- The first nodes of the pairs are a part of the level. -/
theorem map_fst_pairs_sublist : ∀ leaves : List α, ((pairs leaves).map Prod.fst).Sublist leaves
  | [] => List.Sublist.refl _
  | [_] => List.Sublist.refl _
  | left :: right :: rest => ((map_fst_pairs_sublist rest).cons right).cons_cons left

theorem nodup_pairs (h : leaves.Nodup) : (pairs leaves).Nodup :=
  List.Nodup.of_map Prod.fst (h.sublist (map_fst_pairs_sublist leaves))

/-- Distinct nodes can be told from their pairs: a last node that is paired with itself was alone. -/
theorem eq_of_pairs_eq : ∀ {leaves leaves' : List α}, leaves.Nodup → leaves'.Nodup →
    pairs leaves = pairs leaves' → leaves = leaves'
  | [], [], _, _, _ => rfl
  | [], [_], _, _, h | [], _ :: _ :: _, _, _, h => by cases h
  | [_], [], _, _, h | _ :: _ :: _, [], _, _, h => by cases h
  | [_], [_], _, _, h => by
    cases h
    rfl
  | [last], left :: right :: rest, _, hnodup, h => by
    simp only [pairs, List.cons.injEq, Prod.mk.injEq] at h
    obtain ⟨⟨rfl, rfl⟩, -⟩ := h
    simp at hnodup
  | left :: right :: rest, [last], hnodup, _, h => by
    simp only [pairs, List.cons.injEq, Prod.mk.injEq] at h
    obtain ⟨⟨rfl, rfl⟩, -⟩ := h
    simp at hnodup
  | left :: right :: rest, left' :: right' :: rest', hnodup, hnodup', h => by
    simp only [pairs, List.cons.injEq, Prod.mk.injEq] at h
    obtain ⟨⟨rfl, rfl⟩, hrest⟩ := h
    rw [eq_of_pairs_eq hnodup.of_cons.of_cons hnodup'.of_cons.of_cons hrest]

/-- The level above. -/
def parents (node : α × α → α) (leaves : List α) : List α :=
  (pairs leaves).map node

theorem length_parents_lt (node : α × α → α) (left right : α) (rest : List α) :
    (parents node (left :: right :: rest)).length < (left :: right :: rest).length := by
  have := length_pairs_le rest
  simp only [parents, pairs, List.map_cons, List.length_cons, List.length_map]
  omega

/-- The root above some leaves. -/
def root (node : α × α → α) : List α → Option α
  | [] => none
  | [leaf] => some leaf
  | left :: right :: rest => root node (parents node (left :: right :: rest))
termination_by leaves => leaves.length
decreasing_by exact length_parents_lt node left right rest

/-- The pairs that are combined on all levels. -/
def inputs (node : α × α → α) : List α → List (α × α)
  | [] => []
  | [_] => []
  | left :: right :: rest => pairs (left :: right :: rest)
      ++ inputs node (parents node (left :: right :: rest))
termination_by leaves => leaves.length
decreasing_by exact length_parents_lt node left right rest

/-- The first node of a pair is a leaf or was combined. -/
theorem fst_of_mem_inputs {pair : α × α} (h : pair ∈ inputs node leaves) :
    pair.1 ∈ leaves ∨ ∃ below ∈ inputs node leaves, pair.1 = node below := by
  induction leaves using inputs.induct node with
  | case1 | case2 => simp [inputs] at h
  | case3 left right rest ih =>
    rw [inputs] at h ⊢
    rcases List.mem_append.mp h with hpair | habove
    · exact .inl (mem_of_mem_pairs hpair).1
    · refine .inr ?_
      rcases ih habove with hparent | ⟨below, hbelow, heq⟩
      · obtain ⟨below, hbelow, heq⟩ := List.mem_map.mp hparent
        exact ⟨below, List.mem_append_left _ hbelow, heq.symm⟩
      · exact ⟨below, List.mem_append_right _ hbelow, heq⟩

/-- The root is a leaf that is alone, or was combined. -/
theorem root_cases {top : α} (h : root node leaves = some top) :
    leaves = [top] ∨ ∃ pair ∈ inputs node leaves, top = node pair := by
  induction leaves using root.induct node with
  | case1 => simp [root] at h
  | case2 leaf =>
    rw [root] at h
    exact .inl (by rw [Option.some.inj h])
  | case3 left right rest ih =>
    rw [root] at h
    rw [inputs]
    refine .inr ?_
    rcases ih h with hsingle | ⟨pair, hpair, heq⟩
    · have htop : top ∈ parents node (left :: right :: rest) := by simp [hsingle]
      obtain ⟨pair, hpair, heq⟩ := List.mem_map.mp htop
      exact ⟨pair, List.mem_append_left _ hpair, heq.symm⟩
    · exact ⟨pair, List.mem_append_right _ hpair, heq⟩

theorem root_eq_none_iff : root node leaves = none ↔ leaves = [] := by
  induction leaves using root.induct node with
  | case1 => simp [root]
  | case2 leaf => simp [root]
  | case3 left right rest ih =>
    rw [root, ih]
    simp [parents, pairs]

/-- The combined pairs of two trees. -/
def Combined (node : α × α → α) (leaves leaves' : List α) : Set (α × α) :=
  {pair | pair ∈ inputs node leaves ∨ pair ∈ inputs node leaves'}

/-- No pair is combined to a leaf. -/
def Separated (node : α × α → α) (leaves leaves' : List α) : Prop :=
  ∀ pair ∈ Combined node leaves leaves', node pair ∉ leaves ∧ node pair ∉ leaves'

/-- The pairs above a level are combined after it. -/
theorem inputs_parents_subset (h : 1 < leaves.length) :
    inputs node (parents node leaves) ⊆ inputs node leaves := by
  match leaves, h with
  | left :: right :: rest, _ =>
    rw [inputs.eq_def node (left :: right :: rest)]
    exact List.subset_append_right _ _

theorem pairs_subset_inputs (h : 1 < leaves.length) : pairs leaves ⊆ inputs node leaves := by
  match leaves, h with
  | left :: right :: rest, _ =>
    rw [inputs]
    exact List.subset_append_left _ _

theorem root_parents (h : 1 < leaves.length) : root node leaves = root node (parents node leaves) := by
  match leaves, h with
  | left :: right :: rest, _ => rw [root]

theorem combined_parents (h : 1 < leaves.length) (h' : 1 < leaves'.length) :
    Combined node (parents node leaves) (parents node leaves') ⊆ Combined node leaves leaves' :=
  fun _ hpair => hpair.imp (fun hmem => inputs_parents_subset h hmem)
    fun hmem => inputs_parents_subset h' hmem

/-- A pair above two levels has a first node that was combined from the pairs of the trees. -/
theorem fst_of_combined_parents (h : 1 < leaves.length) (h' : 1 < leaves'.length) {pair : α × α}
    (hpair : pair ∈ Combined node (parents node leaves) (parents node leaves')) :
    ∃ below ∈ Combined node leaves leaves', pair.1 = node below := by
  rcases hpair with hpair | hpair
  · rcases fst_of_mem_inputs hpair with hparent | ⟨below, hbelow, heq⟩
    · obtain ⟨below, hbelow, heq⟩ := List.mem_map.mp hparent
      exact ⟨below, .inl (pairs_subset_inputs h hbelow), heq.symm⟩
    · exact ⟨below, .inl (inputs_parents_subset h hbelow), heq⟩
  · rcases fst_of_mem_inputs hpair with hparent | ⟨below, hbelow, heq⟩
    · obtain ⟨below, hbelow, heq⟩ := List.mem_map.mp hparent
      exact ⟨below, .inr (pairs_subset_inputs h' hbelow), heq.symm⟩
    · exact ⟨below, .inr (inputs_parents_subset h' hbelow), heq⟩

/-- The parents of two levels are apart from what is combined above them. -/
theorem Separated.parents (hsep : Separated node leaves leaves')
    (hinj : Set.InjOn node (Combined node leaves leaves'))
    (h : 1 < leaves.length) (h' : 1 < leaves'.length) :
    Separated node (parents node leaves) (parents node leaves') := by
  intro pair hpair
  obtain ⟨below, hbelow, hfirst⟩ := fst_of_combined_parents h h' hpair
  have hcombined := combined_parents h h' hpair
  constructor
  · intro hparent
    obtain ⟨other, hother, heq⟩ := List.mem_map.mp hparent
    obtain rfl := hinj (.inl (pairs_subset_inputs h hother)) hcombined heq
    exact (hsep below hbelow).1 (hfirst ▸ (mem_of_mem_pairs hother).1)
  · intro hparent
    obtain ⟨other, hother, heq⟩ := List.mem_map.mp hparent
    obtain rfl := hinj (.inr (pairs_subset_inputs h' hother)) hcombined heq
    exact (hsep below hbelow).2 (hfirst ▸ (mem_of_mem_pairs hother).1)

theorem nodup_parents (hinj : Set.InjOn node {pair | pair ∈ inputs node leaves})
    (h : 1 < leaves.length) (hnodup : leaves.Nodup) : (parents node leaves).Nodup := by
  refine (nodup_pairs hnodup).map_on fun pair hpair other hother heq => ?_
  exact hinj (pairs_subset_inputs h hpair) (pairs_subset_inputs h hother) heq

/-- A leaf alone is not the root of a larger tree. -/
theorem root_ne_single {leaf : α} (hsep : Separated node [leaf] leaves) (h : 1 < leaves.length) :
    root node leaves ≠ some leaf := by
  intro hroot
  rcases root_cases hroot with rfl | ⟨pair, hpair, heq⟩
  · exact absurd h (by simp)
  · exact (hsep pair (.inr hpair)).1 (by simp [heq])

theorem Separated.symm (hsep : Separated node leaves leaves') : Separated node leaves' leaves :=
  fun pair hpair => (hsep pair hpair.symm).symm

theorem eq_of_map_eq {β : Type*} {f : α → β} {s : Set α} (hinj : Set.InjOn f s) :
    ∀ {first second : List α}, (∀ x ∈ first, x ∈ s) → (∀ x ∈ second, x ∈ s) →
      first.map f = second.map f → first = second
  | [], [], _, _, _ => rfl
  | [], _ :: _, _, _, h | _ :: _, [], _, _, h => by cases h
  | x :: first, y :: second, hfirst, hsecond, h => by
    obtain ⟨hhead, htail⟩ := List.cons.inj h
    rw [List.forall_mem_cons] at hfirst hsecond
    rw [hinj hfirst.1 hsecond.1 hhead, eq_of_map_eq hinj hfirst.2 hsecond.2 htail]

/-- The root determines distinct leaves. -/
theorem eq_of_root_eq (hinj : Set.InjOn node (Combined node leaves leaves'))
    (hsep : Separated node leaves leaves') (hnodup : leaves.Nodup) (hnodup' : leaves'.Nodup)
    (hroot : root node leaves = root node leaves') : leaves = leaves' := by
  induction leaves using root.induct node generalizing leaves' with
  | case1 =>
    rw [root, eq_comm, root_eq_none_iff] at hroot
    exact hroot.symm
  | case2 leaf =>
    rw [root, eq_comm] at hroot
    rcases Nat.lt_or_ge 1 leaves'.length with hlong | hshort
    · exact absurd hroot (root_ne_single hsep hlong)
    · rcases root_cases hroot with rfl | ⟨pair, hpair, -⟩
      · rfl
      · match leaves', hshort with
        | [], _ | [_], _ => simp [inputs] at hpair
  | case3 left right rest ih =>
    have hlarge : 1 < (left :: right :: rest).length := by simp
    rcases Nat.lt_or_ge 1 leaves'.length with hlong | hshort
    · -- both roots are above a level of parents, which is the same level
      rw [root_parents hlarge, root_parents hlong] at hroot
      have hparents := ih (hinj.mono (combined_parents hlarge hlong))
        (hsep.parents hinj hlarge hlong)
        (nodup_parents (hinj.mono fun _ => .inl) hlarge hnodup)
        (nodup_parents (hinj.mono fun _ => .inr) hlong hnodup') hroot
      refine eq_of_pairs_eq hnodup hnodup' (eq_of_map_eq hinj ?_ ?_ hparents)
      · exact fun pair hpair => .inl (pairs_subset_inputs hlarge hpair)
      · exact fun pair hpair => .inr (pairs_subset_inputs hlong hpair)
    · match leaves', hshort with
      | [], _ => cases root_eq_none_iff.mp (hroot.trans (by rw [root]))
      | [leaf], _ => exact absurd (hroot.trans (by rw [root])) (root_ne_single hsep.symm hlarge)

end Merkle
