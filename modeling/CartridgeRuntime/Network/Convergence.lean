import CartridgeRuntime.Library.LastWriter
import CartridgeRuntime.Library.Sha2
import CartridgeRuntime.Network.SharedDocument
import Mathlib.Algebra.BigOperators.Group.Finset.Basic
import Mathlib.Algebra.Order.BigOperators.Group.Finset
import Mathlib.Data.Prod.Lex
import Mathlib.Data.String.Basic

/-!
# Convergence of shared documents

`documents_converge_iff`: replicas that the same operations have reached show the same values, and
merging is commutative, associative and idempotent, exactly when no two operations have the same key,
clock and peer and different values. Nothing in `apply` rules such operations out.
-/

namespace CartridgeRuntime.Network

open Checked Encoding LastWriter
open Std (ExtTreeMap)

/-- What decides between two operations of one key. -/
def DocumentOperation.rank (operation : DocumentOperation) : Nat ×ₗ String :=
  toLex (operation.clock.toNat, operation.peerId)

variable {current : DocumentOperation}

theorem isNewer_iff {operation : DocumentOperation} :
    operation.isNewer current ↔ current.rank < operation.rank := by
  simp only [DocumentOperation.isNewer, DocumentOperation.rank, Prod.Lex.toLex_lt_toLex,
    decide_eq_true_eq, UInt64.lt_iff_toNat_lt, ← UInt64.toNat_inj]

section

variable [HexCodec] [Sha256]

/-- Operations on one document, within the limits. -/
structure Bounded (id : String) (operations : Finset DocumentOperation) : Prop where
  valid : ∀ operation ∈ operations, validateOperation operation id = .ok ()
  card_le : operations.card ≤ maxDocumentOperations
  size_le : ∑ operation ∈ operations, operation.size ≤ maxDocumentBytes

/-- The hash function has no collision among the texts of some operations. -/
def CollisionFree (operations : Finset DocumentOperation) : Prop :=
  Set.InjOn Sha256.digest
    {text | ∃ operation ∈ operations, text = (DocumentOperation.codec.toJson operation).bytes}

/-- A replica that some operations have reached, by themselves or with another replica. -/
inductive Reached (id : String) (operations : Finset DocumentOperation) :
    SharedDocument → Finset DocumentOperation → Prop
  | new {document : SharedDocument} (h : SharedDocument.new id = .ok document) :
      Reached id operations document ∅
  | apply {document document' : SharedDocument} {delivered : Finset DocumentOperation}
      {operation : DocumentOperation} {shown : Bool} (h : Reached id operations document delivered)
      (hmem : operation ∈ operations) (happly : document.apply operation = .ok (shown, document')) :
      Reached id operations document' (insert operation delivered)
  | merge {document other merged : SharedDocument} {delivered delivered' : Finset DocumentOperation}
      (h : Reached id operations document delivered) (h' : Reached id operations other delivered')
      (hmerge : document.merge other = (.ok (), merged)) :
      Reached id operations merged (delivered ∪ delivered')

/-- What a replica is after some operations. -/
structure Replica (id : String) (operations : Finset DocumentOperation) (document : SharedDocument)
    (delivered : Finset DocumentOperation) : Prop where
  documentId_eq : document.documentId = id
  subset : delivered ⊆ operations
  holds : Holds DocumentOperation.key DocumentOperation.rank (delivered : Set DocumentOperation)
    fun key => document.entries[key]?
  seen_subset : document.seen ⊆ delivered.image operationId
  bytes_eq : document.bytes = TreeMap.sumOf (fun _ => DocumentOperation.size) document.entries

variable {id : String} {operations delivered delivered' : Finset DocumentOperation}
  {document other : SharedDocument} {operation : DocumentOperation}

theorem CollisionFree.injOn_operationId (h : CollisionFree operations) :
    Set.InjOn operationId (operations : Set DocumentOperation) := by
  intro first hfirst second hsecond heq
  have hdigest := congrArg HexCodec.decode heq
  simp only [operationId, sha256Hex, HexCodec.decode_encode, Except.ok.injEq] at hdigest
  have hbytes := h ⟨first, hfirst, rfl⟩ ⟨second, hsecond, rfl⟩ hdigest
  have hparse := congrArg Json.parse hbytes
  rw [Json.parse_bytes, Json.parse_bytes, Option.some.injEq] at hparse
  have hread := congrArg DocumentOperation.codec.ofJson hparse
  rwa [DocumentOperation.codec.ofJson_toJson, DocumentOperation.codec.ofJson_toJson,
    Option.some.injEq] at hread

section

omit [HexCodec] [Sha256]

/-- Entries under their own keys do not count for more than all operations. -/
theorem sumOf_size_le {entries : ExtTreeMap String DocumentOperation}
    (h : ∀ key operation, entries[key]? = some operation →
      operation ∈ operations ∧ operation.key = key) :
    TreeMap.sumOf (fun _ => DocumentOperation.size) entries
      ≤ ∑ operation ∈ operations, operation.size := by
  have hentry : ∀ entry ∈ entries.toList, entry.2 ∈ operations ∧ entry.2.key = entry.1 :=
    fun entry hmem => h entry.1 entry.2 (ExtTreeMap.mem_toList_iff_getElem?_eq_some.mp hmem)
  have hnodup : (entries.toList.map Prod.snd).Nodup := by
    have hkeys : (entries.toList.map Prod.snd).map DocumentOperation.key
        = entries.toList.map Prod.fst := by
      rw [List.map_map]
      exact List.map_congr_left fun entry hmem => (hentry entry hmem).2
    refine List.Nodup.of_map DocumentOperation.key ?_
    rw [hkeys]
    exact entries.distinct_keys_toList.map _ fun first second hne heq =>
      hne (Std.compare_eq_iff_eq.mpr heq)
  calc TreeMap.sumOf (fun _ => DocumentOperation.size) entries
      = ((entries.toList.map Prod.snd).map DocumentOperation.size).sum := by
        rw [List.map_map]
        rfl
    _ = ∑ operation ∈ (entries.toList.map Prod.snd).toFinset, operation.size :=
        (List.sum_toFinset _ hnodup).symm
    _ ≤ ∑ operation ∈ operations, operation.size := by
        refine Finset.sum_le_sum_of_subset fun operation hmem => ?_
        obtain ⟨entry, hlisted, rfl⟩ := List.mem_map.mp (List.mem_toFinset.mp hmem)
        exact (hentry entry hlisted).1

theorem not_replaces_iff : document.replaces operation = false ↔
    ∃ current, document.entries[operation.key]? = some current
      ∧ operation.rank ≤ current.rank := by
  unfold SharedDocument.replaces
  cases document.entries[operation.key]? with
  | none => simp
  | some current =>
    rw [Option.all_some, Bool.eq_false_iff, Ne, isNewer_iff, not_lt]
    simp

theorem replaces_iff : document.replaces operation ↔ ∀ current,
    document.entries[operation.key]? = some current → current.rank < operation.rank := by
  unfold SharedDocument.replaces
  cases document.entries[operation.key]? with
  | none => simp
  | some current =>
    rw [Option.all_some, isNewer_iff]
    simp

end

/-! ## One operation -/

namespace Replica

/-- The entries with an operation put in are within the limit. -/
theorem put_eq_ok (h : Replica id operations document delivered) (hbounded : Bounded id operations)
    (hmem : operation ∈ operations) : document.put operation = .ok { document with
      bytes := TreeMap.sumOf (fun _ => DocumentOperation.size)
        (document.entries.insert operation.key operation)
      entries := document.entries.insert operation.key operation } := by
  have hle : TreeMap.sumOf (fun _ => DocumentOperation.size)
      (document.entries.insert operation.key operation) ≤ maxDocumentBytes := by
    refine (sumOf_size_le fun key found hfound => ?_).trans hbounded.size_le
    rw [TreeMap.getElem?_insert'] at hfound
    split at hfound
    · rename_i hkey
      cases hfound
      exact ⟨hmem, hkey⟩
    · obtain ⟨hdelivered, hkey⟩ := h.holds.mem_of_entry hfound
      exact ⟨h.subset hdelivered, hkey⟩
  -- the byte count of the entries replaces the size of the old entry by that of the new one
  have hsum := TreeMap.sumOf_insert (fun _ => DocumentOperation.size) document.entries operation.key
    operation
  have hold := TreeMap.weightAt_le_sumOf (fun _ => DocumentOperation.size) document.entries
    operation.key
  have hnext : document.bytes - document.entries[operation.key]?.elim 0 DocumentOperation.size
      + operation.size = TreeMap.sumOf (fun _ => DocumentOperation.size)
        (document.entries.insert operation.key operation) := by
    rw [h.bytes_eq]
    simp only [TreeMap.weightAt] at hsum hold
    omega
  have hword : maxDocumentBytes ≤ wordMax := by decide
  unfold SharedDocument.put
  dsimp only
  rw [checkedAdd_of_le (by omega), hnext, okOr_eq_ok.mpr rfl, ok_bind,
    rejectIf_of_not _ (Nat.not_lt.mpr hle), ok_bind]
  rfl

/-- There is room for an operation that was not seen. -/
theorem card_seen_lt (h : Replica id operations document delivered) (hbounded : Bounded id operations)
    (hmem : operation ∈ operations) (hnew : operationId operation ∉ document.seen) :
    document.seen.card < maxDocumentOperations := by
  have hsubset : insert (operationId operation) document.seen ⊆ operations.image operationId := by
    refine Finset.insert_subset (Finset.mem_image_of_mem _ hmem) ?_
    exact h.seen_subset.trans (Finset.image_subset_image h.subset)
  have hcard := (Finset.card_le_card hsubset).trans (Finset.card_image_le.trans hbounded.card_le)
  rw [Finset.card_insert_of_notMem hnew] at hcard
  exact hcard

/-- An operation can be applied, and then has reached the replica. -/
theorem apply (h : Replica id operations document delivered) (hbounded : Bounded id operations)
    (hfree : CollisionFree operations) (hmem : operation ∈ operations) :
    ∃ shown document', document.apply operation = .ok (shown, document')
      ∧ Replica id operations document' (insert operation delivered) := by
  have hvalid := hbounded.valid operation hmem
  rw [← h.documentId_eq] at hvalid
  have hsubset : insert operation delivered ⊆ operations := Finset.insert_subset hmem h.subset
  unfold SharedDocument.apply
  rw [hvalid, ok_bind]
  dsimp only
  by_cases hseen : operationId operation ∈ document.seen
  · -- the identity tells the operation, so it was delivered before
    obtain ⟨before, hbefore, heq⟩ := Finset.mem_image.mp (h.seen_subset hseen)
    obtain rfl := hfree.injOn_operationId (h.subset hbefore) hmem heq
    rw [if_pos hseen, Finset.insert_eq_of_mem hbefore]
    exact ⟨false, document, rfl, h⟩
  · have hseen' : insert (operationId operation) document.seen
        ⊆ (insert operation delivered).image operationId := by
      rw [Finset.image_insert]
      exact Finset.insert_subset_insert _ h.seen_subset
    rw [if_neg hseen, rejectIf_of_not _ (Nat.not_le.mpr (h.card_seen_lt hbounded hmem hseen)), ok_bind]
    cases hreplaces : document.replaces operation with
    | false =>
      obtain ⟨current, hcurrent, hle⟩ := not_replaces_iff.mp hreplaces
      refine ⟨false, _, rfl, h.documentId_eq, hsubset, ?_, hseen', h.bytes_eq⟩
      rw [Finset.coe_insert]
      exact h.holds.insert_older hcurrent hle
    | true =>
      rw [if_pos rfl, h.put_eq_ok hbounded hmem, ok_bind]
      refine ⟨true, _, rfl, h.documentId_eq, hsubset, ?_, hseen', rfl⟩
      rw [Finset.coe_insert]
      simp only [TreeMap.getElem?_insert']
      exact h.holds.insert_newer (replaces_iff.mp hreplaces)

/-! ## Replicas that operations have reached -/

theorem applyAll (h : Replica id operations document delivered) (hbounded : Bounded id operations)
    (hfree : CollisionFree operations) {list : List DocumentOperation}
    (hlist : ∀ operation ∈ list, operation ∈ operations) :
    ∃ document', document.applyAll list = (.ok (), document')
      ∧ Replica id operations document' (delivered ∪ list.toFinset) := by
  induction list generalizing document delivered with
  | nil => exact ⟨document, rfl, by simpa using h⟩
  | cons operation list ih =>
    obtain ⟨hmem, hrest⟩ := List.forall_mem_cons.mp hlist
    obtain ⟨shown, next, happly, hnext⟩ := h.apply hbounded hfree hmem
    obtain ⟨last, hlast, hreplica⟩ := ih hnext hrest
    refine ⟨last, ?_, ?_⟩
    · simp only [SharedDocument.applyAll, happly, hlast]
    · rwa [List.toFinset_cons, Finset.union_insert, ← Finset.insert_union]

/-- Replicas can be merged, and what reached one of them has reached the result. -/
theorem merge (h : Replica id operations document delivered)
    (h' : Replica id operations other delivered') (hbounded : Bounded id operations)
    (hfree : CollisionFree operations) : ∃ merged, document.merge other = (.ok (), merged)
      ∧ Replica id operations merged (delivered ∪ delivered') := by
  have hentry : ∀ operation, operation ∈ other.entries.toList.map Prod.snd
      ↔ ∃ key : String, other.entries[key]? = some operation := by
    intro operation
    simp only [List.mem_map, Prod.exists, exists_eq_right, ExtTreeMap.mem_toList_iff_getElem?_eq_some]
  have hdelivered : ∀ operation ∈ other.entries.toList.map Prod.snd, operation ∈ delivered' := by
    intro operation hmem
    obtain ⟨key, hkey⟩ := (hentry operation).mp hmem
    exact (h'.holds.mem_of_entry hkey).1
  obtain ⟨merged, hmerged, hreplica⟩ := h.applyAll hbounded hfree
    fun operation hmem => h'.subset (hdelivered operation hmem)
  refine ⟨merged, ?_, hreplica.documentId_eq, Finset.union_subset h.subset h'.subset, ?_, ?_,
    hreplica.bytes_eq⟩
  · rw [SharedDocument.merge, if_neg (not_not.mpr (h.documentId_eq.trans h'.documentId_eq.symm)),
      hmerged]
  · have hholds := hreplica.holds
    rw [Finset.coe_union] at hholds ⊢
    refine h'.holds.union_of_entries ?_
    convert hholds using 2
    ext operation
    rw [Finset.mem_coe, List.mem_toFinset, hentry]
    rfl
  · refine hreplica.seen_subset.trans (Finset.image_subset_image ?_)
    refine Finset.union_subset_union_right fun operation hmem => ?_
    exact hdelivered operation (List.mem_toFinset.mp hmem)

theorem new (h : SharedDocument.new id = .ok document) : Replica id operations document ∅ := by
  simp only [SharedDocument.new, bind_eq_ok, pure, Except.pure, Except.ok.injEq] at h
  obtain ⟨-, -, rfl⟩ := h
  refine ⟨rfl, Finset.empty_subset _, ?_, Finset.empty_subset _, ?_⟩
  · simpa using holds_empty
  · simp

end Replica

theorem Reached.replica (h : Reached id operations document delivered)
    (hbounded : Bounded id operations) (hfree : CollisionFree operations) :
    Replica id operations document delivered := by
  induction h with
  | new h => exact Replica.new h
  | apply h hmem happly ih =>
    obtain ⟨shown, next, hnext, hreplica⟩ := ih.apply hbounded hfree hmem
    cases happly.symm.trans hnext
    exact hreplica
  | merge h h' hmerge ih ih' =>
    obtain ⟨next, hnext, hreplica⟩ := ih.merge ih' hbounded hfree
    cases hmerge.symm.trans hnext
    exact hreplica

/-- Operations of one key, clock and peer have the same value. -/
def Unambiguous (operations : Finset DocumentOperation) : Prop :=
  ∀ first ∈ operations, ∀ second ∈ operations, first.key = second.key →
    first.clock = second.clock → first.peerId = second.peerId → first.value = second.value

instance (operations : Finset DocumentOperation) : Decidable (Unambiguous operations) :=
  inferInstanceAs (Decidable (∀ first ∈ operations, ∀ second ∈ operations, _))

/-- Replicas that the same operations have reached show the same. -/
theorem Replica.get_eq (h : Replica id operations document delivered)
    (h' : Replica id operations other delivered) (hsame : Unambiguous operations) (key : String) :
    document.get key = other.get key := by
  have hagree : document.entries[key]?.map DocumentOperation.value
      = other.entries[key]?.map DocumentOperation.value := by
    refine h.holds.agree h'.holds (fun first hfirst second hsecond hkey hrank => ?_) key
    simp only [DocumentOperation.rank, EmbeddingLike.apply_eq_iff_eq, Prod.mk.injEq,
      UInt64.toNat_inj] at hrank
    exact hsame first (h.subset hfirst) second (h.subset hsecond) hkey hrank.1 hrank.2
  have hshown : ∀ document : SharedDocument, document.get key
      = (document.entries[key]?.map DocumentOperation.value).join := by
    intro document
    unfold SharedDocument.get
    cases document.entries[key]? <;> rfl
  rw [hshown, hshown, hagree]

/-! ## Convergence -/

/-- Replicas that all operations have reached show the same, and merging is commutative, associative
and idempotent with respect to what replicas show. -/
structure Converges (id : String) (operations : Finset DocumentOperation) : Prop where
  agree : ∀ first second, Reached id operations first operations →
    Reached id operations second operations → ∀ key, first.get key = second.get key
  comm : ∀ first second delivered delivered', Reached id operations first delivered →
    Reached id operations second delivered' → ∃ left right,
      first.merge second = (.ok (), left) ∧ second.merge first = (.ok (), right)
        ∧ ∀ key, left.get key = right.get key
  assoc : ∀ first second third delivered delivered' delivered'',
    Reached id operations first delivered → Reached id operations second delivered' →
    Reached id operations third delivered'' → ∃ inner left outer right,
      first.merge second = (.ok (), inner) ∧ inner.merge third = (.ok (), left)
        ∧ second.merge third = (.ok (), outer) ∧ first.merge outer = (.ok (), right)
        ∧ ∀ key, left.get key = right.get key
  idem : ∀ first delivered, Reached id operations first delivered → ∃ merged,
    first.merge first = (.ok (), merged) ∧ ∀ key, merged.get key = first.get key

theorem converges_of_unambiguous (hbounded : Bounded id operations) (hfree : CollisionFree operations)
    (hsame : Unambiguous operations) : Converges id operations where
  agree _ _ h h' := (h.replica hbounded hfree).get_eq (h'.replica hbounded hfree) hsame
  comm _ _ _ _ h h' := by
    have hfirst := h.replica hbounded hfree
    have hsecond := h'.replica hbounded hfree
    obtain ⟨left, hleft, hreplica⟩ := hfirst.merge hsecond hbounded hfree
    obtain ⟨right, hright, hreplica'⟩ := hsecond.merge hfirst hbounded hfree
    rw [Finset.union_comm] at hreplica'
    exact ⟨left, right, hleft, hright, hreplica.get_eq hreplica' hsame⟩
  assoc _ _ _ _ _ _ h h' h'' := by
    have hfirst := h.replica hbounded hfree
    have hsecond := h'.replica hbounded hfree
    have hthird := h''.replica hbounded hfree
    obtain ⟨inner, hinner, hreplica⟩ := hfirst.merge hsecond hbounded hfree
    obtain ⟨left, hleft, hleft'⟩ := hreplica.merge hthird hbounded hfree
    obtain ⟨outer, houter, hreplica'⟩ := hsecond.merge hthird hbounded hfree
    obtain ⟨right, hright, hright'⟩ := hfirst.merge hreplica' hbounded hfree
    rw [← Finset.union_assoc] at hright'
    exact ⟨inner, left, outer, right, hinner, hleft, houter, hright, hleft'.get_eq hright' hsame⟩
  idem _ _ h := by
    have hfirst := h.replica hbounded hfree
    obtain ⟨merged, hmerged, hreplica⟩ := hfirst.merge hfirst hbounded hfree
    rw [Finset.union_self] at hreplica
    exact ⟨merged, hmerged, hreplica.get_eq hfirst hsame⟩

/-- A replica that one operation has reached holds it. -/
theorem exists_single (hbounded : Bounded id operations) (hfree : CollisionFree operations)
    (hnew : SharedDocument.new id = .ok document) (hmem : operation ∈ operations) :
    ∃ single, Reached id operations single {operation}
      ∧ single.entries[operation.key]? = some operation := by
  obtain ⟨shown, single, happly, hreplica⟩ := (Replica.new hnew).apply hbounded hfree hmem
  refine ⟨single, .apply (.new hnew) hmem happly, ?_⟩
  obtain ⟨kept, hkept, -⟩ := hreplica.holds.entry_of_mem (by simp : operation ∈ _)
  have hsingle := (hreplica.holds.mem_of_entry hkept).1
  simp only [insert_empty_eq, Finset.coe_singleton, Set.mem_singleton_iff] at hsingle
  rw [hkept, hsingle]

/-- An operation that is not newer leaves an entry as it is. -/
theorem entry_of_apply {document' : SharedDocument} {key : String} {shown : Bool}
    (h : document.apply operation = .ok (shown, document'))
    (hentry : document.entries[key]? = some current)
    (hle : operation.key = key → operation.rank ≤ current.rank) :
    document'.entries[key]? = some current := by
  simp only [SharedDocument.apply, bind_eq_ok] at h
  obtain ⟨-, -, h⟩ := h
  split at h
  · cases h
    exact hentry
  · obtain ⟨⟨⟩, -, h⟩ := bind_eq_ok.mp h
    split at h
    · rename_i hreplaces
      have hkey : operation.key ≠ key := by
        rintro rfl
        exact absurd (replaces_iff.mp hreplaces current hentry) (not_lt.mpr (hle rfl))
      obtain ⟨next, hput, h⟩ := bind_eq_ok.mp h
      simp only [SharedDocument.put, bind_eq_ok] at hput
      obtain ⟨bytes, -, -, -, hput⟩ := hput
      cases hput
      cases h
      rw [TreeMap.getElem?_insert', if_neg hkey, hentry]
    · cases h
      exact hentry

theorem entry_of_applyAll {document' : SharedDocument} {list : List DocumentOperation}
    (h : document.applyAll list = (.ok (), document'))
    (hentry : document.entries[current.key]? = some current)
    (hle : ∀ operation ∈ list, operation.rank ≤ current.rank) :
    document'.entries[current.key]? = some current := by
  induction list generalizing document with
  | nil =>
    cases h
    exact hentry
  | cons operation list ih =>
    obtain ⟨hfirst, hrest⟩ := List.forall_mem_cons.mp hle
    unfold SharedDocument.applyAll at h
    split at h
    · cases h
    · rename_i shown next happly
      exact ih h (entry_of_apply happly hentry fun _ => hfirst) hrest

/-- Merging with a replica of an operation that is not newer keeps the entry. -/
theorem get_of_merge_single {merged : SharedDocument} (hbounded : Bounded id operations)
    (hfree : CollisionFree operations) (hother : Reached id operations other {operation})
    (hentry : document.entries[current.key]? = some current) (hle : operation.rank ≤ current.rank)
    (h : document.merge other = (.ok (), merged)) : merged.get current.key = current.value := by
  unfold SharedDocument.merge at h
  split at h
  · cases h
  · have hkept := entry_of_applyAll h hentry fun applied hmem => ?_
    · rw [SharedDocument.get, hkept]
      rfl
    · obtain ⟨⟨key, found⟩, hlisted, rfl⟩ := List.mem_map.mp hmem
      have hholds := (hother.replica hbounded hfree).holds
      have hfound := (hholds.mem_of_entry
        (ExtTreeMap.mem_toList_iff_getElem?_eq_some.mp hlisted)).1
      rw [Finset.coe_singleton, Set.mem_singleton_iff] at hfound
      rw [hfound]
      exact hle

/-- Two operations of one key, clock and peer: the replicas of either keep their own when they are
merged. -/
theorem unambiguous_of_comm (hbounded : Bounded id operations) (hfree : CollisionFree operations)
    (hnew : SharedDocument.new id = .ok document) (h : Converges id operations) :
    Unambiguous operations := by
  intro first hfirst second hsecond hkey hclock hpeer
  have hrank : first.rank = second.rank := by
    rw [DocumentOperation.rank, DocumentOperation.rank, hclock, hpeer]
  obtain ⟨replica, hreached, hentry⟩ := exists_single hbounded hfree hnew hfirst
  obtain ⟨replica', hreached', hentry'⟩ := exists_single hbounded hfree hnew hsecond
  obtain ⟨left, right, hleft, hright, hget⟩ := h.comm _ _ _ _ hreached hreached'
  calc first.value
      = left.get first.key :=
        (get_of_merge_single hbounded hfree hreached' hentry hrank.ge hleft).symm
    _ = right.get second.key := by rw [hget, hkey]
    _ = second.value := get_of_merge_single hbounded hfree hreached hentry' hrank.le hright

/-- Replicas converge exactly when the operations can be told by their key, clock and peer. -/
theorem documents_converge_iff (hnew : SharedDocument.new id = .ok document)
    (hbounded : Bounded id operations) (hfree : CollisionFree operations) :
    Converges id operations ↔ Unambiguous operations :=
  ⟨unambiguous_of_comm hbounded hfree hnew, converges_of_unambiguous hbounded hfree⟩

end

/-- An edit of the title of a document. -/
def titleEdit (value : List UInt8) (peerId : String) : DocumentOperation :=
  { documentId := "notes", key := "title", value := some value, clock := 2, peerId }

attribute [local instance] nibbleCodec Sha2.sha256

/-- Two peers edit a title at the same time. -/
theorem documents_converge_iff_peers :
    let operations : Finset DocumentOperation := {titleEdit [1] "a", titleEdit [2] "b"}
    Bounded "notes" operations ∧ CollisionFree operations ∧ Converges "notes" operations := by
  intro operations
  have hbounded : Bounded "notes" operations :=
    { valid := by decide +kernel
      card_le := by decide +kernel
      size_le := by decide +kernel }
  have hfree : CollisionFree operations := by
    have hdigests : ∀ first ∈ operations, ∀ second ∈ operations,
        Sha256.digest (DocumentOperation.codec.toJson first).bytes
          = Sha256.digest (DocumentOperation.codec.toJson second).bytes → first = second := by
      decide +kernel
    rintro _ ⟨first, hfirst, rfl⟩ _ ⟨second, hsecond, rfl⟩ heq
    rw [hdigests first hfirst second hsecond heq]
  have hnew : SharedDocument.new "notes" = .ok { documentId := "notes" } := by rfl
  exact ⟨hbounded, hfree, (documents_converge_iff hnew hbounded hfree).mpr (by decide +kernel)⟩

/-- One peer edits a title twice with the same clock. The two replicas have seen both edits and show
different titles, whichever way they are merged. -/
theorem same_clock_diverges :
    ∃ document left right merged merged' again again',
      SharedDocument.new "notes" = .ok document
      ∧ document.apply (titleEdit [1] "a") = .ok (true, left)
      ∧ document.apply (titleEdit [2] "a") = .ok (true, right)
      ∧ left.merge right = (.ok (), merged) ∧ right.merge left = (.ok (), merged')
      ∧ left.apply (titleEdit [2] "a") = .ok (false, again)
      ∧ right.apply (titleEdit [1] "a") = .ok (false, again')
      ∧ merged.get "title" = some [1] ∧ merged'.get "title" = some [2]
      ∧ again.get "title" = some [1] ∧ again'.get "title" = some [2] := by
  have hrun : (do
      let document ← SharedDocument.new "notes"
      let left ← document.apply (titleEdit [1] "a")
      let right ← document.apply (titleEdit [2] "a")
      let again ← left.2.apply (titleEdit [2] "a")
      let again' ← right.2.apply (titleEdit [1] "a")
      return ([left.1, right.1, again.1, again'.1, decide ((left.2.merge right.2).1 = .ok ()),
        decide ((right.2.merge left.2).1 = .ok ())], [(left.2.merge right.2).2.get "title",
        (right.2.merge left.2).2.get "title", again.2.get "title", again'.2.get "title"]))
      = Except.ok ([true, true, false, false, true, true],
        [some [1], some [2], some [1], some [2]]) := by
    decide +kernel
  simp only [bind_eq_ok, pure, Except.pure, Except.ok.injEq, Prod.mk.injEq, List.cons.injEq,
    decide_eq_true_eq, and_true] at hrun
  obtain ⟨document, hnew, ⟨_, left⟩, hleft, ⟨_, right⟩, hright, ⟨_, again⟩, hagain, ⟨_, again'⟩,
    hagain', ⟨rfl, rfl, rfl, rfl, hmerged, hmerged'⟩, hshown⟩ := hrun
  exact ⟨document, left, right, _, _, again, again', hnew, hleft, hright, Prod.ext hmerged rfl,
    Prod.ext hmerged' rfl, hagain, hagain', hshown⟩

end CartridgeRuntime.Network
