import Mathlib.Data.Set.Insert
import Mathlib.Order.Defs.LinearOrder

/-!
# Last writer wins

Items have a key and a rank, and of the items that were delivered an entry is kept for each key.
`Holds` says what the entries are without mentioning an order of delivery: an item that was delivered,
and no other of that key has a higher rank. `Holds.agree`: entries for the same items show the same
values, if items of one key and rank do.
-/

namespace LastWriter

variable {ι κ ρ υ : Type*} [LinearOrder ρ] {key : ι → κ} {rank : ι → ρ}
  {delivered delivered' : Set ι} {entries entries' : κ → Option ι} {item current : ι}

/-- The entries are items of the highest rank among those that were delivered. -/
structure Holds (key : ι → κ) (rank : ι → ρ) (delivered : Set ι) (entries : κ → Option ι) :
    Prop where
  mem_of_entry : ∀ {k : κ} {item : ι}, entries k = some item → item ∈ delivered ∧ key item = k
  entry_of_mem : ∀ {item : ι}, item ∈ delivered →
    ∃ kept, entries (key item) = some kept ∧ rank item ≤ rank kept

theorem holds_empty : Holds key rank ∅ (fun _ => none) where
  mem_of_entry h := by cases h
  entry_of_mem h := h.elim

/-- An item that is newer than the entry of its key takes its place. -/
theorem Holds.insert_newer [DecidableEq κ] (h : Holds key rank delivered entries)
    (hnewer : ∀ current, entries (key item) = some current → rank current < rank item) :
    Holds key rank (insert item delivered)
      (fun k => if key item = k then some item else entries k) where
  mem_of_entry {k other} hentry := by
    split at hentry
    · rename_i hkey
      cases hentry
      exact ⟨Set.mem_insert _ _, hkey⟩
    · obtain ⟨hmem, hkey⟩ := h.mem_of_entry hentry
      exact ⟨Set.mem_insert_of_mem _ hmem, hkey⟩
  entry_of_mem {other} hmem := by
    rcases hmem with rfl | hmem
    · exact ⟨other, if_pos rfl, le_refl _⟩
    · obtain ⟨kept, hkept, hle⟩ := h.entry_of_mem hmem
      by_cases hkey : key item = key other
      · -- the entry that is replaced was at least as new as the other item
        refine ⟨item, if_pos hkey, hle.trans (hnewer kept ?_).le⟩
        rw [hkey, hkept]
      · exact ⟨kept, (if_neg hkey).trans hkept, hle⟩

/-- An item that is not newer than the entry of its key changes nothing. -/
theorem Holds.insert_older (h : Holds key rank delivered entries)
    (hcurrent : entries (key item) = some current) (hle : rank item ≤ rank current) :
    Holds key rank (insert item delivered) entries where
  mem_of_entry hentry := by
    obtain ⟨hmem, hkey⟩ := h.mem_of_entry hentry
    exact ⟨Set.mem_insert_of_mem _ hmem, hkey⟩
  entry_of_mem hmem := by
    rcases hmem with rfl | hmem
    · exact ⟨current, hcurrent, hle⟩
    · exact h.entry_of_mem hmem

/-- Delivering the entries of another replica comes to delivering all of its items. -/
theorem Holds.union_of_entries (h : Holds key rank delivered' entries')
    {merged : κ → Option ι}
    (hmerged : Holds key rank (delivered ∪ {item | ∃ k, entries' k = some item}) merged) :
    Holds key rank (delivered ∪ delivered') merged where
  mem_of_entry hentry := by
    obtain ⟨hmem | ⟨k, hentry'⟩, hkey⟩ := hmerged.mem_of_entry hentry
    · exact ⟨.inl hmem, hkey⟩
    · exact ⟨.inr (h.mem_of_entry hentry').1, hkey⟩
  entry_of_mem {item} hmem := by
    rcases hmem with hmem | hmem
    · exact hmerged.entry_of_mem (.inl hmem)
    · obtain ⟨kept, hkept, hle⟩ := h.entry_of_mem hmem
      obtain ⟨last, hlast, hle'⟩ := hmerged.entry_of_mem (.inr ⟨_, hkept⟩)
      rw [(h.mem_of_entry hkept).2] at hlast
      exact ⟨last, hlast, hle.trans hle'⟩

/-- Entries for the same items show the same values. -/
theorem Holds.agree (h : Holds key rank delivered entries) (h' : Holds key rank delivered entries')
    {value : ι → υ} (hsame : ∀ first ∈ delivered, ∀ second ∈ delivered, key first = key second →
      rank first = rank second → value first = value second) (k : κ) :
    (entries k).map value = (entries' k).map value := by
  cases hentry : entries k with
  | none =>
    cases hentry' : entries' k with
    | none => rfl
    | some other =>
      obtain ⟨hmem, hkey⟩ := h'.mem_of_entry hentry'
      obtain ⟨kept, hkept, -⟩ := h.entry_of_mem hmem
      rw [hkey, hentry] at hkept
      cases hkept
  | some item =>
    obtain ⟨hmem, hkey⟩ := h.mem_of_entry hentry
    obtain ⟨other, hother, hle⟩ := h'.entry_of_mem hmem
    obtain ⟨hmem', hkey'⟩ := h'.mem_of_entry hother
    obtain ⟨kept, hkept, hle'⟩ := h.entry_of_mem hmem'
    rw [hkey', hkey, hentry] at hkept
    cases hkept
    rw [← hkey, hother, Option.map_some, Option.map_some,
      hsame item hmem other hmem' hkey'.symm (le_antisymm hle hle')]

end LastWriter
