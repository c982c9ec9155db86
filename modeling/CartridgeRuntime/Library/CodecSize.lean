import CartridgeRuntime.Library.Codec

/-!
# Sizes of documents

Bounds on the sizes of the documents of codecs. They are put together like the codecs themselves: a
record is bounded by the bounds of its fields and the lengths of their names.
-/

namespace Encoding

open Ascending Std

namespace Codec

variable {α β : Type}

/-- The number of bytes that a value takes. -/
def size (codec : Codec α) (value : α) : Nat :=
  (codec.toJson value).size

/-! ## Values -/

theorem size_string {value : String} (h : Plain value) : string.size value = value.length + 2 :=
  Json.size_str h

variable {k : Nat}

theorem size_string_le {value : String} (h : Plain value) (hk : value.length ≤ k) :
    string.size value ≤ k + 2 := by
  rw [size_string h]
  omega

theorem size_natural_le {n : Nat} (hk : 0 < k) (h : n < 10 ^ k) : natural.size n ≤ k := by
  have hsize : natural.size n = (decimal n).length := Json.size_num n
  rw [hsize]
  exact length_decimal_le hk h

theorem size_word_le (w : UInt64) : word.size w ≤ 20 :=
  size_natural_le (by omega) (Nat.lt_of_lt_of_le w.toNat_lt (by norm_num))

theorem size_nullable_le {codec : Codec α} {h : ∀ value, codec.toJson value ≠ .null}
    {value : Option α} (hk : 4 ≤ k) (hvalue : ∀ a ∈ value, codec.size a ≤ k) :
    (codec.nullable h).size value ≤ k := by
  cases value with
  | none =>
    have hnull : Json.null.size = 4 := by decide
    exact hnull.le.trans hk
  | some a => exact hvalue a rfl

end Codec

/-! ## Records -/

namespace Fields

variable {α β σ : Type}

/-- The number of bytes that the members take, with a comma and a colon each. -/
def size (fields : Fields α) (value : α) : Nat :=
  ((fields.toMembers value).map fun member =>
    byteLength (stringText member.1) + member.2.size + 2).sum

theorem size_required (name : String) (codec : Codec α) (value : α) :
    (required name codec).size value = byteLength (stringText name) + codec.size value + 2 :=
  rfl

theorem size_followedBy (first : Fields α) (second : Fields β)
    (h : ∀ name ∈ second.names, name ∉ first.optional) (value : α × β) :
    (first.followedBy second h).size value = first.size value.1 + second.size value.2 := by
  simp [size, followedBy]

variable {k : Nat}

variable {name : String} {codec : Codec α}

theorem size_required_le {value : α} (h : codec.size value ≤ k) :
    (required name codec).size value ≤ byteLength (stringText name) + k + 2 := by
  rw [size_required]
  omega

theorem size_member_le {rest : Fields β} {value : α × β} {l : Nat} (h : codec.size value.1 ≤ k)
    (hrest : rest.size value.2 ≤ l) :
    (member name codec rest).size value ≤ byteLength (stringText name) + k + 2 + l := by
  rw [size_followedBy]
  exact Nat.add_le_add (size_required_le h) hrest

theorem size_record (fields : Fields α) (write : σ → α) (read : α → σ)
    (h : ∀ value, read (write value) = value) (value : σ) :
    (fields.record write read h).size value
      = if fields.toMembers (write value) = [] then 2 else fields.size (write value) + 1 :=
  Json.size_obj _

theorem size_record_le {fields : Fields α} {write : σ → α} {read : α → σ}
    {h : ∀ value, read (write value) = value} {value : σ} (hk : fields.size (write value) ≤ k) :
    (fields.record write read h).size value ≤ k + 2 := by
  rw [size_record]
  split <;> omega

/-- A record whose first field is always there. -/
theorem size_record_required {second : Fields β}
    {hsecond : ∀ name' ∈ second.names, name' ∉ (required name codec).optional} {write : σ → α × β}
    {read : α × β → σ} {h : ∀ value, read (write value) = value} (value : σ) :
    (((required name codec).followedBy second hsecond).record write read h).size value
      = byteLength (stringText name) + codec.size (write value).1 + 2
        + second.size (write value).2 + 1 := by
  rw [size_record, if_neg (by simp [followedBy, required]), size_followedBy, size_required]

end Fields

end Encoding
