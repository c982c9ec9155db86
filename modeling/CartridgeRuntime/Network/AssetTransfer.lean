import CartridgeRuntime.Library.Checked
import CartridgeRuntime.Library.Sha2

/-!
# Asset transfer

An asset is sent in chunks that carry its digest, its length and their own offset and digest.
`splitAsset` makes the chunks and `assembleAsset` puts them together again. `assembleAsset_iff`: the
chunks of an asset give the asset, and a list of chunks that carry its digest, whatever was done to
them, gives the asset or an error exactly if it is not empty (or the asset is).
-/

namespace CartridgeRuntime.Network

open Checked Encoding

def maxAssetBytes : Nat := 128 * 1024 * 1024
def assetChunkBytes : Nat := 64 * 1024

/-- A piece of an asset. -/
structure AssetChunk where
  assetSha256 : String
  offset : UInt64
  totalBytes : UInt64
  bytes : List UInt8
  chunkSha256 : String
deriving DecidableEq

/-- The piece of some bytes that a chunk holds. -/
def piece (bytes : List UInt8) (index : Nat) : List UInt8 :=
  (bytes.drop (index * assetChunkBytes)).take assetChunkBytes

/-- The number of pieces. The last one may be short. -/
def pieceCount (bytes : List UInt8) : Nat :=
  (bytes.length + assetChunkBytes - 1) / assetChunkBytes

section

variable [HexCodec] [Sha256]

/-- The chunk of a piece. -/
def chunkAt (bytes : List UInt8) (index : Nat) : AssetChunk where
  assetSha256 := sha256Hex bytes
  offset := .ofNat (index * assetChunkBytes)
  totalBytes := .ofNat bytes.length
  bytes := piece bytes index
  chunkSha256 := sha256Hex (piece bytes index)

/-- The chunks of an asset. -/
def splitAsset (bytes : List UInt8) : Except String (List AssetChunk) := do
  rejectIf (bytes.length > maxAssetBytes) "asset exceeds transfer limit"
  pure ((List.range (pieceCount bytes)).map (chunkAt bytes))

/-- One turn of the loop over the chunks, with the bytes so far and their number. -/
def appendChunk (expected : String) (total : Nat) (state : List UInt8 × Nat) (chunk : AssetChunk) :
    Except String (List UInt8 × Nat) := do
  let (output, offset) := state
  rejectIf (chunk.assetSha256 ≠ expected ∨ chunk.totalBytes.toNat ≠ total
      ∨ chunk.offset.toNat ≠ offset ∨ chunk.bytes.length > assetChunkBytes
      ∨ sha256Hex chunk.bytes ≠ chunk.chunkSha256)
    "asset chunk sequence or integrity is invalid"
  pure (output ++ chunk.bytes, offset + chunk.bytes.length)

/-- The asset of some chunks. -/
def assembleAsset (chunks : List AssetChunk) : Except String (List UInt8) :=
  match chunks with
  | [] => pure []
  | first :: _ => do
    rejectIf (first.totalBytes.toNat > maxAssetBytes) "asset exceeds transfer limit"
    let (output, _) ← chunks.foldlM (appendChunk first.assetSha256 first.totalBytes.toNat) ([], 0)
    rejectIf (output.length ≠ first.totalBytes.toNat ∨ sha256Hex output ≠ first.assetSha256)
      "assembled asset identity is invalid"
    pure output

/-! ## The chunks of an asset -/

omit [HexCodec] [Sha256] in
theorem take_pieceCount (bytes : List UInt8) :
    bytes.take (pieceCount bytes * assetChunkBytes) = bytes := by
  refine List.take_of_length_le ?_
  have hsize : assetChunkBytes = 65536 := rfl
  rw [pieceCount, hsize]
  omega

variable {bytes : List UInt8}

omit [HexCodec] [Sha256] in
/-- Only the last piece may be short, so a piece starts where the ones before it end. -/
theorem length_take_of_lt_pieceCount {index : Nat} (h : index < pieceCount bytes) :
    (bytes.take (index * assetChunkBytes)).length
      = index * assetChunkBytes := by
  have hsize : assetChunkBytes = 65536 := rfl
  rw [pieceCount, hsize] at h
  rw [List.length_take, hsize]
  omega

/-- The loop over the first chunks of an asset. -/
theorem foldlM_chunkAt (hlimit : bytes.length ≤ maxAssetBytes) {count : Nat}
    (hcount : count ≤ pieceCount bytes) :
    ((List.range count).map (chunkAt bytes)).foldlM (appendChunk (sha256Hex bytes) bytes.length)
        ([], 0)
      = .ok (bytes.take (count * assetChunkBytes), (bytes.take (count * assetChunkBytes)).length) := by
  induction count with
  | zero => rfl
  | succ count ih =>
    have hstart := length_take_of_lt_pieceCount (Nat.lt_of_succ_le hcount)
    have hword : maxAssetBytes < UInt64.size := by decide
    have hbound : count * assetChunkBytes ≤ bytes.length := by
      rw [← hstart, List.length_take]
      omega
    have htotal : (chunkAt bytes count).totalBytes.toNat = bytes.length :=
      UInt64.toNat_ofNat_of_lt' (by omega)
    have hoffset : (chunkAt bytes count).offset.toNat
        = (bytes.take (count * assetChunkBytes)).length :=
      (UInt64.toNat_ofNat_of_lt' (by omega)).trans hstart.symm
    have hsize : ¬ (chunkAt bytes count).bytes.length > assetChunkBytes :=
      Nat.not_lt.mpr (List.length_take_le _ _)
    have hnext : bytes.take (count * assetChunkBytes) ++ (chunkAt bytes count).bytes
        = bytes.take ((count + 1) * assetChunkBytes) := by
      rw [Nat.succ_mul, List.take_add]
      rfl
    have happend : appendChunk (sha256Hex bytes) bytes.length
        (bytes.take (count * assetChunkBytes), (bytes.take (count * assetChunkBytes)).length)
        (chunkAt bytes count)
          = .ok (bytes.take ((count + 1) * assetChunkBytes),
            (bytes.take ((count + 1) * assetChunkBytes)).length) := by
      rw [← hnext, List.length_append, appendChunk,
        rejectIf_of_not _ ?_]
      · rfl
      · simp only [not_or, not_not]
        exact ⟨rfl, htotal, hoffset, hsize, rfl⟩
    rw [List.range_succ, List.map_append, List.foldlM_append, ih (Nat.le_of_succ_le hcount), ok_bind,
      List.map_singleton, List.foldlM_cons, happend]
    rfl

/-- The chunks of an asset give the asset. -/
theorem assembleAsset_splitAsset (hlimit : bytes.length ≤ maxAssetBytes) :
    ((splitAsset bytes).bind assembleAsset) = .ok bytes := by
  have hsplit : splitAsset bytes = .ok ((List.range (pieceCount bytes)).map (chunkAt bytes)) := by
    rw [splitAsset, rejectIf_of_not _ (Nat.not_lt.mpr hlimit)]
    rfl
  have hloop := foldlM_chunkAt hlimit le_rfl
  rw [take_pieceCount] at hloop
  rw [hsplit]
  show assembleAsset _ = _
  cases hcount : pieceCount bytes with
  | zero =>
    have hempty := take_pieceCount bytes
    rw [hcount, Nat.zero_mul, List.take_zero] at hempty
    rw [← hempty]
    rfl
  | succ count =>
    have hword : maxAssetBytes < UInt64.size := by decide
    have htotal : (chunkAt bytes 0).totalBytes.toNat = bytes.length :=
      UInt64.toNat_ofNat_of_lt' (by omega)
    rw [hcount, List.range_succ_eq_map, List.map_cons] at hloop
    rw [List.range_succ_eq_map, List.map_cons, assembleAsset, htotal,
      rejectIf_of_not _ (Nat.not_lt.mpr hlimit), ok_bind,
      show (chunkAt bytes 0).assetSha256 = sha256Hex bytes from rfl, hloop, ok_bind]
    simp

/-! ## Chunks that were changed -/

/-- The loop appends the bytes of the chunks. -/
theorem output_of_foldlM {expected : String} {total : Nat} {chunks : List AssetChunk}
    {state state' : List UInt8 × Nat}
    (h : chunks.foldlM (appendChunk expected total) state = .ok state') :
    state'.1 = state.1 ++ chunks.flatMap AssetChunk.bytes := by
  induction chunks generalizing state with
  | nil =>
    cases h
    simp
  | cons chunk chunks ih =>
    rw [List.foldlM_cons, bind_eq_ok] at h
    obtain ⟨next, hnext, h⟩ := h
    simp only [appendChunk, bind_eq_ok, pure_eq_ok] at hnext
    obtain ⟨_, -, ⟨⟩⟩ := hnext
    rw [ih h, List.flatMap_cons, List.append_assoc]

/-- What is assembled are the bytes of the chunks, with the digest that they carry. -/
theorem assembleAsset_eq_ok {chunks : List AssetChunk} {output : List UInt8}
    (h : assembleAsset chunks = .ok output) :
    output = chunks.flatMap AssetChunk.bytes
      ∧ ∀ first ∈ chunks.head?, sha256Hex output = first.assetSha256 := by
  cases chunks with
  | nil =>
    cases h
    simp
  | cons first rest =>
    simp only [assembleAsset, bind_eq_ok, rejectIf_eq_ok, exists_unit, pure_eq_ok, not_or,
      not_not] at h
    obtain ⟨-, state, hstate, ⟨-, hdigest⟩, ⟨⟩⟩ := h
    refine ⟨by simpa using output_of_foldlM hstate, ?_⟩
    rintro other ⟨⟩
    exact hdigest

/-- The hash function tells the bytes of the chunks from the asset. -/
def TellsApart (bytes : List UInt8) (chunks : List AssetChunk) : Prop :=
  Sha256.digest (chunks.flatMap AssetChunk.bytes) = Sha256.digest bytes →
    chunks.flatMap AssetChunk.bytes = bytes

/-- The chunks of an asset give it back, and chunks that carry its digest give nothing else, unless
there is none left of an asset that is not empty. -/
theorem assembleAsset_iff {bytes : List UInt8} (hlimit : bytes.length ≤ maxAssetBytes)
    {chunks : List AssetChunk} (hdigest : ∀ chunk ∈ chunks, chunk.assetSha256 = sha256Hex bytes)
    (hcollision : TellsApart bytes chunks) :
    ((splitAsset bytes).bind assembleAsset) = .ok bytes
      ∧ ((∀ output, assembleAsset chunks = .ok output → output = bytes)
        ↔ chunks ≠ [] ∨ bytes = []) := by
  refine ⟨assembleAsset_splitAsset hlimit, ?_⟩
  constructor
  · intro h
    by_cases hchunks : chunks = []
    · subst hchunks
      exact .inr (h [] rfl).symm
    · exact .inl hchunks
  · intro h output houtput
    obtain ⟨hbytes, hfirst⟩ := assembleAsset_eq_ok houtput
    cases chunks with
    | nil =>
      rcases h with h | h
      · exact (h rfl).elim
      · rw [hbytes, h]
        rfl
    | cons first rest =>
      have hsame : sha256Hex output = sha256Hex bytes :=
        (hfirst first rfl).trans (hdigest first List.mem_cons_self)
      rw [hbytes] at hsame ⊢
      exact hcollision (by
        have hdecode := congrArg HexCodec.decode hsame
        rw [sha256Hex, sha256Hex, HexCodec.decode_encode, HexCodec.decode_encode] at hdecode
        exact Except.ok.inj hdecode)

end

attribute [local instance] nibbleCodec Sha2.sha256

/-- The chunk of a short asset, repeated, is an error. -/
theorem assembleAsset_repeated :
    (∀ output, assembleAsset [chunkAt [1, 2] 0, chunkAt [1, 2] 0] = .ok output → output = [1, 2])
      ∧ (splitAsset [1, 2]).bind assembleAsset = .ok [1, 2] := by
  have hcollision : TellsApart [1, 2] [chunkAt [1, 2] 0, chunkAt [1, 2] 0] := by
    intro h
    revert h
    decide +kernel
  have hlimit : ([1, 2] : List UInt8).length ≤ maxAssetBytes := by decide
  have h := assembleAsset_iff hlimit (by simp [chunkAt]) hcollision
  exact ⟨h.2.mpr (.inl (by simp)), h.1⟩

/-- All chunks of an asset were dropped, and the empty asset is assembled. -/
theorem assembleAsset_dropped :
    splitAsset [1] = .ok [chunkAt [1] 0] ∧ assembleAsset [] = .ok [] := by
  decide +kernel

end CartridgeRuntime.Network
