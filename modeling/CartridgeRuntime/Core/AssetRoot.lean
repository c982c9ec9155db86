import CartridgeRuntime.Core.Manifest
import CartridgeRuntime.Library.Merkle
import CartridgeRuntime.Library.Sha2

/-!
# What the asset root commits to

`assetIntegrityRoot_binds`: two maps with the same root have the same paths and the same digests, if
the hash function has no collision among the inputs that are hashed for the two roots. Leaves, nodes
and the empty map start with different bytes, all nodes have 32 bytes, and the paths of a map are
distinct, so that the repeated last node of an odd level does no harm.
-/

namespace CartridgeRuntime.Core

open Checked Encoding Std

/-! ## The bytes of a path -/

theorem byteArray_loop (bytes : ByteArray) (index : Nat) (done : List UInt8) :
    ByteArray.toList.loop bytes index done = done.reverse ++ bytes.data.toList.drop index := by
  fun_induction ByteArray.toList.loop bytes index done with
  | case1 index done h ih =>
    have hlt : index < bytes.data.toList.length := by simpa using h
    rw [ih, List.drop_eq_getElem_cons hlt]
    simp [ByteArray.get!, getElem!_pos, h]
  | case2 index done h =>
    rw [List.drop_eq_nil_of_le, List.append_nil]
    simpa using h

/-- A text can be told from its bytes. -/
theorem eq_of_utf8_eq {path path' : String} (h : path.toUTF8.toList = path'.toUTF8.toList) :
    path = path' := by
  simp only [ByteArray.toList, byteArray_loop, List.reverse_nil, List.nil_append, List.drop_zero] at h
  exact String.toByteArray_inj.mp (ByteArray.ext (Array.toList_inj.mp h))

/-! ## What is hashed -/

section

variable [HexCodec] [Sha256]

/-- What is hashed for a path and the bytes of its digest. -/
def assetInput (asset : String × List UInt8) : List UInt8 :=
  0 :: bigEndian (byteLength asset.1.toList) ++ asset.1.toUTF8.toList ++ asset.2

/-- What is hashed for two nodes. -/
def nodeInput (pair : List UInt8 × List UInt8) : List UInt8 :=
  1 :: pair.1 ++ pair.2

/-- What is hashed for the empty map. -/
def emptyInput : List UInt8 :=
  [2]

/-- The digest of an inner node. -/
def nodeHash (pair : List UInt8 × List UInt8) : List UInt8 :=
  Sha256.digest (nodeInput pair)

/-- The paths of a map with the bytes of their digests. -/
def decodedAssets (assets : ExtTreeMap String String) : List (String × List UInt8) :=
  assets.toList.map fun (path, digest) => (path, (HexCodec.decode digest).toOption.getD [])

/-- The leaves of the tree of a map. -/
def assetLeaves (assets : ExtTreeMap String String) : List (List UInt8) :=
  (decodedAssets assets).map fun asset => Sha256.digest (assetInput asset)

/-- All inputs that are hashed for the root of a map. -/
def hashedInputs (assets : ExtTreeMap String String) : List (List UInt8) :=
  (decodedAssets assets).map assetInput
    ++ (if decodedAssets assets = [] then [emptyInput] else [])
    ++ (Merkle.inputs nodeHash (assetLeaves assets)).map nodeInput

/-- Every digest of a map is the text of 32 bytes. -/
def HasDigests (assets : ExtTreeMap String String) : Prop :=
  ∀ path digest : String, assets[path]? = some digest →
    ∃ bytes, HexCodec.decode digest = .ok bytes ∧ bytes.length = 32

/-! ## The root as the root of a tree -/

omit [HexCodec] in
theorem parentNodes_eq (nodes : List (List UInt8)) :
    parentNodes nodes = Merkle.parents nodeHash nodes := by
  induction nodes using parentNodes.induct with
  | case1 => rfl
  | case2 => rfl
  | case3 left right rest ih =>
    rw [parentNodes, ih]
    rfl

omit [HexCodec] in
theorem rootNode_eq (nodes : List (List UInt8)) :
    rootNode nodes = (Merkle.root nodeHash nodes).getD (Sha256.digest emptyInput) := by
  induction nodes using rootNode.induct with
  | case1 => simp [rootNode, Merkle.root, emptyInput]
  | case2 root => simp [rootNode, Merkle.root]
  | case3 left right rest ih => rw [rootNode, Merkle.root, ih, parentNodes_eq]

/-- The root of a map exists when its digests have 32 bytes. -/
theorem assetIntegrityRoot_eq {assets : ExtTreeMap String String} (h : HasDigests assets) :
    assetIntegrityRoot assets = .ok (HexCodec.encode
      ((Merkle.root nodeHash (assetLeaves assets)).getD (Sha256.digest emptyInput))) := by
  have hnodes : ∀ entries : List (String × String), (∀ entry ∈ entries,
      ∃ bytes, HexCodec.decode entry.2 = .ok bytes ∧ bytes.length = 32) →
      entries.mapM (fun (path, digest) => assetNode path digest) = .ok (entries.map fun entry =>
        Sha256.digest (assetInput (entry.1, (HexCodec.decode entry.2).toOption.getD []))) := by
    intro entries hentries
    induction entries with
    | nil => rfl
    | cons entry entries ih =>
      obtain ⟨path, digest⟩ := entry
      obtain ⟨⟨bytes, hdecode, hlength⟩, hrest⟩ := List.forall_mem_cons.mp hentries
      have hnode : assetNode path digest
          = .ok (Sha256.digest (assetInput (path, bytes))) := by
        simp only [assetNode, hdecode, mapError, ok_bind]
        rw [rejectIf_of_not _ (not_not.mpr hlength), ok_bind]
        rfl
      rw [List.mapM_cons, ih hrest, List.map_cons, hdecode]
      dsimp only
      rw [hnode]
      rfl
  rw [assetIntegrityRoot, hnodes assets.toList, ok_bind, rootNode_eq]
  · simp only [assetLeaves, decodedAssets, List.map_map]
    rfl
  · exact fun entry hentry =>
      h entry.1 entry.2 (ExtTreeMap.mem_toList_iff_getElem?_eq_some.mp hentry)

/-! ## Inputs that differ -/

omit [HexCodec] [Sha256] in
/-- A path and 32 bytes can be told from what is hashed for them. -/
theorem injOn_assetInput : Set.InjOn assetInput {asset | asset.2.length = 32} := by
  intro asset hlength asset' hlength' h
  obtain ⟨hfirst, hbytes⟩ := List.append_inj' h (hlength.trans hlength'.symm)
  have hpath := (List.append_inj hfirst (by simp [bigEndian])).2
  exact Prod.ext (eq_of_utf8_eq hpath) hbytes

variable {pair : List UInt8 × List UInt8}

omit [HexCodec] [Sha256] in
theorem eq_of_nodeInput_eq {pair' : List UInt8 × List UInt8} (hlength : pair.1.length = 32)
    (hlength' : pair'.1.length = 32) (h : nodeInput pair = nodeInput pair') : pair = pair' := by
  obtain ⟨hfirst, hsecond⟩ := List.append_inj h (by simp [hlength, hlength'])
  exact Prod.ext (List.cons.inj hfirst).2 hsecond

variable {assets assets' : ExtTreeMap String String} {hashed : Set (List UInt8)}

omit [Sha256] in
theorem length_of_mem_decodedAssets (h : HasDigests assets) {asset : String × List UInt8}
    (hmem : asset ∈ decodedAssets assets) : asset.2.length = 32 := by
  obtain ⟨⟨path, digest⟩, hentry, rfl⟩ := List.mem_map.mp hmem
  obtain ⟨bytes, hdecode, hlength⟩ :=
    h path digest (ExtTreeMap.mem_toList_iff_getElem?_eq_some.mp hentry)
  simp only [hdecode]
  exact hlength

omit [Sha256] in
theorem nodup_decodedAssets (assets : ExtTreeMap String String) : (decodedAssets assets).Nodup := by
  refine List.Nodup.of_map Prod.fst ?_
  rw [decodedAssets, List.map_map]
  refine assets.distinct_keys_toList.map _ fun entry entry' hne heq => ?_
  exact hne (Std.compare_eq_iff_eq.mpr heq)

theorem mem_assetLeaves {leaf : List UInt8} (h : leaf ∈ assetLeaves assets) :
    ∃ asset ∈ decodedAssets assets, leaf = Sha256.digest (assetInput asset) := by
  obtain ⟨asset, hmem, heq⟩ := List.mem_map.mp h
  exact ⟨asset, hmem, heq.symm⟩

theorem assetInput_mem {asset : String × List UInt8} (h : asset ∈ decodedAssets assets) :
    assetInput asset ∈ hashedInputs assets :=
  List.mem_append_left _ (List.mem_append_left _ (List.mem_map_of_mem h))

theorem nodeInput_mem (h : pair ∈ Merkle.inputs nodeHash (assetLeaves assets)) :
    nodeInput pair ∈ hashedInputs assets :=
  List.mem_append_right _ (List.mem_map_of_mem h)

theorem emptyInput_mem (h : decodedAssets assets = []) : emptyInput ∈ hashedInputs assets := by
  simp [hashedInputs, h]

/-- The nodes of a tree have 32 bytes. -/
theorem length_fst_of_mem_inputs (h : pair ∈ Merkle.inputs nodeHash (assetLeaves assets)) :
    pair.1.length = 32 := by
  rcases Merkle.fst_of_mem_inputs h with hleaf | ⟨below, -, heq⟩
  · obtain ⟨asset, -, heq⟩ := mem_assetLeaves hleaf
    rw [heq]
    exact Sha256.length_digest _
  · rw [heq]
    exact Sha256.length_digest _

/-- The root of a map with assets is not that of the empty map. -/
theorem root_ne_empty (hinj : Set.InjOn Sha256.digest hashed) (hempty : emptyInput ∈ hashed)
    (hinputs : ∀ input ∈ hashedInputs assets, input ∈ hashed) :
    Merkle.root nodeHash (assetLeaves assets) ≠ some (Sha256.digest emptyInput) := by
  intro hroot
  rcases Merkle.root_cases hroot with hsingle | ⟨pair, hpair, heq⟩
  · obtain ⟨asset, hasset, heq⟩ := mem_assetLeaves (hsingle ▸ List.mem_singleton_self _)
    have := hinj hempty (hinputs _ (assetInput_mem hasset)) heq
    simp [emptyInput, assetInput] at this
  · have := hinj hempty (hinputs _ (nodeInput_mem hpair)) heq
    simp [emptyInput, nodeInput] at this

theorem nodup_assetLeaves (h : HasDigests assets) (hinj : Set.InjOn Sha256.digest hashed)
    (hinputs : ∀ input ∈ hashedInputs assets, input ∈ hashed) : (assetLeaves assets).Nodup := by
  refine (nodup_decodedAssets assets).map_on fun asset hmem asset' hmem' heq => ?_
  exact injOn_assetInput (length_of_mem_decodedAssets h hmem) (length_of_mem_decodedAssets h hmem')
    (hinj (hinputs _ (assetInput_mem hmem)) (hinputs _ (assetInput_mem hmem')) heq)

/-- A node is not a leaf. -/
theorem nodeHash_notMem_assetLeaves (hinj : Set.InjOn Sha256.digest hashed)
    (hpair : nodeInput pair ∈ hashed) (hinputs : ∀ input ∈ hashedInputs assets, input ∈ hashed) :
    nodeHash pair ∉ assetLeaves assets := by
  intro hmem
  obtain ⟨asset, hasset, heq⟩ := mem_assetLeaves hmem
  have := hinj hpair (hinputs _ (assetInput_mem hasset)) heq
  simp [nodeInput, assetInput] at this

/-- The inputs of two maps. -/
def bothHashed (assets assets' : ExtTreeMap String String) : Set (List UInt8) :=
  {input | input ∈ hashedInputs assets ∨ input ∈ hashedInputs assets'}

theorem hashedInputs_left (assets assets' : ExtTreeMap String String) :
    ∀ input ∈ hashedInputs assets, input ∈ bothHashed assets assets' :=
  fun _ => .inl

theorem hashedInputs_right (assets assets' : ExtTreeMap String String) :
    ∀ input ∈ hashedInputs assets', input ∈ bothHashed assets assets' :=
  fun _ => .inr

theorem bothHashed_of_combined
    (h : pair ∈ Merkle.Combined nodeHash (assetLeaves assets) (assetLeaves assets')) :
    nodeInput pair ∈ bothHashed assets assets' ∧ pair.1.length = 32 := by
  rcases h with h | h
  · exact ⟨.inl (nodeInput_mem h), length_fst_of_mem_inputs h⟩
  · exact ⟨.inr (nodeInput_mem h), length_fst_of_mem_inputs h⟩

/-- The hash function has no collision among the inputs of two roots. -/
def CollisionFree (assets assets' : ExtTreeMap String String) : Prop :=
  Set.InjOn Sha256.digest (bothHashed assets assets')

theorem CollisionFree.injOn_nodeHash (hfree : CollisionFree assets assets') :
    Set.InjOn nodeHash (Merkle.Combined nodeHash (assetLeaves assets) (assetLeaves assets')) := by
  intro pair hpair pair' hpair' heq
  obtain ⟨hinput, hlength⟩ := bothHashed_of_combined hpair
  obtain ⟨hinput', hlength'⟩ := bothHashed_of_combined hpair'
  exact eq_of_nodeInput_eq hlength hlength' (hfree hinput hinput' heq)

theorem CollisionFree.separated (hfree : CollisionFree assets assets') :
    Merkle.Separated nodeHash (assetLeaves assets) (assetLeaves assets') := by
  intro pair hpair
  have hinput := (bothHashed_of_combined hpair).1
  exact ⟨nodeHash_notMem_assetLeaves hfree hinput (hashedInputs_left _ _),
    nodeHash_notMem_assetLeaves hfree hinput (hashedInputs_right _ _)⟩

theorem decodedAssets_eq_nil
    (h : Merkle.root nodeHash (assetLeaves assets) = none) : decodedAssets assets = [] :=
  List.map_eq_nil_iff.mp (Merkle.root_eq_none_iff.mp h)

/-- The same root means the same leaves. -/
theorem assetLeaves_eq_of_root_eq (h : HasDigests assets) (h' : HasDigests assets')
    (hfree : CollisionFree assets assets')
    (hroot : (Merkle.root nodeHash (assetLeaves assets)).getD (Sha256.digest emptyInput)
      = (Merkle.root nodeHash (assetLeaves assets')).getD (Sha256.digest emptyInput)) :
    assetLeaves assets = assetLeaves assets' := by
  cases htop : Merkle.root nodeHash (assetLeaves assets) with
  | none =>
    cases htop' : Merkle.root nodeHash (assetLeaves assets') with
    | none => rw [assetLeaves, decodedAssets_eq_nil htop, assetLeaves, decodedAssets_eq_nil htop']
    | some top =>
      rw [htop, htop', Option.getD_none, Option.getD_some] at hroot
      rw [← hroot] at htop'
      exact absurd htop' (root_ne_empty hfree
        (.inl (emptyInput_mem (decodedAssets_eq_nil htop))) (hashedInputs_right _ _))
  | some top =>
    cases htop' : Merkle.root nodeHash (assetLeaves assets') with
    | none =>
      rw [htop, htop', Option.getD_none, Option.getD_some] at hroot
      rw [hroot] at htop
      exact absurd htop (root_ne_empty hfree
        (.inr (emptyInput_mem (decodedAssets_eq_nil htop'))) (hashedInputs_left _ _))
    | some top' =>
      rw [htop, htop', Option.getD_some, Option.getD_some] at hroot
      refine Merkle.eq_of_root_eq hfree.injOn_nodeHash hfree.separated
        (nodup_assetLeaves h hfree (hashedInputs_left _ _))
        (nodup_assetLeaves h' hfree (hashedInputs_right _ _)) ?_
      rw [htop, htop', hroot]

/-- The same leaves mean the same assets. -/
theorem decodedAssets_eq_of_assetLeaves_eq (h : HasDigests assets) (h' : HasDigests assets')
    (hfree : CollisionFree assets assets') (hleaves : assetLeaves assets = assetLeaves assets') :
    decodedAssets assets = decodedAssets assets' := by
  have hinj : Set.InjOn (fun asset => Sha256.digest (assetInput asset))
      {asset | asset.2.length = 32 ∧ assetInput asset ∈ bothHashed assets assets'} :=
    fun asset hasset asset' hasset' heq =>
      injOn_assetInput hasset.1 hasset'.1 (hfree hasset.2 hasset'.2 heq)
  refine Merkle.eq_of_map_eq hinj (fun asset hmem => ?_) (fun asset hmem => ?_) hleaves
  · exact ⟨length_of_mem_decodedAssets h hmem, .inl (assetInput_mem hmem)⟩
  · exact ⟨length_of_mem_decodedAssets h' hmem, .inr (assetInput_mem hmem)⟩

omit [Sha256] in
/-- An asset of a map is found under its path. -/
theorem mem_decodedAssets_iff (h : HasDigests assets) {path : String} {bytes : List UInt8} :
    (path, bytes) ∈ decodedAssets assets ↔ assets[path]?.map HexCodec.decode = some (.ok bytes) := by
  simp only [decodedAssets, List.mem_map, Prod.mk.injEq, Option.map_eq_some_iff]
  constructor
  · rintro ⟨⟨found, digest⟩, hentry, rfl, rfl⟩
    have hfound := ExtTreeMap.mem_toList_iff_getElem?_eq_some.mp hentry
    obtain ⟨bytes, hdecode, -⟩ := h found digest hfound
    exact ⟨digest, hfound, by rw [hdecode]; rfl⟩
  · rintro ⟨digest, hfound, hdecode⟩
    exact ⟨(path, digest), ExtTreeMap.mem_toList_iff_getElem?_eq_some.mpr hfound, rfl,
      by rw [hdecode]; rfl⟩

omit [Sha256] in
theorem map_decode_cases (h : HasDigests assets) (path : String) :
    assets[path]?.map HexCodec.decode = none
      ∨ ∃ bytes, assets[path]?.map HexCodec.decode = some (.ok bytes) := by
  cases hfound : assets[path]? with
  | none => exact .inl rfl
  | some digest =>
    obtain ⟨bytes, hdecode, -⟩ := h path digest hfound
    exact .inr ⟨bytes, congrArg some hdecode⟩

/-- Maps with the same root have the same paths and, as bytes, the same digests. -/
theorem assetIntegrityRoot_binds (h : HasDigests assets) (h' : HasDigests assets')
    (hfree : CollisionFree assets assets')
    (hroot : assetIntegrityRoot assets = assetIntegrityRoot assets') (path : String) :
    assets[path]?.map HexCodec.decode = assets'[path]?.map HexCodec.decode := by
  rw [assetIntegrityRoot_eq h, assetIntegrityRoot_eq h', Except.ok.injEq] at hroot
  have hnode := congrArg HexCodec.decode hroot
  rw [HexCodec.decode_encode, HexCodec.decode_encode, Except.ok.injEq] at hnode
  have hleaves := assetLeaves_eq_of_root_eq h h' hfree hnode
  have hassets := decodedAssets_eq_of_assetLeaves_eq h h' hfree hleaves
  have hsame : ∀ bytes, assets[path]?.map HexCodec.decode = some (.ok bytes)
      ↔ assets'[path]?.map HexCodec.decode = some (.ok bytes) := fun bytes => by
    rw [← mem_decodedAssets_iff h, ← mem_decodedAssets_iff h', hassets]
  rcases map_decode_cases h path with hnone | ⟨bytes, hsome⟩
  · rcases map_decode_cases h' path with hnone' | ⟨bytes, hsome'⟩
    · rw [hnone, hnone']
    · rw [(hsame bytes).mpr hsome', hsome']
  · rw [hsome, (hsame bytes).mp hsome]

/-- Maps whose digests differ in case only are hashed alike, so that the hash function only has to
tell the inputs of one of them. -/
theorem collisionFree_of_decodedAssets_eq (h : decodedAssets assets = decodedAssets assets')
    (hnodup : ((hashedInputs assets).map Sha256.digest).Nodup) : CollisionFree assets assets' := by
  have hsame : hashedInputs assets' = hashedInputs assets := by
    simp only [hashedInputs, assetLeaves, h]
  intro input hinput other hother heq
  rw [bothHashed, hsame, Set.mem_ofPred_eq, or_self] at hinput hother
  exact List.inj_on_of_nodup_map hnodup hinput hother heq

omit [Sha256] in
/-- A digest that is not decoded has no bytes. -/
theorem hasDigests_of_decodedAssets (h : ∀ asset ∈ decodedAssets assets, asset.2.length = 32) :
    HasDigests assets := by
  intro path digest hfound
  have hlength := h _ (List.mem_map_of_mem (ExtTreeMap.mem_toList_iff_getElem?_eq_some.mpr hfound))
  cases hdecode : HexCodec.decode digest with
  | error error => simp [hdecode, Except.toOption] at hlength
  | ok bytes => exact ⟨bytes, rfl, by simpa [hdecode, Except.toOption] using hlength⟩

end

/-- Three assets, with a digest in lower or in upper case. The third leaf is paired with itself. -/
theorem assetIntegrityRoot_binds_case :
    let _ := nibbleCodec
    let _ := Sha2.sha256
    let digest (digit : Char) := String.ofList (List.replicate 64 digit)
    let assets : ExtTreeMap String String := ExtTreeMap.ofList
      [("a.txt", digest 'a'), ("b.txt", digest 'b'), ("c.txt", digest 'c')]
    let assets' := assets.insert "c.txt" (digest 'C')
    assets["c.txt"]? ≠ assets'["c.txt"]?
      ∧ ∀ path : String,
        assets[path]?.map HexCodec.decode = assets'[path]?.map HexCodec.decode := by
  intro _ _ digest assets assets'
  have hlist : decodedAssets assets = [("a.txt", List.replicate 32 170),
      ("b.txt", List.replicate 32 187), ("c.txt", List.replicate 32 204)] := by decide +kernel
  have hsame : decodedAssets assets' = decodedAssets assets := by
    rw [hlist]
    decide +kernel
  have hdigests : HasDigests assets := hasDigests_of_decodedAssets (by rw [hlist]; decide)
  have hdigests' : HasDigests assets' := hasDigests_of_decodedAssets (by rw [hsame, hlist]; decide)
  have hfree : CollisionFree assets assets' := by
    refine collisionFree_of_decodedAssets_eq hsame.symm ?_
    simp only [hashedInputs, assetLeaves, hlist, List.map_cons, List.map_nil, Merkle.inputs,
      Merkle.parents, Merkle.pairs, reduceCtorEq, if_false, List.append_nil, List.cons_append,
      List.nil_append]
    decide +kernel
  have hroot : assetIntegrityRoot assets = assetIntegrityRoot assets' := by
    simp only [assetIntegrityRoot_eq hdigests, assetIntegrityRoot_eq hdigests', assetLeaves, hsame]
  exact ⟨by decide +kernel, assetIntegrityRoot_binds hdigests hdigests' hfree hroot⟩

end CartridgeRuntime.Core
