import CartridgeRuntime.Core.Package
import CartridgeRuntime.Library.Sha2
import Mathlib.Data.Finset.Insert

/-!
# Verifying one asset of a package

`verifyAsset` walks over the headers of an archive and reads only the manifest and one asset.
`verifyAsset_eq_ok_iff`: on a package that opens, it finds exactly the assets that opening finds, and
reports them as they are. The two walks are kept in step by `InStep`.
-/

namespace CartridgeRuntime.Core

open Checked Encoding Network
open Std (ExtTreeMap)

/-- What is reported of an asset. -/
structure AssetVerification where
  cartridgeId : String
  cartridgeVersion : String
  path : String
  bytes : Nat
  sha256 : String
  assetsRootSha256 : String
deriving DecidableEq

/-- What the walk over the headers has found. The source keeps the positions of the two entries. -/
structure SelectiveEntries where
  seen : Finset String := ∅
  assets : Finset String := ∅
  manifest : Option ZipEntry := none
  componentFound : Bool := false
  requested : Option ZipEntry := none
  totalSize : Nat := 0

/-- Note the entry with a name. -/
def SelectiveEntries.note (scan : SelectiveEntries) (requested name : String) (entry : ZipEntry) :
    SelectiveEntries :=
  if name = manifestPath then { scan with manifest := some entry }
  else if name = componentPath then { scan with componentFound := true }
  else
    { scan with
      assets := insert (String.ofList (name.toList.drop 7)) scan.assets
      requested := if name = requested then some entry else scan.requested }

/-- One entry. -/
def scanEntry (limits : PackageLimits) (requested : String) (scan : SelectiveEntries)
    (entry : ZipEntry) : Except String SelectiveEntries := do
  if isDirectory entry.name then
    return scan
  else
    let name ← normalizeRelativePath entry.name
    rejectIf (name ∈ scan.seen) (archiveError s!"duplicate archive entry: {name}")
    let limit ← entryLimit limits name
    rejectIf (entry.size > limit) (archiveError s!"archive entry is too large: {name}")
    let totalSize ← okOr (checkedAdd scan.totalSize entry.size) (archiveError "archive size overflow")
    rejectIf (totalSize > limits.totalBytes)
      (archiveError "archive exceeds the total uncompressed size limit")
    return { scan.note requested name entry with seen := insert name scan.seen, totalSize }

/-- Find the manifest and the asset among the headers. -/
def scanSelectiveEntries (zip : List ZipEntry) (limits : PackageLimits) (requested : String) :
    Except String (SelectiveEntries × ZipEntry) := do
  rejectIf (zip.length > limits.entries)
    (archiveError s!"archive contains {zip.length} entries; maximum is {limits.entries}")
  let scan ← zip.foldlM (scanEntry limits requested) {}
  rejectIf (¬ scan.componentFound) (archiveError s!"missing {componentPath}")
  let manifest ← okOr scan.manifest (archiveError s!"missing {manifestPath}")
  return (scan, manifest)

section

variable [SemverValues] [HexCodec] [Sha256] [TomlManifests] [ZipLibrary]

/-- Verify one asset without the others. -/
def CartridgeArchive.verifyAsset (bytes : List UInt8) (assetPath : String) :
    Except String AssetVerification := do
  let limits := PackageLimits.default
  let requested ← normalizeRelativePath assetPath
  let requestedEntry := "assets/" ++ requested
  let zip ← mapError zipError (ZipLibrary.read bytes)
  let (entries, manifestEntry) ← scanSelectiveEntries zip limits requestedEntry
  let manifestBytes ← readBoundedEntry manifestEntry limits.manifestBytes manifestPath
  let manifest ← readManifest manifestBytes
  rejectIf (entries.assets ≠ manifest.integrity.assetsSha256.keys.toFinset)
    (integrityError "archive asset names do not match the manifest")
  rejectIf (manifest.integrity.assetsRootSha256 = "")
    (integrityError "selective asset verification requires an asset integrity root")
  let expected ← okOr manifest.integrity.assetsSha256[requested]?
    (archiveError s!"asset not found: {requested}")
  let entry ← okOr entries.requested (archiveError s!"asset not found: {requested}")
  let content ← readBoundedEntry entry limits.assetBytes requestedEntry
  let sha256 := sha256Hex content
  rejectIf (¬ eqIgnoreAsciiCase sha256 expected)
    (integrityError s!"asset digest mismatch for {requested}")
  return {
    cartridgeId := manifest.cartridge.id
    cartridgeVersion := manifest.cartridge.version
    path := requested
    bytes := entry.size
    sha256
    assetsRootSha256 := manifest.integrity.assetsRootSha256 }

end

/-! ## Reading and scanning an entry -/

variable {path name : String} {entry : ZipEntry} {limit : Nat} {limits : PackageLimits}
    {state state' : ExtTreeMap String (List UInt8) × Nat} {scan : SelectiveEntries}

theorem normalizeRelativePath_eq_ok {normal : String} :
    normalizeRelativePath path = .ok normal ↔ isRelativePath path ∧ path = normal := by
  simp [normalizeRelativePath, rejectIf_eq_ok]

/-- The entry holds some content, within a limit. -/
def ZipEntry.Holds (entry : ZipEntry) (limit : Nat) (content : List UInt8) : Prop :=
  entry.content = .ok content ∧ entry.size = content.length ∧ content.length ≤ limit

theorem readBoundedEntry_eq_ok {content : List UInt8} :
    readBoundedEntry entry limit name = .ok content ↔ entry.Holds limit content := by
  simp only [readBoundedEntry, bind_eq_ok, exists_unit, rejectIf_eq_ok, mapError_eq_ok, pure_eq_ok,
    Except.ok.injEq, not_lt, not_not, gt_iff_lt, ZipEntry.Holds]
  constructor
  · rintro ⟨full, hfull, hbound, hsize, rfl⟩
    have hshort : full.length ≤ limit := by
      rw [List.length_take] at hbound
      omega
    rw [List.take_of_length_le (by omega)] at hsize hbound ⊢
    exact ⟨hfull, hsize.symm, hbound⟩
  · rintro ⟨hcontent, hsize, hbound⟩
    have htake : content.take (limit + 1) = content := List.take_of_length_le (by omega)
    exact ⟨content, hcontent, by rw [htake]; exact hbound, by rw [htake]; exact hsize.symm, htake⟩

/-- What reading an entry that is no directory adds. -/
theorem readEntry_eq_ok (hfile : isDirectory entry.name = false)
    (h : readEntry limits state entry = .ok state') :
    ∃ limit content, isRelativePath entry.name ∧ entry.name ∉ state.1
      ∧ entryLimit limits entry.name = .ok limit ∧ entry.Holds limit content
      ∧ content.length ≤ limits.totalBytes - state.2
      ∧ checkedAdd state.2 content.length = some state'.2
      ∧ state'.1 = state.1.insert entry.name content := by
  rw [readEntry, if_neg (by simp [hfile])] at h
  simp only [bind_eq_ok, exists_unit, rejectIf_eq_ok, normalizeRelativePath_eq_ok, okOr_eq_ok,
    readBoundedEntry_eq_ok, pure_eq_ok, Except.ok.injEq] at h
  obtain ⟨name, ⟨hpath, rfl⟩, hnew, limit, hlimit, -, -, content, hholds, total, htotal, rfl⟩ := h
  exact ⟨limit, content, hpath, hnew, hlimit, ⟨hholds.1, hholds.2.1, hholds.2.2.trans (Nat.min_le_left _ _)⟩,
    hholds.2.2.trans (Nat.min_le_right _ _), htotal, rfl⟩

/-- The entry of an asset is neither the manifest nor the component. -/
theorem assets_ne (path : String) :
    "assets/" ++ path ≠ manifestPath ∧ "assets/" ++ path ≠ componentPath := by
  constructor <;> intro heq <;> simpa [manifestPath, componentPath] using congrArg String.toList heq

theorem assets_append_injective {left right : String} (h : "assets/" ++ left = "assets/" ++ right) :
    left = right := by
  have htext := congrArg String.toList h
  rw [String.toList_append, String.toList_append] at htext
  exact String.toList_inj.mp (List.append_cancel_left htext)

theorem eq_assets_append (h : "assets/".toList <+: name.toList) :
    name = "assets/" ++ String.ofList (name.toList.drop 7) := by
  obtain ⟨rest, hrest⟩ := h
  refine String.toList_inj.mp ?_
  rw [String.toList_append, ← hrest]
  exact congrArg ("assets/".toList ++ ·) String.toList_ofList.symm

/-- The entries that reading has collected and those that the scan has noted. -/
structure InStep (limits : PackageLimits) (requested : String)
    (state : ExtTreeMap String (List UInt8) × Nat) (scan : SelectiveEntries) : Prop where
  seen : ∀ name, name ∈ scan.seen ↔ name ∈ state.1
  assets : ∀ path, path ∈ scan.assets ↔ "assets/" ++ path ∈ state.1
  component : scan.componentFound = true ↔ componentPath ∈ state.1
  manifest : Option.Rel (fun content entry => entry.Holds limits.manifestBytes content)
    state.1[manifestPath]? scan.manifest
  requested : Option.Rel (fun content entry => entry.Holds limits.assetBytes content)
    state.1[requested]? scan.requested
  total : scan.totalSize = state.2 ∧ state.2 ≤ limits.totalBytes

theorem inStep_start (limits : PackageLimits) (requested : String) :
    InStep limits requested (∅, 0) {} := by
  constructor <;> simp [Option.rel_none_none]

/-- The kinds of entries, with their limits. -/
theorem entryLimit_eq_ok (h : entryLimit limits name = .ok limit) :
    (name = manifestPath ∧ limit = limits.manifestBytes) ∨ name = componentPath
      ∨ (∃ path, name = "assets/" ++ path) ∧ limit = limits.assetBytes := by
  unfold entryLimit at h
  split at h
  · rename_i hname
    exact .inl ⟨hname, (Except.ok.inj h).symm⟩
  split at h
  · rename_i hname
    exact .inr (.inl hname)
  split at h
  · rename_i hname
    exact .inr (.inr ⟨⟨_, eq_assets_append hname⟩, (Except.ok.inj h).symm⟩)
  · cases h

/-- An entry that is noted is one that has been read. -/
theorem InStep.note
    {total : Nat} {content : List UInt8}
    (h : InStep limits ("assets/" ++ path) state scan) (hlimit : entryLimit limits name = .ok limit)
    (hholds : entry.Holds limit content) (htotal : total ≤ limits.totalBytes) :
    InStep limits ("assets/" ++ path) (state.1.insert name content, total)
      { scan.note ("assets/" ++ path) name entry with
        seen := insert name scan.seen, totalSize := total } := by
  have hcomponent : componentPath ≠ manifestPath := by decide
  have hseen (other : String) : other ∈ insert name scan.seen ↔ other ∈ state.1.insert name content := by
    rw [Finset.mem_insert, h.seen, ExtTreeMap.mem_insert, Std.compare_eq_iff_eq, eq_comm]
  rcases entryLimit_eq_ok hlimit with ⟨rfl, rfl⟩ | rfl | ⟨⟨asset, rfl⟩, rfl⟩
  · have hnote : scan.note ("assets/" ++ path) manifestPath entry = { scan with manifest := some entry } :=
      if_pos rfl
    rw [hnote]
    refine ⟨hseen, fun other => ?_, ?_, ?_, ?_, rfl, htotal⟩
    · simp [h.assets, (assets_ne other).1.symm]
    · simp [h.component, hcomponent.symm]
    · simpa using Option.Rel.some hholds
    · simpa [(assets_ne path).1.symm] using h.requested
  · have hnote : scan.note ("assets/" ++ path) componentPath entry = { scan with componentFound := true } := by
      rw [SelectiveEntries.note, if_neg hcomponent, if_pos rfl]
    rw [hnote]
    refine ⟨hseen, fun other => ?_, ?_, ?_, ?_, rfl, htotal⟩
    · simp [h.assets, (assets_ne other).2.symm]
    · simp
    · simpa [hcomponent] using h.manifest
    · simpa [(assets_ne path).2.symm] using h.requested
  · have hnote : scan.note ("assets/" ++ path) ("assets/" ++ asset) entry
        = { scan with
            assets := insert asset scan.assets
            requested := if "assets/" ++ asset = "assets/" ++ path then some entry
              else scan.requested } := by
      have hdrop : String.ofList (("assets/" ++ asset).toList.drop 7) = asset :=
        (assets_append_injective (eq_assets_append (by rw [String.toList_append]; exact ⟨_, rfl⟩))).symm
      rw [SelectiveEntries.note, if_neg (assets_ne asset).1, if_neg (assets_ne asset).2, hdrop]
    rw [hnote]
    refine ⟨hseen, fun other => ?_, ?_, ?_, ?_, rfl, htotal⟩
    · rw [Finset.mem_insert, h.assets, ExtTreeMap.mem_insert, Std.compare_eq_iff_eq]
      exact or_congr_left ⟨fun heq => by rw [heq], fun heq => (assets_append_injective heq).symm⟩
    · simp [h.component, (assets_ne asset).2]
    · simpa [(assets_ne asset).1] using h.manifest
    · dsimp only
      rw [TreeMap.getElem?_insert']
      split
      · exact .some hholds
      · exact h.requested

/-- An entry that is read is scanned too. -/
theorem InStep.step
    (h : InStep limits ("assets/" ++ path) state scan)
    (hread : readEntry limits state entry = .ok state') :
    ∃ scan', scanEntry limits ("assets/" ++ path) scan entry = .ok scan'
      ∧ InStep limits ("assets/" ++ path) state' scan' := by
  cases hdirectory : isDirectory entry.name with
  | true =>
    rw [readEntry, if_pos hdirectory] at hread
    cases hread
    exact ⟨scan, by rw [scanEntry, if_pos hdirectory]; rfl, h⟩
  | false =>
    obtain ⟨limit, content, hpath, hnew, hlimit, hholds, hroom, htotal, hinsert⟩ :=
      readEntry_eq_ok hdirectory hread
    have hsum : state'.2 ≤ limits.totalBytes := by
      rw [checkedAdd, Option.ite_none_right_eq_some] at htotal
      have := htotal.2
      have := h.total.2
      grind
    obtain ⟨entries', total'⟩ := state'
    obtain rfl : entries' = _ := hinsert
    refine ⟨_, ?_, h.note hlimit hholds hsum⟩
    rw [scanEntry, if_neg (by simp [hdirectory]), normalizeRelativePath_eq_ok.mpr ⟨hpath, rfl⟩, ok_bind,
      rejectIf_of_not _ (by rwa [h.seen]), ok_bind, hlimit, ok_bind,
      rejectIf_of_not _ (by rw [hholds.2.1]; exact Nat.not_lt.mpr hholds.2.2), ok_bind, h.total.1,
      hholds.2.1, htotal]
    show (rejectIf (total' > limits.totalBytes) _ >>= _) = _
    rw [rejectIf_of_not _ (Nat.not_lt.mpr hsum)]
    rfl

theorem InStep.foldlM {zip : List ZipEntry}
    (h : InStep limits ("assets/" ++ path) state scan)
    (hread : zip.foldlM (readEntry limits) state = .ok state') :
    ∃ scan', zip.foldlM (scanEntry limits ("assets/" ++ path)) scan = .ok scan'
      ∧ InStep limits ("assets/" ++ path) state' scan' := by
  induction zip generalizing state scan with
  | nil =>
    cases hread
    exact ⟨scan, rfl, h⟩
  | cons entry zip ih =>
    rw [List.foldlM_cons, bind_eq_ok] at hread
    obtain ⟨next, hnext, hrest⟩ := hread
    obtain ⟨scan', hscan, hstep⟩ := h.step hnext
    rw [List.foldlM_cons, hscan]
    exact ih hstep hrest

/-! ## The assets of a package that opens -/

/-- The entry of an asset. -/
def entryOf (asset : String × List UInt8) : String × List UInt8 :=
  ("assets/" ++ asset.1, asset.2)

theorem eq_entryOf {entry asset : String × List UInt8} (h : assetEntry entry = .ok asset) :
    entry = entryOf asset := by
  obtain ⟨⟨⟩, hassets, hasset⟩ := bind_eq_ok.mp h
  cases hasset
  exact Prod.ext (eq_assets_append (not_not.mp (rejectIf_eq_ok.mp hassets))) rfl

theorem eq_map_entryOf {entries assets : List (String × List UInt8)}
    (h : entries.mapM assetEntry = .ok assets) : entries = assets.map entryOf := by
  induction entries generalizing assets with
  | nil =>
    cases h
    rfl
  | cons entry entries ih =>
    rw [List.mapM_cons, bind_eq_ok] at h
    obtain ⟨asset, hasset, h⟩ := h
    obtain ⟨rest, hrest, hassets⟩ := bind_eq_ok.mp h
    cases hassets
    rw [List.map_cons, ← eq_entryOf hasset, ← ih hrest]

/-- A map of distinct keys holds exactly what it was made of. -/
theorem getElem?_ofList_eq_some {β : Type} {items : List (String × β)}
    (hdistinct : items.Pairwise fun left right => ¬ compare left.1 right.1 = .eq) {key : String}
    {value : β} : (ExtTreeMap.ofList items)[key]? = some value ↔ (key, value) ∈ items := by
  have hfound {value : β} (hmem : (key, value) ∈ items) : (ExtTreeMap.ofList items)[key]? = some value :=
    ExtTreeMap.getElem?_ofList_of_mem Std.ReflCmp.compare_self hdistinct hmem
  refine ⟨fun hvalue => ?_, hfound⟩
  by_cases hkey : key ∈ items.map Prod.fst
  · obtain ⟨⟨_, other⟩, hmem, rfl⟩ := List.mem_map.mp hkey
    obtain rfl := Option.some.inj (hvalue.symm.trans (hfound hmem))
    exact hmem
  · rw [ExtTreeMap.getElem?_ofList_of_contains_eq_false (by simpa using hkey)] at hvalue
    cases hvalue

/-- The entries of a package that opens, apart from the first two, are its assets. -/
theorem getElem?_assets {entries : ExtTreeMap String (List UInt8)}
    {assets : List (String × List UInt8)}
    (h : ((entries.erase manifestPath).erase componentPath).toList.mapM assetEntry = .ok assets)
    (path : String) : (ExtTreeMap.ofList assets)[path]? = entries["assets/" ++ path]? := by
  have hlist := eq_map_entryOf h
  have hdistinct : assets.Pairwise fun left right => ¬ compare left.1 right.1 = .eq := by
    have hkeys := ((entries.erase manifestPath).erase componentPath).distinct_keys_toList
    rw [hlist, List.pairwise_map] at hkeys
    refine hkeys.imp fun {left right} hne heq => hne ?_
    rw [entryOf, entryOf, Std.compare_eq_iff_eq.mp heq]
    exact Std.ReflCmp.compare_self
  refine Option.ext fun content => ?_
  have hmem : (path, content) ∈ assets ↔ ("assets/" ++ path, content)
      ∈ ((entries.erase manifestPath).erase componentPath).toList := by
    rw [hlist, List.mem_map]
    constructor
    · exact fun hasset => ⟨_, hasset, rfl⟩
    · rintro ⟨asset, hasset, heq⟩
      obtain ⟨hpath, rfl⟩ := Prod.mk.inj heq
      rw [← assets_append_injective hpath]
      exact hasset
  rw [getElem?_ofList_eq_some hdistinct, hmem, ExtTreeMap.mem_toList_iff_getElem?_eq_some,
    TreeMap.getElem?_erase', TreeMap.getElem?_erase', if_neg (assets_ne path).2.symm,
    if_neg (assets_ne path).1.symm]

theorem keys_toFinset_eq {α β : Type} {smaller : ExtTreeMap String α} {larger : ExtTreeMap String β}
    (hsize : larger.size = smaller.size) (hkeys : ∀ key ∈ smaller, key ∈ larger) :
    smaller.keys.toFinset = larger.keys.toFinset := by
  have hcard {γ : Type} (m : ExtTreeMap String γ) : m.keys.toFinset.card = m.size := by
    rw [List.toFinset_card_of_nodup, ExtTreeMap.length_keys]
    refine m.distinct_keys.imp fun {left right} hne heq => hne ?_
    rw [heq]
    exact Std.ReflCmp.compare_self
  refine Finset.eq_of_subset_of_card_le (fun key hkey => ?_) (by rw [hcard, hcard, hsize])
  rw [List.mem_toFinset, ExtTreeMap.mem_keys] at hkey ⊢
  exact hkeys key hkey

section

variable [SemverValues] [HexCodec] [Sha256] [TomlManifests] [ZipLibrary]

section

omit [SemverValues] [TomlManifests] [ZipLibrary]

theorem verifyAssets_eq_ok {manifest : PackageManifest} {assets : ExtTreeMap String (List UInt8)}
    (h : verifyAssets manifest assets = .ok ()) :
    manifest.integrity.assetsSha256.size = assets.size
      ∧ ∀ (path : String) (content : List UInt8), assets[path]? = some content →
      ∃ expected, manifest.integrity.assetsSha256[path]? = some expected
        ∧ eqIgnoreAsciiCase (sha256Hex content) expected := by
  unfold verifyAssets at h
  dsimp only at h
  split at h
  case' isTrue =>
    -- the asset root is checked first
    obtain ⟨_, -, h⟩ := bind_eq_ok.mp h
    obtain ⟨_, -, h⟩ := bind_eq_ok.mp h
  all_goals
    simp only [bind_eq_ok, exists_unit, rejectIf_eq_ok, not_not, forM_eq_ok, okOr_eq_ok] at h
    exact ⟨h.1, fun path content hcontent =>
      h.2 (path, content) (ExtTreeMap.mem_toList_iff_getElem?_eq_some.mpr hcontent)⟩

/-- The digests are those of the assets. -/
theorem keys_of_verifyAssets {manifest : PackageManifest} {assets : ExtTreeMap String (List UInt8)}
    (h : verifyAssets manifest assets = .ok ()) :
    assets.keys.toFinset = manifest.integrity.assetsSha256.keys.toFinset := by
  obtain ⟨hsize, hdigests⟩ := verifyAssets_eq_ok h
  refine keys_toFinset_eq hsize fun path hpath => ?_
  obtain ⟨content, hcontent⟩ :=
    Option.isSome_iff_exists.mp (ExtTreeMap.mem_iff_isSome_getElem?.mp hpath)
  obtain ⟨expected, hexpected, -⟩ := hdigests path content hcontent
  exact ExtTreeMap.mem_iff_isSome_getElem?.mpr (by rw [hexpected]; rfl)

end

/-- What opening a package has found. -/
theorem openWithin_eq_ok {bytes : List UInt8} {archive : CartridgeArchive}
    (h : CartridgeArchive.openWithin limits bytes = .ok archive) :
    ∃ zip entries total manifestBytes, mapError zipError (ZipLibrary.read bytes) = .ok zip
      ∧ zip.length ≤ limits.entries ∧ zip.foldlM (readEntry limits) (∅, 0) = .ok (entries, total)
      ∧ entries[manifestPath]? = some manifestBytes ∧ readManifest manifestBytes = .ok archive.manifest
      ∧ componentPath ∈ entries ∧ (∀ path, archive.assets[path]? = entries["assets/" ++ path]?)
      ∧ verifyAssets archive.manifest archive.assets = .ok () := by
  simp only [CartridgeArchive.openWithin, bind_eq_ok, exists_unit, rejectIf_eq_ok, okOr_eq_ok, not_lt,
    gt_iff_lt, pure_eq_ok, Except.ok.injEq] at h
  obtain ⟨-, zip, hzip, hlength, ⟨entries, total⟩, hfold, manifestBytes, hmanifestBytes, manifest,
    hmanifest, component, hcomponent, -, assets, hassets, hverify, rfl⟩ := h
  refine ⟨zip, entries, total, manifestBytes, hzip, hlength, hfold, hmanifestBytes, hmanifest, ?_,
    getElem?_assets hassets, hverify⟩
  rw [TreeMap.getElem?_erase', if_neg (by decide)] at hcomponent
  exact ExtTreeMap.mem_iff_isSome_getElem?.mpr (by rw [hcomponent]; rfl)

variable {bytes : List UInt8} {archive : CartridgeArchive}

/-- The scan of a package that opens finds its manifest and the names of its assets. -/
theorem scan_of_openBytes (h : CartridgeArchive.openBytes bytes = .ok archive) (path : String) :
    ∃ zip scan manifestEntry manifestBytes, mapError zipError (ZipLibrary.read bytes) = .ok zip
      ∧ scanSelectiveEntries zip .default ("assets/" ++ path) = .ok (scan, manifestEntry)
      ∧ readBoundedEntry manifestEntry PackageLimits.default.manifestBytes manifestPath
        = .ok manifestBytes
      ∧ readManifest manifestBytes = .ok archive.manifest
      ∧ scan.assets = archive.manifest.integrity.assetsSha256.keys.toFinset
      ∧ Option.Rel (fun content entry => entry.Holds PackageLimits.default.assetBytes content)
        archive.assets[path]? scan.requested := by
  obtain ⟨zip, entries, total, manifestBytes, hzip, hlength, hfold, hmanifestBytes, hmanifest,
    hcomponent, hassets, hverify⟩ := openWithin_eq_ok h
  obtain ⟨scan, hscan, hstep⟩ := (inStep_start .default ("assets/" ++ path)).foldlM hfold
  have hrequested := hstep.requested
  have hnoted := hstep.manifest
  rw [← hassets] at hrequested
  rw [hmanifestBytes] at hnoted
  obtain ⟨manifestEntry, hentry, hholds⟩ : ∃ entry, scan.manifest = some entry
      ∧ entry.Holds PackageLimits.default.manifestBytes manifestBytes := by
    generalize scan.manifest = found at hnoted ⊢
    cases hnoted with
    | some hholds => exact ⟨_, rfl, hholds⟩
  refine ⟨zip, scan, manifestEntry, manifestBytes, hzip, ?_, readBoundedEntry_eq_ok.mpr hholds, hmanifest,
    ?_, hrequested⟩
  · rw [scanSelectiveEntries, rejectIf_of_not _ (Nat.not_lt.mpr hlength), ok_bind, hscan, ok_bind,
      rejectIf_of_not _ (not_not.mpr (hstep.component.mpr hcomponent)), ok_bind, hentry]
    rfl
  · rw [← keys_of_verifyAssets hverify]
    ext asset
    rw [hstep.assets, List.mem_toFinset, ExtTreeMap.mem_keys, ExtTreeMap.mem_iff_isSome_getElem?,
      ExtTreeMap.mem_iff_isSome_getElem?, hassets]

/-- **Selective and full verification agree.** On a package that opens and has an asset root, one asset
is verified exactly when the path is, after its check, that of an asset of the opened package. What is
reported is that asset's length and digest and the manifest's identity and root. -/
theorem verifyAsset_eq_ok_iff (hopen : CartridgeArchive.openBytes bytes = .ok archive)
    (hroot : archive.manifest.integrity.assetsRootSha256 ≠ "") (path : String)
    (report : AssetVerification) :
    CartridgeArchive.verifyAsset bytes path = .ok report ↔
      ∃ normal content, normalizeRelativePath path = .ok normal
        ∧ archive.assets[normal]? = some content
        ∧ report =
          { cartridgeId := archive.manifest.cartridge.id
            cartridgeVersion := archive.manifest.cartridge.version
            path := normal
            bytes := content.length
            sha256 := sha256Hex content
            assetsRootSha256 := archive.manifest.integrity.assetsRootSha256 } := by
  cases hnormal : normalizeRelativePath path with
  | error error =>
    rw [CartridgeArchive.verifyAsset, hnormal, error_bind]
    simp
  | ok normal =>
    obtain ⟨zip, scan, manifestEntry, manifestBytes, hzip, hscan, hread, hmanifest, hnames, hentry⟩ :=
      scan_of_openBytes hopen normal
    obtain ⟨-, -, -, -, -, -, -, -, -, -, -, hverify⟩ := openWithin_eq_ok hopen
    simp only [CartridgeArchive.verifyAsset, hnormal, ok_bind, hzip, hscan, hread, hmanifest, hnames,
      rejectIf_of_not _ (not_not.mpr (rfl : _ = archive.manifest.integrity.assetsSha256.keys.toFinset)),
      rejectIf_of_not _ hroot]
    cases hasset : archive.assets[normal]? with
    | none =>
      -- the path is not among the names of the manifest
      have hdigest : archive.manifest.integrity.assetsSha256[normal]? = none := by
        refine ExtTreeMap.getElem?_eq_none fun hmem => ?_
        have hkey : normal ∈ archive.manifest.integrity.assetsSha256.keys.toFinset :=
          List.mem_toFinset.mpr (ExtTreeMap.mem_keys.mpr hmem)
        rw [← keys_of_verifyAssets hverify, List.mem_toFinset, ExtTreeMap.mem_keys,
          ExtTreeMap.mem_iff_isSome_getElem?, hasset] at hkey
        cases hkey
      simp [hdigest, okOr, hasset]
    | some content =>
      obtain ⟨expected, hexpected, hequal⟩ := (verifyAssets_eq_ok hverify).2 normal content hasset
      rw [hasset] at hentry
      generalize scan.requested = found at hentry ⊢
      cases hentry with
      | some hholds =>
        simp only [hexpected, okOr, ok_bind, readBoundedEntry_eq_ok.mpr hholds,
          rejectIf_of_not _ (not_not.mpr hequal), pure_eq_ok, Except.ok.injEq, hholds.2.1]
        constructor
        · rintro rfl
          exact ⟨normal, content, rfl, hasset, rfl⟩
        · rintro ⟨_, found, rfl, hfound, rfl⟩
          rw [Option.some.inj (hasset.symm.trans hfound)]

end

/-! A package with one asset. -/

/-- A ZIP library that knows one archive. -/
@[reducible] def oneZip (files : List (String × List UInt8)) : ZipLibrary where
  read _ := .ok (files.map fun file => ⟨file.1, file.2.length, .ok file.2⟩)

/-- The manifest of a package with an empty component and an asset. -/
def imageManifest [HexCodec] [Sha256] : PackageManifest :=
  let manifest : PackageManifest :=
    { cartridge := { id := "dev.example.image", name := "Image", version := "1.0.0" }
      permissions := { assets := true } }
  (withIntegrity manifest [] (.ofList [("a", ([1] : List UInt8))])).toOption.getD manifest

/-- Its asset is verified. -/
theorem verifyAsset_image :
    let _ := semver2Values
    let _ := nibbleCodec
    let _ := Sha2.sha256
    let _ := oneZip [(manifestPath, bytesOf "m"), (componentPath, []), ("assets/a", [1])]
    let _ := tableToml [("m", imageManifest)]
    ∃ archive report, CartridgeArchive.openBytes [0] = .ok archive
      ∧ archive.manifest.integrity.assetsRootSha256 ≠ ""
      ∧ CartridgeArchive.verifyAsset [0] "a" = .ok report ∧ report.bytes = 1 := by
  intro _ _ _ _ _
  have hopened : (CartridgeArchive.openBytes [0]).toOption.map (fun archive =>
      (decide (archive.manifest.integrity.assetsRootSha256 ≠ ""), archive.assets["a"]?))
      = some (true, some [1]) := by
    decide +kernel
  cases hopen : CartridgeArchive.openBytes [0] with
  | error error =>
    rw [hopen] at hopened
    cases hopened
  | ok archive =>
    rw [hopen] at hopened
    obtain ⟨hroot, hasset⟩ := Prod.mk.inj (Option.some.inj hopened)
    exact ⟨archive, _, rfl, of_decide_eq_true hroot,
      (verifyAsset_eq_ok_iff hopen (of_decide_eq_true hroot) "a" _).mpr
        ⟨"a", [1], by decide, hasset, rfl⟩, rfl⟩

end CartridgeRuntime.Core
