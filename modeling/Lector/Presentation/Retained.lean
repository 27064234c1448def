import Lector.Presentation.Graphics

/-! Repainting images with uploads that the terminal still holds, against repainting them from scratch. -/
namespace Lector.Presentation
open List Function
open Option hiding map_id map_map mem_map mem_map_of_mem or_assoc

/-! ## One upload -/

theorem flatten_chunks {size : Nat} (hsize : 0 < size) (fuel : Nat) (bytes : Bytes)
    (h : bytes.length ≤ fuel) : (chunks size fuel bytes).flatten = bytes := by
  induction fuel generalizing bytes with
  | zero => exact (eq_nil_of_length_eq_zero (Nat.le_zero.mp h)).symm
  | succ fuel ih =>
    rw [chunks]
    split
    · rename_i hempty
      exact (isEmpty_iff.mp hempty).symm
    · rw [flatten_cons, ih _ (by rw [length_drop]; omega), take_append_drop]

theorem payloadChunks_spec (data : Bytes) :
    payloadChunks data ≠ [] ∧ (payloadChunks data).flatten = Base64.encode data := by
  rw [payloadChunks]
  split
  · rename_i hempty
    exact ⟨cons_ne_nil _ _, (isEmpty_iff.mp hempty).symm⟩
  · rename_i hsome
    have hflatten := flatten_chunks (show 0 < kittyBase64ChunkBytes by decide)
      (Base64.encode data).length (Base64.encode data) (le_rfl)
    refine ⟨fun hnil => hsome ?_, hflatten⟩
    rw [hnil] at hflatten
    exact isEmpty_iff.mpr hflatten.symm

def storedImage (upload : SceneImageUpload) : StoredImage :=
  ⟨kittyFormat upload.format, upload.pixelWidth, upload.pixelHeight, upload.data⟩

namespace GraphicsStore

variable (store : GraphicsStore)

def withImage (imageId : UInt32) (stored : StoredImage) : GraphicsStore :=
  { store.withoutImage imageId with
    images := Function.update store.images imageId (some stored)
    transmission := none }

theorem execute_append (commands more : List GraphicsCommand) :
    store.execute (commands ++ more) = (store.execute commands).execute more := foldl_append

theorem execute_cons (command : GraphicsCommand) (more : List GraphicsCommand) :
    store.execute (command :: more) = (store.step command).execute more := rfl

variable {store}

theorem receive_last (earlier : Option Transmission) (transmission : Transmission) :
    { store with transmission := earlier }.receive transmission false = store.receive transmission false := by
  simp only [receive]
  split <;> rfl

theorem execute_sendChunks {pieces : List Bytes} (hne : pieces ≠ []) {transmission : Transmission}
    (h : store.transmission = some transmission) : store.execute (sendChunks pieces) =
      store.receive { transmission with text := transmission.text ++ pieces.flatten } false := by
  induction pieces generalizing store transmission with
  | nil => exact absurd rfl hne
  | cons piece rest ih =>
    rw [sendChunks, execute_cons]
    cases rest with
    | nil =>
      rw [flatten_cons, flatten_nil, append_nil]
      show store.step (.transmitMore false piece) = _
      simp only [step, h]
    | cons next rest =>
      have hstep : store.step (.transmitMore true piece) = { store with
            transmission := some ({ transmission with text := transmission.text ++ piece }) } := by
        simp only [step, h, receive, if_true]
      have hmore : (!(next :: rest).isEmpty) = true := rfl
      rw [hmore, hstep, ih (cons_ne_nil _ _) rfl, receive_last, flatten_cons (l := piece), append_assoc]

/-- **An upload is stored with its own data.** -/
theorem execute_upload (imageId : UInt32) (upload : SceneImageUpload) :
    store.execute (writeKittyUpload imageId upload) = store.withImage imageId (storedImage upload) := by
  obtain ⟨hne, hflatten⟩ := payloadChunks_spec upload.data
  -- the whole text, once it has arrived
  have hwhole : store.receive ⟨imageId, kittyFormat upload.format, upload.pixelWidth,
      upload.pixelHeight, Base64.encode upload.data⟩ false =
        store.withImage imageId (storedImage upload) := by
    simp only [receive, Base64.decode_encode]
    rfl
  rw [writeKittyUpload]
  cases hpieces : payloadChunks upload.data with
  | nil => exact absurd hpieces hne
  | cons first rest =>
    rw [hpieces, flatten_cons] at hflatten
    rw [execute_cons, ← hwhole, ← hflatten]
    cases rest with
    | nil =>
      rw [flatten_nil, append_nil]
      rfl
    | cons next rest =>
      have hstep : store.step (.transmit (kittyFormat upload.format) upload.pixelWidth
          upload.pixelHeight imageId (!(next :: rest).isEmpty) first) =
            { store with transmission := some ⟨imageId, kittyFormat upload.format,
              upload.pixelWidth, upload.pixelHeight, first⟩ } := by
        simp only [step, receive, isEmpty_cons, Bool.not_false, if_true]
      rw [hstep, execute_sendChunks (cons_ne_nil _ _) rfl, receive_last]

end GraphicsStore

/-! ## Identifiers of images -/

namespace SceneMedia

variable {media : SceneMedia} {imageIds : List (ImageKey × UInt32)}

def OnePerImage (media : SceneMedia) : Prop :=
  (media.imageUploads.map fun upload => (upload.owner, upload.imageId)).Nodup

theorem mem_imageKeys {key : ImageKey} : key ∈ media.imageKeys ↔
    (∃ upload ∈ media.imageUploads, upload.key = key) ∨
      ∃ placement ∈ media.images, media.placementKey placement = key := by
  rw [imageKeys, mem_mergeSort, mem_dedup, mem_append, mem_map, mem_map]

section

variable (h : media.outerImageIds = some imageIds)
include h

/-- **The identifiers of images are distinct**, and every key has one. -/
theorem outerImageIds_spec : imageIds.map Prod.fst = media.imageKeys ∧ (imageIds.map Prod.snd).Nodup := by
  obtain ⟨hkeys, hdistinct, -⟩ := Probing.allocateAll_spec h
  refine ⟨?_, hdistinct⟩
  rw [hkeys, map_map]
  exact map_id _

theorem lookup_key {key : ImageKey}
    (hkey : key ∈ media.imageKeys) : ∃ imageId, imageIds.lookup key = some imageId :=
  Probing.lookup_of_mem_keys ((outerImageIds_spec h).1 ▸ hkey)

theorem lookup_upload {upload : SceneImageUpload}
    (hmem : upload ∈ media.imageUploads) : ∃ imageId, imageIds.lookup upload.key = some imageId :=
  lookup_key h (mem_imageKeys.mpr (.inl ⟨upload, hmem, rfl⟩))

theorem upload_unique (once : media.OnePerImage)
    {upload other : SceneImageUpload} (hmem : upload ∈ media.imageUploads)
    (hother : other ∈ media.imageUploads) {imageId : UInt32} (hid : imageIds.lookup upload.key = some imageId)
    (hid' : imageIds.lookup other.key = some imageId) : upload = other := by
  have hkey := Probing.lookup_injective (outerImageIds_spec h).2 hid hid'
  have howner := (Prod.mk.inj hkey).1
  have himage := (Prod.mk.inj (Prod.mk.inj hkey).2).1
  exact inj_on_of_nodup_map once hmem hother (Prod.ext howner himage)

theorem nodup_lookups (once : media.OnePerImage) :
    (media.imageUploads.map fun upload => imageIds.lookup upload.key).Nodup := by
  refine Nodup.map_on (fun upload hmem other hother heq => ?_) (Nodup.of_map _ once)
  obtain ⟨imageId, hid⟩ := lookup_upload h hmem
  exact upload_unique h once hmem hother hid (heq ▸ hid)

end

end SceneMedia

/-! ## Presented uploads -/

variable {uploads : List PresentedImageUpload}

theorem mem_insertUpload {upload entry : PresentedImageUpload}
    (fresh : ∀ other ∈ uploads, other.imageId ≠ upload.imageId) :
    entry ∈ insertUpload upload uploads ↔ entry = upload ∨ entry ∈ uploads := by
  induction uploads with
  | nil => rw [insertUpload, mem_singleton, or_iff_left not_mem_nil]
  | cons first rest ih =>
    rw [insertUpload, if_neg (fresh first mem_cons_self).symm]
    split
    · exact mem_cons
    · rw [mem_cons, ih fun other hmem => fresh other (mem_cons_of_mem _ hmem), mem_cons, or_left_comm]

variable {imageIds : List (ImageKey × UInt32)}

theorem mem_foldl_insertUpload {pending : List SceneImageUpload}
    (distinct : (pending.map fun upload => imageIds.lookup upload.key).Nodup)
    (fresh : ∀ upload ∈ pending, ∀ other ∈ uploads,
      imageIds.lookup upload.key ≠ some other.imageId) (entry : PresentedImageUpload) :
    entry ∈ pending.foldl (addUpload imageIds) uploads ↔
      entry ∈ uploads ∨ ∃ upload ∈ pending, ∃ imageId, imageIds.lookup upload.key = some imageId ∧
        entry = presentedUpload imageId upload := by
  induction pending generalizing uploads with
  | nil => simp
  | cons upload rest ih =>
    rw [map_cons, nodup_cons] at distinct
    have hrest := fun other hmem => fresh other (mem_cons_of_mem upload hmem)
    rw [foldl_cons, addUpload]
    cases hid : imageIds.lookup upload.key with
    | none =>
      rw [ih distinct.2 hrest]
      simp [hid]
    | some imageId =>
      have hnew : ∀ other ∈ uploads, other.imageId ≠ (presentedUpload imageId upload).imageId := by
        intro other hmem heq
        exact fresh upload mem_cons_self other hmem (hid.trans (congrArg some heq.symm))
      rw [ih distinct.2, mem_insertUpload hnew]
      · simp only [mem_cons, exists_eq_or_imp, hid, some.injEq, exists_eq_left']
        rw [or_comm (a := entry = _), or_assoc]
      · intro later hlater other hother
        rcases (mem_insertUpload hnew).mp hother with rfl | hold
        · intro heq
          exact distinct.1 (mem_map.mpr ⟨later, hlater, heq.trans hid.symm⟩)
        · exact hrest later hlater other hold

theorem mem_composeImageUploads {media : SceneMedia}
    (h : media.outerImageIds = some imageIds) (once : media.OnePerImage)
    (huploads : composeImageUploads media = some uploads) (entry : PresentedImageUpload) :
    entry ∈ uploads ↔ ∃ upload ∈ media.imageUploads, ∃ imageId,
      imageIds.lookup upload.key = some imageId ∧ entry = presentedUpload imageId upload := by
  rw [composeImageUploads, h, bind_eq_bind, bind_some, some.injEq] at huploads
  rw [← huploads, mem_foldl_insertUpload (SceneMedia.nodup_lookups h once)
    fun _ _ other hmem => absurd hmem not_mem_nil]
  exact or_iff_right not_mem_nil

/-! ## All uploads -/

namespace GraphicsStore

variable {store : GraphicsStore} {imageIds : List (ImageKey × UInt32)}
  {retained : List PresentedImageUpload}

def Bare (store : GraphicsStore) : Prop := ∀ key, store.placements key = none

theorem Bare.withImage (bare : store.Bare) (imageId : UInt32) (stored : StoredImage) :
    (store.withImage imageId stored).Bare := by
  intro key
  show (if key.1 = imageId then none else store.placements key) = none
  split
  · rfl
  · exact bare key

theorem execute_one (imageId : UInt32) (upload : SceneImageUpload) :
    store.execute (if presentedUpload imageId upload ∈ retained then []
        else writeKittyUpload imageId upload) =
      if presentedUpload imageId upload ∈ retained then store
      else store.withImage imageId (storedImage upload) := by
  split
  · rfl
  · exact execute_upload imageId upload

theorem execute_uploads {pending : List SceneImageUpload}
    (distinct : (pending.map fun upload => imageIds.lookup upload.key).Nodup) {uploaded : List UInt32}
    (fresh : ∀ upload ∈ pending, ∀ imageId ∈ uploaded, imageIds.lookup upload.key ≠ some imageId)
    {commands : List GraphicsCommand}
    (h : writeUploads imageIds retained uploaded pending = some commands) (bare : store.Bare) :
    (store.execute commands).Bare ∧
      (∀ upload ∈ pending, ∀ imageId, imageIds.lookup upload.key = some imageId →
        (store.execute commands).images imageId =
          if presentedUpload imageId upload ∈ retained then store.images imageId
          else some (storedImage upload)) ∧
      ∀ imageId, (∀ upload ∈ pending, imageIds.lookup upload.key ≠ some imageId) →
        (store.execute commands).images imageId = store.images imageId := by
  induction pending generalizing store uploaded commands with
  | nil =>
    cases h
    exact ⟨bare, forall_mem_nil _, fun _ _ => rfl⟩
  | cons upload rest ih =>
    rw [map_cons, nodup_cons] at distinct
    obtain ⟨first, hfirst, h⟩ := bind_eq_some_iff.mp h
    rw [if_neg fun hmem => fresh upload mem_cons_self first hmem hfirst] at h
    obtain ⟨others, hothers, h⟩ := bind_eq_some_iff.mp h
    cases h
    have hlater : ∀ later ∈ rest, imageIds.lookup later.key ≠ some first := fun later hmem heq =>
      distinct.1 (mem_map.mpr ⟨later, hmem, heq.trans hfirst.symm⟩)
    have hfresh : ∀ later ∈ rest, ∀ imageId ∈ first :: uploaded,
        imageIds.lookup later.key ≠ some imageId := by
      intro later hmem imageId hused
      rcases mem_cons.mp hused with rfl | hused
      · exact hlater later hmem
      · exact fresh later (mem_cons_of_mem _ hmem) imageId hused
    rw [execute_append, execute_one]
    by_cases hkept : presentedUpload first upload ∈ retained
    · rw [if_pos hkept]
      obtain ⟨hbare, hstored, hsame⟩ := ih distinct.2 hfresh hothers bare
      refine ⟨hbare, fun other hmem imageId hid => ?_, fun imageId hout => hsame imageId
        fun later hmem => hout later (mem_cons_of_mem _ hmem)⟩
      rcases mem_cons.mp hmem with rfl | hmem
      · obtain rfl := some.inj (hfirst.symm.trans hid)
        rw [hsame first hlater, if_pos hkept]
      · exact hstored other hmem imageId hid
    · rw [if_neg hkept]
      obtain ⟨hbare, hstored, hsame⟩ := ih distinct.2 hfresh hothers (bare.withImage first (storedImage upload))
      have hother : ∀ imageId, imageId ≠ first →
          (store.withImage first (storedImage upload)).images imageId = store.images imageId :=
        fun imageId hne => update_of_ne hne _ _
      refine ⟨hbare, fun other hmem imageId hid => ?_, fun imageId hout => ?_⟩
      · rcases mem_cons.mp hmem with rfl | hmem
        · obtain rfl := some.inj (hfirst.symm.trans hid)
          rw [hsame first hlater, if_neg hkept]
          exact update_self _ _ _
        · have hne : imageId ≠ first := fun heq => hlater other hmem (heq ▸ hid)
          rw [hstored other hmem imageId hid, hother imageId hne]
      · have hne : imageId ≠ first := fun heq =>
          hout upload mem_cons_self (heq ▸ hfirst)
        rw [hsame imageId fun later hmem => hout later (mem_cons_of_mem _ hmem), hother imageId hne]

/-! ## Deletions -/

theorem execute_deleteImages (stale : List UInt32) (bare : store.Bare) :
    (store.execute (stale.map .deleteImage)).Bare ∧
      ∀ imageId, (store.execute (stale.map .deleteImage)).images imageId =
        if imageId ∈ stale then none else store.images imageId := by
  induction stale generalizing store with
  | nil => exact ⟨bare, fun imageId => (if_neg not_mem_nil).symm⟩
  | cons first rest ih =>
    have hbare : (store.withoutImage first).Bare := by
      intro key
      show (if key.1 = first then none else store.placements key) = none
      split
      · rfl
      · exact bare key
    obtain ⟨hrest, himages⟩ := ih hbare
    refine ⟨hrest, fun imageId => ?_⟩
    show ((store.withoutImage first).execute (rest.map .deleteImage)).images imageId = _
    rw [himages imageId]
    by_cases hmem : imageId ∈ rest
    · rw [if_pos hmem, if_pos (mem_cons_of_mem _ hmem)]
    · rw [if_neg hmem]
      show update store.images first none imageId = _
      by_cases hfirst : imageId = first
      · rw [hfirst, update_self, if_pos mem_cons_self]
      · have hnot : imageId ∉ first :: rest := fun h => (mem_cons.mp h).elim hfirst hmem
        rw [update_of_ne hfirst, if_neg hnot]

/-! ## Placements -/

theorem execute_placements {images : List PresentedImage}
    (stored : ∀ image ∈ images, (store.images image.imageId).isSome)
    (distinct : (images.map (·.placementId)).Nodup) :
    (store.execute (images.map writeKittyPlacement)).images = store.images ∧ ∀ key placement,
        (store.execute (images.map writeKittyPlacement)).placements key = some placement ↔
          (∃ image ∈ images, key = (image.imageId, image.placementId) ∧ placement = outerPlacement image) ∨
            (∀ image ∈ images, key ≠ (image.imageId, image.placementId)) ∧
              store.placements key = some placement := by
  induction images generalizing store with
  | nil =>
    refine ⟨rfl, fun key placement => ?_⟩
    show store.placements key = some placement ↔ _
    simp
  | cons image rest ih =>
    rw [map_cons, nodup_cons] at distinct
    have hplaced : store.step (writeKittyPlacement image) = { store with
          placements := update store.placements (image.imageId, image.placementId)
            (some (outerPlacement image)) } :=
      if_pos (stored image mem_cons_self)
    obtain ⟨himages, hplacements⟩ := @ih (store.step (writeKittyPlacement image))
      (fun other hmem => by rw [hplaced]; exact stored other (mem_cons_of_mem _ hmem)) distinct.2
    rw [map_cons, execute_cons]
    refine ⟨himages.trans (by rw [hplaced]), fun key placement => ?_⟩
    rw [hplacements key placement, hplaced]
    dsimp only
    have hnot : ∀ other ∈ rest, (image.imageId, image.placementId) ≠ (other.imageId, other.placementId) := by
      intro other hmem heq
      exact distinct.1 (mem_map.mpr ⟨other, hmem, (Prod.mk.inj heq).2.symm⟩)
    by_cases hkey : key = (image.imageId, image.placementId)
    · subst hkey
      rw [update_self]
      constructor
      · rintro (⟨other, hmem, heq, -⟩ | ⟨-, heq⟩)
        · exact absurd heq (hnot other hmem)
        · exact .inl ⟨image, mem_cons_self, rfl, (some.inj heq).symm⟩
      · rintro (⟨other, hmem, heq, hplacement⟩ | ⟨hout, -⟩)
        · rcases mem_cons.mp hmem with rfl | hmem
          · exact .inr ⟨hnot, congrArg some hplacement.symm⟩
          · exact absurd heq (hnot other hmem)
        · exact absurd rfl (hout image mem_cons_self)
    · rw [update_of_ne hkey]
      constructor
      · rintro (⟨other, hmem, heq⟩ | ⟨hout, heq⟩)
        · exact .inl ⟨other, mem_cons_of_mem _ hmem, heq⟩
        · refine .inr ⟨fun other hmem => ?_, heq⟩
          rcases mem_cons.mp hmem with rfl | hmem
          · exact hkey
          · exact hout other hmem
      · rintro (⟨other, hmem, heq⟩ | ⟨hout, heq⟩)
        · rcases mem_cons.mp hmem with rfl | hmem
          · exact absurd heq.1 hkey
          · exact .inl ⟨other, hmem, heq⟩
        · exact .inr ⟨fun other hmem => hout other (mem_cons_of_mem _ hmem), heq⟩

end GraphicsStore

/-! ## Records -/

theorem exists_of_mapM {α β : Type} {f : α → Option β} {items : List α} {results : List β}
    (h : items.mapM f = some results) {result : β} (hmem : result ∈ results) :
    ∃ item ∈ items, f item = some result := by
  induction items generalizing results with
  | nil =>
    cases h
    cases hmem
  | cons item rest ih =>
    rw [mapM_cons] at h
    obtain ⟨first, hfirst, h⟩ := bind_eq_some_iff.mp h
    obtain ⟨others, hothers, h⟩ := bind_eq_some_iff.mp h
    cases h
    rcases mem_cons.mp hmem with rfl | hmem
    · exact ⟨item, mem_cons_self, hfirst⟩
    · obtain ⟨found, hfound, heq⟩ := ih hothers hmem
      exact ⟨found, mem_cons_of_mem _ hfound, heq⟩

/-- **The identifiers of placements are distinct**, and each part shows the image of its placement. -/
theorem Scene.composeImageRecords_spec {scene : Scene} {media : SceneMedia}
    (hids : media.outerImageIds = some imageIds)
    {records : List ComposedImage} (h : scene.composeImageRecords media = some records) :
    (records.map (·.image.placementId)).Nodup ∧
      ∀ record ∈ records, ∃ placement ∈ media.images, record.owner = placement.owner ∧
        record.sourceImageId = placement.image.imageId ∧
        imageIds.lookup (media.placementKey placement) = some record.image.imageId := by
  rw [composeImageRecords, hids, bind_eq_bind, bind_some] at h
  obtain ⟨seeded, hseeded, h⟩ := bind_eq_some_iff.mp h
  obtain ⟨allocated, hallocated, h⟩ := bind_eq_some_iff.mp h
  obtain ⟨hkeys, hdistinct, -⟩ := Probing.allocateAll_spec hallocated
  cases h
  obtain ⟨groups, hgroups, rfl⟩ := map_eq_some_iff.mp hseeded
  have hperm := mergeSort_perm (allocated.map fun entry => entry.1.withPlacementId entry.2) recordLe
  constructor
  · refine (hperm.map (·.image.placementId)).nodup_iff.mpr ?_
    rw [map_map]
    exact hdistinct
  · intro record hrecord
    obtain ⟨entry, hentry, rfl⟩ := mem_map.mp (hperm.mem_iff.mp hrecord)
    have hfirst := hkeys ▸ mem_map_of_mem hentry
    rw [map_map] at hfirst
    obtain ⟨part, hpart, hsame⟩ := mem_map.mp hfirst
    obtain ⟨group, hgroup, hmem⟩ := mem_flatten.mp hpart
    obtain ⟨placement, hplacement, hparts⟩ := exists_of_mapM hgroups hgroup
    obtain ⟨imageId, hid, hparts⟩ := bind_eq_some_iff.mp hparts
    cases hparts
    obtain ⟨fragment, -, rfl⟩ := mem_map.mp hmem
    rw [← hsame]
    exact ⟨placement, hplacement, rfl, rfl, hid⟩

end Lector.Presentation
