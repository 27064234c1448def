import Lector.Presentation.FullEncoding
import Lector.Presentation.Retained

/-! A repaint's images: with the uploads that the terminal still holds, and from scratch. -/
namespace Lector.Presentation
open Terminal List SceneMedia
open Option hiding any_eq_true format map_map mem_map

/-! ## The graphics of a repaint -/

/-- What a command does to the images. Erasing the display takes those on it with it. -/
def graphicsEffect : OuterCommand → Option GraphicsCommand
  | .graphics command => some command
  | .eraseDisplay => some .deleteAll
  | _ => none

def graphicsOf (commands : List OuterCommand) : List GraphicsCommand := commands.filterMap graphicsEffect

theorem graphicsOf_append (commands more : List OuterCommand) :
    graphicsOf (commands ++ more) = graphicsOf commands ++ graphicsOf more := filterMap_append

theorem graphicsOf_graphics (commands : List GraphicsCommand) :
    graphicsOf (commands.map .graphics) = commands := by
  rw [graphicsOf, filterMap_map]
  exact filterMap_some

def NoGraphics (commands : List OuterCommand) : Prop := graphicsOf commands = []

theorem NoGraphics.append {commands more : List OuterCommand} (h : NoGraphics commands)
    (h' : NoGraphics more) : NoGraphics (commands ++ more) := by
  rw [NoGraphics, graphicsOf_append, h, h', append_nil]

theorem NoGraphics.flatMap {α : Type} {items : List α} {f : α → List OuterCommand}
    (h : ∀ item, NoGraphics (f item)) : NoGraphics (items.flatMap f) := by
  induction items with
  | nil => rfl
  | cons item rest ih => exact (h item).append ih

theorem NoGraphics.ite {condition : Prop} [Decidable condition] {commands more : List OuterCommand}
    (h : NoGraphics commands) (h' : NoGraphics more) : NoGraphics (if condition then commands else more) := by
  split
  · exact h
  · exact h'

theorem noGraphics_nil : NoGraphics [] := rfl

theorem NoGraphics.optional {condition : Prop} [Decidable condition] {command : OuterCommand}
    (h : graphicsEffect command = none) : NoGraphics (if condition then [command] else []) := by
  refine .ite ?_ noGraphics_nil
  rw [NoGraphics, graphicsOf, filterMap_cons, h]
  rfl

theorem noGraphics_cells (style : Style) (link : Option String) (cells : List Cell) :
    NoGraphics (cellsCommands style link cells) := by
  induction cells generalizing style link with
  | nil => exact .optional rfl
  | cons cell rest ih =>
    refine .ite (ih _ _) (NoGraphics.append ?_ (ih _ _))
    exact (NoGraphics.append (.optional rfl) (.optional rfl)).append rfl

theorem noGraphics_row (rowIndex : Nat) (row : Row) : NoGraphics (rowCommands rowIndex row) := by
  show NoGraphics ([.cursorTo (rowIndex + 1) 1] ++ ((if row.wrapped then [] else [.eraseLine]) ++
    ([.rendition [[0]]] ++ cellsCommands .default none row.cells)))
  exact NoGraphics.append rfl (.append (.ite noGraphics_nil rfl) (.append rfl (noGraphics_cells _ _ _)))

theorem noGraphics_fullRows (intended : PresentedScene) : NoGraphics (fullRowsCommands intended) := by
  refine NoGraphics.append (.flatMap fun row => ?_) (.ite ?_ noGraphics_nil)
  · refine .ite ((noGraphics_row _ _).append (.optional rfl)) ?_
    have hbefore : NoGraphics [.privateMode 7 false] := rfl
    exact hbefore.append ((noGraphics_row _ _).append rfl)
  · exact NoGraphics.append rfl (.flatMap fun row => (noGraphics_row _ _).append (.optional rfl))

namespace FullSceneVtRenderer

variable {renderer : FullSceneVtRenderer} (intended : PresentedScene)

theorem noGraphics_baseline : NoGraphics (renderer.baselineCommands intended) :=
  NoGraphics.append (.optional rfl) rfl

theorem noGraphics_effects : NoGraphics (renderer.effectCommands intended) := .ite rfl noGraphics_nil

theorem noGraphics_end : NoGraphics (endCommands intended) := by
  have hbells : NoGraphics (replicate intended.bellCount .bell) := by
    induction intended.bellCount with
    | zero => rfl
    | succ count ih => exact ih
  have hmodes : NoGraphics (modesCommands intended.modes) := by
    refine ((NoGraphics.append ?_ ?_).append ?_).append rfl
    · rfl
    · cases mouseMode intended.modes.mouseProtocol <;> rfl
    · cases intended.modes.mouseEncoding <;> rfl
  have hcursor : NoGraphics ([.link "", .rendition [[0]]] ++ cursorCommands intended.cursor) := rfl
  exact (hcursor.append hmodes).append hbells

/-- **The graphics of a repaint**: deletions, then uploads and placements. -/
theorem graphicsOf_encode (kitty : renderer.kittyGraphics = true) {scene : Scene} {media : SceneMedia}
    {intended : PresentedScene} {intendedMedia : PresentedMedia}
    {retained : Option (List PresentedImageUpload)} {commands : List OuterCommand}
    (h : renderer.encodeCommands scene media intended intendedMedia retained = some (.ok commands)) :
    ∃ images, writeKittyImages scene media intendedMedia.images (retained.getD []) = some (.ok images) ∧
      graphicsOf commands = writeKittyDeletions intendedMedia retained ++
        (if retained.isSome then [] else [.deleteAll]) ++ images := by
  obtain ⟨images, hresult, himages⟩ := map_eq_some_iff.mp h
  rw [kittyImages, if_pos kitty] at hresult
  cases images with
  | error error => cases himages
  | ok images =>
    obtain rfl := Except.ok.inj himages
    refine ⟨images, hresult, ?_⟩
    have herase : graphicsOf (eraseCommands retained) = if retained.isSome then [] else [.deleteAll] := by
      rw [eraseCommands]
      split <;> rfl
    simp only [graphicsOf_append, graphicsOf_graphics, herase,
      show graphicsOf (renderer.baselineCommands intended) = [] from noGraphics_baseline intended,
      show graphicsOf (renderer.effectCommands intended) = [] from noGraphics_effects intended,
      show graphicsOf (fullRowsCommands intended) = [] from noGraphics_fullRows intended,
      show graphicsOf (endCommands intended) = [] from noGraphics_end intended,
      kittyDeletions, kitty, if_true, nil_append, append_nil]

end FullSceneVtRenderer

/-! ## What is written of the images -/

variable {media : SceneMedia}

theorem writePlacements_ok {records : List ComposedImage}
    {commands : List GraphicsCommand} : writePlacements media records = .ok commands ↔
      commands = records.map (fun record => writeKittyPlacement record.image) ∧
        ∀ record ∈ records, (media.imageUploads.any fun upload =>
          upload.owner == record.owner && upload.imageId == record.sourceImageId) = true := by
  induction records generalizing commands with
  | nil => exact ⟨fun h => ⟨(Except.ok.inj h).symm, forall_mem_nil _⟩, fun h => congrArg Except.ok h.1.symm⟩
  | cons record rest ih =>
    rw [writePlacements]
    split
    · rename_i hupload
      constructor
      · intro h
        cases hothers : writePlacements media rest with
        | error error =>
          rw [hothers] at h
          cases h
        | ok others =>
          rw [hothers] at h
          cases h
          obtain ⟨hcommands, hall⟩ := ih.mp hothers
          refine ⟨congrArg _ hcommands, fun other hmem => ?_⟩
          rcases mem_cons.mp hmem with rfl | hmem
          · exact hupload
          · exact hall other hmem
      · rintro ⟨rfl, hall⟩
        have hothers := ih.mpr ⟨rfl, fun other hmem => hall other (mem_cons_of_mem _ hmem)⟩
        rw [hothers]
        rfl
    · rename_i hmissing
      constructor
      · intro h
        cases h
      · rintro ⟨-, hall⟩
        exact absurd (hall record mem_cons_self) hmissing

theorem Scene.composeMedia_parts {scene : Scene} {intended : PresentedMedia}
    (h : scene.composeMedia media = some intended) :
    ∃ imageIds records, media.outerImageIds = some imageIds ∧
      composeImageUploads media = some intended.imageUploads ∧
      scene.composeImageRecords media = some records ∧ intended.images = records.map (·.image) := by
  obtain ⟨uploads, huploads, h⟩ := bind_eq_some_iff.mp h
  obtain ⟨images, himages, h⟩ := bind_eq_some_iff.mp h
  cases h
  obtain ⟨imageIds, hids, -⟩ := bind_eq_some_iff.mp huploads
  obtain ⟨records, hrecords, rfl⟩ := map_eq_some_iff.mp himages
  exact ⟨imageIds, records, hids, huploads, hrecords, rfl⟩

theorem writeKittyImages_ok {scene : Scene} {images : List PresentedImage}
    {retained : List PresentedImageUpload} {imageIds : List (ImageKey × UInt32)}
    {records : List ComposedImage} (hids : media.outerImageIds = some imageIds)
    (hrecords : scene.composeImageRecords media = some records) {commands : List GraphicsCommand}
    (h : writeKittyImages scene media images retained = some (.ok commands)) :
    ∃ uploads, writeUploads imageIds retained [] media.imageUploads = some uploads ∧
      commands = uploads ++ (records.map (·.image)).map writeKittyPlacement ∧
      ∀ record ∈ records, (media.imageUploads.any fun upload =>
        upload.owner == record.owner && upload.imageId == record.sourceImageId) = true := by
  rw [writeKittyImages, hrecords, hids, bind_eq_bind, bind_some] at h
  split at h
  · cases h
  · obtain ⟨_, hsame, h⟩ := bind_eq_some_iff.mp h
    cases hsame
    obtain ⟨uploads, huploads, h⟩ := bind_eq_some_iff.mp h
    obtain ⟨placed, hplaced, rfl⟩ : ∃ placed, writePlacements media records = .ok placed ∧
        uploads ++ placed = commands := by
      have h := some.inj h
      cases hplaced : writePlacements media records with
      | error error =>
        rw [hplaced] at h
        cases h
      | ok placed =>
        rw [hplaced] at h
        exact ⟨placed, rfl, Except.ok.inj h⟩
    obtain ⟨rfl, hall⟩ := writePlacements_ok.mp hplaced
    exact ⟨uploads, huploads, by rw [map_map]; rfl, hall⟩

/-! ## What the terminal shows -/

namespace GraphicsStore

/-- Exactly the uploads and the placements of a scene. -/
structure Shows (store : GraphicsStore) (media : SceneMedia) (imageIds : List (ImageKey × UInt32))
    (shown : List PresentedImage) : Prop where
  images : ∀ imageId stored, store.images imageId = some stored ↔
    ∃ upload ∈ media.imageUploads, imageIds.lookup upload.key = some imageId ∧ stored = storedImage upload
  placements : ∀ key placement, store.placements key = some placement ↔
    ∃ image ∈ shown, key = (image.imageId, image.placementId) ∧ placement = outerPlacement image

variable {store : GraphicsStore} {scene : Scene} {media : SceneMedia} {imageIds : List (ImageKey × UInt32)}
  {records : List ComposedImage} {retained : List PresentedImageUpload}

variable {images : List PresentedImage} {commands : List GraphicsCommand}

/-- **Uploads and placements on a store without placements**, where the retained uploads are there and no
others. -/
theorem shows_of_bare (hids : media.outerImageIds = some imageIds) (once : media.OnePerImage)
    (hrecords : scene.composeImageRecords media = some records)
    (h : writeKittyImages scene media images retained = some (.ok commands)) (bare : store.Bare)
    (kept : ∀ upload ∈ media.imageUploads, ∀ imageId, imageIds.lookup upload.key = some imageId →
      presentedUpload imageId upload ∈ retained → store.images imageId = some (storedImage upload))
    (others : ∀ imageId, (∀ upload ∈ media.imageUploads, imageIds.lookup upload.key ≠ some imageId) →
      store.images imageId = none) :
    (store.execute commands).Shows media imageIds (records.map (·.image)) := by
  obtain ⟨uploads, huploads, rfl, hall⟩ := writeKittyImages_ok hids hrecords h
  obtain ⟨hbare, hstored, hsame⟩ := execute_uploads (nodup_lookups hids once)
    (fun _ _ imageId hused => absurd hused not_mem_nil) huploads bare
  obtain ⟨hdistinct, hparts⟩ := Scene.composeImageRecords_spec hids hrecords
  have himages : ∀ imageId stored, (store.execute uploads).images imageId = some stored ↔
      ∃ upload ∈ media.imageUploads, imageIds.lookup upload.key = some imageId ∧
        stored = storedImage upload := by
    intro imageId stored
    have hown : ∀ upload ∈ media.imageUploads, imageIds.lookup upload.key = some imageId →
        (store.execute uploads).images imageId = some (storedImage upload) := by
      intro upload hmem hid
      rw [hstored upload hmem imageId hid]
      split
      · rename_i hkept
        exact kept upload hmem imageId hid hkept
      · rfl
    constructor
    · intro himage
      by_contra hnone
      have hout : ∀ upload ∈ media.imageUploads, imageIds.lookup upload.key ≠ some imageId := by
        intro upload hmem hid
        exact hnone ⟨upload, hmem, hid, some.inj (himage.symm.trans (hown upload hmem hid))⟩
      rw [hsame imageId hout, others imageId hout] at himage
      cases himage
    · rintro ⟨upload, hmem, hid, rfl⟩
      exact hown upload hmem hid
  have hplaced : ∀ image ∈ records.map (·.image), ((store.execute uploads).images image.imageId).isSome := by
    intro image hmem
    obtain ⟨record, hrecord, rfl⟩ := mem_map.mp hmem
    obtain ⟨placement, -, howner, hsource, hid⟩ := hparts record hrecord
    obtain ⟨found, hfound⟩ : ∃ found, media.uploadOf placement = some found := by
      have hany := hall record hrecord
      rw [howner, hsource] at hany
      exact isSome_iff_exists.mp (find?_isSome.mpr (any_eq_true.mp hany))
    have hsome := find?_some hfound
    rw [Bool.and_eq_true, beq_iff_eq, beq_iff_eq] at hsome
    have hkey : media.placementKey placement = found.key := by
      rw [placementKey, hfound, SceneImageUpload.key, hsome.1, hsome.2]
      rfl
    rw [hkey] at hid
    rw [(himages record.image.imageId (storedImage found)).mpr ⟨found, mem_of_find?_eq_some hfound, hid, rfl⟩]
    rfl
  obtain ⟨hkeep, hplacements⟩ := execute_placements hplaced (by rw [map_map]; exact hdistinct)
  rw [execute_append]
  refine ⟨fun imageId stored => ?_, fun key placement => ?_⟩
  · rw [hkeep]
    exact himages imageId stored
  · rw [hplacements key placement, hbare key]
    exact or_iff_left fun h => absurd h.2 (some_ne_none placement).symm

/-! ## Both paths -/

theorem execute_fromScratch (intended : PresentedMedia) :
    (store.execute (writeKittyDeletions intended none ++ [.deleteAll])).Bare ∧
      ∀ imageId, (store.execute (writeKittyDeletions intended none ++ [.deleteAll])).images imageId = none :=
  ⟨fun _ => rfl, fun _ => rfl⟩

theorem execute_retained (intended : PresentedMedia) (retained : List PresentedImageUpload) :
    (store.execute (writeKittyDeletions intended (some retained))).Bare ∧
      ∀ imageId, (store.execute (writeKittyDeletions intended (some retained))).images imageId =
        if ∃ entry ∈ retained, entry ∉ intended.imageUploads ∧ entry.imageId = imageId then none
        else store.images imageId := by
  have hbare : (store.step .deletePlacements).Bare := fun _ => rfl
  obtain ⟨hdeleted, himages⟩ := execute_deleteImages
    ((retained.filter fun upload => upload ∉ intended.imageUploads).map (·.imageId)) hbare
  rw [map_map] at hdeleted himages
  refine ⟨hdeleted, fun imageId => (himages imageId).trans ?_⟩
  have hmem : (imageId ∈ (retained.filter fun upload => upload ∉ intended.imageUploads).map
      (·.imageId)) ↔ ∃ entry ∈ retained, entry ∉ intended.imageUploads ∧ entry.imageId = imageId := by
    simp only [mem_map, mem_filter, decide_eq_true_eq, and_assoc]
  simp only [hmem]
  rfl

variable {earlier : SceneMedia} {presented intended : PresentedMedia}
  {earlierIds : List (ImageKey × UInt32)}

/-- **Retained uploads are the ones that the scene needs**, and nothing else of them is left. -/
theorem shows_retained (hids : media.outerImageIds = some imageIds) (once : media.OnePerImage)
    (huploads : composeImageUploads media = some intended.imageUploads)
    (hrecords : scene.composeImageRecords media = some records)
    (hids' : earlier.outerImageIds = some earlierIds) (once' : earlier.OnePerImage)
    (huploads' : composeImageUploads earlier = some presented.imageUploads)
    (digest : ∀ upload ∈ media.imageUploads, ∀ old ∈ earlier.imageUploads,
      upload.dataDigest = old.dataDigest → upload.data = old.data)
    {shown : List PresentedImage} (holds : store.Shows earlier earlierIds shown)
    (h : writeKittyImages scene media images presented.imageUploads = some (.ok commands)) :
    (store.execute (writeKittyDeletions intended (some presented.imageUploads) ++ commands)).Shows
      media imageIds (records.map (·.image)) := by
  obtain ⟨hbare, himages⟩ := store.execute_retained intended presented.imageUploads
  have hpresented := mem_composeImageUploads hids' once' huploads'
  have hintended := mem_composeImageUploads hids once huploads
  rw [execute_append]
  refine shows_of_bare hids once hrecords h hbare (fun upload hmem imageId hid hkept => ?_)
    fun imageId hout => ?_
  · -- the upload that is held has the digest, and is not deleted
    obtain ⟨old, hold, oldId, holdId, hsame⟩ := (hpresented _).mp hkept
    obtain ⟨hid', hwidth, hheight, hformat, -, hdigest⟩ := PresentedImageUpload.mk.inj hsame
    subst hid'
    have hstored : storedImage old = storedImage upload := by
      rw [storedImage, storedImage, hwidth, hheight, hformat, digest upload hmem old hold hdigest]
    rw [himages, if_neg, (holds.images imageId (storedImage old)).mpr ⟨old, hold, holdId, rfl⟩, hstored]
    rintro ⟨entry, hentry, hstale, rfl⟩
    obtain ⟨other, hother, otherId, hotherId, rfl⟩ := (hpresented _).mp hentry
    obtain rfl := upload_unique hids' once' hold hother holdId hotherId
    exact hstale ((hintended _).mpr ⟨upload, hmem, _, hid, hsame.symm⟩)
  · rw [himages]
    split
    · rfl
    · rename_i hfresh
      by_contra hne
      obtain ⟨stored, hstored⟩ := ne_none_iff_exists'.mp hne
      obtain ⟨old, hold, holdId, -⟩ := (holds.images imageId stored).mp hstored
      refine hfresh ⟨presentedUpload imageId old, (hpresented _).mpr ⟨old, hold, imageId, holdId, rfl⟩,
        fun hmem => ?_, rfl⟩
      obtain ⟨upload, hupload, uploadId, huploadId, hsame⟩ := (hintended _).mp hmem
      obtain rfl := congrArg PresentedImageUpload.imageId hsame
      exact hout upload hupload huploadId

/-- **From scratch the scene is shown on any store.** -/
theorem shows_fromScratch (hids : media.outerImageIds = some imageIds) (once : media.OnePerImage)
    (hrecords : scene.composeImageRecords media = some records)
    (h : writeKittyImages scene media images [] = some (.ok commands)) :
    (store.execute (writeKittyDeletions intended none ++ [.deleteAll] ++ commands)).Shows media imageIds
      (records.map (·.image)) := by
  obtain ⟨hbare, himages⟩ := store.execute_fromScratch intended
  rw [execute_append]
  exact shows_of_bare hids once hrecords h hbare
    (fun _ _ _ _ hmem => absurd hmem not_mem_nil) fun imageId _ => himages imageId

end GraphicsStore

/-! ## The searches end -/

theorem toNat_nextOuterId (id : UInt32) :
    (nextOuterId id).toNat = if id.toNat = 2 ^ 32 - 1 then 1 else id.toNat + 1 := by
  have hlt := id.toNat_lt
  show (if id + 1 ≤ 1 then 1 else id + 1).toNat = _
  split
  · rename_i hle
    rw [UInt32.le_iff_toNat_le, UInt32.toNat_add] at hle
    have hone : (1 : UInt32).toNat = 1 := rfl
    split <;> omega
  · rename_i hle
    rw [UInt32.le_iff_toNat_le, UInt32.toNat_add] at hle
    have hone : (1 : UInt32).toNat = 1 := rfl
    rw [UInt32.toNat_add]
    split <;> omega

theorem toNat_iterate_nextOuterId (id : UInt32) (n : Nat) : (nextOuterId^[n + 1] id).toNat =
    (id.toNat + n) % (2 ^ 32 - 1) + 1 := by
  have hlt := id.toNat_lt
  induction n with
  | zero =>
    rw [Function.iterate_one, toNat_nextOuterId]
    split <;> omega
  | succ n ih =>
    rw [Function.iterate_succ_apply', toNat_nextOuterId]
    split <;> omega

theorem nextOuterId_distinct (wish : UInt32) (m n : Nat) (hmn : m < n) (hn : n < 2 ^ 32 - 1) :
    nextOuterId^[m] wish ≠ nextOuterId^[n] wish := by
  intro heq
  have hvalues := congrArg UInt32.toNat heq
  cases n with
  | zero => exact absurd hmn (Nat.not_lt_zero m)
  | succ n =>
    rw [toNat_iterate_nextOuterId] at hvalues
    cases m with
    | zero =>
      rw [Function.iterate_zero, id] at hvalues
      omega
    | succ m =>
      rw [toNat_iterate_nextOuterId] at hvalues
      omega

theorem exists_mapM {α β : Type} {f : α → Option β} {items : List α}
    (h : ∀ item ∈ items, ∃ result, f item = some result) : ∃ results, items.mapM f = some results := by
  induction items with
  | nil => exact ⟨[], mapM_nil⟩
  | cons item rest ih =>
    obtain ⟨first, hfirst⟩ := h item mem_cons_self
    obtain ⟨others, hothers⟩ := ih fun other hmem => h other (mem_cons_of_mem _ hmem)
    rw [mapM_cons, hfirst, hothers]
    exact ⟨first :: others, rfl⟩

theorem length_flatten_mapM {α β γ : Type} {f : α → Option (List β)} {parts : α → List γ}
    (h : ∀ item group, f item = some group → group.length = (parts item).length) {items : List α}
    {groups : List (List β)} (hgroups : items.mapM f = some groups) :
    groups.flatten.length = (items.flatMap parts).length := by
  induction items generalizing groups with
  | nil =>
    cases hgroups
    rfl
  | cons item rest ih =>
    rw [mapM_cons] at hgroups
    obtain ⟨first, hfirst, hgroups⟩ := bind_eq_some_iff.mp hgroups
    obtain ⟨others, hothers, hgroups⟩ := bind_eq_some_iff.mp hgroups
    cases hgroups
    rw [flatten_cons, length_append, h item first hfirst, ih hothers, flatMap_cons, length_append]

namespace Scene

variable {scene : Scene} {media : SceneMedia}

def placementParts (scene : Scene) (media : SceneMedia) : List PresentedImage :=
  media.images.flatMap scene.placementFragments

theorem length_seededRecords {imageIds : List (ImageKey × UInt32)}
    {records : List (ComposedImage × UInt64)} (h : scene.seededRecords media imageIds = some records) :
    records.length = (scene.placementParts media).length := by
  obtain ⟨groups, hgroups, rfl⟩ := map_eq_some_iff.mp h
  refine length_flatten_mapM (fun placement group hgroup => ?_) hgroups
  obtain ⟨imageId, -, hgroup⟩ := bind_eq_some_iff.mp hgroup
  cases hgroup
  exact length_map ..

/-- **A scene is composed** where there are identifiers for all its images and their parts. -/
theorem composeMedia_isSome (keys : media.imageKeys.length < 2 ^ 32)
    (parts : (scene.placementParts media).length < 2 ^ 32) :
    ∃ intended, scene.composeMedia media = some intended := by
  obtain ⟨imageIds, hids⟩ : ∃ imageIds, media.outerImageIds = some imageIds :=
    Probing.allocateAll_isSome (2 ^ 32 - 1) (by rw [length_map, length_nil]; omega) nextOuterId_distinct
  obtain ⟨records, hseeded⟩ : ∃ records, scene.seededRecords media imageIds = some records := by
    rw [← isSome_iff_exists, seededRecords, isSome_map, isSome_iff_exists]
    refine exists_mapM fun placement hmem => ?_
    obtain ⟨imageId, hid⟩ := lookup_key hids (mem_imageKeys.mpr (.inr ⟨placement, hmem, rfl⟩))
    rw [hid]
    exact ⟨_, rfl⟩
  have hcount := length_seededRecords hseeded
  obtain ⟨allocated, hallocated⟩ : ∃ allocated, Probing.allocateAll nextOuterId []
      (records.map fun record => (record.1, firstOuterId record.2)) = some allocated :=
    Probing.allocateAll_isSome (2 ^ 32 - 1) (by rw [length_map, length_nil]; omega) nextOuterId_distinct
  rw [composeMedia, composeImageUploads, composeImages, composeImageRecords, hids]
  simp only [bind_eq_bind, bind_some, hseeded, hallocated]
  exact ⟨_, rfl⟩

end Scene

theorem writeUploads_isSome {imageIds : List (ImageKey × UInt32)}
    (hids : media.outerImageIds = some imageIds) (retained : List PresentedImageUpload)
    {pending : List SceneImageUpload} (h : ∀ upload ∈ pending, upload ∈ media.imageUploads)
    (uploaded : List UInt32) : ∃ commands, writeUploads imageIds retained uploaded pending = some commands := by
  induction pending generalizing uploaded with
  | nil => exact ⟨[], rfl⟩
  | cons upload rest ih =>
    obtain ⟨imageId, hid⟩ := lookup_upload hids (h upload mem_cons_self)
    have hrest := ih fun other hmem => h other (mem_cons_of_mem _ hmem)
    rw [writeUploads, hid, bind_eq_bind, bind_some]
    split
    · exact hrest uploaded
    · obtain ⟨others, hothers⟩ := hrest (imageId :: uploaded)
      rw [hothers]
      exact ⟨_, rfl⟩

theorem writeKittyImages_isOk {scene : Scene} {intended : PresentedMedia}
    (h : scene.composeMedia media = some intended)
    (uploads : ∀ placement ∈ media.images, (media.uploadOf placement).isSome)
    (retained : List PresentedImageUpload) :
    ∃ commands, writeKittyImages scene media intended.images retained = some (.ok commands) := by
  obtain ⟨imageIds, records, hids, -, hrecords, himages⟩ := Scene.composeMedia_parts h
  obtain ⟨-, hparts⟩ := Scene.composeImageRecords_spec hids hrecords
  obtain ⟨written, hwritten⟩ := writeUploads_isSome hids retained (fun _ hmem => hmem) []
  have hplaced : writePlacements media records =
      .ok (records.map fun record => writeKittyPlacement record.image) := by
    refine writePlacements_ok.mpr ⟨rfl, fun record hmem => ?_⟩
    obtain ⟨placement, hplacement, howner, hsource, -⟩ := hparts record hmem
    have hfound := find?_isSome.mp (uploads placement hplacement)
    rw [howner, hsource]
    exact any_eq_true.mpr hfound
  rw [writeKittyImages, hrecords, hids]
  simp only [bind_eq_bind, bind_some, himages, ne_eq, hwritten, hplaced]
  exact ⟨_, rfl⟩

/-! ## Repainting -/

/-- **Repainting with retained images equals repainting from scratch.** Scenes are composed unless they
need more identifiers than there are, and written where each placement has its upload. -/
theorem FullSceneVtRenderer.retained_repaint (renderer : FullSceneVtRenderer)
    (kitty : renderer.kittyGraphics = true) :
    (∀ (scene : Scene) (media : SceneMedia), media.imageKeys.length < 2 ^ 32 →
      (scene.placementParts media).length < 2 ^ 32 → ∃ intended, scene.composeMedia media = some intended) ∧
    ∀ (before scene : Scene) (earlier media : SceneMedia) (presented intended : PresentedMedia)
      (shown : PresentedScene), before.composeMedia earlier = some presented →
      scene.composeMedia media = some intended → earlier.OnePerImage → media.OnePerImage →
      (∀ upload ∈ media.imageUploads, ∀ old ∈ earlier.imageUploads,
        upload.dataDigest = old.dataDigest → upload.data = old.data) →
      ∃ earlierIds imageIds, earlier.outerImageIds = some earlierIds ∧ media.outerImageIds = some imageIds ∧
        (∀ upload ∈ media.imageUploads, ∃ imageId, imageIds.lookup upload.key = some imageId) ∧
        (∀ key key' imageId, imageIds.lookup key = some imageId → imageIds.lookup key' = some imageId →
          key = key') ∧
        (intended.images.map (·.placementId)).Nodup ∧
        (∀ commands, renderer.encodeCommands scene media shown intended (some presented.imageUploads) =
            some (.ok commands) →
          ∀ store : GraphicsStore, store.Shows earlier earlierIds presented.images →
            (store.execute (graphicsOf commands)).Shows media imageIds intended.images) ∧
        (∀ commands, renderer.encodeCommands scene media shown intended none = some (.ok commands) →
          ∀ store : GraphicsStore, (store.execute (graphicsOf commands)).Shows media imageIds intended.images) ∧
        ((∀ placement ∈ media.images, (media.uploadOf placement).isSome) → ∀ retained,
          ∃ commands, renderer.encodeCommands scene media shown intended retained = some (.ok commands)) := by
  refine ⟨fun scene media => Scene.composeMedia_isSome, ?_⟩
  intro before scene earlier media presented intended shown hbefore hscene once' once digest
  obtain ⟨earlierIds, -, hids', huploads', -, -⟩ := Scene.composeMedia_parts hbefore
  obtain ⟨imageIds, records, hids, huploads, hrecords, himages⟩ := Scene.composeMedia_parts hscene
  obtain ⟨hdistinct, -⟩ := Scene.composeImageRecords_spec hids hrecords
  refine ⟨earlierIds, imageIds, hids', hids, fun upload hmem => lookup_upload hids hmem,
    fun key key' imageId => Probing.lookup_injective (outerImageIds_spec hids).2, ?_, ?_, ?_, ?_⟩
  · rw [himages, map_map]
    exact hdistinct
  · intro commands hcommands store holds
    obtain ⟨images, hwritten, hgraphics⟩ := graphicsOf_encode kitty hcommands
    rw [hgraphics, isSome_some, if_pos rfl, append_nil, himages]
    exact GraphicsStore.shows_retained hids once huploads hrecords hids' once' huploads' digest holds hwritten
  · intro commands hcommands store
    obtain ⟨images, hwritten, hgraphics⟩ := graphicsOf_encode kitty hcommands
    rw [hgraphics, himages]
    exact GraphicsStore.shows_fromScratch hids once hrecords hwritten
  · intro uploads retained
    obtain ⟨images, hwritten⟩ := writeKittyImages_isOk hscene uploads (retained.getD [])
    rw [encodeCommands, kittyImages, if_pos kitty, hwritten]
    exact ⟨_, rfl⟩

/-! ### An image whose data change -/

def pixelMedia (digest : UInt64) (data : Bytes) : SceneMedia where
  imageUploads := [⟨⟨0⟩, 1, 1, 1, .rgb, data, digest⟩]
  images :=
    [⟨⟨0⟩,
      { imageId := 1
        placementId := 1
        imageNumber := 0
        pixelWidth := 1
        pixelHeight := 1
        renderedPixelWidth := 1
        renderedPixelHeight := 1
        format := .rgb
        dataLen := data.length
        dataDigest := digest
        gridRect := ⟨⟨0, 0⟩, 1, 1⟩
        xOffset := 0
        yOffset := 0
        sourceX := 0
        sourceY := 0
        sourceWidth := 1
        sourceHeight := 1
        zIndex := 0
        virtualPlacement := false
        visible := true }⟩]

theorem FullSceneVtRenderer.retained_repaint_pixel : ∃ presented intended commands earlierIds imageIds,
      (floatingScene 0).composeMedia (pixelMedia 1 [1, 2, 3]) = some presented ∧
      (floatingScene 0).composeMedia (pixelMedia 2 [4, 5, 6]) = some intended ∧
      FullSceneVtRenderer.encodeCommands ⟨⟨false, true, false⟩, true⟩ (floatingScene 0)
        (pixelMedia 2 [4, 5, 6]) (.blank ⟨1, 4, 0, 0⟩) intended (some presented.imageUploads) =
          some (.ok commands) ∧
      ∀ store : GraphicsStore, store.Shows (pixelMedia 1 [1, 2, 3]) earlierIds presented.images →
        (store.execute (graphicsOf commands)).Shows (pixelMedia 2 [4, 5, 6]) imageIds
          intended.images := by
  obtain ⟨hcompose, hrepaint⟩ := FullSceneVtRenderer.retained_repaint ⟨⟨false, true, false⟩, true⟩ rfl
  obtain ⟨presented, hpresented⟩ := hcompose (floatingScene 0) (pixelMedia 1 [1, 2, 3])
    (by decide +kernel) (by decide +kernel)
  obtain ⟨intended, hintended⟩ := hcompose (floatingScene 0) (pixelMedia 2 [4, 5, 6])
    (by decide +kernel) (by decide +kernel)
  have hdigest : ∀ upload ∈ (pixelMedia 2 [4, 5, 6]).imageUploads,
      ∀ old ∈ (pixelMedia 1 [1, 2, 3]).imageUploads, upload.dataDigest = old.dataDigest →
        upload.data = old.data := by decide
  obtain ⟨earlierIds, imageIds, -, -, -, -, -, hretained, -, hok⟩ := hrepaint (floatingScene 0)
    (floatingScene 0) (pixelMedia 1 [1, 2, 3]) (pixelMedia 2 [4, 5, 6]) presented intended
    (.blank ⟨1, 4, 0, 0⟩) hpresented hintended (by unfold SceneMedia.OnePerImage; decide)
    (by unfold SceneMedia.OnePerImage; decide) hdigest
  obtain ⟨commands, hcommands⟩ := hok (by decide +kernel) (some presented.imageUploads)
  exact ⟨presented, intended, commands, earlierIds, imageIds, hpresented, hintended, hcommands,
    hretained commands hcommands⟩

end Lector.Presentation
