import Lector.Foundations.Probing
import Lector.Presentation.Damage

/-! Images of a scene (`src/presentation.rs`): placements are clipped at the scene and cut where
overlays lie over them. Sizes in pixels are `Nat`s that the arithmetic of `u32` keeps in range. -/
namespace Lector.Presentation
open Output Terminal

/-! ## Images -/

inductive PixelFormat
  | rgb
  | rgba
  | grayAlpha
  | gray
deriving DecidableEq

structure PresentedImage where
  imageId : UInt32
  placementId : UInt32
  imageNumber : UInt32
  pixelWidth : Nat
  pixelHeight : Nat
  renderedPixelWidth : Nat
  renderedPixelHeight : Nat
  format : PixelFormat
  dataLen : Nat
  dataDigest : UInt64
  gridRect : GridRect
  xOffset : Nat
  yOffset : Nat
  sourceX : Nat
  sourceY : Nat
  sourceWidth : Nat
  sourceHeight : Nat
  zIndex : Int
  virtualPlacement : Bool
  visible : Bool
deriving DecidableEq

structure SceneImagePlacement where
  owner : SurfaceId
  image : PresentedImage
deriving DecidableEq

structure SceneImageUpload where
  owner : SurfaceId
  imageId : UInt32
  pixelWidth : Nat
  pixelHeight : Nat
  format : PixelFormat
  data : Bytes
  dataDigest : UInt64
deriving DecidableEq

structure PresentedImageUpload where
  imageId : UInt32
  pixelWidth : Nat
  pixelHeight : Nat
  format : PixelFormat
  dataLen : Nat
  dataDigest : UInt64
deriving DecidableEq

structure SceneMedia where
  imageUploads : List SceneImageUpload
  images : List SceneImagePlacement
deriving DecidableEq

structure PresentedMedia where
  imageUploads : List PresentedImageUpload
  images : List PresentedImage
deriving DecidableEq

/-! ## Rectangles -/

def saturatingSubI32 (a b : Int) : Int := max (-2 ^ 31) (min (a - b) i32Max)

def saturatingMulU32 (a b : Nat) : Nat := min (a * b) (2 ^ 32 - 1)

def tryU16 (n : Int) : Nat := if 0 ≤ n ∧ n < 2 ^ 16 then n.toNat else 0

def intersectRect (left right : GridRect) : Option GridRect :=
  let top := max left.origin.row right.origin.row
  let leftCol := max left.origin.col right.origin.col
  let bottom := min (saturatingAddI32 left.origin.row left.rows)
    (saturatingAddI32 right.origin.row right.rows)
  let rightCol := min (saturatingAddI32 left.origin.col left.cols)
    (saturatingAddI32 right.origin.col right.cols)
  if top < bottom ∧ leftCol < rightCol then
    some ⟨⟨top, leftCol⟩, clampU16 (bottom - top).toNat, clampU16 (rightCol - leftCol).toNat⟩
  else none

def atLeastOne (source kept : Nat) : Nat := max kept (if 0 < source then 1 else 0)

variable (image : PresentedImage)

def clipImagePlacement (clip : GridRect) : Option PresentedImage := do
  let intersection ← intersectRect image.gridRect clip
  let topCells := (max (saturatingSubI32 intersection.origin.row image.gridRect.origin.row) 0).toNat
  let leftCells := (max (saturatingSubI32 intersection.origin.col image.gridRect.origin.col) 0).toNat
  let originalRows := max image.gridRect.rows 1
  let originalCols := max image.gridRect.cols 1
  let sourceWidth := if image.sourceWidth = 0 then image.pixelWidth else image.sourceWidth
  let sourceHeight := if image.sourceHeight = 0 then image.pixelHeight else image.sourceHeight
  some { image with
    gridRect := intersection
    sourceX := saturatingAdd 32 image.sourceX (saturatingMulU32 sourceWidth leftCells / originalCols)
    sourceY := saturatingAdd 32 image.sourceY (saturatingMulU32 sourceHeight topCells / originalRows)
    sourceWidth := atLeastOne sourceWidth (saturatingMulU32 sourceWidth intersection.cols / originalCols)
    sourceHeight := atLeastOne sourceHeight (saturatingMulU32 sourceHeight intersection.rows / originalRows)
    xOffset := if 0 < leftCells then 0 else image.xOffset
    yOffset := if 0 < topCells then 0 else image.yOffset
    renderedPixelWidth := atLeastOne image.renderedPixelWidth
      (saturatingMulU32 image.renderedPixelWidth intersection.cols / originalCols)
    renderedPixelHeight := atLeastOne image.renderedPixelHeight
      (saturatingMulU32 image.renderedPixelHeight intersection.rows / originalRows) }

def subtractImagePlacement (occluder : GridRect) : List PresentedImage :=
  match intersectRect image.gridRect occluder with
  | none => [image]
  | some intersection =>
    let rect := image.gridRect
    let imageBottom := saturatingAddI32 rect.origin.row rect.rows
    let imageRight := saturatingAddI32 rect.origin.col rect.cols
    let intersectionBottom := saturatingAddI32 intersection.origin.row intersection.rows
    let intersectionRight := saturatingAddI32 intersection.origin.col intersection.cols
    let candidates : List GridRect :=
      [⟨rect.origin, tryU16 (intersection.origin.row - rect.origin.row), rect.cols⟩,
        ⟨⟨intersectionBottom, rect.origin.col⟩, tryU16 (imageBottom - intersectionBottom), rect.cols⟩,
        ⟨⟨intersection.origin.row, rect.origin.col⟩, intersection.rows,
          tryU16 (intersection.origin.col - rect.origin.col)⟩,
        ⟨⟨intersection.origin.row, intersectionRight⟩, intersection.rows,
          tryU16 (imageRight - intersectionRight)⟩]
    (candidates.filter fun rect => 0 < rect.rows && 0 < rect.cols).filterMap (clipImagePlacement image)

/-! ## Identifiers -/

def leBytes (count : Nat) (n : Int) : Bytes :=
  (List.range count).map fun i => UInt8.ofNat ((n / 256 ^ i % 256).toNat)

def stableDigest (bytes : Bytes) : UInt64 :=
  bytes.foldl (fun digest byte => (digest ^^^ byte.toUInt64) * 0x00000100000001b3) 0xcbf29ce484222325

def stableNamespaceSeed (owner : SurfaceId) (sourceId : UInt32) (extra tag : UInt64) : UInt64 :=
  stableDigest (leBytes 8 owner.value.toNat ++ leBytes 4 sourceId.toNat ++ leBytes 8 extra.toNat ++
    leBytes 8 tag.toNat)

def placementFragmentDigest : UInt64 :=
  stableDigest (leBytes 4 image.gridRect.origin.row ++ leBytes 4 image.gridRect.origin.col ++
    leBytes 2 image.gridRect.rows ++ leBytes 2 image.gridRect.cols ++ leBytes 4 image.sourceX ++
    leBytes 4 image.sourceY ++ leBytes 4 image.sourceWidth ++ leBytes 4 image.sourceHeight ++
    leBytes 4 image.xOffset ++ leBytes 4 image.yOffset ++ leBytes 4 image.zIndex ++
    [if image.virtualPlacement then 1 else 0])

def imageTag : UInt64 := 0x494d414745000001

def placementTag : UInt64 := 0x504c414345000001

/-- `id.wrapping_add(1).max(1)`, and `(seed as u32).max(1)` for the first wish. -/
def nextOuterId (id : UInt32) : UInt32 := max (id + 1) 1

def firstOuterId (seed : UInt64) : UInt32 := max seed.toUInt32 1

abbrev ImageKey := SurfaceId × UInt32 × UInt64

def imageKeyLe (a b : ImageKey) : Bool :=
  a.1.value < b.1.value || (a.1 == b.1 && (a.2.1 < b.2.1 || (a.2.1 == b.2.1 && a.2.2 ≤ b.2.2)))

def SceneImageUpload.key (upload : SceneImageUpload) : ImageKey :=
  (upload.owner, upload.imageId, upload.dataDigest)

namespace SceneMedia

variable (media : SceneMedia)

def uploadOf (placement : SceneImagePlacement) : Option SceneImageUpload :=
  media.imageUploads.find? fun upload =>
    upload.owner == placement.owner && upload.imageId == placement.image.imageId

def placementKey (placement : SceneImagePlacement) : ImageKey :=
  (placement.owner, placement.image.imageId,
    ((media.uploadOf placement).map (·.dataDigest)).getD placement.image.dataDigest)

def imageKeys : List ImageKey :=
  ((media.imageUploads.map SceneImageUpload.key ++ media.images.map media.placementKey).dedup).mergeSort
    imageKeyLe

def outerImageIds : Option (List (ImageKey × UInt32)) :=
  Probing.allocateAll nextOuterId [] (media.imageKeys.map fun key =>
    (key, firstOuterId (stableNamespaceSeed key.1 key.2.1 key.2.2 imageTag)))

end SceneMedia

/-! ## Composing -/

def presentedUpload (imageId : UInt32) (upload : SceneImageUpload) : PresentedImageUpload :=
  ⟨imageId, upload.pixelWidth, upload.pixelHeight, upload.format, upload.data.length, upload.dataDigest⟩

def insertUpload (upload : PresentedImageUpload) : List PresentedImageUpload → List PresentedImageUpload
  | [] => [upload]
  | first :: rest =>
    if upload.imageId = first.imageId then upload :: rest
    else if upload.imageId < first.imageId then upload :: first :: rest
    else first :: insertUpload upload rest

def addUpload (imageIds : List (ImageKey × UInt32)) (uploads : List PresentedImageUpload)
    (upload : SceneImageUpload) : List PresentedImageUpload :=
  match imageIds.lookup upload.key with
  | some imageId => insertUpload (presentedUpload imageId upload) uploads
  | none => uploads

def composeImageUploads (media : SceneMedia) : Option (List PresentedImageUpload) := do
  let imageIds ← media.outerImageIds
  some (media.imageUploads.foldl (addUpload imageIds) [])

structure ComposedImage where
  owner : SurfaceId
  sourceImageId : UInt32
  image : PresentedImage
deriving DecidableEq

def ComposedImage.withPlacementId (record : ComposedImage) (placementId : UInt32) : ComposedImage :=
  { record with image := { record.image with placementId := placementId } }

def surfaceRect (surface : SceneSurface) : GridRect :=
  ⟨surface.origin, surface.snapshot.geometry.rows.toNat, surface.snapshot.geometry.cols.toNat⟩

namespace Scene

variable (scene : Scene)

def bounds : GridRect := ⟨⟨0, 0⟩, scene.geometry.rows.toNat, scene.geometry.cols.toNat⟩

def occluders (owner : SurfaceId) : List GridRect :=
  let layers := scene.sortedOverlays.map (·.1.surface)
  let above := match layers.findIdx? fun surface => surface.id = owner with
    | some index => layers.drop (index + 1)
    | none => layers
  above.map surfaceRect

def placementFragments (placement : SceneImagePlacement) : List PresentedImage :=
  match clipImagePlacement placement.image scene.bounds with
  | none => []
  | some image =>
    if image.visible then
      (scene.occluders placement.owner).foldl
        (fun fragments rect => fragments.flatMap fun fragment => subtractImagePlacement fragment rect)
        [image]
    else []

/-- A part with the data of its upload, and with sizes in pixels where the pane knows none. -/
def finishFragment (upload : Option SceneImageUpload) (fragment : PresentedImage) : PresentedImage :=
  let fragment := upload.elim fragment fun upload => { fragment with
    dataLen := upload.data.length
    format := upload.format
    pixelWidth := upload.pixelWidth
    pixelHeight := upload.pixelHeight }
  let cellWidth := scene.geometry.cellWidthPx.toNat
  let cellHeight := scene.geometry.cellHeightPx.toNat
  { fragment with
    renderedPixelWidth :=
      if fragment.renderedPixelWidth = 0 ∧ 0 < cellWidth then
        saturatingMulU32 fragment.gridRect.cols cellWidth
      else fragment.renderedPixelWidth
    renderedPixelHeight :=
      if fragment.renderedPixelHeight = 0 ∧ 0 < cellHeight then
        saturatingMulU32 fragment.gridRect.rows cellHeight
      else fragment.renderedPixelHeight }

variable (media : SceneMedia)

/-- The parts of all placements with the identifiers of their images, and the seeds of their own. -/
def seededRecords (imageIds : List (ImageKey × UInt32)) : Option (List (ComposedImage × UInt64)) :=
  (media.images.mapM fun placement => do
    let outerImageId ← imageIds.lookup (media.placementKey placement)
    some ((scene.placementFragments placement).map fun fragment =>
      let fragment := { scene.finishFragment (media.uploadOf placement) fragment with
        imageId := outerImageId }
      (ComposedImage.mk placement.owner placement.image.imageId fragment,
        stableNamespaceSeed placement.owner placement.image.placementId
          (placementFragmentDigest fragment) placementTag))).map List.flatten

/-- The order of `(z_index, image_id, placement_id)`. -/
def recordLe (a b : ComposedImage) : Bool :=
  a.image.zIndex < b.image.zIndex || (a.image.zIndex == b.image.zIndex &&
    (a.image.imageId < b.image.imageId || (a.image.imageId == b.image.imageId &&
      a.image.placementId ≤ b.image.placementId)))

def composeImageRecords : Option (List ComposedImage) := do
  let imageIds ← media.outerImageIds
  let records ← scene.seededRecords media imageIds
  let allocated ← Probing.allocateAll nextOuterId []
    (records.map fun record => (record.1, firstOuterId record.2))
  some ((allocated.map fun entry => entry.1.withPlacementId entry.2).mergeSort recordLe)

def composeImages : Option (List PresentedImage) :=
  (scene.composeImageRecords media).map fun records => records.map (·.image)

def composeMedia : Option PresentedMedia := do
  let imageUploads ← composeImageUploads media
  let images ← scene.composeImages media
  some ⟨imageUploads, images⟩

end Scene

end Lector.Presentation
