import Lector.Foundations.Base64
import Lector.Presentation.Images

/-! Graphics commands of a render (`write_kitty_images` in `src/presentation.rs`), and a terminal that
keeps images and placements under their identifiers. -/
namespace Lector.Presentation
open Output

/-! ## Commands -/

structure OuterPlacement where
  row : Int
  col : Int
  sourceX : Nat
  sourceY : Nat
  sourceWidth : Nat
  sourceHeight : Nat
  xOffset : Nat
  yOffset : Nat
  cols : Nat
  rows : Nat
  virtualPlacement : Bool
  zIndex : Int
deriving DecidableEq

def outerPlacement (image : PresentedImage) : OuterPlacement where
  row := saturatingAddI32 image.gridRect.origin.row 1
  col := saturatingAddI32 image.gridRect.origin.col 1
  sourceX := image.sourceX
  sourceY := image.sourceY
  sourceWidth := image.sourceWidth
  sourceHeight := image.sourceHeight
  xOffset := image.xOffset
  yOffset := image.yOffset
  cols := image.gridRect.cols
  rows := image.gridRect.rows
  virtualPlacement := image.virtualPlacement
  zIndex := image.zIndex

inductive GraphicsCommand
  | deletePlacements
  | deleteAll
  | deleteImage (imageId : UInt32)
  | transmit (format width height : Nat) (imageId : UInt32) (more : Bool) (payload : Bytes)
  | transmitMore (more : Bool) (payload : Bytes)
  | place (imageId placementId : UInt32) (placement : OuterPlacement)
deriving DecidableEq

namespace GraphicsCommand

def flag (b : Bool) : Nat := if b then 1 else 0

def bytes : GraphicsCommand → Bytes
  | deletePlacements => ascii "\x1b_Ga=d,d=a\x1b\\"
  | deleteAll => ascii "\x1b_Ga=d,d=A\x1b\\"
  | deleteImage imageId => ascii s!"\x1b_Ga=d,d=I,i={imageId}\x1b\\"
  | transmit format width height imageId more payload =>
    ascii s!"\x1b_Ga=t,t=d,f={format},s={width},v={height},i={imageId},q=2,m={flag more};" ++ payload ++
      ascii "\x1b\\"
  | transmitMore more payload => ascii s!"\x1b_Gm={flag more};" ++ payload ++ ascii "\x1b\\"
  | place imageId placementId p =>
    ascii s!"\x1b[{p.row};{p.col}H\x1b_Ga=p,i={imageId},p={placementId},x={p.sourceX},y={p.sourceY}," ++
      ascii s!"w={p.sourceWidth},h={p.sourceHeight},X={p.xOffset},Y={p.yOffset},c={p.cols},r={p.rows}," ++
      ascii s!"C=1,U={flag p.virtualPlacement},z={p.zIndex};\x1b\\"

end GraphicsCommand

def kittyBase64ChunkBytes : Nat := 4096

def chunks (size : Nat) : (fuel : Nat) → Bytes → List Bytes
  | 0, _ => []
  | fuel + 1, bytes =>
    if bytes.isEmpty then [] else bytes.take size :: chunks size fuel (bytes.drop size)

def kittyFormat : PixelFormat → Nat
  | .rgb | .gray => 24
  | .rgba | .grayAlpha => 32

def sendChunks : List Bytes → List GraphicsCommand
  | [] => []
  | chunk :: rest => .transmitMore (!rest.isEmpty) chunk :: sendChunks rest

def payloadChunks (data : Bytes) : List Bytes :=
  let encoded := Base64.encode data
  if encoded.isEmpty then [[]] else chunks kittyBase64ChunkBytes encoded.length encoded

def writeKittyUpload (imageId : UInt32) (upload : SceneImageUpload) : List GraphicsCommand :=
  match payloadChunks upload.data with
  | [] => []
  | first :: rest =>
    .transmit (kittyFormat upload.format) upload.pixelWidth upload.pixelHeight imageId (!rest.isEmpty)
      first :: sendChunks rest

def writeKittyPlacement (image : PresentedImage) : GraphicsCommand :=
  .place image.imageId image.placementId (outerPlacement image)

/-! ## Rendering -/

inductive MediaError
  | inconsistentComposedMedia
  | missingMediaUpload (owner : SurfaceId) (imageId : UInt32)
deriving DecidableEq

def writeUploads (imageIds : List (ImageKey × UInt32)) (retained : List PresentedImageUpload) :
    (uploaded : List UInt32) → List SceneImageUpload → Option (List GraphicsCommand)
  | _, [] => some []
  | uploaded, upload :: rest => do
    let imageId ← imageIds.lookup upload.key
    if imageId ∈ uploaded then writeUploads imageIds retained uploaded rest
    else
      let others ← writeUploads imageIds retained (imageId :: uploaded) rest
      some ((if presentedUpload imageId upload ∈ retained then []
        else writeKittyUpload imageId upload) ++ others)

def writePlacements (media : SceneMedia) : List ComposedImage → Except MediaError (List GraphicsCommand)
  | [] => .ok []
  | record :: rest =>
    if media.imageUploads.any fun upload =>
        upload.owner == record.owner && upload.imageId == record.sourceImageId then do
      let others ← writePlacements media rest
      .ok (writeKittyPlacement record.image :: others)
    else .error (.missingMediaUpload record.owner record.sourceImageId)

/-- The result `none` is a search for an identifier that does not end. -/
def writeKittyImages (scene : Scene) (media : SceneMedia) (images : List PresentedImage)
    (retained : List PresentedImageUpload) : Option (Except MediaError (List GraphicsCommand)) := do
  let records ← scene.composeImageRecords media
  if records.map (·.image) ≠ images then some (.error .inconsistentComposedMedia)
  else
    let imageIds ← media.outerImageIds
    let uploads ← writeUploads imageIds retained [] media.imageUploads
    some ((writePlacements media records).map (uploads ++ ·))

/-- What is deleted before the scene is drawn: with uploads that are retained, those that the scene no
longer has; otherwise everything. -/
def writeKittyDeletions (intended : PresentedMedia) :
    (retained : Option (List PresentedImageUpload)) → List GraphicsCommand
  | some retained =>
    .deletePlacements :: (retained.filter fun upload => upload ∉ intended.imageUploads).map
      fun stale => .deleteImage stale.imageId
  | none => [.deleteAll]

/-! ## The terminal -/

structure StoredImage where
  format : Nat
  width : Nat
  height : Nat
  data : Bytes
deriving DecidableEq

structure Transmission where
  imageId : UInt32
  format : Nat
  width : Nat
  height : Nat
  text : Bytes

structure GraphicsStore where
  images : UInt32 → Option StoredImage
  placements : UInt32 × UInt32 → Option OuterPlacement
  transmission : Option Transmission

namespace GraphicsStore

variable (store : GraphicsStore)

def withoutImage (imageId : UInt32) : GraphicsStore :=
  { store with
    images := Function.update store.images imageId none
    placements := fun key => if key.1 = imageId then none else store.placements key }

def receive (transmission : Transmission) (more : Bool) : GraphicsStore :=
  if more then { store with transmission := some transmission }
  else match Base64.decode transmission.text with
    | some data =>
      let stored : StoredImage := ⟨transmission.format, transmission.width, transmission.height, data⟩
      { store.withoutImage transmission.imageId with
        images := Function.update store.images transmission.imageId (some stored)
        transmission := none }
    | none => { store with transmission := none }

def step : GraphicsCommand → GraphicsStore
  | .deletePlacements => { store with placements := fun _ => none }
  | .deleteAll => { store with images := fun _ => none, placements := fun _ => none }
  | .deleteImage imageId => store.withoutImage imageId
  | .transmit format width height imageId more payload =>
    store.receive ⟨imageId, format, width, height, payload⟩ more
  | .transmitMore more payload =>
    match store.transmission with
    | some transmission => store.receive { transmission with text := transmission.text ++ payload } more
    | none => store
  | .place imageId placementId placement =>
    if (store.images imageId).isSome then
      { store with
        placements := Function.update store.placements (imageId, placementId) (some placement) }
    else store

def execute (commands : List GraphicsCommand) : GraphicsStore := commands.foldl step store

end GraphicsStore

end Lector.Presentation
