import Lector.Terminal.Snapshot

/-! Scenes and their composition (`src/presentation.rs`). Images are left out. A result of `none` is an
index outside a row or outside the grid. -/
namespace Lector.Presentation
open Output Terminal

/-! ## Scenes -/

structure GridPoint where
  row : Int
  col : Int
deriving DecidableEq

structure SceneSurface where
  id : SurfaceId
  origin : GridPoint
  snapshot : TerminalSnapshot
deriving DecidableEq

structure SceneOverlay where
  surface : SceneSurface
  zIndex : Int
deriving DecidableEq

inductive CursorOwner
  | pane (id : SurfaceId)
  | overlay (id : SurfaceId)
  | hidden
deriving DecidableEq

structure TerminalWideEffects where
  title : Option String
  workingDirectory : Option String
  bellCount : Nat
deriving DecidableEq

structure Scene where
  geometry : TerminalGeometry
  panes : List SceneSurface
  overlays : List SceneOverlay
  cursorOwner : CursorOwner
  effects : TerminalWideEffects
deriving DecidableEq

structure PresentedScene where
  geometry : TerminalGeometry
  rows : List Row
  cursor : Cursor
  cursorOwner : CursorOwner
  screen : ScreenIdentity
  modes : TerminalModes
  title : Option String
  workingDirectory : Option String
  bellCount : Nat
deriving DecidableEq

/-! ## Blitting -/

def i32Max : Int := 2 ^ 31 - 1

def saturatingAddI32 (a b : Int) : Int := max (-2 ^ 31) (min (a + b) i32Max)

variable (geometry : TerminalGeometry)

def blankRow : Row := ⟨List.replicate geometry.cols.toNat .default, false⟩

def blankRows : List Row := List.replicate geometry.rows.toNat (blankRow geometry)

/-- A loop of `blit_surface` from `index` on; places outside `limit` are skipped. -/
def blitFrom {α β : Type} (limit : Nat) (origin : Int) (draw : α → β → Option β) :
    Nat → List α → List β → Option (List β)
  | _, [], target => some target
  | index, item :: rest, target =>
    if i32Max < index then some target
    else
      let place := saturatingAddI32 origin index
      if place < 0 ∨ (limit : Int) ≤ place then blitFrom limit origin draw (index + 1) rest target
      else do
        let current ← target[place.toNat]?
        let drawn ← draw item current
        blitFrom limit origin draw (index + 1) rest (target.set place.toNat drawn)

def spans (cols : Nat) (surface : SceneSurface) : Bool :=
  surface.origin.col ≤ 0 &&
    (cols : Int) ≤ saturatingAddI32 surface.origin.col surface.snapshot.geometry.cols.toNat

def blitRow (cols : Nat) (surface : SceneSurface) (source target : Row) : Option Row := do
  let cells ← blitFrom cols surface.origin.col (fun cell _ => some cell) 0 source.cells target.cells
  some ⟨cells, if spans cols surface then source.wrapped else target.wrapped⟩

def blitSurface (target : List Row) (surface : SceneSurface) : Option (List Row) :=
  blitFrom geometry.rows.toNat surface.origin.row (blitRow geometry.cols.toNat surface) 0
    surface.snapshot.rows target

def blitSurfaces (target : List Row) (surfaces : List SceneSurface) :
    Option (List Row) := surfaces.foldlM (blitSurface geometry) target

/-! ## Composing -/

namespace Scene

variable (scene : Scene)

def firstCoversScene : Bool :=
  scene.panes.head?.any fun surface =>
    surface.origin = ⟨0, 0⟩ && surface.snapshot.geometry = scene.geometry &&
      surface.snapshot.rows.length = scene.geometry.rows.toNat

/-- The order of `(z_index, order)`. -/
def overlayLe (a b : SceneOverlay × Nat) : Bool :=
  a.1.zIndex < b.1.zIndex || (a.1.zIndex == b.1.zIndex && a.2 ≤ b.2)

def sortedOverlays : List (SceneOverlay × Nat) := scene.overlays.zipIdx.mergeSort overlayLe

/-- The rows of the panes, with the fast path for a first pane that covers the scene. -/
def paneRows : Option (List Row) :=
  if scene.firstCoversScene then
    blitSurfaces scene.geometry (scene.panes.head?.elim [] (·.snapshot.rows)) scene.panes.tail
  else blitSurfaces scene.geometry (blankRows scene.geometry) scene.panes

def composeRows : Option (List Row) := do
  let rows ← scene.paneRows
  blitSurfaces scene.geometry rows (scene.sortedOverlays.map (·.1.surface))

def cursorSurface : Option SceneSurface :=
  match scene.cursorOwner with
  | .pane id => scene.panes.find? fun surface => surface.id = id
  | .overlay id => (scene.overlays.find? fun overlay => overlay.surface.id = id).map (·.surface)
  | .hidden => none

end Scene

def sceneCursor (surface : SceneSurface) : Cursor :=
  let cursor := surface.snapshot.cursor
  let row := saturatingAddI32 surface.origin.row cursor.row
  let col := saturatingAddI32 surface.origin.col cursor.col
  let inBounds := 0 ≤ row && 0 ≤ col && row < geometry.rows.toNat && col < geometry.cols.toNat
  ⟨clampU16 row.toNat, clampU16 col.toNat, cursor.visible && inBounds, cursor.shape⟩

namespace PresentedScene

def withRows (geometry : TerminalGeometry) (rows : List Row) : PresentedScene where
  geometry := geometry
  rows := rows
  cursor := { Cursor.default with visible := false }
  cursorOwner := .hidden
  screen := .primary
  modes := .default
  title := none
  workingDirectory := none
  bellCount := 0

def blank (geometry : TerminalGeometry) : PresentedScene := withRows geometry (blankRows geometry)

def ownedBy (presented : PresentedScene) (surface : Option SceneSurface) : PresentedScene :=
  match surface with
  | some surface =>
    { presented with
      screen := surface.snapshot.screen
      modes := surface.snapshot.modes
      cursor := sceneCursor presented.geometry surface }
  | none => presented

def around (scene : Scene) (rows : List Row) : PresentedScene :=
  { (withRows scene.geometry rows).ownedBy scene.cursorSurface with
    cursorOwner := scene.cursorOwner
    title := scene.effects.title
    workingDirectory := scene.effects.workingDirectory
    bellCount := scene.effects.bellCount }

def compose (scene : Scene) : Option PresentedScene := scene.composeRows.map (around scene)

end PresentedScene

end Lector.Presentation
