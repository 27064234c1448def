import Lector.Presentation.Compose
import Lector.Terminal.Update

/-! Where a scene may have changed (`SceneDamage` in `src/presentation.rs`). -/
namespace Lector.Presentation
open Output Terminal
open List hiding max min

/-! ## Regions -/

structure GridRect where
  origin : GridPoint
  rows : Nat
  cols : Nat
deriving DecidableEq

def clipGridRect (rect : GridRect) (geometry : TerminalGeometry) : Option GridRect :=
  let height : Int := geometry.rows.toNat
  let width : Int := geometry.cols.toNat
  let top := min (max rect.origin.row 0) height
  let left := min (max rect.origin.col 0) width
  let bottom := min (max (saturatingAddI32 rect.origin.row rect.rows) 0) height
  let right := min (max (saturatingAddI32 rect.origin.col rect.cols) 0) width
  if top < bottom ∧ left < right then
    some ⟨⟨top, left⟩, (bottom - top).toNat, (right - left).toNat⟩
  else none

inductive SceneOperation
  | scrollUp (region : GridRect) (count : Nat)
  | scrollDown (region : GridRect) (count : Nat)
  | insertLines (region : GridRect) (count : Nat)
  | deleteLines (region : GridRect) (count : Nat)
  | insertChars (region : GridRect) (count : Nat)
  | deleteChars (region : GridRect) (count : Nat)
  | eraseChars (region : GridRect)
  | writeRun (origin : GridPoint) (text : String)
deriving DecidableEq

inductive SceneDamage
  | none
  | full
  | cursor
  | resize (previous next : TerminalGeometry)
  | surfaces (ids : List SurfaceId)
  | regions (regions : List GridRect)
  | operations (owner : SurfaceId) (regions : List GridRect) (operations : List SceneOperation)
  | effects
deriving DecidableEq

namespace SceneDamage

def diffRegions : SceneDamage → List GridRect
  | .regions rects | .operations _ rects _ => rects
  | _ => []

end SceneDamage

/-! ## Points of a region -/

namespace GridRect

def Contains (rect : GridRect) (p : Nat × Nat) : Prop :=
  (rect.origin.row ≤ p.1 ∧ p.1 < rect.origin.row + rect.rows) ∧
    rect.origin.col ≤ p.2 ∧ p.2 < rect.origin.col + rect.cols

def Within (rect : GridRect) (geometry : TerminalGeometry) : Prop :=
  (0 ≤ rect.origin.row ∧ rect.origin.row + rect.rows ≤ geometry.rows.toNat) ∧
    0 ≤ rect.origin.col ∧ rect.origin.col + rect.cols ≤ geometry.cols.toNat

end GridRect

variable {rect clipped : GridRect} {geometry : TerminalGeometry}

theorem clipGridRect_within (h : clipGridRect rect geometry = some clipped) : clipped.Within geometry := by
  rw [clipGridRect, Option.ite_none_right_eq_some] at h
  obtain ⟨-, h⟩ := h
  cases h
  simp only [GridRect.Within]
  omega

variable {p : Nat × Nat}

/-- **Clipping takes no point of the grid away.** -/
theorem clipGridRect_contains (inside : Inside geometry p) (contains : rect.Contains p) :
    ∃ clipped, clipGridRect rect geometry = some clipped ∧ clipped.Contains p := by
  obtain ⟨hrow, hcol⟩ := inside
  obtain ⟨⟨htop, hbottom⟩, hleft, hright⟩ := contains
  have hrows := toNat_le geometry.rows
  have hcols := toNat_le geometry.cols
  obtain ⟨hbottom', hright'⟩ : p.1 < saturatingAddI32 rect.origin.row rect.rows ∧
      p.2 < saturatingAddI32 rect.origin.col rect.cols := by
    simp only [saturatingAddI32, i32Max]
    omega
  rw [clipGridRect]
  rw [if_pos (by omega)]
  refine ⟨_, rfl, ?_⟩
  simp only [GridRect.Contains]
  omega

end Lector.Presentation
