import Lector.Foundations.Fallible
import Lector.Presentation.Images
import Lector.Presentation.PaintersOrder

/-! What of an image shows: the parts of a placement tile the cells that no higher overlay covers, and each
part shows pixels of the placement. -/
namespace Lector.Presentation
open Output Terminal Tiling SceneImagePlacement Set
open List hiding max min

/-! ## One direction -/

/-- All coordinates of the span are coordinates that a scene can have. -/
def OnScene (start : Int) (size : Nat) : Prop := 0 ≤ start ∧ start + size < 2 ^ 16

section Span

variable {a b : Int} {m n : Nat}

theorem saturated_meet (h : OnScene a m ∨ OnScene b n)
    (hmeet : max a b < min (saturatingAddI32 a m) (saturatingAddI32 b n)) :
    max a b + (clampU16 (min (saturatingAddI32 a m) (saturatingAddI32 b n) - max a b).toNat : Nat) =
      min (a + m) (b + n) := by
  have hsame : min (saturatingAddI32 a m) (saturatingAddI32 b n) = min (a + m) (b + n) := by
    simp only [OnScene] at h
    simp only [saturatingAddI32, i32Max] at hmeet ⊢
    omega
  have hsize : min (a + m) (b + n) - max a b < 2 ^ 16 := by
    simp only [OnScene] at h
    omega
  rw [clampU16]
  omega

theorem saturated_apart (h : OnScene a m ∨ OnScene b n)
    (hapart : ¬ max a b < min (saturatingAddI32 a m) (saturatingAddI32 b n)) :
    min (a + m) (b + n) ≤ max a b := by
  simp only [OnScene] at h
  simp only [saturatingAddI32, i32Max] at hapart
  omega

end Span

/-! ## Rectangles as sets of cells -/

namespace GridRect

def cells (rect : GridRect) : Set (Int × Int) :=
  {cell | rect.origin.row ≤ cell.1 ∧ cell.1 < rect.origin.row + rect.rows ∧
    rect.origin.col ≤ cell.2 ∧ cell.2 < rect.origin.col + rect.cols}

structure Bounded (rect : GridRect) : Prop where
  rows : OnScene rect.origin.row rect.rows
  cols : OnScene rect.origin.col rect.cols

theorem cells_eq_empty {rect : GridRect} (h : rect.rows = 0 ∨ rect.cols = 0) : rect.cells = ∅ := by
  ext cell
  simp only [cells, mem_ofPred_eq, mem_empty_iff_false, iff_false]
  omega

end GridRect

theorem mem_cells {rect : GridRect} {cell : Int × Int} : cell ∈ rect.cells ↔
    rect.origin.row ≤ cell.1 ∧ cell.1 < rect.origin.row + rect.rows ∧
      rect.origin.col ≤ cell.2 ∧ cell.2 < rect.origin.col + rect.cols := Iff.rfl

theorem Scene.bounds_bounded (scene : Scene) : scene.bounds.Bounded where
  rows := ⟨Int.le_refl _, by
    have hrows := scene.geometry.rows.toNat_lt
    simp only [Scene.bounds]
    omega⟩
  cols := ⟨Int.le_refl _, by
    have hcols := scene.geometry.cols.toNat_lt
    simp only [Scene.bounds]
    omega⟩

section Intersect

variable {left right r : GridRect}

structure Intersects (left right r : GridRect) : Prop where
  row : r.origin.row = max left.origin.row right.origin.row
  col : r.origin.col = max left.origin.col right.origin.col
  bottom : r.origin.row + r.rows = min (left.origin.row + left.rows) (right.origin.row + right.rows)
  right : r.origin.col + r.cols = min (left.origin.col + left.cols) (right.origin.col + right.cols)
  rows : 0 < r.rows
  cols : 0 < r.cols

theorem intersectRect_eq_some (h : left.Bounded ∨ right.Bounded) (hr : intersectRect left right = some r) :
    Intersects left right r := by
  simp only [intersectRect, Option.ite_none_right_eq_some, Option.some.injEq] at hr
  obtain ⟨⟨hrow, hcol⟩, rfl⟩ := hr
  have hbottom := saturated_meet (h.imp (·.rows) (·.rows)) hrow
  have hright := saturated_meet (h.imp (·.cols) (·.cols)) hcol
  have hrows := Int.sub_pos.mpr hrow
  have hcols := Int.sub_pos.mpr hcol
  exact ⟨rfl, rfl, hbottom, hright, Nat.lt_min.mpr ⟨Int.pos_iff_toNat_pos.mp hrows, by decide⟩,
    Nat.lt_min.mpr ⟨Int.pos_iff_toNat_pos.mp hcols, by decide⟩⟩

theorem intersectRect_eq_none (h : left.Bounded ∨ right.Bounded) (hr : intersectRect left right = none) :
    Disjoint left.cells right.cells := by
  simp only [intersectRect, ite_eq_right_iff, reduceCtorEq, imp_false, not_and_or] at hr
  rw [Set.disjoint_left]
  intro cell hleft hright
  rw [mem_cells] at hleft hright
  obtain hrow | hcol := hr
  · have hapart := saturated_apart (h.imp (·.rows) (·.rows)) hrow
    omega
  · have hapart := saturated_apart (h.imp (·.cols) (·.cols)) hcol
    omega

theorem Intersects.cells_eq (h : Intersects left right r) : r.cells = left.cells ∩ right.cells := by
  obtain ⟨hrow, hcol, hbottom, hright, -, -⟩ := h
  ext cell
  rw [mem_inter_iff, mem_cells, mem_cells, mem_cells]
  omega

theorem Intersects.bounded_left (h : Intersects left right r) (hleft : left.Bounded) : r.Bounded := by
  obtain ⟨hrow, hcol, hbottom, hright, -, -⟩ := h
  obtain ⟨⟨hrow0, hrow1⟩, hcol0, hcol1⟩ := hleft
  exact ⟨⟨by omega, by omega⟩, by omega, by omega⟩

theorem Intersects.bounded_right (h : Intersects left right r) (hright : right.Bounded) : r.Bounded := by
  obtain ⟨hrow, hcol, hbottom, hedge, -, -⟩ := h
  obtain ⟨⟨hrow0, hrow1⟩, hcol0, hcol1⟩ := hright
  exact ⟨⟨by omega, by omega⟩, by omega, by omega⟩

theorem intersectRect_of_subset (hleft : left.Bounded) (hrows : 0 < right.rows) (hcols : 0 < right.cols)
    (hrow : left.origin.row ≤ right.origin.row ∧ right.origin.row + right.rows ≤ left.origin.row + left.rows)
    (hcol : left.origin.col ≤ right.origin.col ∧ right.origin.col + right.cols ≤ left.origin.col + left.cols) :
    intersectRect left right = some right := by
  cases hr : intersectRect left right with
  | none =>
    have hapart := disjoint_left.mp (intersectRect_eq_none (.inl hleft) hr)
    have hcorner : (right.origin.row, right.origin.col) ∈ right.cells := ⟨by omega, by omega, by omega, by omega⟩
    exact absurd hcorner (hapart ⟨by omega, by omega, by omega, by omega⟩)
  | some r =>
    obtain ⟨hrow', hcol', hbottom, hright, -, -⟩ := intersectRect_eq_some (.inl hleft) hr
    obtain ⟨⟨row, col⟩, rows, cols⟩ := r
    obtain ⟨⟨row', col'⟩, rows', cols'⟩ := right
    simp only at *
    congr 2
    · congr 1
      · omega
      · omega
    · omega
    · omega

end Intersect

/-! ## Pixels of the source -/

section Proportion

variable {width whole before kept : Nat}

theorem saturatingMulU32_div_le (a b c : Nat) : saturatingMulU32 a b / c ≤ a * b / c :=
  Nat.div_le_div_right (min_le_left _ _)

theorem proportion_le (hkept : 0 < kept) (hfits : before + kept ≤ whole) :
    saturatingMulU32 width before / whole + atLeastOne width (saturatingMulU32 width kept / whole) ≤ width := by
  have hwhole : 0 < whole := by omega
  have hbefore := saturatingMulU32_div_le width before whole
  have hpart := saturatingMulU32_div_le width kept whole
  have hsum : width * before / whole + width * kept / whole ≤ width := by
    calc width * before / whole + width * kept / whole
        ≤ (width * before + width * kept) / whole := Nat.div_add_div_le_add_div
      _ = width * (before + kept) / whole := by rw [mul_add]
      _ ≤ width * whole / whole := Nat.div_le_div_right (Nat.mul_le_mul_left _ hfits)
      _ = width := Nat.mul_div_cancel _ hwhole
  by_cases hwidth : 0 < width
  · have hleft : width * before / whole < width :=
      (Nat.div_lt_iff_lt_mul hwhole).mpr (mul_lt_mul_of_pos_left (by omega) hwidth)
    rw [atLeastOne, if_pos hwidth]
    omega
  · obtain rfl : width = 0 := Nat.eq_zero_of_not_pos hwidth
    simp [atLeastOne, saturatingMulU32]

theorem size_of_part {size pixels : Nat} (h : width = if size = 0 then pixels else size) :
    (if atLeastOne width kept = 0 then pixels else atLeastOne width kept) = atLeastOne width kept := by
  rw [atLeastOne]
  split <;> split at h <;> split <;> omega

end Proportion

namespace PresentedImage

variable (image : PresentedImage)

/-- The pixels that a placement shows: without a size of its own, those of the whole image. -/
def shownWidth : Nat := if image.sourceWidth = 0 then image.pixelWidth else image.sourceWidth

def shownHeight : Nat := if image.sourceHeight = 0 then image.pixelHeight else image.sourceHeight

end PresentedImage

/-- The source rectangle of `part` lies in that of `image`, and its size stands for itself. -/
structure SourceWithin (image part : PresentedImage) : Prop where
  left : image.sourceX ≤ part.sourceX
  right : part.sourceX + part.sourceWidth ≤ image.sourceX + image.shownWidth
  width : part.shownWidth = part.sourceWidth
  top : image.sourceY ≤ part.sourceY
  bottom : part.sourceY + part.sourceHeight ≤ image.sourceY + image.shownHeight
  height : part.shownHeight = part.sourceHeight

theorem SourceWithin.trans {a b c : PresentedImage} (hab : SourceWithin a b) (hbc : SourceWithin b c) :
    SourceWithin a c where
  left := hab.left.trans hbc.left
  right := hbc.right.trans (hab.width ▸ hab.right)
  width := hbc.width
  top := hab.top.trans hbc.top
  bottom := hbc.bottom.trans (hab.height ▸ hab.bottom)
  height := hbc.height

structure SourceInRange (image : PresentedImage) : Prop where
  left : image.sourceX < 2 ^ 32
  top : image.sourceY < 2 ^ 32

/-! ## Clipping -/

theorem cellsBetween_le {first second : Int} (h : first ≤ second) :
    ((max (saturatingSubI32 second first) 0).toNat : Int) ≤ second - first := by
  simp only [saturatingSubI32]
  omega

structure CutFrom (image part : PresentedImage) : Prop where
  source : SourceWithin image part
  range : SourceInRange part
  visible : part.visible = image.visible

theorem clipImagePlacement_eq_some {image part : PresentedImage} {clip : GridRect}
    (h : image.gridRect.Bounded ∨ clip.Bounded) (range : SourceInRange image)
    (hclip : clipImagePlacement image clip = some part) :
    intersectRect image.gridRect clip = some part.gridRect ∧ CutFrom image part := by
  obtain ⟨r, hr, hpart⟩ := Option.bind_eq_some_iff.mp hclip
  cases hpart
  obtain ⟨hrow, hcol, hbottom, hright, hrows, hcols⟩ := intersectRect_eq_some h hr
  have hleftCells := @cellsBetween_le image.gridRect.origin.col r.origin.col (by omega)
  have htopCells := @cellsBetween_le image.gridRect.origin.row r.origin.row (by omega)
  obtain ⟨hleftRange, htopRange⟩ := range
  generalize (max (saturatingSubI32 r.origin.col image.gridRect.origin.col) 0).toNat = left at hleftCells
  generalize (max (saturatingSubI32 r.origin.row image.gridRect.origin.row) 0).toNat = top at htopCells
  have hacross := @proportion_le image.shownWidth (max image.gridRect.cols 1) left r.cols hcols (by omega)
  have hdown := @proportion_le image.shownHeight (max image.gridRect.rows 1) top r.rows hrows (by omega)
  have hadd : ∀ a b : Nat, saturatingAdd 32 a b ≤ a + b := fun _ _ => min_le_left _ _
  refine ⟨hr, ⟨?_, ?_, ?_, ?_, ?_, ?_⟩, ⟨?_, ?_⟩, rfl⟩
  · exact Nat.le_min.mpr ⟨Nat.le_add_right _ _, by omega⟩
  · exact (Nat.add_le_add_right (hadd _ _) _).trans (by rw [add_assoc]; exact Nat.add_le_add_left hacross _)
  · exact size_of_part rfl
  · exact Nat.le_min.mpr ⟨Nat.le_add_right _ _, by omega⟩
  · exact (Nat.add_le_add_right (hadd _ _) _).trans (by rw [add_assoc]; exact Nat.add_le_add_left hdown _)
  · exact size_of_part rfl
  · exact lt_of_le_of_lt (min_le_right _ _) (by decide)
  · exact lt_of_le_of_lt (min_le_right _ _) (by decide)

/-! ## Cutting an occluder out -/

/-- What lies above, below, left and right of `r` in `rect`. -/
def around (rect r : GridRect) : List GridRect :=
  [⟨rect.origin, (r.origin.row - rect.origin.row).toNat, rect.cols⟩,
    ⟨⟨r.origin.row + r.rows, rect.origin.col⟩,
      (rect.origin.row + rect.rows - (r.origin.row + r.rows)).toNat, rect.cols⟩,
    ⟨⟨r.origin.row, rect.origin.col⟩, r.rows, (r.origin.col - rect.origin.col).toNat⟩,
    ⟨⟨r.origin.row, r.origin.col + r.cols⟩, r.rows,
      (rect.origin.col + rect.cols - (r.origin.col + r.cols)).toNat⟩]

structure RectInside (rect r : GridRect) : Prop where
  top : rect.origin.row ≤ r.origin.row
  bottom : r.origin.row + r.rows ≤ rect.origin.row + rect.rows
  left : rect.origin.col ≤ r.origin.col
  right : r.origin.col + r.cols ≤ rect.origin.col + rect.cols

theorem Intersects.inside {rect occluder r : GridRect} (h : Intersects rect occluder r) : RectInside rect r := by
  obtain ⟨hrow, hcol, hbottom, hright, -, -⟩ := h
  constructor <;> omega

theorem around_inside {rect r part : GridRect} (h : RectInside rect r) (hpart : part ∈ around rect r) :
    RectInside rect part := by
  obtain ⟨htop, hbottom, hleft, hright⟩ := h
  simp only [around, mem_cons, not_mem_nil, or_false] at hpart
  obtain rfl | rfl | rfl | rfl := hpart <;> constructor <;> simp only <;> omega

theorem around_tiles {rect r : GridRect} (h : RectInside rect r) :
    Tiles (rect.cells \ r.cells) ((around rect r).map GridRect.cells) where
  disjoint := by
    simp only [around, map_cons, map_nil, pairwise_cons, mem_cons, not_mem_nil, forall_eq_or_imp,
      IsEmpty.forall_iff, implies_true, Pairwise.nil, and_true, Set.disjoint_left, mem_cells]
    refine ⟨⟨fun _ => ?_, fun _ => ?_, fun _ => ?_⟩, ⟨fun _ => ?_, fun _ => ?_⟩, fun _ => ?_⟩ <;> omega
  covers cell := by
    simp only [around, map_cons, map_nil, mem_cons, not_mem_nil, or_false,
      exists_eq_or_imp, exists_eq_left, mem_sdiff, mem_cells]
    obtain ⟨htop, hbottom, hleft, hright⟩ := h
    omega

structure PartOf (image part : PresentedImage) : Prop where
  bounded : part.gridRect.Bounded
  source : SourceWithin image part
  range : SourceInRange part

section Subtract

variable {image part : PresentedImage} {occluder r : GridRect}

theorem saturatingAddI32_eq {start : Int} {size : Nat} (h : OnScene start size) :
    saturatingAddI32 start size = start + size := by
  obtain ⟨hstart, hstop⟩ := h
  simp only [saturatingAddI32, i32Max]
  omega

theorem tryU16_eq {n : Int} (hlow : 0 ≤ n) (hhigh : n < 2 ^ 16) : tryU16 n = n.toNat :=
  if_pos ⟨hlow, hhigh⟩

theorem subtractImagePlacement_eq (hbounded : part.gridRect.Bounded)
    (hr : intersectRect part.gridRect occluder = some r) : subtractImagePlacement part occluder =
      ((around part.gridRect r).filter fun rect => 0 < rect.rows && 0 < rect.cols).filterMap
        (clipImagePlacement part) := by
  have hmeets := intersectRect_eq_some (.inl hbounded) hr
  have hinside := hmeets.inside
  have hrBounded := hmeets.bounded_left hbounded
  have hpartRows := hbounded.rows
  have hpartCols := hbounded.cols
  rw [OnScene] at hpartRows hpartCols
  obtain ⟨htop, hbottom, hleft, hright⟩ := hinside
  simp only [subtractImagePlacement, hr, saturatingAddI32_eq hbounded.rows, saturatingAddI32_eq hbounded.cols,
    saturatingAddI32_eq hrBounded.rows, saturatingAddI32_eq hrBounded.cols]
  rw [tryU16_eq (by omega) (by omega), tryU16_eq (by omega) (by omega), tryU16_eq (by omega) (by omega),
    tryU16_eq (by omega) (by omega)]
  rfl

theorem clip_candidate (hpart : PartOf image part) {rect : GridRect} (hinside : RectInside part.gridRect rect)
    (hrows : 0 < rect.rows) (hcols : 0 < rect.cols) :
    ∃ cut, clipImagePlacement part rect = some cut ∧ cut.gridRect = rect ∧ PartOf image cut := by
  have hrect :=
    intersectRect_of_subset hpart.bounded hrows hcols ⟨hinside.top, hinside.bottom⟩ ⟨hinside.left, hinside.right⟩
  have hcut : ∃ cut, clipImagePlacement part rect = some cut := by
    rw [clipImagePlacement, hrect]
    exact ⟨_, rfl⟩
  obtain ⟨cut, hcut⟩ := hcut
  obtain ⟨hsame, hfrom⟩ := clipImagePlacement_eq_some (.inl hpart.bounded) hpart.range hcut
  rw [hrect, Option.some.injEq] at hsame
  refine ⟨cut, hcut, hsame.symm, ?_, hpart.source.trans hfrom.source, hfrom.range⟩
  rw [← hsame]
  exact (intersectRect_eq_some (.inl hpart.bounded) hrect).bounded_left hpart.bounded

/-- **One occluder** is cut out of a part: what is left tiles what it does not cover. -/
theorem subtractImagePlacement_tiles (hpart : PartOf image part) (occluder : GridRect) :
    Tiles (part.gridRect.cells \ occluder.cells)
        ((subtractImagePlacement part occluder).map (·.gridRect.cells)) ∧
      ∀ cut ∈ subtractImagePlacement part occluder, PartOf image cut := by
  cases hr : intersectRect part.gridRect occluder with
  | none =>
    have hapart := intersectRect_eq_none (.inl hpart.bounded) hr
    have hsame : subtractImagePlacement part occluder = [part] := by
      rw [subtractImagePlacement, hr]
    rw [hsame, hapart.sdiff_eq_left]
    exact ⟨Tiles.single _, fun cut hcut => mem_singleton.mp hcut ▸ hpart⟩
  | some r =>
    have hmeets := intersectRect_eq_some (.inl hpart.bounded) hr
    have hcells : part.gridRect.cells \ occluder.cells = part.gridRect.cells \ r.cells := by
      rw [hmeets.cells_eq, sdiff_self_inter]
    have hempty : ∀ rect ∈ around part.gridRect r, (decide (0 < rect.rows) && decide (0 < rect.cols)) = false →
        rect.cells = ∅ := fun rect _ hempty => GridRect.cells_eq_empty (by
      rw [Bool.and_eq_false_iff, decide_eq_false_iff_not, decide_eq_false_iff_not] at hempty
      omega)
    have htiles := (around_tiles hmeets.inside).dropEmpty hempty
    have hcuts : ∀ rect ∈ (around part.gridRect r).filter fun rect => 0 < rect.rows && 0 < rect.cols,
        ∃ cut, clipImagePlacement part rect = some cut ∧ cut.gridRect = rect ∧ PartOf image cut := by
      intro rect hrect
      obtain ⟨hmem, hsize⟩ := mem_filter.mp hrect
      rw [Bool.and_eq_true, decide_eq_true_eq, decide_eq_true_eq] at hsize
      exact clip_candidate hpart (around_inside hmeets.inside hmem) hsize.1 hsize.2
    obtain ⟨hrects, hparts⟩ := Fallible.filterMap_some hcuts
    rw [subtractImagePlacement_eq hpart.bounded hr, hcells]
    refine ⟨?_, hparts⟩
    rw [← hrects, map_map] at htiles
    exact htiles

end Subtract

/-! ## All occluders -/

namespace Scene

variable (scene : Scene)

/-- The cells of a placement that show: those of the scene that no overlay above its owner covers. -/
def shownCells (placement : SceneImagePlacement) : Set (Int × Int) :=
  (placement.image.gridRect.cells ∩ scene.bounds.cells) \
    {cell | ∃ rect ∈ scene.occluders placement.owner, cell ∈ rect.cells}

/-- **The parts of a visible placement** tile the cells of it that show, and each shows pixels of the
placement. -/
theorem placementFragments_tile {placement : SceneImagePlacement} (range : SourceInRange placement.image)
    (visible : placement.image.visible = true) :
    Tiles (scene.shownCells placement) ((scene.placementFragments placement).map (·.gridRect.cells)) ∧
      ∀ part ∈ scene.placementFragments placement, SourceWithin placement.image part := by
  rw [placementFragments]
  cases hclip : clipImagePlacement placement.image scene.bounds with
  | none =>
    have hnone : intersectRect placement.image.gridRect scene.bounds = none := by
      cases hr : intersectRect placement.image.gridRect scene.bounds with
      | none => rfl
      | some r =>
        rw [clipImagePlacement, hr] at hclip
        cases hclip
    have hapart := intersectRect_eq_none (.inr scene.bounds_bounded) hnone
    have hempty : scene.shownCells placement = ∅ := by
      rw [shownCells, hapart.inter_eq, empty_sdiff]
    rw [hempty]
    exact ⟨⟨Pairwise.nil, fun _ => by simp⟩, fun _ h => nomatch h⟩
  | some image =>
    obtain ⟨hr, hcut⟩ := clipImagePlacement_eq_some (.inr scene.bounds_bounded) range hclip
    have hmeets := intersectRect_eq_some (.inr scene.bounds_bounded) hr
    have hpart : PartOf placement.image image :=
      ⟨hmeets.bounded_right scene.bounds_bounded, hcut.source, hcut.range⟩
    simp only [hcut.visible, visible]
    have hwhole : Tiles (placement.image.gridRect.cells ∩ scene.bounds.cells) ([image].map (·.gridRect.cells)) := by
      rw [← hmeets.cells_eq]
      exact Tiles.single _
    obtain ⟨htiles, hparts⟩ := Tiles.cutAway
      (fun part occluder hgood => (subtractImagePlacement_tiles hgood occluder).2)
      (fun part occluder hgood => (subtractImagePlacement_tiles hgood occluder).1)
      (scene.occluders placement.owner) hwhole fun part hmem => mem_singleton.mp hmem ▸ hpart
    exact ⟨htiles, fun part hmem => (hparts part hmem).source⟩

theorem placementFragments_invisible {placement : SceneImagePlacement}
    (invisible : placement.image.visible = false) : scene.placementFragments placement = [] := by
  rw [placementFragments]
  cases hclip : clipImagePlacement placement.image scene.bounds with
  | none => rfl
  | some image =>
    obtain ⟨r, -, himage⟩ := Option.bind_eq_some_iff.mp hclip
    cases himage
    simp [invisible]

end Scene

/-! ## The records -/

structure ShownPart where
  owner : SurfaceId
  sourceImageId : UInt32
  gridRect : GridRect
  sourceX : Nat
  sourceY : Nat
  sourceWidth : Nat
  sourceHeight : Nat

def PresentedImage.shownPart (owner : SurfaceId) (sourceImageId : UInt32) (image : PresentedImage) : ShownPart where
  owner
  sourceImageId
  gridRect := image.gridRect
  sourceX := image.sourceX
  sourceY := image.sourceY
  sourceWidth := image.sourceWidth
  sourceHeight := image.sourceHeight

def ComposedImage.shownPart (record : ComposedImage) : ShownPart :=
  record.image.shownPart record.owner record.sourceImageId

def SceneImagePlacement.shownParts (scene : Scene) (placement : SceneImagePlacement) : List ShownPart :=
  (scene.placementFragments placement).map (·.shownPart placement.owner placement.image.imageId)

namespace Scene

variable {scene : Scene} {media : SceneMedia}

theorem finishFragment_shownPart (upload : Option SceneImageUpload) (part : PresentedImage) (id : UInt32)
    (owner : SurfaceId) (sourceImageId : UInt32) :
    PresentedImage.shownPart owner sourceImageId { scene.finishFragment upload part with imageId := id } =
      part.shownPart owner sourceImageId := by
  cases upload with
  | none => rfl
  | some upload => rfl

theorem seededRecords_shownParts {imageIds : List (ImageKey × UInt32)}
    {records : List (ComposedImage × UInt64)} (h : scene.seededRecords media imageIds = some records) :
    records.map (·.1.shownPart) = media.images.flatMap (shownParts scene) := by
  obtain ⟨groups, hgroups, rfl⟩ := Option.map_eq_some_iff.mp h
  refine Fallible.map_flatten_mapM (fun placement group hgroup => ?_) hgroups
  obtain ⟨imageId, -, hgroup⟩ := Option.bind_eq_some_iff.mp hgroup
  cases hgroup
  rw [map_map]
  exact map_congr_left fun part _ => finishFragment_shownPart _ part imageId _ _

/-- **The records** are the parts of all placements, in another order. -/
theorem composeImageRecords_shownParts {records : List ComposedImage}
    (h : scene.composeImageRecords media = some records) : (records.map ComposedImage.shownPart).Perm
      (media.images.flatMap (shownParts scene)) := by
  obtain ⟨imageIds, -, h⟩ := Option.bind_eq_some_iff.mp h
  obtain ⟨seeded, hseeded, h⟩ := Option.bind_eq_some_iff.mp h
  obtain ⟨allocated, hallocated, h⟩ := Option.bind_eq_some_iff.mp h
  cases h
  obtain ⟨hkeys, -⟩ := Probing.allocateAll_spec hallocated
  have hplaced : (allocated.map fun entry => entry.1.withPlacementId entry.2).map ComposedImage.shownPart =
      media.images.flatMap (shownParts scene) := by
    have hfirst := congrArg (map ComposedImage.shownPart) hkeys
    simp only [map_map] at hfirst ⊢
    exact hfirst.trans (seededRecords_shownParts hseeded)
  exact hplaced ▸ (mergeSort_perm _ _).map _

/-- **Occlusion is exact.** The records of a scene are the parts of its placements. The parts of a visible one
make up just the cells of it that are on the scene and under no higher overlay. -/
theorem occlusion_exact (scene : Scene) (media : SceneMedia)
    (range : ∀ placement ∈ media.images, SourceInRange placement.image) :
    (∀ records, scene.composeImageRecords media = some records → (records.map ComposedImage.shownPart).Perm
        (media.images.flatMap (shownParts scene))) ∧
    ∀ placement ∈ media.images, (placement.image.visible = false → placement.shownParts scene = []) ∧
      (placement.image.visible = true →
        Tiles (scene.shownCells placement) ((placement.shownParts scene).map (·.gridRect.cells)) ∧
        ∀ part ∈ placement.shownParts scene, placement.image.sourceX ≤ part.sourceX ∧
          part.sourceX + part.sourceWidth ≤ placement.image.sourceX + placement.image.shownWidth ∧
          placement.image.sourceY ≤ part.sourceY ∧
          part.sourceY + part.sourceHeight ≤ placement.image.sourceY + placement.image.shownHeight) := by
  refine ⟨fun records h => composeImageRecords_shownParts h, fun placement hmem => ⟨fun invisible => ?_,
    fun visible => ?_⟩⟩
  · rw [shownParts, scene.placementFragments_invisible invisible]
    rfl
  · obtain ⟨htiles, hsource⟩ := scene.placementFragments_tile (range placement hmem) visible
    refine ⟨?_, fun part hpart => ?_⟩
    · rw [shownParts, map_map]
      exact htiles
    · obtain ⟨fragment, hfragment, rfl⟩ := mem_map.mp hpart
      have hwithin := hsource fragment hfragment
      exact ⟨hwithin.left, hwithin.right, hwithin.top, hwithin.bottom⟩

end Scene

/-! ### An overlay in the middle of an image -/

def coveredLine : Scene where
  geometry := ⟨1, 4, 0, 0⟩
  panes := [lineAt ⟨0⟩ 0 (wide "漢" ++ wide "字")]
  overlays := [⟨lineAt ⟨1⟩ 1 [narrow "x", narrow "y"], 0⟩]
  cursorOwner := .hidden
  effects := ⟨none, none, 0⟩

def lineImage (visible : Bool) : SceneImagePlacement where
  owner := ⟨0⟩
  image :=
    { imageId := 1
      placementId := 1
      imageNumber := 0
      pixelWidth := 12
      pixelHeight := 1
      renderedPixelWidth := 0
      renderedPixelHeight := 0
      format := .rgb
      dataLen := 0
      dataDigest := 0
      gridRect := ⟨⟨0, -1⟩, 1, 6⟩
      xOffset := 0
      yOffset := 0
      sourceX := 0
      sourceY := 0
      sourceWidth := 0
      sourceHeight := 0
      zIndex := 0
      virtualPlacement := false
      visible := visible }

/-- Of twelve pixels the two parts show two each. -/
theorem Scene.occlusion_exact_coveredLine :
    Tiles (coveredLine.shownCells (lineImage true)) [GridRect.cells ⟨⟨0, 0⟩, 1, 1⟩, GridRect.cells ⟨⟨0, 3⟩, 1, 1⟩] ∧
      ((lineImage true).shownParts coveredLine).map (fun part => (part.sourceX, part.sourceWidth)) =
        [(2, 2), (8, 2)] := by
  have hrange : ∀ placement ∈ [lineImage true], SourceInRange placement.image := by
    intro placement hmem
    rw [mem_singleton.mp hmem]
    exact ⟨by decide, by decide⟩
  obtain ⟨-, hparts⟩ := Scene.occlusion_exact coveredLine ⟨[], [lineImage true]⟩ hrange
  obtain ⟨htiles, -⟩ := (hparts _ mem_cons_self).2 rfl
  have hrects : ((lineImage true).shownParts coveredLine).map (·.gridRect) =
      [⟨⟨0, 0⟩, 1, 1⟩, ⟨⟨0, 3⟩, 1, 1⟩] := by decide +kernel
  refine ⟨?_, by decide +kernel⟩
  have hcells : ((lineImage true).shownParts coveredLine).map (·.gridRect.cells) =
      [GridRect.cells ⟨⟨0, 0⟩, 1, 1⟩, GridRect.cells ⟨⟨0, 3⟩, 1, 1⟩] := by
    have := congrArg (map GridRect.cells) hrects
    rwa [map_map] at this
  rwa [← hcells]

/-- A placement that is not visible has no parts, although no overlay covers its cell on the scene. -/
theorem Scene.invisible_not_shown :
    (lineImage false).shownParts coveredLine = [] ∧ (0, 0) ∈ coveredLine.shownCells (lineImage false) := by
  refine ⟨by decide +kernel, ⟨⟨by decide, by decide, by decide, by decide⟩, by decide, by decide, by decide,
    by decide⟩, ?_⟩
  have hoccluders : coveredLine.occluders (lineImage false).owner = [⟨⟨0, 1⟩, 1, 2⟩] := by decide +kernel
  rintro ⟨rect, hrect, hcell⟩
  rw [hoccluders] at hrect
  rw [mem_singleton.mp hrect] at hcell
  exact absurd hcell.2.2.1 (by decide)

end Lector.Presentation
