import Lector.Presentation.PaintersOrder
import Lector.Presentation.RowWriter

/-! Double-width glyphs in a composed scene. An edge may cut a glyph of the surface below it, and
`blit_surface` leaves the halves as they are. -/
namespace Lector.Presentation
open Terminal List Option

/-! ## Seams -/

namespace Scene

variable (scene : Scene)

def WellFormedRows : Prop :=
  (∀ surface ∈ scene.panes, ∀ row ∈ surface.snapshot.rows, WellFormed row) ∧
    ∀ overlay ∈ scene.overlays, ∀ row ∈ overlay.surface.snapshot.rows, WellFormed row

/-- No edge that shows, at a side of the scene or between two layers, cuts a glyph. -/
structure Seamless : Prop where
  left : ∀ row shown, Inside scene.geometry (row, 0) → scene.Shows (row, 0) shown →
    (scene.shownCell (row, 0) shown).isWideContinuation = false
  seam : ∀ row col before after, Inside scene.geometry (row, col + 1) →
    scene.Shows (row, col) before → scene.Shows (row, col + 1) after → before ≠ after →
    (scene.shownCell (row, col) before).isWide = (scene.shownCell (row, col + 1) after).isWideContinuation
  right : ∀ row col shown, Inside scene.geometry (row, col) → col + 1 = scene.geometry.cols.toNat →
    scene.Shows (row, col) shown → (scene.shownCell (row, col) shown).isWide = false

def Printable : Prop :=
  ∀ p shown, Inside scene.geometry p → scene.Shows p shown → isWideBlank (scene.shownCell p shown) = false

variable {scene}

theorem WellFormedRows.layer (wellFormed : scene.WellFormedRows) {layer : Layer} {surface : SceneSurface}
    (h : layer.surface scene = some surface) : ∀ row ∈ surface.snapshot.rows, WellFormed row := by
  cases layer with
  | pane i => exact wellFormed.1 surface (mem_of_getElem? h)
  | overlay i =>
    obtain ⟨overlay, hget, rfl⟩ := map_eq_some_iff.mp h
    exact wellFormed.2 overlay (mem_of_getElem? hget)

theorem cellAt_pair {surface : SceneSurface} (wellFormed : ∀ row ∈ surface.snapshot.rows, WellFormed row)
    {row col : Nat} (covers : surface.Covers (row, col)) : ((surface.cellAt (row, col)).getD .default).isWide =
      ((surface.cellAt (row, col + 1)).getD .default).isWideContinuation := by
  obtain ⟨n, hn⟩ : ∃ n : Nat, (col : Int) - surface.origin.col = n :=
    ⟨(col - surface.origin.col).toNat, by have := covers.2.1; simp only at this; omega⟩
  have hnext : ((col + 1 : Nat) : Int) - surface.origin.col = (n + 1 : Nat) := by omega
  simp only [SceneSurface.cellAt, hn, hnext]
  cases hsource : itemAt surface.snapshot.rows (row - surface.origin.row) with
  | none => rfl
  | some source => exact ((wellFormed_iff source).mp (wellFormed source (itemAt_mem hsource))).2 n

theorem shownCell_pair (wellFormed : scene.WellFormedRows) {row col : Nat} {shown : Option Layer}
    (here : scene.Shows (row, col) shown) : (scene.shownCell (row, col) shown).isWide =
      (scene.shownCell (row, col + 1) shown).isWideContinuation := by
  cases shown with
  | none => rfl
  | some layer =>
    obtain ⟨surface, hsurface, hcovers⟩ := here.covers
    simp only [shownCell, bind_some, hsurface]
    exact cellAt_pair (wellFormed.layer hsurface) hcovers

/-! ## The rows of a scene -/

structure Painted (scene : Scene) (rows : List Row) : Prop where
  sized : Sized scene.geometry rows
  cells : ∀ p, Inside scene.geometry p → ∃ shown, scene.Shows p shown ∧
    gridCell rows p = scene.shownCell p shown

namespace Painted

variable {rows : List Row}

theorem gridCell_eq (painted : scene.Painted rows) {p : Nat × Nat} (inside : Inside scene.geometry p)
    {shown : Option Layer} (shows' : scene.Shows p shown) : gridCell rows p = scene.shownCell p shown := by
  obtain ⟨shown', hshows, hcell⟩ := painted.cells p inside
  rw [hcell, shows'.unique hshows]

theorem cellOr_eq {row : Row} {r : Nat} (hrow : rows[r]? = some row) (n : Nat) :
    cellOr row.cells n = gridCell rows (r, n) := by
  rw [gridCell, hrow]
  rfl

section

variable (painted : scene.Painted rows)
include painted

theorem cellOr_outside {row : Row} (mem : row ∈ rows) {n : Nat}
    (out : scene.geometry.cols.toNat ≤ n) : cellOr row.cells n = .default := by
  rw [cellOr, getElem?_eq_none (by rw [painted.sized.2 row mem]; exact out), getD_none]

theorem inside_iff {r n : Nat} :
    Inside scene.geometry (r, n) ↔ r < rows.length ∧ n < scene.geometry.cols.toNat := by
  rw [Inside, painted.sized.1]

/-- **Rows without a cut glyph are well formed.** -/
theorem wellFormed (wellFormed : scene.WellFormedRows)
    (seamless : scene.Seamless) {r : Nat} {row : Row} (hrow : rows[r]? = some row) : WellFormed row := by
  have hmem := mem_of_getElem? hrow
  obtain ⟨hr, -⟩ := List.getElem?_eq_some_iff.mp hrow
  rw [wellFormed_iff]
  refine ⟨?_, fun n => ?_⟩
  · by_cases hempty : 0 < scene.geometry.cols.toNat
    · have hinside : Inside scene.geometry (r, 0) := painted.inside_iff.mpr ⟨hr, hempty⟩
      obtain ⟨shown, hshows, hcell⟩ := painted.cells (r, 0) hinside
      rw [cellOr_eq hrow, hcell]
      exact seamless.left r shown hinside hshows
    · rw [painted.cellOr_outside hmem (by omega), default_isWideContinuation]
  · by_cases hn : n < scene.geometry.cols.toNat
    · have hinside : Inside scene.geometry (r, n) := painted.inside_iff.mpr ⟨hr, hn⟩
      obtain ⟨before, hbefore, hcell⟩ := painted.cells (r, n) hinside
      rw [cellOr_eq hrow, hcell]
      by_cases hnext : n + 1 < scene.geometry.cols.toNat
      · have hinside' := painted.inside_iff.mpr ⟨hr, hnext⟩
        obtain ⟨after, hafter, hcell'⟩ := painted.cells (r, n + 1) hinside'
        rw [cellOr_eq hrow, hcell']
        by_cases hsame : before = after
        · rw [← hsame]
          exact shownCell_pair wellFormed hbefore
        · exact seamless.seam r n before after hinside' hbefore hafter hsame
      · rw [painted.cellOr_outside hmem (by omega)]
        exact seamless.right r n before hinside (by omega) hbefore
    · rw [painted.cellOr_outside hmem (by omega), painted.cellOr_outside hmem (by omega)]
      rfl

/-- **Well-formed rows have no cut glyph.** -/
theorem seamless (wellFormed : ∀ row ∈ rows, WellFormed row) : scene.Seamless := by
  have hrow : ∀ {r n : Nat}, Inside scene.geometry (r, n) → ∃ row, rows[r]? = some row ∧ row ∈ rows := by
    intro r n hinside
    have hr := (painted.inside_iff.mp hinside).1
    exact ⟨rows[r], getElem?_eq_getElem hr, getElem_mem hr⟩
  refine ⟨fun r shown hinside hshows => ?_, fun r n before after hinside hbefore hafter _ => ?_,
    fun r n shown hinside hlast hshows => ?_⟩
  · obtain ⟨row, hget, hmem⟩ := hrow hinside
    rw [← painted.gridCell_eq hinside hshows, ← cellOr_eq hget]
    exact ((wellFormed_iff row).mp (wellFormed row hmem)).1
  · obtain ⟨row, hget, hmem⟩ := hrow hinside
    have hinside' : Inside scene.geometry (r, n) := ⟨hinside.1, Nat.lt_of_succ_lt hinside.2⟩
    rw [← painted.gridCell_eq hinside hafter, ← painted.gridCell_eq hinside' hbefore,
      ← cellOr_eq hget, ← cellOr_eq hget]
    exact ((wellFormed_iff row).mp (wellFormed row hmem)).2 n
  · obtain ⟨row, hget, hmem⟩ := hrow hinside
    rw [← painted.gridCell_eq hinside hshows, ← cellOr_eq hget,
      ((wellFormed_iff row).mp (wellFormed row hmem)).2 n, painted.cellOr_outside hmem hlast.ge,
      default_isWideContinuation]

theorem printable_iff : scene.Printable ↔ ∀ row ∈ rows, ∀ cell ∈ row.cells, isWideBlank cell = false := by
  constructor
  · intro printable row hmem cell hcell
    obtain ⟨r, hrow⟩ := getElem?_of_mem hmem
    obtain ⟨n, hn⟩ := getElem?_of_mem hcell
    obtain ⟨hr, -⟩ := List.getElem?_eq_some_iff.mp hrow
    obtain ⟨hlt, -⟩ := List.getElem?_eq_some_iff.mp hn
    rw [painted.sized.2 row hmem] at hlt
    have hinside : Inside scene.geometry (r, n) := painted.inside_iff.mpr ⟨hr, hlt⟩
    obtain ⟨shown, hshows, heq⟩ := painted.cells (r, n) hinside
    rw [← cellOr_of_some hn, cellOr_eq hrow, heq]
    exact printable (r, n) shown hinside hshows
  · rintro whole ⟨r, n⟩ shown hinside hshows
    obtain ⟨hr, hn⟩ := painted.inside_iff.mp hinside
    have hmem := getElem_mem hr
    rw [← painted.sized.2 _ hmem] at hn
    rw [← painted.gridCell_eq hinside hshows, ← cellOr_eq (getElem?_eq_getElem hr),
      cellOr_of_some (getElem?_eq_getElem hn)]
    exact whole _ hmem _ (getElem_mem hn)

end

end Painted

end Scene

/-! ## Composed scenes -/

namespace PresentedScene

/-- **A composed scene is well formed**, and each of its rows is written on as many columns as the scene
has, if and only if no edge that shows cuts a glyph and every wide cell that shows has a grapheme. -/
theorem compose_wellFormed_iff (scene : Scene) (wellSized : scene.WellSized)
    (wellFormed : scene.WellFormedRows) :
    (∃ presented, compose scene = some presented ∧ ∀ row ∈ presented.rows, WellFormed row ∧
        ∀ rowIndex, (writeRowAt rowIndex row).columns = scene.geometry.cols.toNat) ↔
      scene.Seamless ∧ scene.Printable := by
  obtain ⟨rows, hrows, hsized, hcells⟩ := wellSized.composeRows_spec
  have painted : scene.Painted rows := ⟨hsized, hcells⟩
  have hcompose : compose scene = some (around scene rows) := by
    rw [compose, hrows, map_some]
  constructor
  · rintro ⟨presented, hpresented, hwhole⟩
    obtain rfl := some.inj (hcompose.symm.trans hpresented)
    rw [around_rows] at hwhole
    refine ⟨painted.seamless fun row hmem => (hwhole row hmem).1, ?_⟩
    rw [painted.printable_iff]
    intro row hmem
    obtain ⟨hformed, hcolumns⟩ := hwhole row hmem
    rw [← hsized.2 row hmem] at hcolumns
    exact (writeRowAt_columns hformed 0).mp (hcolumns 0)
  · rintro ⟨seamless, printable⟩
    refine ⟨_, hcompose, ?_⟩
    rw [around_rows]
    intro row hmem
    obtain ⟨r, hrow⟩ := getElem?_of_mem hmem
    have hformed := painted.wellFormed wellFormed seamless hrow
    refine ⟨hformed, fun rowIndex => ?_⟩
    rw [← hsized.2 row hmem]
    exact (writeRowAt_columns hformed rowIndex).mpr (painted.printable_iff.mp printable row hmem)

end PresentedScene

/-! ### A floating pane cuts a glyph -/

theorem wide_wellFormed (a b : String) : WellFormed ⟨wide a ++ wide b, false⟩ := by
  rw [wellFormed_iff]
  refine ⟨rfl, fun n => ?_⟩
  match n with
  | 0 | 1 | 2 | 3 | n + 4 => rfl

theorem narrow_wellFormed (a b : String) : WellFormed ⟨[narrow a, narrow b], false⟩ := by
  rw [wellFormed_iff]
  refine ⟨rfl, fun n => ?_⟩
  match n with
  | 0 | 1 | n + 2 => rfl

theorem floatingScene_wellFormedRows (col : Int) : (floatingScene col).WellFormedRows := by
  refine ⟨fun surface hmem row hrow => ?_, forall_mem_nil _⟩
  rcases mem_pair.mp hmem with rfl | rfl
  · rw [mem_singleton.mp hrow]
    exact wide_wellFormed _ _
  · rw [mem_singleton.mp hrow]
    exact narrow_wellFormed _ _

theorem floatingScene_rows : (PresentedScene.compose (floatingScene 0)).map (·.rows) =
        some [⟨[narrow "x", narrow "y"] ++ wide "字", false⟩] ∧
      (PresentedScene.compose (floatingScene (-1))).map (·.rows) =
        some [⟨narrow "y" :: (wide "漢").tail ++ wide "字", false⟩] := by
  decide +kernel

/-- Half of a pane cuts a glyph: its continuation is left alone, and the line is one column short. -/
theorem compose_cuts_glyph : (floatingScene (-1)).WellSized ∧ (floatingScene (-1)).WellFormedRows ∧
      ∃ presented row, PresentedScene.compose (floatingScene (-1)) = some presented ∧
        row ∈ presented.rows ∧ ¬ WellFormed row ∧
        (writeRowAt 0 row).columns ≠ (floatingScene (-1)).geometry.cols.toNat := by
  obtain ⟨presented, hcompose, hrows⟩ := map_eq_some_iff.mp floatingScene_rows.2
  refine ⟨floatingScene_wellSized _, floatingScene_wellFormedRows _, presented, _, hcompose,
    hrows ▸ mem_singleton_self _, fun hformed => ?_, by decide +kernel⟩
  obtain ⟨m, lead, hm, hlead, hwide⟩ := hformed.preceded 1 _ rfl rfl
  obtain rfl := Nat.succ.inj hm
  cases hlead
  cases hwide

/-- The pane over a whole glyph cuts none. -/
theorem compose_wellFormed_iff_floating : (floatingScene 0).Seamless ∧ (floatingScene 0).Printable := by
  refine (PresentedScene.compose_wellFormed_iff _ (floatingScene_wellSized 0)
    (floatingScene_wellFormedRows 0)).mp ?_
  obtain ⟨presented, hcompose, hrows⟩ := map_eq_some_iff.mp floatingScene_rows.1
  refine ⟨presented, hcompose, fun row hmem => ?_⟩
  rw [hrows, mem_singleton] at hmem
  have hformed : WellFormed row := by
    rw [hmem, wellFormed_iff]
    refine ⟨rfl, fun n => ?_⟩
    match n with
    | 0 | 1 | 2 | 3 | n + 4 => rfl
  refine ⟨hformed, fun rowIndex => ?_⟩
  rw [hmem]
  rfl

end Lector.Presentation
