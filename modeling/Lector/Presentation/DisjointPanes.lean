import Lector.Presentation.CellRanges
import Lector.Presentation.ColumnExact
import Lector.Presentation.WideGlyphs

/-! Scenes of panes side by side, with the rows that an engine produces. -/
namespace Lector.Presentation
open Output Terminal OuterScreen
open Option hiding mem_map min
open List hiding insert min

/-- A wide cell has its continuation; one without is the spacer at the end of a wrapped row. -/
structure EngineRow (row : Row) : Prop where
  followed : Followed row.cells
  spacer : ∀ n, SpacerHead row.cells n → row.wrapped = true ∧ n + 1 = row.cells.length

theorem ne_default_of_isWide {cell : Cell} (h : cell.isWide = true) : cell ≠ .default := by
  rintro rfl
  cases h

theorem ne_default_of_continuation {cell : Cell} (h : cell.isWideContinuation = true) : cell ≠ .default := by
  rintro rfl
  cases h

namespace Scene

/-- Panes inside the scene that do not overlap, and nothing over them. -/
structure DisjointPanes (scene : Scene) : Prop where
  overlays : scene.overlays = []
  wellSized : ∀ pane ∈ scene.panes, pane.WellSized
  inside : ∀ pane ∈ scene.panes, ∀ r n, pane.Covers (r, n) → Inside scene.geometry (r, n)
  topLeft : ∀ pane ∈ scene.panes, 0 ≤ pane.origin.row ∧ 0 ≤ pane.origin.col
  disjoint : scene.panes.Pairwise fun a b => ∀ p, a.Covers p → ¬ b.Covers p
  engine : ∀ pane ∈ scene.panes, ∀ row ∈ pane.snapshot.rows, EngineRow row

/-- The cell `k` of a row of a pane lies at the point of the scene. -/
def SourceAt (scene : Scene) (r n : Nat) (source : Row) (k : Nat) : Prop :=
  ∃ pane ∈ scene.panes, itemAt pane.snapshot.rows (r - pane.origin.row) = some source ∧
    pane.origin.col + k = n ∧ k < source.cells.length

/-- No pane has a spacer at these columns of the line, or a wide cell without a text. -/
def Clean (scene : Scene) (r start stop : Nat) : Prop :=
  ∀ n source k, start ≤ n → n < stop → scene.SourceAt r n source k →
    ¬ SpacerHead source.cells k ∧ isWideBlank (cellOr source.cells k) = false

variable {scene : Scene}

/-! ## Where the cells come from -/

namespace SourceAt

theorem length {r n k : Nat} {source : Row} (h : scene.SourceAt r n source k) : k < source.cells.length := by
  obtain ⟨-, -, -, -, hk⟩ := h
  exact hk

theorem next {r n k : Nat} {source : Row} (h : scene.SourceAt r n source k)
    (hk : k + 1 < source.cells.length) : scene.SourceAt r (n + 1) source (k + 1) := by
  obtain ⟨pane, hmem, hsource, hplace, -⟩ := h
  exact ⟨pane, hmem, hsource, by omega, hk⟩

theorem before {r n k : Nat} {source : Row} (h : scene.SourceAt r (n + 1) source (k + 1)) :
    scene.SourceAt r n source k := by
  obtain ⟨pane, hmem, hsource, hplace, hk⟩ := h
  exact ⟨pane, hmem, hsource, by omega, Nat.lt_of_succ_lt hk⟩

theorem covers {r n k : Nat} {source : Row} (disjoint : scene.DisjointPanes)
    (h : scene.SourceAt r n source k) : ∃ pane ∈ scene.panes, pane.Covers (r, n) ∧
      itemAt pane.snapshot.rows (r - pane.origin.row) = some source ∧ pane.origin.col + k = n ∧
        k < source.cells.length := by
  obtain ⟨pane, hmem, hsource, hplace, hk⟩ := h
  refine ⟨pane, hmem, ?_, hsource, hplace, hk⟩
  refine ((disjoint.wellSized pane hmem).cellAt_isSome (r, n)).mp ?_
  have hcolumn : (n : Int) - pane.origin.col = k := by omega
  rw [SceneSurface.cellAt, hsource, bind_some, hcolumn, itemAt_natCast, getElem?_eq_getElem hk]
  rfl

end SourceAt

namespace DisjointPanes

variable (disjoint : scene.DisjointPanes)
include disjoint

theorem sized : scene.WellSized :=
  ⟨disjoint.wellSized, fun _ hmem => absurd hmem (disjoint.overlays ▸ not_mem_nil)⟩

theorem unique {p : Nat × Nat} {a b : SceneSurface} (ha : a ∈ scene.panes) (hb : b ∈ scene.panes)
    (hcoversA : a.Covers p) (hcoversB : b.Covers p) : a = b := by
  obtain ⟨i, hi⟩ := getElem?_of_mem ha
  obtain ⟨j, hj⟩ := getElem?_of_mem hb
  obtain ⟨hi', hgetA⟩ := List.getElem?_eq_some_iff.mp hi
  obtain ⟨hj', hgetB⟩ := List.getElem?_eq_some_iff.mp hj
  have hpairwise := pairwise_iff_getElem.mp disjoint.disjoint
  rcases lt_trichotomy i j with hlt | rfl | hgt
  · have hapart := hpairwise i j hi' hj' hlt p
    rw [hgetA, hgetB] at hapart
    exact absurd hcoversB (hapart hcoversA)
  · exact hgetA.symm.trans hgetB
  · have hapart := hpairwise j i hj' hi' hgt p
    rw [hgetA, hgetB] at hapart
    exact absurd hcoversA (hapart hcoversB)

variable {r n k k' start stop : Nat} {source source' row : Row}

section

variable (h : scene.SourceAt r n source k)
include h

theorem source_unique (h' : scene.SourceAt r n source' k') : source = source' ∧ k = k' := by
  obtain ⟨pane, hmem, hcovers, hsource, hplace, -⟩ := h.covers disjoint
  obtain ⟨pane', hmem', hcovers', hsource', hplace', -⟩ := h'.covers disjoint
  obtain rfl := disjoint.unique hmem hmem' hcovers hcovers'
  exact ⟨some.inj (hsource.symm.trans hsource'), by omega⟩

theorem source_engine : EngineRow source := by
  obtain ⟨pane, hmem, hsource, -⟩ := h
  exact disjoint.engine pane hmem source (itemAt_mem hsource)

theorem source_inside : Inside scene.geometry (r, n) := by
  obtain ⟨pane, hmem, hcovers, -⟩ := h.covers disjoint
  exact disjoint.inside pane hmem r n hcovers

end

theorem source_positive (h : scene.SourceAt r n source (k + 1)) : ∃ m, n = m + 1 := by
  obtain ⟨pane, hmem, -, hplace, -⟩ := h
  have hcol := (disjoint.topLeft pane hmem).2
  exact ⟨n - 1, by omega⟩

variable {rows : List Row} (painted : scene.Painted rows)
include painted

section

variable (hrow : rows[r]? = some row)
include hrow

/-- **A cell of the composed line** is that of the pane that covers its column. -/
theorem cell_source (h : scene.SourceAt r n source k) : cellOr row.cells n = cellOr source.cells k := by
  obtain ⟨pane, hmem, hcovers, hsource, hplace, -⟩ := h.covers disjoint
  obtain ⟨shown, hshows, hcell⟩ := painted.cells (r, n) (disjoint.inside pane hmem r n hcovers)
  rw [Painted.cellOr_eq hrow, hcell]
  obtain ⟨i, hi⟩ := getElem?_of_mem hmem
  have hcolumn : (n : Int) - pane.origin.col = k := by omega
  have hcellAt : pane.cellAt (r, n) = source.cells[k]? := by
    rw [SceneSurface.cellAt, hsource, bind_some, hcolumn, itemAt_natCast]
  cases shown with
  | none => exact absurd ⟨pane, hi, hcovers⟩ (hshows (.pane i))
  | some layer =>
    obtain ⟨surface, hsurface, hcovers'⟩ := hshows.covers
    have hpane : surface ∈ scene.panes := by
      cases layer with
      | pane j => exact mem_of_getElem? hsurface
      | overlay j =>
        rw [Layer.surface, disjoint.overlays] at hsurface
        cases hsurface
    obtain rfl := disjoint.unique hmem hpane hcovers hcovers'
    rw [shownCell, bind_some, hsurface, bind_some, hcellAt]
    rfl

theorem source_or_default : (∃ source k, scene.SourceAt r n source k) ∨ cellOr row.cells n = .default := by
  by_cases hn : n < scene.geometry.cols.toNat
  · obtain ⟨hr, -⟩ := List.getElem?_eq_some_iff.mp hrow
    obtain ⟨shown, hshows, hcell⟩ := painted.cells (r, n) (painted.inside_iff.mpr ⟨hr, hn⟩)
    cases shown with
    | none =>
      right
      rw [Painted.cellOr_eq hrow, hcell]
      rfl
    | some layer =>
      left
      obtain ⟨surface, hsurface, hcovers⟩ := hshows.covers
      have hpane : surface ∈ scene.panes := by
        cases layer with
        | pane j => exact mem_of_getElem? hsurface
        | overlay j =>
          rw [Layer.surface, disjoint.overlays] at hsurface
          cases hsurface
      have hsome := ((disjoint.wellSized surface hpane).cellAt_isSome (r, n)).mpr hcovers
      rw [SceneSurface.cellAt, isSome_bind, Option.any_eq_true] at hsome
      obtain ⟨source, hsource, hcellSome⟩ := hsome
      obtain ⟨hzero, hlt⟩ := (itemAt_isSome _ _).mp hcellSome
      exact ⟨source, (n - surface.origin.col).toNat, surface, hpane, hsource, by omega, by omega⟩
  · right
    exact painted.cellOr_outside (mem_of_getElem? hrow) (Nat.le_of_not_lt hn)

theorem exists_source (h : cellOr row.cells n ≠ .default) :
    ∃ source k, scene.SourceAt r n source k ∧ cellOr row.cells n = cellOr source.cells k := by
  rcases disjoint.source_or_default painted (n := n) hrow with ⟨source, k, hsource⟩ | hdefault
  · exact ⟨source, k, hsource, disjoint.cell_source painted hrow hsource⟩
  · exact absurd hdefault h

/-! ## The lines of the scene -/

theorem followed : Followed row.cells := by
  intro n cell hget hwide
  have hcell := cellOr_of_some hget
  obtain ⟨source, k, hsource, hsame⟩ := disjoint.exists_source painted (n := n) hrow
    (hcell ▸ ne_default_of_isWide hwide)
  have hlead : source.cells[k]? = some cell := by
    rw [getElem?_eq_cellOr hsource.length, ← hsame, hcell]
  obtain ⟨next, hnext, hcont⟩ := (disjoint.source_engine hsource).followed k cell hlead hwide
  have hsource' := hsource.next (List.getElem?_eq_some_iff.mp hnext).1
  have hinside := (disjoint.source_inside hsource').2
  have hsame' := disjoint.cell_source painted hrow hsource'
  rw [cellOr_of_some hnext] at hsame'
  refine ⟨next, ?_, hcont⟩
  rw [getElem?_eq_cellOr (by rw [painted.sized.2 row (mem_of_getElem? hrow)]; exact hinside), hsame']

/-- **The spacers of a line** are the spacers of the panes in it. -/
theorem spacerHead_iff :
    SpacerHead row.cells n ↔ ∃ source k, scene.SourceAt r n source k ∧ SpacerHead source.cells k := by
  constructor
  · rintro ⟨hcont, hlead⟩
    obtain ⟨source, k, hsource, hsame⟩ := disjoint.exists_source painted (n := n) hrow
      (ne_default_of_continuation hcont)
    refine ⟨source, k, hsource, hsame ▸ hcont, ?_⟩
    rintro m rfl
    obtain ⟨before, rfl⟩ := disjoint.source_positive hsource
    rw [← disjoint.cell_source painted hrow (hsource.before)]
    exact hlead before rfl
  · rintro ⟨source, k, hsource, hcont, hlead⟩
    have hsame := disjoint.cell_source painted hrow hsource
    refine ⟨hsame ▸ hcont, ?_⟩
    rintro m rfl
    by_contra hwide
    rw [Bool.not_eq_false] at hwide
    -- the wide cell before it has its own continuation there, in the row it comes from
    obtain ⟨other, j, hother, hsame'⟩ := disjoint.exists_source painted (n := m) hrow
      (ne_default_of_isWide hwide)
    rw [hsame'] at hwide
    obtain ⟨next, hnext, -⟩ := (disjoint.source_engine hother).followed j _
      (getElem?_eq_cellOr hother.length) hwide
    obtain ⟨rfl, rfl⟩ := disjoint.source_unique hsource (hother.next (List.getElem?_eq_some_iff.mp hnext).1)
    rw [hlead j rfl] at hwide
    cases hwide

/-- **The columns of a line are clean** where no spacer and no wide blank is left in it. -/
theorem clean_iff : scene.Clean r start stop ↔ ∀ n, start ≤ n → n < stop →
      ¬ SpacerHead row.cells n ∧ isWideBlank (cellOr row.cells n) = false := by
  constructor
  · intro clean n hle hlt
    refine ⟨fun hspacer => ?_, ?_⟩
    · obtain ⟨source, k, hsource, hspacer'⟩ := (disjoint.spacerHead_iff painted hrow).mp hspacer
      exact (clean n source k hle hlt hsource).1 hspacer'
    · rcases disjoint.source_or_default painted (n := n) hrow with ⟨source, k, hsource⟩ | hdefault
      · rw [disjoint.cell_source painted hrow hsource]
        exact (clean n source k hle hlt hsource).2
      · rw [hdefault]
        rfl
  · intro whole n source k hle hlt hsource
    obtain ⟨hspacer, hblank⟩ := whole n hle hlt
    rw [disjoint.cell_source painted hrow hsource] at hblank
    exact ⟨fun h => hspacer ((disjoint.spacerHead_iff painted hrow).mpr ⟨source, k, hsource, h⟩), hblank⟩

end

end DisjointPanes

end Scene

/-! ## Runs of the cell diff -/

theorem uncut_of_between {row : Row} (followed : Followed row.cells) {n : Nat} (between : Between row n) :
    ∀ m, m + 1 = n → (cellOr row.cells m).isWide = false := by
  rintro m rfl
  by_contra hwide
  rw [Bool.not_eq_false] at hwide
  have hm : m < row.cells.length := by
    by_contra hout
    rw [cellOr_of_length_le (Nat.le_of_not_lt hout)] at hwide
    cases hwide
  obtain ⟨next, hnext, hcont⟩ := followed m _ (getElem?_eq_cellOr hm) hwide
  rw [Between, cellOr_of_some hnext, hcont] at between
  cases between

section Runs

variable {previous intended : Row} (followed : Followed intended.cells)
include followed

theorem expandStart_uncut (start : Nat) : ∀ m, m + 1 = expandStart previous intended start →
    (cellOr intended.cells m).isWide = false := by
  induction start with
  | zero => exact fun m hm => absurd hm (Nat.succ_ne_zero m)
  | succ start ih =>
    rw [expandStart]
    split
    · exact ih
    · rename_i h
      rw [Bool.not_eq_true, Bool.or_eq_false_iff] at h
      exact uncut_of_between followed h.2

/-- **The runs of the cell diff cut no glyph** of a row of an engine. -/
theorem emitted_cutsNone (length : previous.cells.length = intended.cells.length) {start stop : Nat}
    (hstart : start ≤ stop) (hstop : stop ≤ intended.cells.length) {run : Nat × Nat}
    (hmem : run ∈ expandAndMergeCellRanges (changedCellRanges previous intended start stop) previous intended) :
    CutsNone intended.cells run.1 run.2 := by
  obtain ⟨hchanged, -⟩ := changedCellRanges_spec previous intended hstart
  have hmerged := expandAndMerge_merged length hstart hstop
  obtain ⟨a, ha, hfirst⟩ := hmerged.starts run hmem
  obtain ⟨b, hb, hlast⟩ := hmerged.stops run hmem
  obtain ⟨changed, -, rfl⟩ := mem_map.mp ha
  obtain ⟨changed', hmem', rfl⟩ := mem_map.mp hb
  have hend := (hchanged changed' hmem').2.2.trans hstop
  have hcols : min previous.cells.length intended.cells.length = intended.cells.length := by omega
  have hbetween : Between intended (expandRange previous intended changed').2 := by
    rw [expandRange, hcols]
    obtain ⟨-, hbound, hinside⟩ := expandEnd_spec (expandStart previous intended changed'.1) length.ge
      (le_rfl) hend
    rcases lt_or_eq_of_le hbound with hlt | heq
    · exact (hinside hlt).2
    · rw [heq]
      exact between_length intended
  intro m hm
  rw [hfirst, hlast] at hm
  rcases hm with hm | hm
  · exact expandStart_uncut followed changed.1 m hm
  · exact uncut_of_between followed hbetween m hm

end Runs

/-! ## Scenes of disjoint panes -/

/-- **A line of disjoint panes is written on its own columns exactly where it is clean**: no spacer
before a wide glyph that did not fit, and a text in every wide cell. The same holds for each run
that cuts no glyph. -/
theorem PresentedScene.compose_columnExact_iff (scene : Scene) (disjoint : scene.DisjointPanes) :
    ∃ presented, compose scene = some presented ∧ ∀ r row, presented.rows[r]? = some row →
      commandBytes (rowCommands r row) = (writeRowAt r row).bytes ∧
      (∀ s : OuterScreen, s.Ready scene.geometry → (ColumnExact r 0 row.cells (s.prints (rowCommands r row)) ↔
          scene.Clean r 0 scene.geometry.cols.toNat)) ∧
      (∀ previous start stop, previous.cells.length = row.cells.length → start ≤ stop →
        stop ≤ row.cells.length →
        ∀ run ∈ expandAndMergeCellRanges (changedCellRanges previous row start stop) previous row,
          run.1 < run.2 ∧ run.2 ≤ row.cells.length ∧ CutsNone row.cells run.1 run.2) ∧
      ∀ start stop, start < stop → stop ≤ row.cells.length → CutsNone row.cells start stop →
        commandBytes (runCommands r start stop row) = writeIncrementalRun r start stop row ∧
        ∀ s : OuterScreen, s.Ready scene.geometry → (ColumnExact r start ((row.cells.take stop).drop start)
              (s.prints (runCommands r start stop row)) ↔ scene.Clean r start stop) := by
  obtain ⟨rows, hrows, hsized, hcells⟩ := disjoint.sized.composeRows_spec
  have painted : scene.Painted rows := ⟨hsized, hcells⟩
  refine ⟨around scene rows, by rw [compose, hrows, map_some], fun r row hrow => ?_⟩
  rw [around_rows] at hrow
  have length := hsized.2 row (mem_of_getElem? hrow)
  have hr := hsized.1 ▸ (List.getElem?_eq_some_iff.mp hrow).1
  have followed := disjoint.followed painted hrow
  refine ⟨rowCommands_bytes r row, fun s ready => ?_, ?_, ?_⟩
  · rw [columnExact_row_iff ready hr length followed, glyphs_iff followed,
      disjoint.clean_iff painted hrow, length]
    exact ⟨fun h n _ hlt => h n hlt, fun h n hlt => h n (Nat.zero_le n) hlt⟩
  · intro previous start stop hlength hstart hstop run hmem
    obtain ⟨hproper, hbound, -⟩ := emitted_range hlength hstart hstop hmem
    exact ⟨hproper, hbound, emitted_cutsNone followed hlength hstart hstop hmem⟩
  · intro start stop hstart hstop cuts
    refine ⟨runCommands_bytes r start stop row, fun s ready => ?_⟩
    rw [columnExact_run_iff ready hr length hstart (length ▸ hstop)
        (followed_slice followed hstop cuts), glyphs_slice_iff followed hstop cuts,
      disjoint.clean_iff painted hrow]

/-! ### A spacer beside another pane -/

theorem engineRow_of_cells {row : Row}
    (followed : ∀ n < row.cells.length, (cellOr row.cells n).isWide = true →
      n + 1 < row.cells.length ∧ (cellOr row.cells (n + 1)).isWideContinuation = true)
    (spacer : ∀ n < row.cells.length, SpacerHead row.cells n →
      row.wrapped = true ∧ n + 1 = row.cells.length) : EngineRow row where
  followed n cell hget hwide := by
    obtain ⟨hlt, -⟩ := List.getElem?_eq_some_iff.mp hget
    rw [← cellOr_of_some hget] at hwide
    obtain ⟨hnext, hcont⟩ := followed n hlt hwide
    exact ⟨_, getElem?_eq_cellOr hnext, hcont⟩
  spacer n hspacer := by
    refine spacer n ?_ hspacer
    by_contra hout
    have hcont := hspacer.1
    rw [cellOr_of_length_le (Nat.le_of_not_lt hout)] at hcont
    cases hcont

instance (cells : List Cell) : (n : Nat) → Decidable (SpacerHead cells n)
  | 0 => decidable_of_iff _ spacerHead_zero.symm
  | _ + 1 => decidable_of_iff _ spacerHead_succ.symm

def paneAt (id : SurfaceId) (col : Int) (cols : UInt16) (first second : Row) : SceneSurface :=
  let line := lineAt id col first.cells
  { line with snapshot := { line.snapshot with rows := [first, second], geometry := ⟨2, cols, 0, 0⟩ } }

/-- Text whose third glyph is wide, on three columns, and another pane beside it. -/
def besideScene : Scene where
  geometry := ⟨2, 4, 0, 0⟩
  panes :=
    [paneAt ⟨0⟩ 0 3 ⟨[narrow "a", narrow "b", ⟨"", 0, true, .default, none⟩], true⟩
        ⟨wide "漢" ++ [narrow "c"], false⟩,
      paneAt ⟨1⟩ 3 1 ⟨[narrow "x"], false⟩ ⟨[narrow "y"], false⟩]
  overlays := []
  cursorOwner := .hidden
  effects := ⟨none, none, 0⟩

theorem besideScene_disjointPanes : besideScene.DisjointPanes where
  overlays := rfl
  wellSized pane hmem := by
    rcases mem_pair.mp hmem with rfl | rfl
    · exact ⟨rfl, fun row hrow => by rcases mem_pair.mp hrow with rfl | rfl <;> rfl⟩
    · exact ⟨rfl, fun row hrow => by rcases mem_pair.mp hrow with rfl | rfl <;> rfl⟩
  inside pane hmem r n hcovers := by
    rcases mem_pair.mp hmem with rfl | rfl
    · obtain ⟨⟨-, hr⟩, -, hn⟩ := hcovers
      change (r : Int) < 0 + 2 at hr
      change (n : Int) < 0 + 3 at hn
      change r < 2 ∧ n < 4
      omega
    · obtain ⟨⟨-, hr⟩, -, hn⟩ := hcovers
      change (r : Int) < 0 + 2 at hr
      change (n : Int) < 3 + 1 at hn
      change r < 2 ∧ n < 4
      omega
  topLeft pane hmem := by
    rcases mem_pair.mp hmem with rfl | rfl
    · exact ⟨by decide, by decide⟩
    · exact ⟨by decide, by decide⟩
  disjoint := by
    refine pairwise_pair.mpr fun p hfirst hsecond => ?_
    obtain ⟨-, -, hlt⟩ := hfirst
    obtain ⟨-, hle, -⟩ := hsecond
    change (p.2 : Int) < 0 + 3 at hlt
    change (3 : Int) ≤ p.2 at hle
    omega
  engine pane hmem row hrow := by
    rcases mem_pair.mp hmem with rfl | rfl
    · rcases mem_pair.mp hrow with rfl | rfl
      · exact engineRow_of_cells (by decide) (by decide)
      · exact engineRow_of_cells (by decide) (by decide)
    · rcases mem_pair.mp hrow with rfl | rfl
      · exact engineRow_of_cells (by decide) (by decide)
      · exact engineRow_of_cells (by decide) (by decide)

theorem OuterScreen.blank_ready (geometry : TerminalGeometry) (wide : 0 < geometry.cols.toNat) :
    (blank geometry.rows.toNat geometry.cols.toNat).Ready geometry where
  plain :=
    { origin := rfl
      insert := rfl
      leftRight := rfl
      wide := wide
      lines := fun row hmem => by
        rw [eq_of_mem_replicate hmem]
        exact length_replicate }
  cols := rfl
  rows := length_replicate
  link := rfl

/-- Its first line puts the second pane one column to the left. -/
theorem PresentedScene.compose_shifts_columns : besideScene.DisjointPanes ∧
    (OuterScreen.blank 2 4).Ready besideScene.geometry ∧
    ∃ presented row, compose besideScene = some presented ∧ presented.rows[0]? = some row ∧
      (OuterScreen.blank 2 4).prints (rowCommands 0 row) = [(0, 0, "a", 1), (0, 1, "b", 1), (0, 2, "x", 1)] ∧
      ¬ ColumnExact 0 0 row.cells ((OuterScreen.blank 2 4).prints (rowCommands 0 row)) := by
  have hrows : (compose besideScene).bind (·.rows[0]?) =
      some ⟨[narrow "a", narrow "b", ⟨"", 0, true, .default, none⟩, narrow "x"], false⟩ := by
    decide +kernel
  obtain ⟨presented, hcompose, hrow⟩ := bind_eq_some_iff.mp hrows
  refine ⟨besideScene_disjointPanes, blank_ready besideScene.geometry (by decide),
    presented, _, hcompose, hrow, by decide +kernel, fun exact_ => ?_⟩
  exact absurd exact_.printed (by decide +kernel)

/-- Its second line is printed where it belongs. -/
theorem PresentedScene.compose_columnExact_beside :
    ∃ presented row, compose besideScene = some presented ∧ presented.rows[1]? = some row ∧
      ColumnExact 1 0 row.cells ((OuterScreen.blank 2 4).prints (rowCommands 1 row)) := by
  obtain ⟨presented, hcompose, hlines⟩ := compose_columnExact_iff besideScene besideScene_disjointPanes
  have hrows : (compose besideScene).map (·.rows.length) = some 2 := by decide +kernel
  rw [hcompose, map_some, some.injEq] at hrows
  have hone : 1 < presented.rows.length := by omega
  obtain ⟨-, hexact, -⟩ := hlines 1 _ (getElem?_eq_getElem hone)
  refine ⟨presented, _, hcompose, getElem?_eq_getElem hone,
    (hexact _ (blank_ready besideScene.geometry (by decide))).mpr ?_⟩
  rintro n source k - - ⟨pane, hmem, hsource, -, hk⟩
  have hclean : ∀ pane ∈ besideScene.panes, ∀ source, itemAt pane.snapshot.rows 1 = some source →
      ∀ k < source.cells.length, ¬ SpacerHead source.cells k ∧ isWideBlank (cellOr source.cells k) = false := by
    rcases mem_pair.mp hmem with rfl | rfl
    · cases hsource
      decide
    · cases hsource
      decide
  have htop : pane.origin.row = 0 := by
    rcases mem_pair.mp hmem with rfl | rfl <;> rfl
  rw [htop] at hsource
  exact hclean pane hmem source hsource k hk

end Lector.Presentation
