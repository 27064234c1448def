import Lector.Presentation.ColumnExact
import Lector.Presentation.FullEncoding

/-! A repaint of the whole scene on a terminal in whatever state. -/
namespace Lector.Presentation
open Output Terminal FullSceneVtRenderer OuterScreen
open List hiding min

/-! ## One row -/

def outerRow (row : Row) : Row := ⟨outerCells row.cells, row.wrapped⟩

namespace OuterScreen

variable {s t u : OuterScreen}

def Redrawn (s t : OuterScreen) : Prop :=
  t = { s with
    rows := t.rows
    row := t.row
    col := t.col
    pendingWrap := t.pendingWrap
    pen := t.pen
    link := t.link }

theorem Redrawn.refl (s : OuterScreen) : Redrawn s s := rfl

theorem Redrawn.trans (hst : Redrawn s t) (htu : Redrawn t u) : Redrawn s u := by
  rw [Redrawn] at hst htu ⊢
  rw [htu, hst]

/-- **One row over what its line had.** The mark of a wrap is only taken away. -/
theorem replay_rowCommands (plain : s.Plain) (hlink : s.link = none) {rowIndex : Nat}
    (hrow : rowIndex < s.rows.length) {row : Row} (glyphs : Glyphs row.cells)
    (width : row.cells.length = s.cols) : ∃ pen, s.replay (rowCommands rowIndex row) =
      { s with
        rows := s.rows.set rowIndex ⟨outerCells row.cells, row.wrapped && s.rows[rowIndex].wrapped⟩
        row := rowIndex
        col := s.cols - 1
        pendingWrap := true
        pen := pen
        link := none } := by
  obtain ⟨hstart, -⟩ := replay_lineStart plain hrow row
  obtain ⟨-, hprinted⟩ := printed_row plain hlink hrow glyphs width.le
  rw [rowCommands_eq, replay_append]
  generalize s.replay (lineStartCommands rowIndex row) = u at hstart hprinted ⊢
  obtain ⟨-, hframe, hplain, -, hat, hrows, hlink'⟩ := hprinted
  generalize u.replay (cellsCommands .default none row.cells) = t at hframe hplain hat hrows hlink' ⊢
  rw [Frame, hstart] at hframe
  have hcols : t.cols = s.cols := by rw [hframe]
  obtain ⟨hcol, hpending⟩ := hat.behind (by rw [hcols]; omega)
  rw [hcols] at hcol
  have hindex : u.row = rowIndex := by rw [hstart]
  have hlines : u.rows = if row.wrapped then s.rows else s.rows.set rowIndex s.erasedRow := by
    rw [hstart]
  -- the cells take the whole line
  have hwhole : ∀ line : Row, u.rows[rowIndex]? = some line →
      t.rows = u.rows.set rowIndex ⟨outerCells row.cells, line.wrapped⟩ := by
    intro line hline
    obtain ⟨rest, hset⟩ := hrows line [] line.cells (hindex.symm ▸ hline) rfl rfl .nil
    rw [hindex, nil_append] at hset
    have hmem : (⟨outerCells row.cells ++ rest, line.wrapped⟩ : Row) ∈ t.rows := by
      rw [hset]
      exact mem_set (List.getElem?_eq_some_iff.mp hline).1 _
    have hlength := hplain.lines _ hmem
    rw [length_append, length_outerCells glyphs] at hlength
    have hrest : rest = [] := eq_nil_of_length_eq_zero (by omega)
    rw [hset, hrest, append_nil]
  have hrows' : t.rows = s.rows.set rowIndex
      ⟨outerCells row.cells, row.wrapped && s.rows[rowIndex].wrapped⟩ := by
    cases hwrapped : row.wrapped with
    | true =>
      rw [hwrapped, if_pos rfl] at hlines
      rw [hwhole s.rows[rowIndex] (by rw [hlines]; exact getElem?_eq_getElem hrow), hlines, Bool.true_and]
    | false =>
      rw [hwrapped, if_neg Bool.false_ne_true] at hlines
      rw [hwhole s.erasedRow (by rw [hlines]; exact getElem?_set_self hrow), hlines, set_set]
      rfl
  refine ⟨t.pen, hframe.trans ?_⟩
  rw [hrows', hcol, hpending, hlink']

/-! ## The wrap -/

def wrapped (s : OuterScreen) : OuterScreen :=
  { s with
    rows := s.rows.modify s.row fun row => { row with wrapped := true }
    row := s.row + 1
    col := 0
    pendingWrap := false }

theorem wrap_eq (plain : s.Plain) (hbottom : s.bottom = s.rows.length)
    (hrow : s.row + 1 < s.rows.length) : s.wrap = s.wrapped := by
  have hinside : ¬ s.row + 1 = s.bottom := by omega
  have hnext : min (s.row + 1) (s.rows.length - 1) = s.row + 1 := by omega
  have hleft : s.leftEdge = 0 := by
    rw [leftEdge, plain.leftRight]
    rfl
  rw [wrap, indexDown]
  simp only [hinside, length_modify, hnext, hleft]
  rfl

theorem wrapped_plain (plain : s.Plain) : s.wrapped.Plain := by
  refine ⟨plain.origin, plain.insert, plain.leftRight, plain.wide, fun row hmem => ?_⟩
  obtain ⟨n, hget⟩ := getElem?_of_mem hmem
  change (s.rows.modify s.row _)[n]? = some row at hget
  rw [getElem?_modify] at hget
  obtain ⟨old, hold, rfl⟩ := Option.map_eq_some_iff.mp hget
  have hwidth := plain.lines old (mem_of_getElem? hold)
  split <;> exact hwidth

/-- **The temporary cell makes the wrap**: it marks the full line, and stands on the next one. -/
theorem step_blank (plain : s.Plain) (hautowrap : s.autowrap = true)
    (hbottom : s.bottom = s.rows.length) (hrow : s.row + 1 < s.rows.length)
    (hpending : s.pendingWrap = true) : ∃ line, s.step (.print " " 1) = { s.wrapped with
        rows := s.wrapped.rows.set (s.row + 1) line
        col := (s.step (.print " " 1)).col
        pendingWrap := (s.step (.print " " 1)).pendingWrap } ∧
      (s.step (.print " " 1)).Plain := by
  have hplain := wrapped_plain plain
  have hlength : s.wrapped.rows.length = s.rows.length := length_modify ..
  have hroom : s.wrapped.place 1 = s.wrapped := place_room hplain rfl (by
    show 0 + 1 ≤ s.cols
    have := plain.wide
    omega)
  have hplace : s.place 1 = s.wrapped := by
    have hsame := hroom
    rw [place] at hsame ⊢
    rw [hpending, hautowrap, wrap_eq plain hbottom hrow]
    exact hsame
  have hstep : s.step (.print " " 1) = s.wrapped.step (.print " " 1) := by
    rw [step, hplace, step, hroom]
  obtain ⟨-, hframe, hplain', -, -, hrows, hpen, hlink⟩ := print_room hplain
    (by rw [hlength]; exact hrow)
    (show s.wrapped.At 0 from ⟨fun _ => ⟨rfl, rfl⟩, fun hle => absurd plain.wide (not_lt.mpr hle)⟩)
    zero_lt_one (show ShownGlyph (s.wrapped.glyph " " 1) from .inl ⟨_, rfl, rfl, rfl⟩) rfl (by show 0 + 1 ≤ s.cols; have := plain.wide; omega)
  have hline := getElem?_eq_getElem (hlength.symm ▸ hrow : s.wrapped.row < s.wrapped.rows.length)
  obtain ⟨rest, hset⟩ := hrows _ [] _ hline rfl rfl .nil
  rw [Frame, hset, hpen, hlink] at hframe
  rw [hstep]
  exact ⟨_, hframe, hplain'⟩

/-! ## All rows -/

/-- The first lines are drawn, and nothing stands in the way of the others. -/
structure Drawn (s : OuterScreen) (lines : List Row) : Prop where
  plain : s.Plain
  autowrap : s.autowrap = true
  bottom : s.bottom = s.rows.length
  link : s.link = none
  drawn : s.rows.take lines.length = lines

theorem replay_singleton (s : OuterScreen) (command : OuterCommand) : s.replay [command] = s.step command := rfl

theorem take_set_succ {rows : List Row} {n : Nat} (h : n < rows.length) (row : Row) :
    (rows.set n row).take (n + 1) = rows.take n ++ [row] := by
  rw [take_add_one, getElem?_set_self h, take_set_of_le (le_refl n)]
  rfl

/-- **One row of a repaint.** -/
theorem Drawn.row {lines : List Row} (drawn : s.Drawn lines) (hr : lines.length < s.rows.length)
    {row : Row} (glyphs : Glyphs row.cells) (width : row.cells.length = s.cols)
    (last : row.wrapped = true → lines.length + 1 < s.rows.length) :
    (s.replay (fullRowCommands s.rows.length lines.length row)).Drawn (lines ++ [outerRow row]) ∧
      Redrawn s (s.replay (fullRowCommands s.rows.length lines.length row)) ∧
      (s.replay (fullRowCommands s.rows.length lines.length row)).rows.length = s.rows.length := by
  have hset : ∀ line : Row, line.cells.length = s.cols →
      ∀ other ∈ s.rows.set lines.length line, other.cells.length = s.cols := by
    intro line hline other hmem
    rcases mem_or_eq_of_mem_set hmem with hold | rfl
    · exact drawn.plain.lines other hold
    · exact hline
  have hcells := (length_outerCells glyphs).trans width
  rw [fullRowCommands]
  cases hwrapped : row.wrapped with
  | false =>
    obtain ⟨pen, hreplay⟩ := replay_rowCommands (s := { s with autowrap := false })
      ⟨drawn.plain.origin, drawn.plain.insert, drawn.plain.leftRight, drawn.plain.wide,
        drawn.plain.lines⟩ drawn.link hr glyphs width
    have hwhole : s.replay (.privateMode 7 false :: (rowCommands lines.length row ++ [.privateMode 7 true])) =
          { s with
            rows := s.rows.set lines.length (outerRow row)
            row := lines.length
            col := s.cols - 1
            pendingWrap := true
            autowrap := true
            pen := pen
            link := none } := by
      show ({ s with autowrap := false } : OuterScreen).replay (rowCommands lines.length row ++ _) = _
      rw [replay_append, hreplay, hwrapped, Bool.false_and, ← hwrapped]
      rfl
    rw [if_neg Bool.false_ne_true, hwhole]
    refine ⟨⟨⟨drawn.plain.origin, drawn.plain.insert, drawn.plain.leftRight, drawn.plain.wide,
      hset _ hcells⟩, rfl, ?_, rfl, ?_⟩, ?_, length_set⟩
    · rw [length_set]
      exact drawn.bottom
    · rw [length_append, length_singleton, take_set_succ hr, drawn.drawn]
    · rw [Redrawn, drawn.autowrap]
  | true =>
    have hnext := last hwrapped
    obtain ⟨pen, hreplay⟩ := replay_rowCommands drawn.plain drawn.link hr glyphs width
    rw [if_pos rfl, if_pos hnext, replay_append, hreplay, hwrapped, Bool.true_and]
    -- the full line, with the cursor behind it
    obtain ⟨line, hstep, hplain⟩ := step_blank (s := { s with
        rows := s.rows.set lines.length ⟨outerCells row.cells, s.rows[lines.length].wrapped⟩
        row := lines.length
        col := s.cols - 1
        pendingWrap := true
        pen := pen
        link := none })
      ⟨drawn.plain.origin, drawn.plain.insert, drawn.plain.leftRight, drawn.plain.wide, hset _ hcells⟩
      drawn.autowrap (by rw [length_set]; exact drawn.bottom)
      (by rw [length_set]; exact hnext) rfl
    have hmarked : (s.rows.set lines.length
        ⟨outerCells row.cells, s.rows[lines.length].wrapped⟩).modify lines.length
          (fun row => { row with wrapped := true }) = s.rows.set lines.length (outerRow row) := by
      rw [Shifting.modify_eq_set (getElem?_set_self hr), set_set, outerRow, hwrapped]
    simp only [wrapped, hmarked] at hstep
    rw [replay_singleton]
    generalize step _ (.print " " 1) = t at hstep hplain ⊢
    have hrows : t.rows = (s.rows.set lines.length (outerRow row)).set (lines.length + 1) line := by
      rw [hstep]
    have hlength : t.rows.length = s.rows.length := by
      rw [hrows, length_set, length_set]
    refine ⟨⟨hplain, ?_, ?_, ?_, ?_⟩, ?_, hlength⟩
    · rw [hstep]
      exact drawn.autowrap
    · rw [hlength, hstep]
      exact drawn.bottom
    · rw [hstep]
    · rw [hrows, length_append, length_singleton, take_set_of_le (le_rfl), take_set_succ hr, drawn.drawn]
    · rw [Redrawn, hstep]

/-- **All rows, one after the other.** -/
theorem Drawn.rows {rows lines : List Row} (drawn : s.Drawn lines)
    (all : lines.length + rows.length = s.rows.length) (glyphs : ∀ row ∈ rows, Glyphs row.cells)
    (width : ∀ row ∈ rows, row.cells.length = s.cols)
    (last : ∀ row, rows.getLast? = some row → row.wrapped = false) :
    (s.replay ((rows.zipIdx lines.length).flatMap fun row =>
        fullRowCommands s.rows.length row.2 row.1)).Drawn (lines ++ rows.map outerRow) ∧
      Redrawn s (s.replay ((rows.zipIdx lines.length).flatMap fun row =>
        fullRowCommands s.rows.length row.2 row.1)) ∧
      (s.replay ((rows.zipIdx lines.length).flatMap fun row =>
        fullRowCommands s.rows.length row.2 row.1)).rows.length = s.rows.length := by
  induction rows generalizing s lines with
  | nil =>
    rw [map_nil, append_nil]
    exact ⟨drawn, .refl s, rfl⟩
  | cons row rest ih =>
    rw [length_cons] at all
    have hlast : row.wrapped = true → lines.length + 1 < s.rows.length := by
      intro hwrapped
      by_contra hend
      have hrest : rest = [] := eq_nil_of_length_eq_zero (by omega)
      rw [last row (by rw [hrest]; rfl)] at hwrapped
      cases hwrapped
    obtain ⟨hdrawn, hredrawn, hlength⟩ := drawn.row (by omega) (glyphs row mem_cons_self)
      (width row mem_cons_self) hlast
    have hcols : (s.replay (fullRowCommands s.rows.length lines.length row)).cols = s.cols := by
      rw [hredrawn]
    obtain ⟨hdrawn', hredrawn', hlength'⟩ := ih hdrawn
      (by rw [length_append, length_singleton]; omega)
      (fun other hmem => glyphs other (mem_cons_of_mem _ hmem))
      (fun other hmem => (width other (mem_cons_of_mem _ hmem)).trans hcols.symm)
      (fun other hother => last other (by
        rw [getLast?_cons, hother]
        rfl))
    rw [hlength, length_append] at hdrawn' hredrawn' hlength'
    rw [zipIdx_cons, flatMap_cons, replay_append, ← append_cons] at *
    exact ⟨hdrawn', hredrawn.trans hredrawn', hlength'⟩

/-! ## Around the rows -/

def Kept (s t : OuterScreen) : Prop := t = { s with row := t.row, col := t.col, pendingWrap := t.pendingWrap }

theorem Kept.trans (hst : Kept s t) (htu : Kept t u) : Kept s u := by
  rw [Kept] at hst htu ⊢
  rw [htu, hst]

theorem Kept.redrawn (kept : Kept s t) : Redrawn s t := by
  rw [Redrawn, kept]

theorem Kept.drawn (kept : Kept s t) {lines : List Row} (drawn : s.Drawn lines) : t.Drawn lines := by
  rw [kept]
  exact ⟨⟨drawn.plain.origin, drawn.plain.insert, drawn.plain.leftRight, drawn.plain.wide,
    drawn.plain.lines⟩, drawn.autowrap, drawn.bottom, drawn.link, drawn.drawn⟩

theorem replay_graphics (s : OuterScreen) (commands : List GraphicsCommand) :
    Kept s (s.replay (commands.map .graphics)) := by
  induction commands generalizing s with
  | nil => rfl
  | cons command rest ih =>
    refine Kept.trans (t := s.step (.graphics command)) ?_ (ih _)
    cases command <;> rfl

theorem replay_modesCommands (s : OuterScreen) (modes : TerminalModes) :
    s.replay (modesCommands modes) = s := by
  rw [modesCommands]
  cases modes.mouseProtocol <;> cases modes.mouseEncoding <;> rfl

theorem replay_bells (s : OuterScreen) (count : Nat) : s.replay (replicate count .bell) = s := by
  induction count with
  | zero => rfl
  | succ count ih => exact ih

def based (s : OuterScreen) : OuterScreen where
  cols := s.cols
  rows := s.rows
  row := 0
  col := 0
  pendingWrap := false
  top := 0
  bottom := s.rows.length
  left := 0
  right := s.cols
  originMode := false
  autowrap := true
  insertMode := false
  leftRightMode := false
  pen := .default
  link := none
  scrolled := s.scrolled

/-- **The baseline leaves nothing of the modes and margins** that the terminal had. -/
theorem replay_baseline (renderer : FullSceneVtRenderer) (s : OuterScreen) (intended : PresentedScene)
    (cols : s.cols = intended.geometry.cols.toNat) :
    s.replay (renderer.baselineCommands intended) = s.based := by
  have hsync : s.replay (if renderer.capabilities.synchronizedOutput then [.privateMode 2026 true]
      else []) = s := by
    split <;> rfl
  rw [baselineCommands, replay_append, hsync, ← cols]
  -- margins of one column are no margins, and are ignored
  by_cases hmargins : 1 < s.cols
  · simp [replay, step, setPrivateMode, setHorizontalMargins, moveTo, based, renditionPen,
      Rendition.step, setAttribute]
  · simp [replay, step, setPrivateMode, setHorizontalMargins, moveTo, based, renditionPen,
      Rendition.step, setAttribute]

/-- A terminal of the size of the scene, in whatever state. -/
structure Fits (s : OuterScreen) (geometry : TerminalGeometry) : Prop where
  cols : s.cols = geometry.cols.toNat
  rows : s.rows.length = geometry.rows.toNat
  wide : 0 < s.cols
  lines : ∀ row ∈ s.rows, row.cells.length = s.cols

theorem Fits.based_drawn {geometry : TerminalGeometry} (fits : s.Fits geometry) : s.based.Drawn [] where
  plain := ⟨rfl, rfl, rfl, fits.wide, fits.lines⟩
  autowrap := rfl
  bottom := rfl
  link := rfl
  drawn := rfl

theorem replay_erase (s : OuterScreen) (retained : Option (List PresentedImageUpload))
    (drawn : s.Drawn []) : (s.replay (eraseCommands retained)).Drawn [] ∧
      Redrawn s (s.replay (eraseCommands retained)) ∧
      (s.replay (eraseCommands retained)).rows.length = s.rows.length := by
  rw [eraseCommands]
  split
  · have hkept : Kept s (s.replay [.home]) := rfl
    exact ⟨hkept.drawn drawn, hkept.redrawn, rfl⟩
  · have hkept : Kept { s with rows := replicate s.rows.length s.erasedRow, pendingWrap := false }
        (s.replay [.eraseDisplay, .home]) := rfl
    refine ⟨hkept.drawn ⟨⟨drawn.plain.origin, drawn.plain.insert, drawn.plain.leftRight,
      drawn.plain.wide, fun row hmem => ?_⟩, drawn.autowrap, ?_, drawn.link, rfl⟩, rfl,
      length_replicate⟩
    · rw [eq_of_mem_replicate hmem]
      exact length_replicate
    · exact drawn.bottom.trans length_replicate.symm

theorem replay_effects (renderer : FullSceneVtRenderer) (s : OuterScreen) (intended : PresentedScene) :
    s.replay (renderer.effectCommands intended) = s := by
  rw [effectCommands]
  split <;> rfl

end OuterScreen

/-! ## The whole scene -/

namespace PresentedScene

def onScreen (intended : PresentedScene) (scrolled : Nat) : OuterScreen where
  cols := intended.geometry.cols.toNat
  rows := intended.rows.map outerRow
  row := min intended.cursor.row (intended.geometry.rows.toNat - 1)
  col := min intended.cursor.col (intended.geometry.cols.toNat - 1)
  pendingWrap := false
  top := 0
  bottom := intended.geometry.rows.toNat
  left := 0
  right := intended.geometry.cols.toNat
  originMode := false
  autowrap := true
  insertMode := false
  leftRightMode := false
  pen := .default
  link := none
  scrolled := scrolled

/-- Rows of the size of the scene, of whole glyphs, and the last one not wrapped. -/
structure Paintable (intended : PresentedScene) : Prop where
  sized : Sized intended.geometry intended.rows
  glyphs : ∀ row ∈ intended.rows, Glyphs row.cells
  last : ∀ row, intended.rows.getLast? = some row → row.wrapped = false

end PresentedScene

namespace OuterScreen

variable {s : OuterScreen}

theorem min_saturating {n limit : Nat} (limited : limit < 2 ^ 16) :
    min (saturatingAdd 16 n 1 - 1) (limit - 1) = min n (limit - 1) := by
  rw [saturatingAdd]
  omega

theorem replay_end (origin : s.originMode = false) (intended : PresentedScene) :
    s.replay (endCommands intended) =
      { s with
        row := min (saturatingAdd 16 intended.cursor.row 1 - 1) (s.rows.length - 1)
        col := min (saturatingAdd 16 intended.cursor.col 1 - 1) (s.cols - 1)
        pendingWrap := false
        pen := .default
        link := none } := by
  rw [endCommands, replay_append, replay_append, replay_modesCommands, replay_bells]
  show moveTo { s with pen := .default, link := none } _ _ = _
  rw [origin]
  rfl

theorem replay_fullRows {intended : PresentedScene} (paintable : intended.Paintable) (drawn : s.Drawn [])
    (cols : s.cols = intended.geometry.cols.toNat) (rows : s.rows.length = intended.geometry.rows.toNat) :
    (s.replay (fullRowsCommands intended)).rows = intended.rows.map outerRow ∧
      Redrawn s (s.replay (fullRowsCommands intended)) := by
  have hend : intended.rows.getLast?.any (·.wrapped) = false := by
    cases hlast : intended.rows.getLast? with
    | none => rfl
    | some row => exact paintable.last row hlast
  have hheight := paintable.sized.1.trans rows.symm
  obtain ⟨hdrawn, hredrawn, hlength⟩ := drawn.rows
    ((zero_add _).trans hheight) paintable.glyphs
    (fun row hmem => (paintable.sized.2 row hmem).trans cols.symm) paintable.last
  rw [fullRowsCommands, hend, if_neg fun h => Bool.false_ne_true h.2, append_nil, hheight]
  refine ⟨?_, hredrawn⟩
  have htake := hdrawn.drawn
  rw [nil_append, length_map, hheight] at htake
  rwa [take_of_length_le hlength.le] at htake

/-- **A repaint shows the scene**, whatever was on the terminal. -/
theorem replay_encodeCommands {renderer : FullSceneVtRenderer} {scene : Scene} {media : SceneMedia}
    {intended : PresentedScene} {intendedMedia : PresentedMedia}
    {retained : Option (List PresentedImageUpload)} {commands : List OuterCommand}
    (h : renderer.encodeCommands scene media intended intendedMedia retained = some (.ok commands))
    (paintable : intended.Paintable) (fits : s.Fits intended.geometry) :
    s.replay commands = intended.onScreen s.scrolled := by
  obtain ⟨images, -, himages⟩ := Option.map_eq_some_iff.mp h
  cases images with
  | error error => cases himages
  | ok images =>
    obtain rfl := Except.ok.inj himages
    simp only [replay_append, replay_baseline renderer s intended fits.cols, replay_effects]
    -- deletions, the erasing, the rows and the images, each from what the one before left
    have hdeleted := replay_graphics s.based (renderer.kittyDeletions intendedMedia retained)
    generalize s.based.replay ((renderer.kittyDeletions intendedMedia retained).map .graphics) = a at hdeleted ⊢
    obtain ⟨hdrawn, herased, hlength⟩ := replay_erase a retained (hdeleted.drawn fits.based_drawn)
    generalize a.replay (eraseCommands retained) = b at hdrawn herased hlength ⊢
    have hbase : Redrawn s.based b := hdeleted.redrawn.trans herased
    have hheight : b.rows.length = intended.geometry.rows.toNat := by
      rw [hlength, ← fits.rows, hdeleted]
      rfl
    obtain ⟨hrows, hredrawn⟩ := replay_fullRows paintable hdrawn (by rw [hbase]; exact fits.cols) hheight
    generalize b.replay (fullRowsCommands intended) = c at hrows hredrawn ⊢
    have hplaced := replay_graphics c images
    generalize c.replay (images.map .graphics) = d at hplaced ⊢
    have hwhole : Redrawn s.based d := (hbase.trans hredrawn).trans hplaced.redrawn
    have hshown : d.rows = intended.rows.map outerRow := by rw [hplaced, ← hrows]
    have hcount := paintable.sized.1
    have hrow := min_saturating (n := intended.cursor.row) intended.geometry.rows.toNat_lt
    have hcol := min_saturating (n := intended.cursor.col) intended.geometry.cols.toNat_lt
    rw [replay_end (by rw [hwhole]; rfl), hwhole, hshown]
    simp only [based, length_map, hcount, fits.cols, fits.rows, hrow, hcol]
    rfl

end OuterScreen

/-! ## What is shown -/

/-- A space for no text, a link that the terminal keeps, and a continuation as the other half. -/
structure ShowsCell (cells line : List Cell) (n : Nat) (cell : Cell) : Prop where
  shown : cell.continuation = false → ∃ shown, (line)[n]? = some shown ∧ shown.grapheme = cellText cell ∧
    shown.style = cell.style ∧ shown.hyperlink = outerLink cell.hyperlink ∧ shown.continuation = false
  half : cell.continuation = true → ∃ m lead, n = m + 1 ∧ (line)[m]? = some lead ∧
    (line)[n]? = some (trail lead) ∧ ∃ first, cells[m]? = some first ∧ first.continuation = false

theorem ShowsCell.shift {cells line group glyph : List Cell} {n : Nat} {cell : Cell}
    (h : ShowsCell cells line n cell) (length : glyph.length = group.length) :
    ShowsCell (group ++ cells) (glyph ++ line) (group.length + n) cell := by
  have hget : ∀ m, (glyph ++ line)[group.length + m]? = (line)[m]? := by
    intro m
    rw [getElem?_append_right (by omega), length, Nat.add_sub_cancel_left]
  refine ⟨fun hcell => ?_, fun hcell => ?_⟩
  · obtain ⟨shown, hshown, hrest⟩ := h.shown hcell
    exact ⟨shown, (hget n).trans hshown, hrest⟩
  · obtain ⟨m, lead, rfl, hlead, htrail, first, hfirst, hlast⟩ := h.half hcell
    refine ⟨group.length + m, lead, rfl, (hget m).trans hlead, (hget (m + 1)).trans htrail, first, ?_, hlast⟩
    rw [getElem?_append_right (by omega), Nat.add_sub_cancel_left]
    exact hfirst

/-- **Every cell is shown on its column.** -/
theorem showsCell_outerCells {cells : List Cell} (glyphs : Glyphs cells) :
    ∀ n cell, cells[n]? = some cell → ShowsCell cells (outerCells cells) n cell := by
  induction glyphs with
  | nil => exact fun _ cell hget => absurd hget (Option.some_ne_none cell).symm
  | @narrow first rest narrow others ih =>
    intro n cell hget
    rw [outerCells_narrow narrow]
    have hglyph : outerGlyph first =
        [⟨cellText first, UInt8.ofNat 1, false, first.style, outerLink first.hyperlink⟩] := by
      rw [outerGlyph, printedColumns_narrow narrow]
      rfl
    cases n with
    | zero =>
      cases hget
      rw [hglyph]
      exact ⟨fun _ => ⟨_, rfl, rfl, rfl, rfl, rfl⟩,
        fun hcont => absurd (hcont.symm.trans narrow.2) Bool.noConfusion⟩
    | succ n =>
      have hshift := (ih n cell hget).shift
        (show (outerGlyph first).length = [first].length by rw [hglyph]; rfl)
      rwa [length_singleton, add_comm] at hshift
  | @wide lead tail rest wide text continues others ih =>
    intro n cell hget
    rw [outerCells_wide wide continues]
    have hlead : lead.continuation = false := continuation_of_isWide wide
    have hglyph : outerGlyph lead =
        [⟨cellText lead, UInt8.ofNat 2, false, lead.style, outerLink lead.hyperlink⟩,
          trail ⟨cellText lead, UInt8.ofNat 2, false, lead.style, outerLink lead.hyperlink⟩] := by
      rw [outerGlyph, printedColumns_wide wide text]
      rfl
    cases n with
    | zero =>
      cases hget
      rw [hglyph]
      exact ⟨fun _ => ⟨_, rfl, rfl, rfl, rfl, rfl⟩,
        fun hcont => absurd (hcont.symm.trans hlead) Bool.noConfusion⟩
    | succ n =>
      cases n with
      | zero =>
        cases hget
        rw [hglyph]
        exact ⟨fun hcont => absurd (hcont.symm.trans continues) Bool.noConfusion,
          fun _ => ⟨0, _, rfl, rfl, rfl, lead, rfl, hlead⟩⟩
      | succ n =>
        have hshift := (ih n cell hget).shift
          (show (outerGlyph lead).length = [lead, tail].length by rw [hglyph]; rfl)
        have hplace : [lead, tail].length + n = n + 2 := add_comm 2 n
        rwa [hplace] at hshift

/-- **A full repaint depends only on the scene.** On a terminal of its size, in whatever state, its
bytes leave the scene's own screen and nothing scrolled. -/
theorem FullSceneVtRenderer.encode_shows (renderer : FullSceneVtRenderer) (scene : Scene)
    (media : SceneMedia) (intended : PresentedScene) (intendedMedia : PresentedMedia)
    (retained : Option (List PresentedImageUpload)) (paintable : intended.Paintable) :
    (renderer.encodeCommands scene media intended intendedMedia retained).map
        (fun result => result.map commandBytes) =
      renderer.encode scene media intended intendedMedia retained ∧
    ∀ commands, renderer.encodeCommands scene media intended intendedMedia retained = some (.ok commands) →
      ∀ s : OuterScreen, s.Fits intended.geometry → s.replay commands = intended.onScreen s.scrolled ∧
        ∀ (r : Nat) (row : Row), intended.rows[r]? = some row → ∃ line : Row,
          (s.replay commands).rows[r]? = some line ∧ line.wrapped = row.wrapped ∧
            line.cells.length = row.cells.length ∧
            ∀ n cell, row.cells[n]? = some cell → ShowsCell row.cells line.cells n cell := by
  refine ⟨renderer.encodeCommands_bytes scene media intended intendedMedia retained,
    fun commands h s fits => ?_⟩
  have hreplay := replay_encodeCommands h paintable fits
  refine ⟨hreplay, fun r row hrow => ⟨outerRow row, ?_, rfl, ?_, ?_⟩⟩
  · rw [hreplay]
    show (intended.rows.map outerRow)[r]? = _
    rw [getElem?_map, hrow]
    rfl
  · exact length_outerCells (paintable.glyphs row (mem_of_getElem? hrow))
  · exact showsCell_outerCells (paintable.glyphs row (mem_of_getElem? hrow))

/-! ### Cells that are not shown as they are -/

/-- A link with a bell, a styled continuation, a spacer, and a wide cell without a text. -/
def mixedRows : List Row :=
  [⟨[⟨"a", 1, false, .default, some "x\x07"⟩, ⟨"漢", 2, false, .default, none⟩,
      ⟨"", 0, true, { Style.default with bold := true }, none⟩], false⟩,
    ⟨[narrow "a", narrow "b", ⟨"", 0, true, .default, none⟩], true⟩, ⟨wide "" ++ [narrow "c"], false⟩]

def mixedScene : Scene where
  geometry := ⟨3, 3, 0, 0⟩
  panes :=
    let line := lineAt ⟨0⟩ 0 []
    [{ line with
        snapshot := { line.snapshot with
          rows := mixedRows
          geometry := ⟨3, 3, 0, 0⟩
          cursor := ⟨7, 7, true, .block⟩ } }]
  overlays := []
  cursorOwner := .pane ⟨0⟩
  effects := ⟨none, none, 0⟩

def mixedPresented : PresentedScene :=
  { PresentedScene.withRows ⟨3, 3, 0, 0⟩ mixedRows with
    cursor := ⟨7, 7, false, .block⟩
    cursorOwner := .pane ⟨0⟩ }

def plainRenderer : FullSceneVtRenderer := ⟨⟨false, true, false⟩, false⟩

theorem OuterScreen.blank_fits (geometry : TerminalGeometry) (wide : 0 < geometry.cols.toNat) :
    (blank geometry.rows.toNat geometry.cols.toNat).Fits geometry where
  cols := rfl
  rows := length_replicate
  wide := wide
  lines row hmem := by
    rw [eq_of_mem_replicate hmem]
    exact length_replicate

/-- A link, a style, a text, a mark of a wrap and the cursor are not those of the scene. -/
theorem FullSceneVtRenderer.encode_not_exact : PresentedScene.compose mixedScene = some mixedPresented ∧
    Sized mixedPresented.geometry mixedPresented.rows ∧
    (∀ row ∈ mixedPresented.rows, Followed row.cells) ∧
    (∀ row, mixedPresented.rows.getLast? = some row → row.wrapped = false) ∧
    (blank 3 3).Fits mixedPresented.geometry ∧
    ∃ commands, plainRenderer.encodeCommands mixedScene ⟨[], []⟩ mixedPresented ⟨[], []⟩ none =
        some (.ok commands) ∧
      ∃ shown : OuterScreen, (blank 3 3).replay commands = shown ∧
        (gridCell shown.rows (0, 0)).hyperlink ≠ (gridCell mixedPresented.rows (0, 0)).hyperlink ∧
        (gridCell shown.rows (0, 2)).style ≠ (gridCell mixedPresented.rows (0, 2)).style ∧
        (gridCell shown.rows (2, 2)).grapheme ≠ (gridCell mixedPresented.rows (2, 2)).grapheme ∧
        shown.rows.map (·.wrapped) ≠ mixedPresented.rows.map (·.wrapped) ∧
        (shown.row, shown.col) ≠ (mixedPresented.cursor.row, mixedPresented.cursor.col) := by
  refine ⟨by decide +kernel, ⟨rfl, by decide⟩, ?_, ?_, blank_fits ⟨3, 3, 0, 0⟩ (by decide),
    _, rfl, _, rfl, by decide +kernel, by decide +kernel, by decide +kernel, by decide +kernel,
    by decide +kernel⟩
  · intro row hmem n cell hget hwide
    have hlast : ∀ row ∈ mixedPresented.rows, ∀ n < 3, (cellOr row.cells n).isWide = true →
        n + 1 < row.cells.length ∧ (cellOr row.cells (n + 1)).isWideContinuation = true := by decide
    have hsized : ∀ row ∈ mixedPresented.rows, row.cells.length = 3 := by decide
    rw [← cellOr_of_some hget] at hwide
    have hn := (List.getElem?_eq_some_iff.mp hget).1
    rw [hsized row hmem] at hn
    obtain ⟨hnext, hcont⟩ := hlast row hmem n hn hwide
    exact ⟨_, getElem?_eq_cellOr hnext, hcont⟩
  · intro row hrow
    cases hrow
    rfl

/-- A wrapped line and one behind it, on a terminal with margins, in insert mode and with a pending wrap. -/
theorem FullSceneVtRenderer.encode_shows_wrapped :
    let intended := PresentedScene.withRows ⟨2, 3, 0, 0⟩
      [⟨narrow "a" :: wide "漢", true⟩, ⟨[narrow "b", narrow "c", narrow "d"], false⟩]
    ∃ commands, plainRenderer.encodeCommands mixedScene ⟨[], []⟩ intended ⟨[], []⟩ none =
        some (.ok commands) ∧
      { blank 2 3 with
        col := 2
        pendingWrap := true
        top := 1
        bottom := 2
        originMode := true
        insertMode := true }.replay commands = intended.onScreen 0 := by
  intro intended
  have paintable : intended.Paintable := by
    refine ⟨⟨rfl, by decide⟩, fun row hmem => ?_, fun row hrow => ?_⟩
    · rcases mem_pair.mp hmem with rfl | rfl
      · exact .narrow ⟨rfl, rfl⟩ (.wide rfl rfl rfl .nil)
      · exact .narrow ⟨rfl, rfl⟩ (.narrow ⟨rfl, rfl⟩ (.narrow ⟨rfl, rfl⟩ .nil))
    · cases hrow
      rfl
  obtain ⟨-, hshows⟩ := plainRenderer.encode_shows mixedScene ⟨[], []⟩ intended ⟨[], []⟩ none paintable
  have fits := blank_fits ⟨2, 3, 0, 0⟩ (by decide)
  exact ⟨_, rfl, (hshows _ rfl _ ⟨fits.cols, fits.rows, fits.wide, fits.lines⟩).1⟩

end Lector.Presentation
