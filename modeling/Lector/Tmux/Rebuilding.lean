import Lector.Tmux.Reconstruction

/-! Panes against the terminals that are rebuilt from their captures, which are what a typewriter
makes of the rows. -/
namespace Lector.Tmux
open Terminal Presentation Typewriting PaneGrid PaneScreen GridLine
open List hiding min

/-! ## The terminal before and after the lines -/

def openingCommands (alternateOn : Bool) : List PaneCommand :=
  (if alternateOn then [.alternateScreen] else []) ++ [.text .eraseDisplay, .text .home]

def closingCommands (grid : PaneGrid) : List OuterCommand :=
  [.cursorTo (grid.cursorY + 1) (grid.cursorX + 1), .privateMode 25 grid.cursorVisible,
    .cursorShape (shapeCode grid.cursorShape)]

theorem rebuildCommands_eq (change : PenChange) (grid : PaneGrid) (lineFlags : Bool) :
    grid.rebuildCommands change lineFlags = openingCommands grid.alternateOn ++
        (lineCommands change lineFlags true .default (logicalLines grid.lines) ++ closingCommands grid).map
          .text := by
  unfold rebuildCommands screenCommands openingCommands closingCommands
  simp

def blankPaper : Paper Style Cell := ⟨[], [], blankCell, .default⟩

theorem shows_opening {cols height : Nat} (hcols : 0 < cols) (hheight : 0 < height) (alternateOn : Bool) :
    Shows ((fresh height cols).replay (openingCommands alternateOn)) cols height blankPaper ∧
      ((fresh height cols).replay (openingCommands alternateOn)).alternate = alternateOn := by
  have herase : (OuterScreen.blank height cols).step .eraseDisplay = .blank height cols := by
    simp only [OuterScreen.step, OuterScreen.blank, length_replicate]
    rfl
  have hhome : (OuterScreen.blank height cols).step .home = .blank height cols := by
    simp [OuterScreen.step, OuterScreen.moveTo, OuterScreen.blank]
  have hblank : (fresh height cols).replay (openingCommands alternateOn) =
      ⟨.blank height cols, [], alternateOn⟩ := by
    cases alternateOn <;>
      simp [replay, openingCommands, step, fresh, scrolledOff, herase, hhome]
  rw [hblank]
  refine ⟨⟨⟨rfl, rfl, rfl, hcols, ?_⟩, rfl, length_replicate, rfl, rfl, rfl, rfl, rfl, ⟨fun _ => ⟨rfl, rfl⟩, ?_⟩,
    .nil, Nat.zero_le _, narrow_blankCell, rfl, hheight, ?_⟩, rfl⟩
  · intro row hmem
    rw [eq_of_mem_replicate hmem]
    exact length_replicate
  · intro hle
    exact absurd hle (not_le.mpr hcols)
  · obtain ⟨rest, rfl⟩ : ∃ rest, height = rest + 1 := ⟨height - 1, by omega⟩
    simp [OuterScreen.blank, blankPaper, replicate_succ]

theorem type_closing {p : PaneScreen} (grid : PaneGrid) (horigin : p.screen.originMode = false)
    (hcols : p.screen.cols = grid.width) (hheight : p.screen.rows.length = grid.height) :
    (p.type (closingCommands grid)).history = p.history ∧ (p.type (closingCommands grid)).screen =
        { p.screen with row := grid.cursorY, col := min grid.cursorX (grid.width - 1), pendingWrap := false } := by
  have hrow : min grid.cursorY (grid.height - 1) = grid.cursorY := by
    have hlt := grid.cursorY_lt
    omega
  refine ⟨?_, ?_⟩
  · simp [type, replay, closingCommands, step, scrolledOff]
  · simp [type, replay, closingCommands, step, OuterScreen.step,
      OuterScreen.moveTo, OuterScreen.setPrivateMode, horigin, hcols, hheight, hrow]

/-! ## The rows typed again -/

def GridLine.typed (line : GridLine) : Typewriting.Row GridCell := (line.cells, line.wrapped)

theorem logicalLines_cells (rows : List GridLine) :
    (logicalLines rows).map lineCells = paragraphs (rows.map typed) := by
  induction rows with
  | nil => rfl
  | cons row rest ih =>
    rw [map_cons, paragraphs, ← ih, logicalLines]
    cases hwrapped : row.wrapped with
    | false =>
      have htyped : row.typed.2 = false := hwrapped
      rw [if_neg (by simp), if_neg (by simp [htyped])]
      simp [lineCells, typed]
    | true =>
      have htyped : row.typed.2 = true := hwrapped
      rw [if_pos htyped]
      cases logicalLines rest with
      | nil => simp [lineCells, typed]
      | cons joined others => simp [lineCells, typed]

theorem flatten_logicalLines (rows : List GridLine) : (logicalLines rows).flatten = rows := by
  induction rows with
  | nil => rfl
  | cons row rest ih =>
    rw [logicalLines]
    split
    · cases hlines : logicalLines rest with
      | nil =>
        rw [hlines] at ih
        simp [← ih]
      | cons joined others =>
        rw [hlines] at ih
        simp [← ih]
    · rw [flatten_cons, ih]
      rfl

theorem columns_le {line : GridLine} {cell : GridCell} (h : cell ∈ line.cells) : cell.columns ≤ line.columns := by
  obtain ⟨before, after, hcells⟩ := append_of_mem h
  rw [columns, hcells]
  simp only [map_append, map_cons, sum_append, sum_cons]
  omega

section Panes

variable (grid : PaneGrid)

def PaneGrid.typewriter : Typewriter GridCell Style Cell := paneTypewriter grid.width grid.height

def PaneGrid.paper : Paper Style Cell :=
  grid.typewriter.typeRows true blankPaper (grid.lines.map GridLine.typed)

def PaneGrid.retyped : List (List Cell) :=
  grid.paper.lines ++ grid.typewriter.full grid.paper ::
    List.replicate (grid.height - (grid.paper.lines.length + 1)) (List.replicate grid.width blankCell)

def PaneGrid.sheet : List (List Cell) := grid.lines.map fun line => line.on grid.width blankCell

theorem columns_typed (line : GridLine) : grid.typewriter.columns line.typed.1 = line.columns := by
  exact congrArg sum (map_congr_left fun cell _ => cell.length_shown)

theorem fits_typed : ∀ row ∈ grid.lines.map typed, grid.typewriter.columns row.1 ≤ grid.width := by
  intro row hmem
  obtain ⟨line, hline, rfl⟩ := mem_map.mp hmem
  rw [columns_typed]
  exact grid.fits line hline

theorem lines_ne_nil : grid.lines ≠ [] := by
  intro hnil
  have hlength := congrArg length hnil
  have hheight := grid.height_pos
  rw [lines, length_append, grid.visible_length, length_nil] at hlength
  omega

theorem paper_lines_lt : grid.paper.lines.length < grid.lines.length := by
  have hfits := fits_typed grid
  unfold paper
  cases hlines : grid.lines with
  | nil => exact absurd hlines (lines_ne_nil grid)
  | cons line rest =>
    rw [hlines] at hfits
    have hstart : Typewriter.Within blankPaper 0 0 := .inr ⟨rfl, le_rfl⟩
    have hfirst := grid.typewriter.type_within hstart line.typed.1 (by
      rw [zero_add]
      exact hfits _ mem_cons_self)
    have hrest := grid.typewriter.typeRows_within hfirst line.typed.2 (rest.map typed)
      fun row hmem => hfits row (mem_cons_of_mem _ hmem)
    rw [length_map] at hrest
    rw [map_cons, Typewriter.typeRows, if_pos rfl, length_cons]
    omega

/-! ## The terminal at the end -/

variable (change : PenChange) (lineFlags : Bool)

def PaneGrid.rebuilt : PaneScreen :=
  (PaneScreen.fresh (dimension grid.height) (dimension grid.width)).replay
    (grid.rebuildCommands change lineFlags)

/-- The terminal has the rows, with blanks behind what is stored, and the cursor on its cell. -/
structure PaneGrid.ShownBy (p : PaneScreen) : Prop where
  visible : p.screen.rows.map Row.cells = grid.visible.map fun line => line.on grid.width blankCell
  history : p.history = grid.history.map fun line => line.on grid.width blankCell
  row : p.screen.row = grid.cursorY
  col : p.screen.col = min grid.cursorX (grid.width - 1)

theorem dimension_eq {value : Nat} (hpos : 0 < value) (hlt : value < 2 ^ 16) : dimension value = value := by
  unfold dimension clampU16
  omega

/-- **The rebuilt terminal is what is typed again**, for every pane. -/
theorem rebuilt_retyped :
    (grid.rebuilt change lineFlags).history ++ (grid.rebuilt change lineFlags).screen.rows.map Row.cells =
        grid.retyped ∧
      (grid.rebuilt change lineFlags).screen.rows.length = grid.height ∧
      (grid.rebuilt change lineFlags).screen.row = grid.cursorY ∧
      (grid.rebuilt change lineFlags).screen.col = min grid.cursorX (grid.width - 1) := by
  obtain ⟨hstart, halternate⟩ := shows_opening grid.width_pos grid.height_pos grid.alternateOn
  have hpaper : grid.typewriter.typeParagraphs true blankPaper ((logicalLines grid.lines).map lineCells) =
      grid.paper := by
    rw [logicalLines_cells, Typewriter.typeParagraphs_paragraphs]
    rfl
  have hfits : ∀ rows ∈ logicalLines grid.lines, ∀ cell ∈ lineCells rows, cell.columns ≤ grid.width := by
    intro rows hrows cell hcell
    obtain ⟨line, hline, hcell⟩ := mem_flatMap.mp hcell
    have hmem := mem_flatten_of_mem hrows hline
    rw [flatten_logicalLines] at hmem
    exact le_trans (columns_le hcell) (grid.fits line hmem)
  have hlines := hstart.lines change lineFlags true (logicalLines grid.lines) hfits (by
    intro hon
    have hheight : grid.lines.length = grid.height := by
      rw [lines, grid.alternate (halternate.symm.trans hon), nil_append, grid.visible_length]
    have hlt := paper_lines_lt grid
    rw [hheight, ← hpaper] at hlt
    exact hlt)
  have hend := hpaper ▸ hlines
  obtain ⟨hhistory, hscreen⟩ := type_closing grid hend.plain.origin hend.cols_eq hend.height_eq
  have hrebuilt : grid.rebuilt change lineFlags =
      (((fresh grid.height grid.width).replay (openingCommands grid.alternateOn)).type
        (lineCommands change lineFlags true blankPaper.style (logicalLines grid.lines))).type
          (closingCommands grid) := by
    unfold rebuilt
    rw [dimension_eq grid.height_pos grid.height_lt, dimension_eq grid.width_pos grid.width_lt,
      rebuildCommands_eq, ← type_append, replay, foldl_append]
    rfl
  rw [hrebuilt, hhistory, hscreen]
  refine ⟨?_, hend.height_eq, rfl, rfl⟩
  exact hend.paper

theorem shownBy_iff_retyped : grid.ShownBy (grid.rebuilt change lineFlags) ↔ grid.retyped = grid.sheet := by
  obtain ⟨hpaper, hlength, hrow, hcol⟩ := rebuilt_retyped grid change lineFlags
  rw [← hpaper, sheet, lines, map_append]
  refine ⟨fun h => by rw [h.history, h.visible], fun h => ?_⟩
  obtain ⟨hhistory, hvisible⟩ := append_inj' h (by
    rw [length_map, length_map, hlength, grid.visible_length])
  exact ⟨hvisible, hhistory, hrow, hcol⟩

/-! ## Rows that are broken as they were -/

/-- A row goes over in the next because the next glyph has no room in it. -/
def PaneGrid.Rewraps : Prop :=
  grid.lines.IsChain fun row next =>
    row.wrapped = true → ∃ cell, next.cells.head? = some cell ∧ grid.width < row.columns + cell.columns

/-- A joined row comes in with the pen of its first glyph, another with that of the glyph before. -/
def arrivalPen (pen : Style) (joined : Bool) (row : GridLine) : Style :=
  if joined then row.cells.head?.elim pen GridCell.style else pen

/-- No row below the first screen is short and has its line come in with a coloured background. -/
def PlainScrolls (width height : Nat) : Nat → Style → Bool → List GridLine → Prop
  | _, _, _, [] => True
  | index, pen, joined, row :: rest =>
    (height ≤ index → row.columns < width →
      (arrivalPen pen joined row).background = Style.default.background) ∧
    PlainScrolls width height (index + 1) (penAfter pen row.cells) row.wrapped rest

def PaneGrid.PlainScrolls : Prop := Tmux.PlainScrolls grid.width grid.height 0 .default true grid.lines

theorem on_nextFill_iff {line : GridLine} {width height index : Nat} {pen : Style} :
    line.on width (nextFill height index pen) = line.on width blankCell ↔
      (height ≤ index → line.columns < width → pen.background = Style.default.background) := by
  have hfill : nextFill height index pen = blankCell ↔
      (height ≤ index → pen.background = Style.default.background) := by
    unfold nextFill
    split
    · exact ⟨fun _ hle => by omega, fun _ => rfl⟩
    · refine ⟨fun heq _ => congrArg (fun cell : Cell => cell.style.background) heq, fun hplain => ?_⟩
      rw [hplain (by omega)]
      rfl
  unfold on
  rw [append_cancel_left_eq, replicate_inj, hfill]
  refine ⟨fun h hindex hshort => ?_, fun h => ⟨rfl, ?_⟩⟩
  · obtain hnone | hplain := h.2
    · omega
    · exact hplain hindex
  · by_cases hshort : line.columns < width
    · exact .inr fun hindex => h hindex hshort
    · exact .inl (by omega)

theorem laid_iff (index : Nat) (pen : Style) (joined : Bool) (rows : List GridLine) :
    grid.typewriter.laid index pen joined (rows.map typed) =
        rows.map (fun line => line.on grid.width blankCell) ↔
      Tmux.PlainScrolls grid.width grid.height index pen joined rows := by
  induction rows generalizing index pen joined with
  | nil => exact ⟨fun _ => trivial, fun _ => rfl⟩
  | cons row rest ih =>
    have hline : row.cells.flatMap grid.typewriter.ink ++
        replicate (grid.width - grid.typewriter.columns row.typed.1)
          (nextFill grid.height index (arrivalPen pen joined row)) =
        row.on grid.width (nextFill grid.height index (arrivalPen pen joined row)) := by
      rw [columns_typed]
      rfl
    have hlaid : grid.typewriter.laid index pen joined ((row :: rest).map typed) =
        row.on grid.width (nextFill grid.height index (arrivalPen pen joined row)) ::
          grid.typewriter.laid (index + 1) (penAfter pen row.cells) row.wrapped (rest.map typed) := by
      rw [← hline]
      rfl
    rw [hlaid, map_cons, cons.injEq, on_nextFill_iff, ih]
    rfl

theorem length_laid (index : Nat) (pen : Style) (joined : Bool) (rows : List (Typewriting.Row GridCell)) :
    (grid.typewriter.laid index pen joined rows).length = rows.length := by
  induction rows generalizing index pen joined with
  | nil => rfl
  | cons row rest ih => rw [Typewriter.laid, length_cons, ih, length_cons]

theorem continues_of_rewraps (h : grid.Rewraps) : (grid.lines.map typed).IsChain grid.typewriter.Continues := by
  refine (isChain_map typed).mpr (h.imp fun row next hrow hwrapped => ?_)
  obtain ⟨cell, hhead, hfull⟩ := hrow hwrapped
  refine ⟨cell, hhead, ?_⟩
  rw [columns_typed]
  exact cell.length_shown.symm ▸ hfull

theorem retyped_iff_of_rewraps (h : grid.Rewraps) : grid.retyped = grid.sheet ↔ grid.PlainScrolls := by
  have hchain := continues_of_rewraps grid h
  have hfits := fits_typed grid
  have hpaper : grid.paper.lines ++ [grid.typewriter.full grid.paper] =
      grid.typewriter.laid 0 .default true (grid.lines.map typed) := by
    unfold paper
    cases hlines : grid.lines with
    | nil => exact absurd hlines (lines_ne_nil grid)
    | cons row rest =>
      rw [hlines] at hchain hfits
      refine grid.typewriter.typeRows_top (fun pen => ?_) hchain hfits
      show nextFill grid.height 0 pen = blankCell
      rw [nextFill, if_pos grid.height_pos]
  have hlength := congrArg length hpaper
  have hheight : grid.height ≤ grid.lines.length := by
    rw [lines, length_append, grid.visible_length]
    omega
  rw [length_laid, length_map, length_append, length_singleton] at hlength
  have hnone : grid.height - (grid.paper.lines.length + 1) = 0 := by omega
  have hretyped : grid.retyped = grid.typewriter.laid 0 .default true (grid.lines.map typed) := by
    rw [← hpaper, retyped, hnone]
    rfl
  rw [hretyped]
  exact laid_iff grid 0 .default true grid.lines

theorem captureLines_flags (pen : Style) (lines : List (List GridLine)) :
    (captureLines change true pen lines).map captureLineFlags =
      (lines.map fun rows => flagLetters (lineFlagsOf rows)).zip (captureLines change false pen lines) := by
  induction lines generalizing pen with
  | nil => rfl
  | cons rows rest ih =>
    simp only [captureLines, map_cons, ih, if_true, append_assoc,
      singleton_append, captureLineFlags_flagLetters]
    simp

/-- **What is written for a capture is read as the pane where no line scrolls in with a background.** Rows that
are broken where the next glyph has no room come back, except that a short one below the first screen gets the
pen's background. -/
theorem capture_rebuilt (change : PenChange) (lineFlags : Bool) (pendingEscape : Bytes) :
    reconstructionBytes grid.alternateOn grid.cursorX grid.cursorY grid.cursorVisible grid.cursorShape
        ⟨grid.capture change lineFlags, pendingEscape, lineFlags⟩ =
      (grid.rebuildCommands change lineFlags).flatMap PaneCommand.bytes ++ pendingEscape ∧
    (grid.capture change true).map captureLineFlags =
      ((logicalLines grid.lines).map fun rows => flagLetters (lineFlagsOf rows)).zip
        (grid.capture change false) ∧
    (grid.ShownBy (grid.rebuilt change lineFlags) ↔ grid.retyped = grid.sheet) ∧
    (grid.Rewraps → (grid.ShownBy (grid.rebuilt change lineFlags) ↔ grid.PlainScrolls)) := by
  have hshown := shownBy_iff_retyped grid change lineFlags
  refine ⟨reconstructionBytes_capture change grid lineFlags pendingEscape, ?_, hshown, fun hrewraps => ?_⟩
  · exact captureLines_flags change .default (logicalLines grid.lines)
  · exact hshown.trans (retyped_iff_of_rewraps grid hrewraps)

end Panes

/-! ## Two panes -/

def wholeChange : PenChange := ⟨fun _ after => [styleParameters after], fun before after => by
  rw [foldl_cons, foldl_nil, renditionPen_styleParameters]⟩

def redCell (text : String) : GridCell := ⟨text, false, { Style.default with background := .indexed 1 }⟩

def wrappedPane : PaneGrid where
  width := 3
  height := 2
  history := [⟨[redCell "a", redCell "b"], true, [.startOutput]⟩]
  visible := [⟨[⟨"界", true, .default⟩], false, []⟩, ⟨[⟨"c", false, .default⟩], false, []⟩]
  cursorX := 1
  cursorY := 1
  cursorVisible := true
  cursorShape := "bar"
  alternateOn := false
  width_pos := by decide
  height_pos := by decide
  width_lt := by decide
  height_lt := by decide
  visible_length := rfl
  fits := by decide
  cursorX_le := by decide
  cursorY_lt := by decide
  alternate := by decide

theorem capture_rebuilt_wrappedPane : wrappedPane.ShownBy (wrappedPane.rebuilt wholeChange true) := by
  refine ((capture_rebuilt wrappedPane wholeChange true []).2.2.2 ?_).mpr ?_
  · simp [PaneGrid.Rewraps, lines, wrappedPane, redCell, columns, GridCell.columns]
  · simp [PaneGrid.PlainScrolls, Tmux.PlainScrolls, lines, wrappedPane, arrivalPen, penAfter]

def redPane : PaneGrid where
  width := 2
  height := 1
  history := [⟨[redCell "a", redCell "b"], false, []⟩]
  visible := [⟨[⟨"$", false, .default⟩], false, []⟩]
  cursorX := 1
  cursorY := 0
  cursorVisible := true
  cursorShape := "block"
  alternateOn := false
  width_pos := by decide
  height_pos := by decide
  width_lt := by decide
  height_lt := by decide
  visible_length := rfl
  fits := by decide
  cursorX_le := by decide
  cursorY_lt := by decide
  alternate := by decide

/-- Nothing is wrapped, and behind the prompt the rebuilt line is red. -/
theorem red_line_scrolls_in : redPane.Rewraps ∧ ¬ redPane.ShownBy (redPane.rebuilt wholeChange false) := by
  refine ⟨by simp [PaneGrid.Rewraps, lines, redPane], ?_⟩
  rw [shownBy_iff_retyped]
  decide

end Lector.Tmux
