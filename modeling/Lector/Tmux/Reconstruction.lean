import Lector.Foundations.Typewriter
import Lector.Presentation.RowPrinting
import Lector.Tmux.Capture

/-! Panes that are rebuilt by printing their capture on a fresh terminal. It types lines on an
endless paper of which it shows the end; a line that comes in has the background of the pen. -/
namespace Lector.Tmux
open Terminal Presentation Typewriting OuterScreen GridCell Bool
open List hiding min

/-! ## A terminal with a history -/

variable (s : OuterScreen)

def lineOff : List (List Cell) :=
  if s.row + 1 = s.bottom ∧ s.top = 0 then (s.rows.take 1).map Row.cells else []

def printOff (columns : Nat) : List (List Cell) :=
  let pending := s.pendingWrap && s.autowrap
  let wrapped := if pending then s.wrap else s
  (if pending then lineOff s else []) ++
    if wrapped.rightEdge < wrapped.col + columns ∧ wrapped.autowrap = true then lineOff wrapped else []

def scrolledOff : OuterCommand → List (List Cell)
  | .print _ columns => printOff s columns
  | .lineFeed => lineOff s
  | _ => []

structure PaneScreen where
  screen : OuterScreen
  history : List (List Cell)
  alternate : Bool
deriving DecidableEq

namespace PaneScreen

def fresh (rows cols : Nat) : PaneScreen := ⟨.blank rows cols, [], false⟩

variable (p : PaneScreen)

def step : PaneCommand → PaneScreen
  | .alternateScreen => { p with screen := p.screen.step .eraseDisplay, alternate := true }
  | .text command =>
    { p with
      screen := p.screen.step command
      history := if p.alternate then p.history else p.history ++ scrolledOff p.screen command }

def replay (commands : List PaneCommand) : PaneScreen := commands.foldl step p

def type (commands : List OuterCommand) : PaneScreen := p.replay (commands.map .text)

theorem type_append (commands more : List OuterCommand) :
    p.type (commands ++ more) = (p.type commands).type more := by
  unfold type replay
  rw [map_append, foldl_append]

end PaneScreen

open PaneScreen

/-! ## Rows as they are shown -/

variable (cell : GridCell)

def GridCell.shown : List Cell :=
  let lead : Cell := ⟨cell.text, UInt8.ofNat cell.columns, false, cell.style, none⟩
  if cell.wide then [lead, trail lead] else [lead]

def GridLine.shown (line : GridLine) : List Cell := line.cells.flatMap GridCell.shown

def GridLine.on (line : GridLine) (cols : Nat) (fill : Cell) : List Cell :=
  line.shown ++ List.replicate (cols - line.columns) fill

theorem GridCell.length_shown : cell.shown.length = cell.columns := by
  unfold shown columns
  cases cell.wide <;> rfl

theorem GridCell.columns_pos : 0 < cell.columns := by
  unfold columns
  split <;> omega

theorem GridCell.shownGlyph : ShownGlyph cell.shown := by
  unfold shown columns
  cases cell.wide with
  | true => exact .inr ⟨_, rfl, rfl⟩
  | false => exact .inl ⟨_, rfl, rfl, rfl⟩

def nextFill (height index : Nat) (pen : Style) : Cell :=
  if index < height then blankCell
  else { blankCell with style := { Style.default with background := pen.background } }

def paneTypewriter (cols height : Nat) : Typewriter GridCell Style Cell :=
  ⟨cols, GridCell.shown, GridCell.style, nextFill height⟩

theorem mend_fill {fill : Cell} (narrow : Narrow fill) (n : Nat) :
    mend (replicate n fill) = replicate n fill := by
  induction n with
  | zero => rfl
  | succ n ih => rw [replicate_succ, mend_cons_narrow narrow, ih]

/-! ## Typing -/

/-- `lines` have been typed, and `line` on one more filled with `fill`, on an endless paper. -/
structure Typed (p : PaneScreen) (cols height : Nat) (lines : List (List Cell)) (line : List Cell) (fill : Cell)
    (pen : Style) : Prop where
  plain : p.screen.Plain
  cols_eq : p.screen.cols = cols
  height_eq : p.screen.rows.length = height
  autowrap : p.screen.autowrap = true
  top : p.screen.top = 0
  bottom : p.screen.bottom = height
  link : p.screen.link = none
  pen_eq : p.screen.pen = pen
  at_ : p.screen.At line.length
  shown : ShownCells line
  room : line.length ≤ cols
  filling : Narrow fill
  row : p.history.length + p.screen.row = lines.length
  row_lt : p.screen.row < height
  paper : p.history ++ p.screen.rows.map Row.cells =
    lines ++ (line ++ List.replicate (cols - line.length) fill) ::
      List.replicate (height - (lines.length + 1)) (List.replicate cols blankCell)

namespace Typed

variable {p : PaneScreen} {cols height : Nat} {lines : List (List Cell)} {line : List Cell} {fill : Cell}
  {pen : Style}

section

variable (h : Typed p cols height lines line fill pen)
include h

theorem history_length : p.history.length = lines.length + 1 - height := by
  have hlength := congrArg length h.paper
  simp only [length_append, length_map, h.height_eq, length_cons, length_replicate] at hlength
  omega

theorem bottom_iff : p.screen.row + 1 = height ↔ height ≤ lines.length + 1 := by
  have hlength := h.history_length
  have hrow := h.row
  omega

theorem current : ∃ row, p.screen.rows[p.screen.row]? = some row ∧
      row.cells = line ++ replicate (cols - line.length) fill := by
  have hget : (p.history ++ p.screen.rows.map Row.cells)[p.history.length + p.screen.row]? =
      some (line ++ replicate (cols - line.length) fill) := by
    rw [h.paper, h.row, getElem?_append_right (le_rfl), Nat.sub_self]
    rfl
  rw [getElem?_append_right (Nat.le_add_right _ _), Nat.add_sub_cancel_left, getElem?_map] at hget
  obtain ⟨row, hrow, hcells⟩ := Option.map_eq_some_iff.mp hget
  exact ⟨row, hrow, hcells⟩

theorem repen (pen' : Style) :
    Typed { p with screen := { p.screen with pen := pen' } } cols height lines line fill pen' where
  plain := ⟨h.plain.origin, h.plain.insert, h.plain.leftRight, h.plain.wide, h.plain.lines⟩
  cols_eq := h.cols_eq
  height_eq := h.height_eq
  autowrap := h.autowrap
  top := h.top
  bottom := h.bottom
  link := h.link
  pen_eq := rfl
  at_ := ⟨h.at_.inside, h.at_.behind⟩
  shown := h.shown
  room := h.room
  filling := h.filling
  row := h.row
  row_lt := h.row_lt
  paper := h.paper

theorem placed {columns : Nat} (hpositive : 0 < columns) (hroom : line.length + columns ≤ cols) :
    p.screen.place columns = p.screen ∧ printOff p.screen columns = [] := by
  obtain ⟨hcol, hpending⟩ := h.at_.inside (by rw [h.cols_eq]; omega)
  have hedge := rightEdge_plain h.plain
  refine ⟨place_room h.plain hpending (by rw [hcol, h.cols_eq]; exact hroom), ?_⟩
  unfold printOff
  simp only [hpending, Bool.false_and, false_eq_true, if_false, nil_append]
  rw [if_neg (by rw [hedge, h.cols_eq]; omega)]

/-- **A glyph goes behind the others where there is room.** -/
theorem print (cell : GridCell) (hstyle : cell.style = pen) (hroom : line.length + cell.columns ≤ cols) :
    Typed (p.step (.text (.print cell.text cell.columns))) cols height lines (line ++ cell.shown) fill pen := by
  have hpositive := cell.columns_pos
  obtain ⟨hcol, -⟩ := h.at_.inside (by rw [h.cols_eq]; omega)
  have hglyph : p.screen.glyph cell.text cell.columns = cell.shown := by
    unfold OuterScreen.glyph GridCell.shown columns
    rw [h.pen_eq, h.link, hstyle]
    cases cell.wide <;> rfl
  obtain ⟨hplace, hoff⟩ := h.placed hpositive hroom
  obtain ⟨-, hframe, hplain, hheight, hat, -, hpen, hlink⟩ := OuterScreen.print_room h.plain
    (by rw [h.height_eq]; exact h.row_lt) h.at_ hpositive (hglyph ▸ cell.shownGlyph)
    (hglyph ▸ cell.length_shown) (by rw [h.cols_eq]; exact hroom)
  have hrowlt : p.screen.row < p.screen.rows.length := by rw [h.height_eq]; exact h.row_lt
  have hrows := print_rows h.plain.insert hrowlt cell.text hplace
  obtain ⟨row, hrow, hcells⟩ := h.current
  rw [getElem?_eq_getElem hrowlt] at hrow
  cases hrow
  -- the glyph is mended with the rest of the line, which is blank
  have hmend : mend (Shifting.splice p.screen.rows[p.screen.row].cells p.screen.col
      (p.screen.glyph cell.text cell.columns)) =
        line ++ cell.shown ++ replicate (cols - (line ++ cell.shown).length) fill := by
    rw [hcells, hcol, hglyph, Shifting.splice_append, drop_replicate,
      (h.shown.append (.single cell.shownGlyph)).mend_append, mend_fill h.filling, length_append, Nat.sub_sub]
  rw [hmend] at hrows
  have hhistory : (p.step (.text (.print cell.text cell.columns))).history = p.history := by
    show (if p.alternate then p.history else p.history ++ printOff p.screen _) = _
    rw [hoff, append_nil, ite_self]
  have hscreen : (p.step (.text (.print cell.text cell.columns))).screen =
      p.screen.step (.print cell.text cell.columns) := rfl
  have hsame : (p.screen.step (.print cell.text cell.columns)).row = p.screen.row := by rw [hframe]
  refine ⟨hplain, ?_, ?_, ?_, ?_, ?_, hlink.trans h.link, hpen.trans h.pen_eq, ?_,
    h.shown.append (.single cell.shownGlyph), ?_, h.filling, ?_, ?_, ?_⟩
  · rw [hscreen, hframe]
    exact h.cols_eq
  · exact hheight.trans h.height_eq
  · rw [hscreen, hframe]
    exact h.autowrap
  · rw [hscreen, hframe]
    exact h.top
  · rw [hscreen, hframe]
    exact h.bottom
  · rw [length_append, cell.length_shown]
    exact hat
  · rw [length_append, cell.length_shown]
    exact hroom
  · rw [hhistory, hscreen, hsame]
    exact h.row
  · rw [hscreen, hsame]
    exact h.row_lt
  · rw [hhistory, hscreen, hrows, map_set]
    have hset : p.history ++ (p.screen.rows.map Row.cells).set p.screen.row
        (line ++ cell.shown ++ replicate (cols - (line ++ cell.shown).length) fill) =
          (p.history ++ p.screen.rows.map Row.cells).set lines.length
            (line ++ cell.shown ++ replicate (cols - (line ++ cell.shown).length) fill) := by
      rw [← h.row, set_append_right _ _ (Nat.le_add_right _ _), Nat.add_sub_cancel_left]
    rw [hset, h.paper, set_append_right _ _ (le_rfl), Nat.sub_self]
    rfl

/-- **The next line**: a full screen scrolls, and the new line has the background of the pen. -/
theorem down {rows : List Row}
    (hcells : rows.map Row.cells = p.screen.rows.map Row.cells)
    (hscroll : p.alternate = true → lines.length + 1 < height) : Typed
      { p with
        screen := ({ p.screen with rows := rows, col := 0, pendingWrap := false } : OuterScreen).indexDown
        history := if p.alternate then p.history else p.history ++ lineOff p.screen }
      cols height (lines ++ [line ++ replicate (cols - line.length) fill]) []
      (nextFill height (lines.length + 1) pen) pen := by
  have hlength : rows.length = height := by
    have hmap := congrArg length hcells
    rwa [length_map, length_map, h.height_eq] at hmap
  have hlines : ∀ row ∈ rows, row.cells.length = p.screen.cols := by
    intro row hmem
    have hcell := hcells ▸ mem_map_of_mem hmem
    obtain ⟨old, hold, heq⟩ := mem_map.mp hcell
    rw [← heq]
    exact h.plain.lines old hold
  have hwide : 0 < cols := h.cols_eq ▸ h.plain.wide
  have hrow := h.row
  have hbottom := h.bottom_iff
  by_cases hend : p.screen.row + 1 = height
  · -- the screen scrolls
    have halternate : p.alternate = false := by
      cases halternate : p.alternate with
      | false => rfl
      | true =>
        have := hscroll halternate
        omega
    have hfill : nextFill height (lines.length + 1) pen = p.screen.erasedCell := by
      rw [nextFill, if_neg (by omega), ← h.pen_eq]
      rfl
    have hup : ({ p.screen with rows := rows, col := 0, pendingWrap := false } : OuterScreen).indexDown =
        { p.screen with
          rows := rows.drop 1 ++ [p.screen.erasedRow]
          col := 0
          pendingWrap := false
          scrolled := p.screen.scrolled + 1 } := by
      have hshift : Shifting.up rows p.screen.top p.screen.bottom 1 p.screen.erasedRow =
          rows.drop 1 ++ [p.screen.erasedRow] := by
        rw [h.top, h.bottom, ← hlength]
        simp [Shifting.up]
      unfold indexDown
      rw [if_pos (by rw [h.bottom]; exact hend), ← hshift]
      rfl
    have hoff : lineOff p.screen = (p.screen.rows.take 1).map Row.cells := by
      rw [lineOff, if_pos ⟨by rw [h.bottom]; exact hend, h.top⟩]
    have hsplit : (p.screen.rows.take 1).map Row.cells ++ (rows.drop 1).map Row.cells =
        p.screen.rows.map Row.cells := by
      rw [map_take, map_drop, hcells, take_append_drop]
    have htaken : ((p.screen.rows.take 1).map Row.cells).length = 1 := by
      rw [length_map, length_take, h.height_eq]
      omega
    rw [hup, halternate, hoff, hfill]
    refine ⟨⟨h.plain.origin, h.plain.insert, h.plain.leftRight, h.plain.wide, ?_⟩, h.cols_eq, ?_, h.autowrap,
      h.top, h.bottom, h.link, h.pen_eq, ⟨fun _ => ⟨rfl, rfl⟩, fun hle => ?_⟩, .nil, Nat.zero_le _, ⟨rfl, rfl⟩,
      ?_, h.row_lt, ?_⟩
    · intro row hmem
      obtain hmem | hmem := mem_append.mp hmem
      · exact hlines row (mem_of_mem_drop hmem)
      · rw [mem_singleton.mp hmem]
        exact length_replicate
    · simp only [length_append, length_drop, length_singleton]
      omega
    · exact absurd hle (by rw [h.cols_eq, length_nil]; omega)
    · simp only [false_eq_true, if_false, length_append, length_singleton]
      omega
    · simp only [false_eq_true, if_false, map_append, append_assoc]
      rw [← append_assoc ((p.screen.rows.take 1).map Row.cells), hsplit, ← append_assoc, h.paper]
      have hnone : height - (lines.length + 1) = 0 := by omega
      have hnone' : height - ((lines ++ [line ++ replicate (cols - line.length) fill]).length + 1) = 0 := by
        simp only [length_append]
        omega
      rw [hnone, hnone']
      simp [OuterScreen.erasedRow, h.cols_eq]
  · have hroom : lines.length + 1 < height := by
      by_contra hle
      exact hend (hbottom.mpr (by omega))
    have hfill : nextFill height (lines.length + 1) pen = blankCell := by rw [nextFill, if_pos hroom]
    have hdown : ({ p.screen with rows := rows, col := 0, pendingWrap := false } : OuterScreen).indexDown =
        { p.screen with rows := rows, row := p.screen.row + 1, col := 0, pendingWrap := false } := by
      unfold indexDown
      rw [if_neg (by rw [h.bottom]; exact hend)]
      have hmin : min (p.screen.row + 1) (rows.length - 1) = p.screen.row + 1 := by omega
      simp only [hmin]
    have hoff : lineOff p.screen = [] := by
      rw [lineOff, if_neg (by rw [h.bottom]; exact fun hboth => hend hboth.1)]
    rw [hdown, hoff, append_nil, ite_self, hfill]
    refine ⟨⟨h.plain.origin, h.plain.insert, h.plain.leftRight, h.plain.wide, hlines⟩, h.cols_eq, hlength,
      h.autowrap, h.top, h.bottom, h.link, h.pen_eq, ⟨fun _ => ⟨rfl, rfl⟩, fun hle => ?_⟩, .nil, Nat.zero_le _,
      narrow_blankCell, ?_, by show p.screen.row + 1 < height; omega, ?_⟩
    · exact absurd hle (by rw [length_nil]; show ¬ p.screen.cols ≤ 0; rw [h.cols_eq]; omega)
    · show p.history.length + (p.screen.row + 1) = _
      rw [length_append, length_singleton]
      omega
    · rw [hcells, h.paper]
      have hmore : height - (lines.length + 1) = height - (lines.length + 1 + 1) + 1 := by omega
      rw [hmore, replicate_succ]
      simp

theorem leftEdge_eq : p.screen.leftEdge = 0 := by
  rw [leftEdge, h.plain.leftRight]
  rfl

theorem lineBreak (hscroll : p.alternate = true → lines.length + 1 < height) :
    Typed (p.type [.carriageReturn, .lineFeed]) cols height
      (lines ++ [line ++ replicate (cols - line.length) fill]) []
      (nextFill height (lines.length + 1) pen) pen := by
  have heq : p.type [.carriageReturn, .lineFeed] = { p with
        screen := ({ p.screen with
          rows := p.screen.rows, col := 0, pendingWrap := false } : OuterScreen).indexDown
        history := if p.alternate then p.history else p.history ++ lineOff p.screen } := by
    unfold type PaneScreen.replay
    simp only [map_cons, foldl_cons, PaneScreen.step, scrolledOff,
      append_nil, ite_self, OuterScreen.step, h.leftEdge_eq]
    rfl
  rw [heq]
  exact h.down rfl hscroll

/-- **A glyph without room wraps the line**, and the next one has the background of its style. -/
theorem wrap (cell : GridCell) (hstyle : cell.style = pen) (hfull : cols < line.length + cell.columns)
    (hfits : cell.columns ≤ cols) (hscroll : p.alternate = true → lines.length + 1 < height) :
    Typed (p.step (.text (.print cell.text cell.columns))) cols height
      (lines ++ [line ++ replicate (cols - line.length) fill]) cell.shown
      (nextFill height (lines.length + 1) pen) pen := by
  have hcells : (p.screen.rows.modify p.screen.row fun row => { row with wrapped := true }).map Row.cells =
      p.screen.rows.map Row.cells := by
    refine ext_getElem? fun n => ?_
    rw [getElem?_map, getElem?_map, getElem?_modify]
    cases p.screen.rows[n]? with
    | none => rfl
    | some row => split <;> rfl
  have hdown := h.down hcells hscroll
  rw [← h.leftEdge_eq] at hdown
  have hwrapped : Typed { p with
        screen := p.screen.wrap
        history := if p.alternate then p.history else p.history ++ lineOff p.screen }
      cols height (lines ++ [line ++ replicate (cols - line.length) fill]) []
      (nextFill height (lines.length + 1) pen) pen := hdown
  obtain ⟨hstay, hnone⟩ := hwrapped.placed cell.columns_pos (by rw [length_nil]; omega)
  have hedge := rightEdge_plain h.plain
  have hedge' := rightEdge_plain hwrapped.plain
  -- the wrap is pending, or the glyph needs it
  have hplace : p.screen.place cell.columns = p.screen.wrap ∧ printOff p.screen cell.columns =
      lineOff p.screen := by
    obtain hinside | hbehind := lt_or_ge line.length cols
    · obtain ⟨hcol, hpending⟩ := h.at_.inside (by rw [h.cols_eq]; exact hinside)
      have hneeds : p.screen.rightEdge < p.screen.col + cell.columns := by
        rw [hedge, hcol, h.cols_eq]
        exact hfull
      refine ⟨?_, ?_⟩
      · unfold OuterScreen.place
        simp only [hpending, Bool.false_and, false_eq_true, if_false]
        rw [if_pos hneeds, if_pos h.autowrap]
      · unfold printOff
        simp only [hpending, Bool.false_and, false_eq_true, if_false, nil_append]
        rw [if_pos ⟨hneeds, h.autowrap⟩]
    · obtain ⟨-, hpending⟩ := h.at_.behind (by rw [h.cols_eq]; exact hbehind)
      obtain ⟨hcol, -⟩ := hwrapped.at_.inside (by rw [hwrapped.cols_eq]; exact lt_of_lt_of_le cell.columns_pos hfits)
      have hcol : p.screen.wrap.col = 0 := hcol
      have hcols : p.screen.wrap.cols = cols := hwrapped.cols_eq
      have hedge' : p.screen.wrap.rightEdge = p.screen.wrap.cols := hedge'
      have hneeds : ¬ p.screen.wrap.rightEdge < p.screen.wrap.col + cell.columns := by
        omega
      refine ⟨?_, ?_⟩
      · unfold OuterScreen.place
        simp only [hpending, h.autowrap, Bool.and_self, if_true]
        rw [if_neg hneeds]
      · unfold printOff
        simp only [hpending, h.autowrap, Bool.and_self, if_true]
        rw [if_neg fun hboth => hneeds hboth.1, append_nil]
  have hsame : p.step (.text (.print cell.text cell.columns)) = step { p with
          screen := p.screen.wrap
          history := if p.alternate then p.history else p.history ++ lineOff p.screen }
        (.text (.print cell.text cell.columns)) := by
    simp only [PaneScreen.step, OuterScreen.step, scrolledOff, hplace.1, hplace.2, hstay, hnone, append_nil]
    cases p.alternate <;> rfl
  rw [hsame]
  exact hwrapped.print cell hstyle (by rw [length_nil]; omega)

end

end Typed

/-! ## Text -/

variable (p : PaneScreen)

theorem type_renditions (renditions : List (List (List Nat))) : p.type (renditions.map .rendition) =
      { p with screen := { p.screen with
        pen := renditions.foldl (fun pen parameters => renditionPen parameters pen) p.screen.pen } } := by
  induction renditions generalizing p with
  | nil => rfl
  | cons parameters rest ih =>
    have hstep : p.step (.text (.rendition parameters)) =
        { p with screen := { p.screen with pen := renditionPen parameters p.screen.pen } } := by
      show mk _ (if p.alternate then p.history else p.history ++ []) _ = _
      rw [append_nil, ite_self]
      rfl
    have hcons : p.type ((parameters :: rest).map .rendition) =
        (p.step (.text (.rendition parameters))).type (rest.map .rendition) := rfl
    rw [hcons, hstep, ih]
    rfl

theorem type_markCommands (lineFlags : Bool) (flags : List LineFlag) :
    p.type (markCommands lineFlags flags) = p := by
  have hmark : ∀ value, p.type [.terminalString 133 (some value)] = p := by
    intro value
    show mk p.screen (if p.alternate then p.history else p.history ++ []) p.alternate = p
    rw [append_nil, ite_self]
  unfold markCommands
  split
  · exact hmark _
  · split
    · exact hmark _
    · rfl

theorem type_alternate (commands : List OuterCommand) : (p.type commands).alternate = p.alternate := by
  induction commands generalizing p with
  | nil => rfl
  | cons command rest ih => exact ih (p.step (.text command))

namespace Typed

variable {p : PaneScreen} {cols height : Nat} {lines : List (List Cell)} {line : List Cell} {fill : Cell}
  {pen : Style} (change : PenChange)

theorem penCommands (h : Typed p cols height lines line fill pen) (cell : GridCell) :
    Typed (p.type (penCommands change pen cell)) cols height lines line fill cell.style := by
  unfold Tmux.penCommands
  split
  · rename_i hsame
    rw [hsame]
    exact h
  · rw [type_renditions, h.pen_eq, change.changes]
    exact h.repen cell.style

end Typed

/-! ## The terminal is the typewriter -/

def Shows (cols height : Nat) (paper : Paper Style Cell) : Prop :=
  Typed p cols height paper.lines paper.line paper.ground paper.style

namespace Shows

variable {p : PaneScreen} {cols height : Nat} {paper : Paper Style Cell} (change : PenChange)

section

variable (h : Shows p cols height paper)
include h

theorem print (cell : GridCell) (hfits : cell.columns ≤ cols)
    (hscroll : p.alternate = true → ((paneTypewriter cols height).print paper cell).lines.length < height) :
    Shows (p.type (penCommands change paper.style cell ++ [.print cell.text cell.columns])) cols height
      ((paneTypewriter cols height).print paper cell) := by
  have hpen := Typed.penCommands change h cell
  have hsame := type_alternate p (penCommands change paper.style cell)
  have hcolumns : ((paneTypewriter cols height).ink cell).length = cell.columns := cell.length_shown
  rw [type_append]
  obtain hfull | hroom := lt_or_ge cols (paper.line.length + cell.columns)
  · rw [(paneTypewriter cols height).print_full paper cell (by rw [hcolumns]; exact hfull)] at hscroll ⊢
    refine Typed.wrap hpen cell rfl hfull hfits fun halternate => ?_
    have hlines := hscroll (hsame.symm.trans halternate)
    rwa [length_append] at hlines
  · rw [(paneTypewriter cols height).print_room paper cell (by rw [hcolumns]; exact hroom)]
    exact Typed.print hpen cell rfl hroom

theorem text (cells : List GridCell) (hfits : ∀ cell ∈ cells, cell.columns ≤ cols)
    (hscroll : p.alternate = true → ((paneTypewriter cols height).type paper cells).lines.length < height) :
    Shows (p.type (textCommands change paper.style cells)) cols height
      ((paneTypewriter cols height).type paper cells) := by
  induction cells generalizing p paper with
  | nil => exact h
  | cons cell rest ih =>
    have hcell := h.print change cell (hfits cell mem_cons_self) fun halternate =>
      lt_of_le_of_lt ((paneTypewriter cols height).lines_le_type _ rest) (hscroll halternate)
    have hrest := ih hcell (fun other hmem => hfits other (mem_cons_of_mem _ hmem)) (by
      rw [type_alternate]
      exact hscroll)
    rw [(paneTypewriter cols height).print_style, ← type_append, append_assoc] at hrest
    exact hrest

theorem lineBreak
    (hscroll : p.alternate = true → ((paneTypewriter cols height).lineBreak paper).lines.length < height) :
    Shows (p.type [.carriageReturn, .lineFeed]) cols height ((paneTypewriter cols height).lineBreak paper) := by
  refine Typed.lineBreak h fun halternate => ?_
  have hlines := hscroll halternate
  rwa [Typewriter.lineBreak, length_append] at hlines

/-- **The terminal types the lines as the typewriter does.** -/
theorem lines (lineFlags first : Bool) (lines : List (List GridLine))
    (hfits : ∀ rows ∈ lines, ∀ cell ∈ lineCells rows, cell.columns ≤ cols) (hscroll : p.alternate = true →
      ((paneTypewriter cols height).typeParagraphs first paper (lines.map lineCells)).lines.length < height) :
    Shows (p.type (lineCommands change lineFlags first paper.style lines)) cols height
      ((paneTypewriter cols height).typeParagraphs first paper (lines.map lineCells)) := by
  induction lines generalizing p paper first with
  | nil => exact h
  | cons rows rest ih =>
    have hfirst : Shows (p.type (if first then [] else [.carriageReturn, .lineFeed])) cols height
        (if first then paper else (paneTypewriter cols height).lineBreak paper) := by
      cases first with
      | true => exact h
      | false =>
        refine h.lineBreak fun halternate => ?_
        refine lt_of_le_of_lt ?_ (hscroll halternate)
        exact le_trans ((paneTypewriter cols height).lines_le_type _ _)
          ((paneTypewriter cols height).lines_le_typeParagraphs false _ _)
    have hstyle : (if first then paper else (paneTypewriter cols height).lineBreak paper).style =
        paper.style := by
      cases first <;> rfl
    have htext := hfirst.text change (lineCells rows) (hfits rows mem_cons_self) (by
      rw [type_alternate]
      exact fun halternate => lt_of_le_of_lt
        ((paneTypewriter cols height).lines_le_typeParagraphs false _ _) (hscroll halternate))
    have hrest := ih htext false (fun other hmem => hfits other (mem_cons_of_mem _ hmem)) (by
      rw [type_alternate, type_alternate]
      exact hscroll)
    rw [(paneTypewriter cols height).type_style, hstyle] at hrest
    rw [lineCommands, type_append, type_append, type_append, type_markCommands]
    exact hrest

end

end Shows

end Lector.Tmux
