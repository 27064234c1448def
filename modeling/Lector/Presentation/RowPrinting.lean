import Lector.Presentation.RowCommands

/-! What the commands of a row print on the outer terminal. -/
namespace Lector.Presentation
open Terminal
open List hiding insert

/-! ## Rows of whole glyphs -/

inductive Glyphs : List Cell → Prop
  | nil : Glyphs []
  | narrow {cell : Cell} {rest : List Cell} (narrow : Narrow cell) (others : Glyphs rest) :
    Glyphs (cell :: rest)
  | wide {lead tail : Cell} {rest : List Cell} (wide : lead.isWide = true)
    (text : lead.grapheme.isEmpty = false) (continues : tail.continuation = true)
    (others : Glyphs rest) : Glyphs (lead :: tail :: rest)

def outerGlyph (cell : Cell) : List Cell :=
  let lead : Cell :=
    ⟨cellText cell, UInt8.ofNat (printedColumns cell), false, cell.style, outerLink cell.hyperlink⟩
  if printedColumns cell = 2 then [lead, trail lead] else [lead]

def outerCells (cells : List Cell) : List Cell :=
  (cells.filter fun cell => !cell.continuation).flatMap outerGlyph

variable {cell lead tail : Cell}

theorem printedColumns_narrow (narrow : Narrow cell) : printedColumns cell = 1 := by
  rw [printedColumns, narrow.1]
  split <;> rfl

theorem printedColumns_cases (cell : Cell) : printedColumns cell = 1 ∨ printedColumns cell = 2 := by
  rw [printedColumns]
  split
  · exact .inl rfl
  · split
    · exact .inr rfl
    · exact .inl rfl

theorem printedColumns_wide (wide : cell.isWide = true)
    (text : cell.grapheme.isEmpty = false) : printedColumns cell = 2 := by
  rw [printedColumns, text, wide]
  rfl

theorem outerCells_narrow (narrow : Narrow cell) (rest : List Cell) :
    outerCells (cell :: rest) = outerGlyph cell ++ outerCells rest := by
  have hcontinuation : cell.continuation = false := narrow.2
  rw [outerCells, filter_cons, hcontinuation]
  rfl

theorem outerCells_wide (wide : lead.isWide = true) (continues : tail.continuation = true) (rest : List Cell) :
    outerCells (lead :: tail :: rest) = outerGlyph lead ++ outerCells rest := by
  have hlead : lead.continuation = false := continuation_of_isWide wide
  rw [outerCells, filter_cons, hlead, filter_cons, continues]
  rfl

variable {cells rest more : List Cell}

theorem length_outerCells (glyphs : Glyphs cells) : (outerCells cells).length = cells.length := by
  induction glyphs with
  | nil => rfl
  | narrow narrow _ ih =>
    rw [outerCells_narrow narrow, length_append, ih, outerGlyph, printedColumns_narrow narrow, add_comm]
    rfl
  | wide wide text continues _ ih =>
    rw [outerCells_wide wide continues, length_append, ih, outerGlyph, printedColumns_wide wide text, add_comm]
    rfl

/-! ## Glyphs and mending -/

/-- A cell that is shown, and its continuation. -/
def ShownGlyph (glyph : List Cell) : Prop :=
  (∃ cell, glyph = [cell] ∧ Narrow cell) ∨ ∃ lead, glyph = [lead, trail lead] ∧ lead.isWide = true

theorem shownGlyph_outerGlyph (cell : Cell) : ShownGlyph (outerGlyph cell) := by
  rw [outerGlyph]
  split
  · rename_i htwo
    exact .inr ⟨_, rfl, by rw [htwo]; rfl⟩
  · rename_i hnot
    have hone := (printedColumns_cases cell).resolve_right hnot
    exact .inl ⟨_, rfl, by rw [hone]; rfl, rfl⟩

theorem joined_cons (cell : Cell) (rest : List Cell) (n : Nat) :
    joined (cell :: rest) (n + 1) = joined rest n := rfl

theorem mendCell_cons (cell : Cell) (rest : List Cell) (n : Nat) :
    mendCell (cell :: rest) (n + 2) = mendCell rest (n + 1) := by
  have hjoined : (n + 2 ≠ 0 ∧ joined (cell :: rest) (n + 2 - 1) = true) ↔
      (n + 1 ≠ 0 ∧ joined rest (n + 1 - 1) = true) := by
    rw [show n + 2 - 1 = n + 1 from rfl, joined_cons]
    simp
  simp only [mendCell, hjoined]
  rfl

theorem mendCell_cons_one (apart : joined (cell :: rest) 0 = false) :
    mendCell (cell :: rest) 1 = mendCell rest 0 := by
  have hsame : cellOr (cell :: rest) 1 = cellOr rest 0 := rfl
  have hjoined : joined (cell :: rest) 1 = joined rest 0 := rfl
  simp only [mendCell, hsame, hjoined, apart, Bool.false_eq_true, and_false, ne_eq,
    not_true_eq_false, false_and, if_false]

theorem mend_cons (cell : Cell) (rest : List Cell) : mend (cell :: rest) = mendCell (cell :: rest) 0 ::
      rest.mapIdx fun n _ => mendCell (cell :: rest) (n + 1) := mapIdx_cons

theorem mend_cons_apart (apart : joined (cell :: rest) 0 = false) :
    mend (cell :: rest) = mendCell (cell :: rest) 0 :: mend rest := by
  rw [mend_cons]
  congr 1
  refine ext_getElem (by rw [length_mapIdx, length_mend]) fun n hn hn' => ?_
  simp only [mend, getElem_mapIdx]
  cases n with
  | zero => exact mendCell_cons_one apart
  | succ n => exact mendCell_cons cell rest n

theorem mend_cons_narrow (narrow : Narrow cell) (rest : List Cell) :
    mend (cell :: rest) = cell :: mend rest := by
  have hapart : joined (cell :: rest) 0 = false := by
    show (cell.isWide && _) = false
    rw [narrow.1, Bool.false_and]
  have hcell : cellOr (cell :: rest) 0 = cell := rfl
  rw [mend_cons_apart hapart, mendCell_narrow (by rw [hcell]; exact narrow), hcell]

theorem mend_cons_wide (wide : lead.isWide = true) (rest : List Cell) :
    mend (lead :: trail lead :: rest) = lead :: trail lead :: mend rest := by
  have hjoined : joined (lead :: trail lead :: rest) 0 = true := by
    show (lead.isWide && true) = true
    rw [wide, Bool.and_true]
  have hapart : joined (trail lead :: rest) 0 = false := by
    show (false && _) = false
    rw [Bool.false_and]
  have hlead := mendCell_lead hjoined
  have htail := mendCell_trail hjoined
  have hsecond := mend_cons_apart hapart
  rw [mend_cons, cons.injEq] at hsecond
  rw [mend_cons, mapIdx_cons]
  congr 2
  rw [← hsecond.2]
  exact congrArg (mapIdx · rest) (funext fun n => funext fun _ => mendCell_cons lead (trail lead :: rest) n)

inductive ShownCells : List Cell → Prop
  | nil : ShownCells []
  | cons {glyph rest : List Cell} (glyph_shown : ShownGlyph glyph) (others : ShownCells rest) :
    ShownCells (glyph ++ rest)

theorem ShownCells.append (shown : ShownCells cells)
    (more_shown : ShownCells more) : ShownCells (cells ++ more) := by
  induction shown with
  | nil => exact more_shown
  | cons glyph_shown _ ih =>
    rw [append_assoc]
    exact .cons glyph_shown ih

theorem ShownCells.single {glyph : List Cell} (shown : ShownGlyph glyph) : ShownCells glyph := by
  have hcells := ShownCells.cons shown .nil
  rwa [append_nil] at hcells

/-- **What is shown is not changed by mending what stands behind it.** -/
theorem ShownCells.mend_append (shown : ShownCells cells) (rest : List Cell) :
    mend (cells ++ rest) = cells ++ mend rest := by
  induction shown with
  | nil => rfl
  | cons glyph_shown _ ih =>
    rcases glyph_shown with ⟨cell, rfl, narrow⟩ | ⟨lead, rfl, wide⟩
    · rw [append_assoc, singleton_append, mend_cons_narrow narrow, ih]
      rfl
    · rw [append_assoc]
      show mend (lead :: trail lead :: (_ ++ rest)) = _
      rw [mend_cons_wide wide, ih]
      rfl

/-! ## One print -/

namespace OuterScreen

variable {s t u : OuterScreen}

structure Plain (s : OuterScreen) : Prop where
  origin : s.originMode = false
  insert : s.insertMode = false
  leftRight : s.leftRightMode = false
  wide : 0 < s.cols
  lines : ∀ row ∈ s.rows, row.cells.length = s.cols

/-- Only cells, the cursor in its line, the pen and the link differ. -/
def Frame (s t : OuterScreen) : Prop :=
  t = { s with rows := t.rows, col := t.col, pendingWrap := t.pendingWrap, pen := t.pen, link := t.link }

theorem Frame.trans (hst : Frame s t) (htu : Frame t u) : Frame s u := by
  rw [Frame] at hst htu ⊢
  rw [htu, hst]

/-- The cursor stands before so many columns of its line, or a wrap is pending behind the last one. -/
structure At (s : OuterScreen) (column : Nat) : Prop where
  inside : column < s.cols → s.col = column ∧ s.pendingWrap = false
  behind : s.cols ≤ column → s.col = s.cols - 1 ∧ s.pendingWrap = true

theorem rightEdge_plain (plain : s.Plain) : s.rightEdge = s.cols := by
  rw [rightEdge, plain.leftRight]
  rfl

variable {columns column : Nat}

theorem place_room (plain : s.Plain) (pending : s.pendingWrap = false)
    (room : s.col + columns ≤ s.cols) : s.place columns = s := by
  rw [place, pending]
  have hroom : ¬ s.rightEdge < s.col + columns := by
    rw [rightEdge_plain plain]
    omega
  exact if_neg hroom

/-- The line of the cursor where the cells behind the column are written anew. -/
def Continued (s t : OuterScreen) (column : Nat) (cells : List Cell) : Prop :=
  ∀ (line : Row) (before rest : List Cell), s.rows[s.row]? = some line → line.cells = before ++ rest →
    before.length = column → ShownCells before →
    ∃ rest', t.rows = s.rows.set s.row ⟨before ++ cells ++ rest', line.wrapped⟩

theorem print_rows (insert : s.insertMode = false) (hrow : s.row < s.rows.length) (text : String)
    (place : s.place columns = s) : (s.step (.print text columns)).rows = s.rows.set s.row
      ⟨mend (Shifting.splice s.rows[s.row].cells s.col (s.glyph text columns)), s.rows[s.row].wrapped⟩ := by
  have hchanged : (s.changeLine fun cells => Shifting.splice cells s.col (s.glyph text columns)).rows =
      s.rows.set s.row ⟨mend (Shifting.splice s.rows[s.row].cells s.col (s.glyph text columns)),
        s.rows[s.row].wrapped⟩ := Shifting.modify_eq_set (getElem?_eq_getElem hrow) _
  rw [step, place, write, insert, ← hchanged]
  split <;> rfl

/-- **A print where there is room** goes behind the glyphs that are there. -/
theorem print_room (plain : s.Plain) (hrow : s.row < s.rows.length) (at_ : s.At column)
    {text : String} (positive : 0 < columns) (glyph_shown : ShownGlyph (s.glyph text columns))
    (length : (s.glyph text columns).length = columns) (room : column + columns ≤ s.cols) :
    s.printOf (.print text columns) = some (s.row, column, text, columns) ∧
      Frame s (s.step (.print text columns)) ∧ (s.step (.print text columns)).Plain ∧
      (s.step (.print text columns)).rows.length = s.rows.length ∧
      (s.step (.print text columns)).At (column + columns) ∧
      Continued s (s.step (.print text columns)) column (s.glyph text columns) ∧
      (s.step (.print text columns)).pen = s.pen ∧ (s.step (.print text columns)).link = s.link := by
  obtain ⟨hcol, hpending⟩ := at_.inside (by omega)
  have hplace : s.place columns = s := place_room plain hpending (by omega)
  have hedge := rightEdge_plain plain
  have hline := getElem?_eq_getElem hrow
  have hrows := hcol ▸ print_rows plain.insert hrow text hplace
  have hlines : ∀ row ∈ (s.step (.print text columns)).rows, row.cells.length = s.cols := by
    rw [hrows]
    intro row hmem
    rcases mem_or_eq_of_mem_set hmem with hold | rfl
    · exact plain.lines row hold
    · have hwidth := plain.lines s.rows[s.row] (getElem_mem hrow)
      rw [length_mend, Shifting.length_splice (by rw [length, hwidth]; exact room), hwidth]
  have hfields : (s.step (.print text columns)) = { s with
        rows := (s.step (.print text columns)).rows
        col := (s.step (.print text columns)).col
        pendingWrap := (s.step (.print text columns)).pendingWrap } := by
    rw [step, hplace, write]
    split <;> rfl
  have hcursor : (s.step (.print text columns)).At (column + columns) := by
    rw [step, hplace, write, hedge, hcol]
    constructor
    · intro hlt
      have hlt' : column + columns < s.cols := by
        split at hlt <;> exact hlt
      rw [if_pos hlt']
      exact ⟨rfl, rfl⟩
    · intro hle
      have hle' : ¬ column + columns < s.cols := by
        split at hle <;> exact not_lt.mpr hle
      rw [if_neg hle']
      exact ⟨rfl, rfl⟩
  refine ⟨?_, ?_, ?_, ?_, hcursor, fun line before rest hline' hcells hbefore shown => ?_, ?_, ?_⟩
  · rw [printOf, hplace, hcol]
  · rw [Frame, hfields]
  · rw [hfields]
    exact ⟨plain.origin, plain.insert, plain.leftRight, plain.wide, hlines⟩
  · rw [hrows, length_set]
  · obtain rfl := Option.some.inj (hline.symm.trans hline')
    refine ⟨mend (rest.drop columns), ?_⟩
    rw [hrows, hcells, ← hbefore, Shifting.splice_append, length,
      (shown.append (.single glyph_shown)).mend_append]
  · rw [hfields]
  · rw [hfields]

/-! ## The cells of a row -/

/-- Where each cell but the continuations belongs: its row and its own column, its text and the columns
that it takes. -/
def spots (row : Nat) : (column : Nat) → List Cell → List (Nat × Nat × String × Nat)
  | _, [] => []
  | column, cell :: rest =>
    (if cell.continuation then [] else [(row, column, cellText cell, printedColumns cell)]) ++
      spots row (column + 1) rest

theorem replay_append (s : OuterScreen) (commands more : List OuterCommand) :
    s.replay (commands ++ more) = (s.replay commands).replay more := foldl_append

theorem prints_append (s : OuterScreen) (commands more : List OuterCommand) :
    s.prints (commands ++ more) = s.prints commands ++ (s.replay commands).prints more := by
  induction commands generalizing s with
  | nil => rfl
  | cons command rest ih =>
    rw [cons_append, prints, prints, ih, append_assoc]
    rfl

theorem prints_singleton (s : OuterScreen) (command : OuterCommand) :
    s.prints [command] = (s.printOf command).toList := append_nil _

variable {style : Style} {link link' : Option String}

theorem replay_prepare (hpen : s.pen = style) (hlink : s.link = outerLink link) (cell : Cell) :
    s.replay ((if cell.hyperlink ≠ link then [linkCommand cell.hyperlink] else []) ++
        (if cell.style ≠ style then [.rendition (styleParameters cell.style)] else [])) =
      { s with pen := cell.style, link := outerLink cell.hyperlink } ∧
    s.prints ((if cell.hyperlink ≠ link then [linkCommand cell.hyperlink] else []) ++
        (if cell.style ≠ style then [.rendition (styleParameters cell.style)] else [])) = [] := by
  have hlinked : s.replay (if cell.hyperlink ≠ link then [linkCommand cell.hyperlink] else []) =
      { s with link := outerLink cell.hyperlink } := by
    split
    · rfl
    · rename_i hsame
      rw [not_not.mp hsame, ← hlink]
      rfl
  have hstyled : ∀ u : OuterScreen, u.pen = style →
      u.replay (if cell.style ≠ style then [.rendition (styleParameters cell.style)] else []) =
        { u with pen := cell.style } := by
    intro u hu
    split
    · show { u with pen := renditionPen (styleParameters cell.style) u.pen } = _
      rw [renditionPen_styleParameters]
    · rename_i hsame
      rw [not_not.mp hsame, ← hu]
      rfl
  constructor
  · rw [replay_append, hlinked]
    exact hstyled { s with link := outerLink cell.hyperlink } hpen
  · split <;> split <;> rfl

theorem length_outerGlyph (cell : Cell) : (outerGlyph cell).length = printedColumns cell := by
  rw [outerGlyph]
  rcases printedColumns_cases cell with hone | htwo
  · rw [hone]
    rfl
  · rw [htwo]
    rfl

/-- The commands print the cells on their own columns, from the column on. -/
structure Printed (s : OuterScreen) (commands : List OuterCommand) (column : Nat) (cells : List Cell)
    (link : Option String) : Prop where
  prints : s.prints commands = spots s.row column cells
  frame : Frame s (s.replay commands)
  plain : (s.replay commands).Plain
  height : (s.replay commands).rows.length = s.rows.length
  at_ : (s.replay commands).At (column + cells.length)
  rows : Continued s (s.replay commands) column (outerCells cells)
  link : (s.replay commands).link = link

/-- A cell with its continuation, if it has one. -/
structure Group (cell : Cell) (group : List Cell) : Prop where
  columns : printedColumns cell = group.length
  spots : ∀ row column others, spots row column (group ++ others) =
    (row, column, cellText cell, printedColumns cell) :: spots row (column + group.length) others
  outer : ∀ others, outerCells (group ++ others) = outerGlyph cell ++ outerCells others

theorem Group.narrow {cell : Cell} (narrow : Narrow cell) : Group cell [cell] := by
  have hcontinuation : cell.continuation = false := narrow.2
  refine ⟨printedColumns_narrow narrow, fun row column others => ?_, outerCells_narrow narrow⟩
  show (if cell.continuation then [] else _) ++ _ = _
  rw [hcontinuation]
  rfl

theorem Group.wide {lead tail : Cell} (wide : lead.isWide = true) (text : lead.grapheme.isEmpty = false)
    (continues : tail.continuation = true) : Group lead [lead, tail] := by
  have hcontinuation : lead.continuation = false := continuation_of_isWide wide
  refine ⟨printedColumns_wide wide text, fun row column others => ?_, outerCells_wide wide continues⟩
  show (if lead.continuation then [] else _) ++ ((if tail.continuation then [] else _) ++ _) = _
  rw [hcontinuation, continues]
  rfl

variable {group others : List Cell}

theorem printed_cell {cell : Cell} (hgroup : Group cell group)
    (plain : s.Plain) (hpen : s.pen = style) (hlink : s.link = outerLink link)
    (hrow : s.row < s.rows.length) (at_ : s.At column) (room : column + group.length ≤ s.cols) :
    Printed s (cellCommands style link cell) column group (outerLink cell.hyperlink) ∧
      (s.replay (cellCommands style link cell)).pen = cell.style := by
  obtain ⟨hready, hquiet⟩ := replay_prepare hpen hlink cell
  rw [← hgroup.columns] at room
  have hpositive : 0 < printedColumns cell := by
    rcases printedColumns_cases cell with hone | htwo <;> omega
  obtain ⟨hprint, hframe, hplain, hheight, hat, hrows, hpen', hlink'⟩ :=
    print_room (s := { s with pen := cell.style, link := outerLink cell.hyperlink })
      ⟨plain.origin, plain.insert, plain.leftRight, plain.wide, plain.lines⟩ hrow
      ⟨at_.inside, at_.behind⟩ hpositive (shownGlyph_outerGlyph cell) (length_outerGlyph cell) room
  have hreplay : s.replay (cellCommands style link cell) =
      { s with pen := cell.style, link := outerLink cell.hyperlink }.step
        (.print (cellText cell) (printedColumns cell)) := by
    rw [cellCommands, replay_append, hready]
    rfl
  have hspots := hgroup.spots s.row column []
  have houter := hgroup.outer []
  rw [append_nil] at hspots houter
  refine ⟨⟨?_, ?_, ?_, ?_, ?_, ?_, ?_⟩, ?_⟩
  · rw [cellCommands, prints_append, hquiet, hready, prints_singleton, hprint, hspots]
    rfl
  · rw [hreplay]
    rw [Frame] at hframe ⊢
    rw [hframe]
  · rw [hreplay]
    exact hplain
  · rw [hreplay]
    exact hheight
  · rw [hreplay, ← hgroup.columns]
    exact hat
  · have hglyph := houter.trans (append_nil _)
    rw [hreplay, hglyph]
    exact hrows
  · rw [hreplay]
    exact hlink'
  · rw [hreplay]
    exact hpen'

theorem Continued.trans {cells more : List Cell} (hst : Continued s t column cells)
    (htu : Continued t u (column + cells.length) more) (hrow : t.row = s.row)
    (shown : ShownCells cells) : Continued s u column (cells ++ more) := by
  intro line before rest hline hcells hbefore hshown
  obtain ⟨rest', ht⟩ := hst line before rest hline hcells hbefore hshown
  obtain ⟨hlt, -⟩ := List.getElem?_eq_some_iff.mp hline
  have hline' : t.rows[t.row]? = some ⟨before ++ cells ++ rest', line.wrapped⟩ := by
    rw [ht, hrow, getElem?_set_self hlt]
  obtain ⟨rest'', hu⟩ := htu _ (before ++ cells) rest' hline' rfl
    (by rw [length_append, hbefore]) (hshown.append shown)
  refine ⟨rest'', ?_⟩
  rw [hu, ht, hrow, set_set]
  simp only [append_assoc]

theorem Printed.append {commands more : List OuterCommand} (hfirst : Printed s commands column group link)
    (hmore : Printed (s.replay commands) more (column + group.length) others link')
    (hspots : spots s.row column (group ++ others) = spots s.row column group ++
      spots s.row (column + group.length) others)
    (houter : outerCells (group ++ others) = outerCells group ++ outerCells others)
    (hlength : (outerCells group).length = group.length) (shown : ShownCells (outerCells group)) :
    Printed s (commands ++ more) column (group ++ others) link' := by
  have hrow : (s.replay commands).row = s.row := by
    have hframe := hfirst.frame
    rw [hframe]
  refine ⟨?_, ?_, ?_, ?_, ?_, ?_, ?_⟩
  · rw [prints_append, hfirst.prints, hmore.prints, hrow, hspots]
  · rw [replay_append]
    exact hfirst.frame.trans hmore.frame
  · rw [replay_append]
    exact hmore.plain
  · rw [replay_append, hmore.height, hfirst.height]
  · rw [replay_append, length_append, ← add_assoc]
    exact hmore.at_
  · rw [replay_append, houter]
    refine hfirst.rows.trans ?_ hrow shown
    rw [hlength]
    exact hmore.rows
  · rw [replay_append]
    exact hmore.link

theorem Printed.cons {cell : Cell} (hgroup : Group cell group) (plain : s.Plain) (hpen : s.pen = style)
    (hlink : s.link = outerLink link) (hrow : s.row < s.rows.length) (at_ : s.At column)
    (room : column + (group ++ others).length ≤ s.cols) {more : List OuterCommand}
    (hothers : ∀ (u : OuterScreen) (column : Nat), u.Plain → u.pen = cell.style →
      u.link = outerLink cell.hyperlink → u.row < u.rows.length → u.At column →
      column + others.length ≤ u.cols → Printed u more column others none) :
    Printed s (cellCommands style link cell ++ more) column (group ++ others) none := by
  rw [length_append] at room
  obtain ⟨hfirst, hpen'⟩ := printed_cell hgroup plain hpen hlink hrow at_ (by omega)
  have hframe := hfirst.frame
  have hrow' : (s.replay (cellCommands style link cell)).row = s.row := by rw [hframe]
  have hcols : (s.replay (cellCommands style link cell)).cols = s.cols := by rw [hframe]
  have hsingle := hgroup.outer []
  have hsingle' := hgroup.spots s.row column []
  rw [append_nil] at hsingle hsingle'
  have hglyph := hsingle.trans (append_nil _)
  refine hfirst.append (hothers _ _ hfirst.plain hpen' hfirst.link
    (by rw [hfirst.height, hrow']; exact hrow) hfirst.at_ (by rw [hcols]; omega)) ?_ ?_ ?_ ?_
  · rw [hgroup.spots, hsingle']
    rfl
  · rw [hgroup.outer, hglyph]
  · rw [hglyph, length_outerGlyph, hgroup.columns]
  · rw [hglyph]
    exact .single (shownGlyph_outerGlyph cell)

theorem printed_nil (plain : s.Plain) (hlink : s.link = outerLink link) (at_ : s.At column) :
    Printed s (cellsCommands style link []) column [] none := by
  have hreplay : s.replay (cellsCommands style link []) = { s with link := none } := by
    cases link with
    | none =>
      have hnone : s.link = none := hlink
      show s = { s with link := none }
      rw [← hnone]
    | some uri => rfl
  refine ⟨?_, ?_, ?_, ?_, ?_, fun line before rest hline hcells _ _ => ⟨rest, ?_⟩, ?_⟩
  · cases link <;> rfl
  · rw [hreplay]
    rfl
  · rw [hreplay]
    exact ⟨plain.origin, plain.insert, plain.leftRight, plain.wide, plain.lines⟩
  · rw [hreplay]
  · rw [hreplay]
    exact ⟨at_.inside, at_.behind⟩
  · obtain ⟨hlt, hget⟩ := List.getElem?_eq_some_iff.mp hline
    have hrow : (⟨before ++ outerCells [] ++ rest, line.wrapped⟩ : Row) = line := by
      have hempty : outerCells [] = [] := rfl
      rw [hempty, append_nil, ← hcells]
    rw [hreplay, hrow, ← hget, set_getElem_self]
  · rw [hreplay]

/-- **The cells of a row are printed on their own columns.** -/
theorem printed_cells {cells : List Cell} (glyphs : Glyphs cells) (plain : s.Plain) (hpen : s.pen = style)
    (hlink : s.link = outerLink link) (hrow : s.row < s.rows.length) (at_ : s.At column)
    (room : column + cells.length ≤ s.cols) : Printed s (cellsCommands style link cells) column cells none := by
  induction glyphs generalizing s style link column with
  | nil => exact printed_nil plain hlink at_
  | @narrow cell others narrow _ ih =>
    have hcontinuation : cell.continuation = false := narrow.2
    have hcommands : cellsCommands style link (cell :: others) =
        cellCommands style link cell ++ cellsCommands cell.style cell.hyperlink others := by
      rw [cellsCommands, hcontinuation]
      rfl
    rw [hcommands]
    exact Printed.cons (.narrow narrow) plain hpen hlink hrow at_ room
      fun u column hplain hpen' hlink' hrow' hat hroom => ih hplain hpen' hlink' hrow' hat hroom
  | @wide lead tail others wide text continues _ ih =>
    have hcontinuation : lead.continuation = false := continuation_of_isWide wide
    have hcommands : cellsCommands style link (lead :: tail :: others) =
        cellCommands style link lead ++ cellsCommands lead.style lead.hyperlink others := by
      have htail : cellsCommands lead.style lead.hyperlink (tail :: others) =
          cellsCommands lead.style lead.hyperlink others := by
        rw [cellsCommands, continues]
        rfl
      rw [← htail, cellsCommands, hcontinuation]
      rfl
    rw [hcommands]
    exact Printed.cons (.wide wide text continues) plain hpen hlink hrow at_ room
      fun u column hplain hpen' hlink' hrow' hat hroom => ih hplain hpen' hlink' hrow' hat hroom

end OuterScreen

end Lector.Presentation
