import Lector.Review.Document
import Lector.Table.Detection

/-! The text of a cell of a table and the columns that the table has on the screen: which piece of a row is read
for a column (`cell_text` in `src/table.rs`). -/
namespace Lector.Table
open Splitting Terminal TableModel
open Option hiding any_eq_true filter_map mem_map min
open List hiding min

/-! ## The text of cells -/

def glyph (cell : Terminal.Cell) : List Char :=
  if cell.isWideContinuation then [] else if cell.contents = "" then [' '] else cell.contents.toList

theorem foldl_appendCell (cells : List Terminal.Cell) (state : String × Nat) :
    (cells.foldl Row.appendCell state).1.toList ++ replicate (cells.foldl Row.appendCell state).2 ' ' =
      state.1.toList ++ replicate state.2 ' ' ++ cells.flatMap glyph := by
  induction cells generalizing state with
  | nil => simp
  | cons cell cells ih =>
    rw [foldl_cons, ih, flatMap_cons, Row.appendCell, glyph, Cell.isWideContinuation, Cell.contents]
    split
    · rw [nil_append]
    · split
      · simp [replicate_succ']
      · simp [spaces]

theorem appendContentsRangeTo_glyphs (row : Row) (start width : Nat) : ∃ blanks,
    ((row.cells.drop start).take width).flatMap glyph =
      (row.appendContentsRangeTo "" start width).toList ++ replicate blanks ' ' := by
  have hrange : (row.cells.drop (min start (min (start + width) row.cells.length))).take
      (min (start + width) row.cells.length - min start (min (start + width) row.cells.length)) =
        (row.cells.drop start).take width := by
    obtain hlong | hshort := le_total row.cells.length start
    · rw [drop_of_length_le hlong, drop_of_length_le (by omega)]
      simp
    · rw [show min start (min (start + width) row.cells.length) = start by omega]
      obtain hfits | hcut := le_total (start + width) row.cells.length
      · rw [show min (start + width) row.cells.length - start = width by omega]
      · rw [take_of_length_le (by rw [length_drop]; omega), take_of_length_le (by rw [length_drop]; omega)]
  have hfold := foldl_appendCell ((row.cells.drop start).take width) ("", 0)
  refine ⟨(((row.cells.drop start).take width).foldl Row.appendCell ("", 0)).2, ?_⟩
  unfold Row.appendContentsRangeTo
  dsimp only
  rw [hrange, hfold]
  simp

/-! ## Rows in pieces -/

def separates (cell : Terminal.Cell) : Bool := cell.contents == String.singleton '|'

def rowCells (view : TerminalSnapshot) (row : Nat) : List Terminal.Cell :=
  ((view.rows[row]?).elim [] Row.cells).take view.size.2

/-- The trimmed text between two separators, nothing where there are not as many. -/
def pieceText (view : TerminalSnapshot) (row n : Nat) : List Char :=
  trim ((piece separates (rowCells view row) n).flatMap glyph)

def firstCounted (view : TerminalSnapshot) (row : Nat) : Nat := if pieceText view row 0 = [] then 1 else 0

def separatorsBefore (view : TerminalSnapshot) (header : Nat) (column : Column) : Nat :=
  ((delimiterPositions view header '|').filter (· < column.start)).length

/-- The row has a `|` where the header row has one, and no other. -/
structure Aligned (view : TerminalSnapshot) (header row : Nat) : Prop where
  positions : delimiterPositions view row '|' = delimiterPositions view header '|'
  others : ∀ cell ∈ rowCells view row, '|' ∈ cell.contents.toList → separates cell = true

/-- What the engine promises of a screen: a continuation has no text. -/
def Plain (view : TerminalSnapshot) : Prop :=
  ∀ row ∈ view.rows, ∀ cell ∈ row.cells, cell.isWideContinuation = true → cell.contents = ""

variable {view : TerminalSnapshot} {header row : Nat}

theorem line_glyphs (view : TerminalSnapshot) (row : Nat) : ∃ blanks,
    (rowCells view row).flatMap glyph = line view row ++ replicate blanks ' ' := by
  unfold rowCells line contentsBetween
  rw [if_neg (lt_irrefl row)]
  cases hrow : view.rows[row]? with
  | none => exact ⟨0, by simp⟩
  | some source =>
    split
    · obtain ⟨blanks, h⟩ := appendContentsRangeTo_glyphs source 0 view.size.2
      exact ⟨blanks, by simpa using h⟩
    · next hcols =>
      have hzero : view.size.2 = 0 := by omega
      exact ⟨0, by simp [hzero]⟩

theorem blank_replicate (n : Nat) : ∀ ch ∈ replicate n ' ', Tmux.isWhitespace ch = true := by
  intro ch hch
  rw [eq_of_mem_replicate hch]
  rfl

theorem trim_line (view : TerminalSnapshot) (row : Nat) :
    trim (line view row) = trim ((rowCells view row).flatMap glyph) := by
  obtain ⟨blanks, h⟩ := line_glyphs view row
  rw [h, trim, trim, trim_append (blank_replicate blanks)]

theorem columnText_eq {column : Column} (hcolumn : column.start ≤ column.stop) (hcols : column.stop < view.size.2)
    {number : Nat} : columnText view row column =
      trim ((slice (rowCells view row) 0 (number, column.start, column.stop)).flatMap glyph) := by
  unfold columnText contentsBetween rowCells slice
  dsimp only
  rw [if_neg (lt_irrefl row), if_pos ⟨rfl, by omega⟩, show min column.stop (view.size.2 - 1) = column.stop by omega]
  cases hrow : view.rows[row]? with
  | none => simp
  | some source =>
    obtain ⟨blanks, h⟩ := appendContentsRangeTo_glyphs source column.start (column.stop + 1 - column.start)
    rw [elim_some, elim_some, Nat.sub_zero, drop_take, take_take,
      min_eq_left (by omega), h, trim, trim, trim_append (blank_replicate blanks)]

theorem cut_delimiterPositions (view : TerminalSnapshot) (row : Nat) :
    Cut separates 0 (delimiterPositions view row '|') (rowCells view row) := by
  have hcells : delimiterPositions view row '|' =
      (range' 0 view.size.2).filter fun place => ((rowCells view row)[place - 0]?).any separates := by
    rw [delimiterPositions, range_eq_range']
    apply filter_congr
    intro col hcol
    obtain ⟨-, hlt⟩ := mem_range'_1.mp hcol
    rw [rowCells, getElem?_take, if_pos (by omega), TerminalSnapshot.cell]
    cases view.rows[row]? <;> rfl
  rw [hcells]
  exact cut_filter (length_take_le _ _)

theorem splitOn_glyphs (plain : Plain view)
    (others : ∀ cell ∈ rowCells view row, '|' ∈ cell.contents.toList → separates cell = true) :
    ((rowCells view row).flatMap glyph).splitOn '|' =
      ((rowCells view row).splitOnP separates).map (·.flatMap glyph) := by
  apply splitOnP_flatMap
  · intro cell hcell hseparates
    have hcontents : cell.contents = "|" := beq_iff_eq.mp hseparates
    have hcontinuation : cell.isWideContinuation = false := by
      by_contra hwide
      have hmem := mem_of_mem_take hcell
      cases hrow : view.rows[row]? with
      | none =>
        rw [hrow] at hmem
        cases hmem
      | some source =>
        rw [hrow] at hmem
        have hempty := plain source (mem_of_getElem? hrow) cell hmem (Bool.not_eq_false _ ▸ hwide)
        rw [hcontents] at hempty
        exact absurd hempty (by decide)
    exact ⟨'|', by simp [glyph, hcontinuation, hcontents], rfl⟩
  · intro cell hcell hseparates ch hch
    by_contra hpipe
    rw [Bool.not_eq_false, beq_iff_eq] at hpipe
    subst hpipe
    unfold glyph at hch
    split at hch
    · cases hch
    · split at hch
      · simp at hch
      · rw [others cell hcell hch] at hseparates
        cases hseparates

theorem whitespace_pipe : ∀ ch : Char, (ch == '|') = true → Tmux.isWhitespace ch = false := by
  intro ch hch
  rw [beq_iff_eq.mp hch]
  rfl

theorem trim_piece_glyphs (plain : Plain view)
    (others : ∀ cell ∈ rowCells view row, '|' ∈ cell.contents.toList → separates cell = true) (n : Nat) :
    trim (piece (· == '|') (trim (line view row)) n) = pieceText view row n := by
  rw [trim_line, trim, trim, trim_piece_trim whitespace_pipe, piece, ← splitOn_eq_splitOnP,
    splitOn_glyphs plain others, getElem?_map, pieceText, piece]
  cases ((rowCells view row).splitOnP separates)[n]? <;> rfl

theorem pipeCellLayout_eq {text : List Char} (hmem : '|' ∈ text) :
    (∃ cells, pipeCellLayout text = some (if text.head? = some '|' then 1 else 0, cells)) ∨
      pipeCellLayout text = none ∧ text = ['|'] := by
  have hcount : 0 < text.count '|' := count_pos_iff.mpr hmem
  unfold pipeCellLayout
  rw [if_neg (by omega)]
  by_cases hcells : 0 < text.count '|' + 1 - (if text.head? = some '|' then 1 else 0) -
      (if text.getLast? = some '|' then 1 else 0)
  · rw [if_pos hcells]
    exact .inl ⟨_, rfl⟩
  · rw [if_neg hcells]
    refine .inr ⟨rfl, ?_⟩
    split at hcells
    · next hhead =>
      split at hcells
      · next hlast =>
        cases text with
        | nil => cases hmem
        | cons ch rest =>
          obtain rfl : ch = '|' := some.inj hhead
          rw [count_cons_self] at hcells
          have hrest : '|' ∉ rest := count_eq_zero.mp (by omega)
          cases rest with
          | nil => rfl
          | cons next rest =>
            rw [getLast?_cons_cons] at hlast
            exact absurd (mem_of_getLast? hlast) hrest
      · omega
    · split at hcells <;> omega

theorem getD_drop_one (cells : List (List Char)) (i : Nat) :
    ((cells.drop 1)[i]?).getD [] = (cells[i + 1]?).getD [] := by
  rw [getElem?_drop, add_comm]

theorem pipeDelimitedCellText_trimmed {text : List Char} (hmem : '|' ∈ trim text) (i : Nat) :
    pipeDelimitedCellText text i = some (trim (piece (· == '|') (trim text)
        (i + if (trim text).head? = some '|' then 1 else 0))) ∨
      pipeDelimitedCellText text i = none ∧ trim text = ['|'] := by
  unfold pipeDelimitedCellText
  dsimp only
  obtain ⟨cells, hlayout⟩ | ⟨hlayout, hpipe⟩ := pipeCellLayout_eq hmem
  · left
    rw [hlayout, piece, ← splitOn_eq_splitOnP]
    simp only [bind_eq_bind, bind_some]
    split
    · rw [if_pos rfl, getD_drop_one]
    · rw [if_neg (by omega), add_zero]
  · right
    rw [hlayout]
    exact ⟨rfl, hpipe⟩

/-- **The pieces of a row are counted from the first one**, or from the second one where the first is blank. A
row with one separator and nothing else has no cells. -/
theorem pipeDelimitedCellText_eq (plain : Plain view)
    (others : ∀ cell ∈ rowCells view row, '|' ∈ cell.contents.toList → separates cell = true)
    (hdelimiter : ∃ cell ∈ rowCells view row, separates cell = true) (i : Nat) :
    pipeDelimitedCellText (line view row) i = some (pieceText view row (i + firstCounted view row)) ∨
      pipeDelimitedCellText (line view row) i = none ∧ ∀ n, pieceText view row n = [] := by
  have hpieces := trim_piece_glyphs plain others
  have hpipe : ∃ ch ∈ (rowCells view row).flatMap glyph, (ch == '|') = true := by
    by_contra hnone
    simp only [not_exists, not_and, Bool.not_eq_true] at hnone
    have hone := splitOnP_eq_singleton hnone
    have hsplit := splitOn_glyphs plain others
    rw [splitOn_eq_splitOnP, hone] at hsplit
    obtain ⟨cell, hcell, hseparates⟩ := hdelimiter
    obtain ⟨before, after, hcells⟩ := append_of_mem hcell
    rw [hcells, splitOnP_append_cons _ _ hseparates] at hsplit
    have hlength := congrArg length hsplit
    have hbefore := length_pos_iff.mpr (splitOnP_ne_nil separates before)
    have hafter := length_pos_iff.mpr (splitOnP_ne_nil separates after)
    rw [length_singleton, length_map, length_append] at hlength
    omega
  have hhead : (trim (line view row)).head? = some '|' ↔ pieceText view row 0 = [] := by
    have h := @head_trim _ (· == '|') Tmux.isWhitespace ((rowCells view row).flatMap glyph) whitespace_pipe
    rw [← trim_piece_trim whitespace_pipe] at h
    rw [← hpieces 0, trim_line]
    constructor
    · intro hstart
      exact (h.mp (by rw [← trim, hstart]; rfl)).2
    · intro hblank
      have hany := h.mpr ⟨hpipe, hblank⟩
      obtain ⟨ch, hch, heq⟩ := (Option.any_eq_true _ _).mp hany
      rw [← beq_iff_eq.mp heq]
      exact hch
  have hmem : '|' ∈ trim (line view row) := by
    obtain ⟨ch, hch, heq⟩ := (exists_mem_trim whitespace_pipe).mpr hpipe
    rw [trim_line, ← beq_iff_eq.mp heq]
    exact hch
  have hfirst : (if (trim (line view row)).head? = some '|' then 1 else 0) = firstCounted view row := by
    rw [firstCounted]
    simp only [hhead]
  obtain hcell | ⟨hnone, hpipe⟩ := pipeDelimitedCellText_trimmed hmem i
  · left
    rw [hcell, hpieces, hfirst]
  · right
    refine ⟨hnone, fun n => ?_⟩
    rw [← hpieces n, hpipe]
    match n with
    | 0 => rfl
    | 1 => rfl
    | n + 2 => rfl

/-! ## Columns -/

theorem columnsFromDelimiterPositions_eq (last : Nat) (positions : List Nat) : ∀ start number : Nat,
    columnsFromDelimiterPositions last start positions =
      (Splitting.spans last start number positions).map fun span => ⟨span.2.1, span.2.2⟩ := by
  induction positions with
  | nil =>
    intro start number
    rw [columnsFromDelimiterPositions, Splitting.spans]
    split <;> rfl
  | cons position rest ih =>
    intro start number
    rw [columnsFromDelimiterPositions, Splitting.spans, ih (position + 1) (number + 1)]
    split <;> rfl

def columnSpans (view : TerminalSnapshot) (top bottom header : Nat) : List (Nat × Nat × Nat) :=
  (Splitting.spans (view.size.2 - 1) 0 0 (delimiterPositions view header '|')).filter fun span =>
    columnHasContent view top bottom span.2.1 span.2.2

theorem columns_of_detectPipeTable {isAlphabetic : Char → Bool} {anchor : Nat} {model : TableModel}
    (found : detectPipeTable isAlphabetic view anchor = some model)
    (hheader : findPipeHeaderRowInBounds view model.top model.bottom = some header) :
    model.delimiter = some '|' ∧ delimiterPositions view header '|' ≠ [] ∧
      model.columns = (columnSpans view model.top model.bottom header).map fun span => ⟨span.2.1, span.2.2⟩ := by
  obtain ⟨first, -, hrest⟩ := bind_eq_some_iff.mp found
  obtain ⟨headerRow, hfound, hrest⟩ := bind_eq_some_iff.mp hrest
  obtain ⟨columns, hcolumns, hmodel⟩ := bind_eq_some_iff.mp hrest
  cases hmodel
  obtain rfl : headerRow = header := some.inj (hfound.symm.trans hheader)
  refine ⟨rfl, ?_, ?_⟩
  · rintro hnil
    rw [detectPipeColumns, hnil] at hcolumns
    cases hcolumns
  · unfold detectPipeColumns at hcolumns
    dsimp only at hcolumns ⊢
    split at hcolumns
    · cases hcolumns
    · split at hcolumns
      · cases hcolumns
      · rw [← some.inj hcolumns, columnsFromDelimiterPositions_eq _ _ 0 0, filter_map]
        rfl

theorem separates_of_positions (h : delimiterPositions view row '|' ≠ []) :
    ∃ cell ∈ rowCells view row, separates cell = true := by
  obtain ⟨col, hcol⟩ := exists_mem_of_ne_nil _ h
  obtain ⟨hlt, hcell⟩ := mem_filter.mp hcol
  obtain ⟨cell, hat, hseparates⟩ := (Option.any_eq_true _ _).mp hcell
  refine ⟨cell, ?_, hseparates⟩
  apply mem_of_getElem? (i := col)
  rw [rowCells, getElem?_take, if_pos (mem_range.mp hlt)]
  rw [TerminalSnapshot.cell] at hat
  cases hrow : view.rows[row]? with
  | none =>
    rw [hrow] at hat
    cases hat
  | some source =>
    rw [hrow] at hat
    exact hat

section Aligned

variable {span : Nat × Nat × Nat} {top bottom : Nat}

theorem positions_lt (view : TerminalSnapshot) (row : Nat) :
    ∀ position ∈ delimiterPositions view row '|', position < view.size.2 :=
  fun _ hposition => mem_range.mp (mem_filter.mp hposition).1

theorem length_rowCells_le (view : TerminalSnapshot) (row : Nat) : (rowCells view row).length ≤ view.size.2 :=
  length_take_le _ _

/-- **The text of a column is the piece with as many separators before it.** -/
theorem columnText_eq_pieceText (aligned : Aligned view header row)
    (hpositions : delimiterPositions view header '|' ≠ []) (h : span ∈ columnSpans view top bottom header) :
    columnText view row ⟨span.2.1, span.2.2⟩ = pieceText view row span.1 ∧
      separatorsBefore view header ⟨span.2.1, span.2.2⟩ = span.1 := by
  obtain ⟨hspan, -⟩ := mem_filter.mp h
  obtain ⟨position, hposition⟩ := exists_mem_of_ne_nil _ hpositions
  have hcols := positions_lt view header position hposition
  have hlast : ∀ position ∈ delimiterPositions view header '|', position ≤ view.size.2 - 1 :=
    fun position hmem => Nat.le_pred_of_lt (positions_lt view header position hmem)
  obtain ⟨hstart, hstop⟩ := spans_bounds _ hlast 0 0 span hspan
  have hcut := cut_delimiterPositions view row
  rw [aligned.positions] at hcut
  have hlength := length_rowCells_le view row
  obtain ⟨m, hnumber, -, hpiece, hcount⟩ :=
    @Cut.span _ separates 0 (view.size.2 - 1) _ _ hcut 0 0 [] (by simp) rfl (by omega) span hspan
  rw [zero_add] at hnumber
  subst hnumber
  refine ⟨?_, hcount⟩
  rw [columnText_eq hstart (by dsimp only; omega), pieceText, piece]
  rw [nil_append] at hpiece
  rw [hpiece]
  rfl

theorem hasText_of_glyph {cell : Terminal.Cell} (h : ∃ ch ∈ glyph cell, Tmux.isWhitespace ch = false) :
    hasText cell = true := by
  obtain ⟨ch, hch, hsolid⟩ := h
  unfold glyph at hch
  unfold hasText
  split at hch
  · cases hch
  · split at hch
    · obtain rfl := mem_singleton.mp hch
      cases hsolid
    · have hne : trim cell.contents.toList ≠ [] := by
        intro hnil
        rw [trim_eq_nil.mp hnil ch hch] at hsolid
        cases hsolid
      simp [hne]

theorem pieceText_mem_columnSpans (aligned : Aligned view header row) (htop : top ≤ row) (hbottom : row ≤ bottom)
    (hdata : isSeparatorRow view row = false) {n : Nat} (h : pieceText view row n ≠ []) :
    n ∈ (columnSpans view top bottom header).map Prod.fst := by
  have hcut := cut_delimiterPositions view row
  rw [aligned.positions] at hcut
  have hlength := length_rowCells_le view row
  obtain ⟨found, hfound⟩ : ∃ found, ((rowCells view row).splitOnP separates)[n]? = some found := by
    cases hn : ((rowCells view row).splitOnP separates)[n]? with
    | some found => exact ⟨found, rfl⟩
    | none =>
      rw [pieceText, piece, hn] at h
      exact absurd rfl h
  rw [pieceText, piece, hfound] at h
  have hitems : found ≠ [] := by
    rintro rfl
    exact h rfl
  obtain ⟨span, hspan, hnumber⟩ :=
    @Cut.exists_span _ separates 0 (view.size.2 - 1) _ _ hcut 0 0 [] (by simp) rfl (by omega) n found hfound hitems
  obtain ⟨m, hm, -, hpiece, -⟩ :=
    @Cut.span _ separates 0 (view.size.2 - 1) _ _ hcut 0 0 [] (by simp) rfl (by omega) span hspan
  obtain rfl : m = n := by omega
  rw [nil_append, hfound] at hpiece
  cases hpiece
  refine mem_map.mpr ⟨span, mem_filter.mpr ⟨hspan, ?_⟩, by omega⟩
  -- some cell of the piece shows more than blanks
  obtain ⟨ch, hch, hsolid⟩ : ∃ ch ∈ (slice (rowCells view row) 0 span).flatMap glyph,
      Tmux.isWhitespace ch = false := by
    by_contra hblank
    refine h (trim_eq_nil.mpr fun ch hch => ?_)
    by_contra hne
    exact hblank ⟨ch, hch, by simpa using hne⟩
  obtain ⟨cell, hcell, hshown⟩ := mem_flatMap.mp hch
  obtain ⟨k, hk⟩ := mem_iff_getElem?.mp hcell
  rw [slice, getElem?_take, getElem?_drop] at hk
  split at hk
  · next hin =>
    rw [columnHasContent, any_eq_true]
    refine ⟨row, mem_range'_1.mpr ⟨htop, by omega⟩, ?_⟩
    rw [hdata, Bool.not_false, Bool.true_and, any_eq_true]
    refine ⟨span.2.1 + k, mem_range'_1.mpr ⟨by omega, by omega⟩, ?_⟩
    rw [cellHasText, Option.any_eq_true]
    refine ⟨cell, ?_, hasText_of_glyph ⟨ch, hshown, hsolid⟩⟩
    rw [rowCells, getElem?_take] at hk
    split at hk
    · rw [TerminalSnapshot.cell]
      cases hrow : view.rows[row]? with
      | none =>
        rw [hrow] at hk
        cases hk
      | some source =>
        rw [hrow] at hk
        exact hk
    · cases hk
  · cases hk

end Aligned

/-! ## Cells and columns -/

theorem cellText_eq_pieceText {isAlphabetic : Char → Bool} {anchor : Nat} {model : TableModel} (plain : Plain view)
    (found : detectPipeTable isAlphabetic view anchor = some model)
    (hheader : findPipeHeaderRowInBounds view model.top model.bottom = some header)
    (aligned : Aligned view header row) {i : Nat} {column : Column} (hcolumn : model.columns[i]? = some column) :
    model.cellText view row i = pieceText view row (i + firstCounted view row) := by
  obtain ⟨hdelimiter, hpositions, hcolumns⟩ := columns_of_detectPipeTable found hheader
  have hcells := separates_of_positions (aligned.positions ▸ hpositions)
  unfold TableModel.cellText
  rw [if_pos hdelimiter]
  obtain hcell | ⟨hnone, hblank⟩ := pipeDelimitedCellText_eq plain aligned.others hcells i
  · rw [hcell]
  · rw [hnone, hcolumn, elim_some, hblank]
    rw [hcolumns, getElem?_map, map_eq_some_iff] at hcolumn
    obtain ⟨span, hspan, rfl⟩ := hcolumn
    rw [(columnText_eq_pieceText aligned hpositions (mem_of_getElem? hspan)).1, hblank]

/-- **The text that is read in a data row is that of the columns exactly when** as many separators stand left of
each column as pieces are counted before it, or the column is blank there. In any aligned row the piece of the
counted number is read, and the column's own text is the piece behind its separators. -/
theorem cellText_iff {isAlphabetic : Char → Bool} {anchor : Nat} {model : TableModel} (plain : Plain view)
    (found : detectPipeTable isAlphabetic view anchor = some model)
    (hheader : findPipeHeaderRowInBounds view model.top model.bottom = some header)
    (aligned : Aligned view header row) :
    (model.top ≤ row → row ≤ model.bottom → isSeparatorRow view row = false →
      ((∀ i column, model.columns[i]? = some column →
        model.cellText view row i = columnText view row column) ↔
      ∀ i column, model.columns[i]? = some column →
        separatorsBefore view header column = i + firstCounted view row ∨ columnText view row column = [])) ∧
    ∀ i column, model.columns[i]? = some column →
      model.cellText view row i = pieceText view row (i + firstCounted view row) ∧
        columnText view row column = pieceText view row (separatorsBefore view header column) := by
  obtain ⟨-, hpositions, hcolumns⟩ := columns_of_detectPipeTable found hheader
  have hspan : ∀ {i : Nat} {column : Column}, model.columns[i]? = some column →
      ∃ span, (columnSpans view model.top model.bottom header)[i]? = some span ∧
        columnText view row column = pieceText view row span.1 ∧
        separatorsBefore view header column = span.1 := by
    intro i column hcolumn
    rw [hcolumns, getElem?_map, map_eq_some_iff] at hcolumn
    obtain ⟨span, hat, rfl⟩ := hcolumn
    exact ⟨span, hat, columnText_eq_pieceText aligned hpositions (mem_of_getElem? hat)⟩
  have hnumbered : ∀ {i : Nat} {span : Nat × Nat × Nat},
      (columnSpans view model.top model.bottom header)[i]? = some span →
        ∃ column, model.columns[i]? = some column ∧ columnText view row column =
          pieceText view row span.1 ∧ separatorsBefore view header column = span.1 := by
    intro i span hat
    have hcolumn : model.columns[i]? = some ⟨span.2.1, span.2.2⟩ := by
      rw [hcolumns, getElem?_map, hat]
      rfl
    exact ⟨_, hcolumn, columnText_eq_pieceText aligned hpositions (mem_of_getElem? hat)⟩
  refine ⟨fun htop hbottom hdata => ?_, fun i column hcolumn => ?_⟩
  · have hsorted : ((columnSpans view model.top model.bottom header).map Prod.fst).Pairwise (· < ·) :=
      pairwise_map.mpr ((spans_sorted _ _ 0 0).1.filter _)
    have hlead : firstCounted view row ≤ 1 := by
      unfold firstCounted
      split <;> omega
    have hfirst : firstCounted view row = 1 → pieceText view row 0 = [] := by
      intro hone
      unfold firstCounted at hone
      split at hone
      · assumption
      · cases hone
    have hagree := counts_agree hsorted hlead hfirst fun n hn =>
      pieceText_mem_columnSpans aligned htop hbottom hdata hn
    simp only [getElem?_map, map_eq_some_iff] at hagree
    constructor
    · intro h i column hcolumn
      obtain ⟨span, hat, htext, hbefore⟩ := hspan hcolumn
      rw [htext, hbefore]
      refine hagree.mp ?_ i span.1 ⟨span, hat, rfl⟩
      rintro j n ⟨other, hother, rfl⟩
      obtain ⟨column, hcolumn, htext, -⟩ := hnumbered hother
      rw [← htext, ← cellText_eq_pieceText plain found hheader aligned hcolumn]
      exact h j column hcolumn
    · intro h i column hcolumn
      obtain ⟨span, hat, htext, -⟩ := hspan hcolumn
      rw [cellText_eq_pieceText plain found hheader aligned hcolumn, htext]
      refine hagree.mpr ?_ i span.1 ⟨span, hat, rfl⟩
      rintro j n ⟨other, hother, rfl⟩
      obtain ⟨column, hcolumn, htext, hbefore⟩ := hnumbered hother
      rw [← htext, ← hbefore]
      exact h j column hcolumn
  · obtain ⟨span, -, htext, hbefore⟩ := hspan hcolumn
    rw [hbefore]
    exact ⟨cellText_eq_pieceText plain found hheader aligned hcolumn, htext⟩

/-! ### Tables with a column of blanks -/

def tableView (rows : List String) : TerminalSnapshot := Review.screenOf (rows.map (Review.printedRow · false))

/-- The blank column is no column of the table, and it is counted all the same. -/
theorem blank_column_is_counted :
    let view := tableView ["|a| |b|", "|1| |2|"]
    ∃ model, detectPipeTable Char.isAlpha view 1 = some model ∧
      findPipeHeaderRowInBounds view model.top model.bottom = some 0 ∧ Aligned view 0 1 ∧
      model.columns[1]? = some ⟨5, 5⟩ ∧ model.cellText view 1 1 = [] ∧
      columnText view 1 ⟨5, 5⟩ = ['2'] :=
  ⟨⟨0, 1, [⟨1, 1⟩, ⟨5, 5⟩], some 0, some '|'⟩, by decide, by decide, ⟨by decide, by decide⟩, rfl, by decide, by decide⟩

theorem cellText_full_columns :
    let view := tableView ["|a|b|", "|1|2|"]
    let model : TableModel := ⟨0, 1, [⟨1, 1⟩, ⟨3, 3⟩], some 0, some '|'⟩
    ∀ i column, model.columns[i]? = some column → model.cellText view 1 i = columnText view 1 column := by
  obtain ⟨hdata, -⟩ := @cellText_iff (tableView ["|a|b|", "|1|2|"]) 0 1 Char.isAlpha 1
    ⟨0, 1, [⟨1, 1⟩, ⟨3, 3⟩], some 0, some '|'⟩ (by unfold Plain; decide) (by decide) (by decide)
    ⟨by decide, by decide⟩
  refine (hdata (by decide) (by decide) (by decide)).mpr fun i column hcolumn => .inl ?_
  rcases i with _ | _ | i
  · cases hcolumn
    decide
  · cases hcolumn
    decide
  · cases hcolumn

end Lector.Table
