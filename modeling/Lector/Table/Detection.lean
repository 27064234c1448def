import Lector.Foundations.Scanning
import Lector.Foundations.Splitting
import Lector.Tmux.Queueing
import Lector.View.Copying

/-! Tables with `|` between their columns (`src/table.rs` and the part of `src/table/detection.rs` that finds
them). A text is the list of its characters. -/
namespace Lector.Table
open Scanning Terminal

def trim (text : List Char) : List Char := Splitting.trim Tmux.isWhitespace text

/-! ## The surface -/

section Surface

variable (view : TerminalSnapshot)

def contentsBetween (startRow startCol endRow endCol : Nat) : String :=
  if startRow < endRow then
    ((view.rows.zipIdx.take (endRow + 1)).drop startRow).foldl
      (fun contents row =>
        let contents :=
          if row.2 = startRow then row.1.appendContentsRangeTo contents startCol (view.size.2 - startCol)
          else if row.2 = endRow then row.1.appendContentsRangeTo contents 0 endCol
          else row.1.appendContentsRangeTo contents 0 view.size.2
        if row.2 ≠ endRow ∧ !row.1.wrapped then contents.push '\n' else contents) ""
  else if startRow = endRow ∧ startCol < endCol then
    (view.rows[startRow]?).elim "" fun row => row.appendContentsRangeTo "" startCol (endCol - startCol)
  else ""

def line (row : Nat) : List Char := (contentsBetween view row 0 row view.size.2).toList

def hasText (cell : Terminal.Cell) : Bool := cell.isWideContinuation || !(trim cell.contents.toList).isEmpty

def cellHasText (row col : Nat) : Bool := (view.cell row col).any hasText

def rowIsBlank (row : Nat) : Bool := (List.range view.size.2).all fun col => !cellHasText view row col

def isSeparatorRow (row : Nat) : Bool :=
  let trimmed := trim (line view row)
  !trimmed.isEmpty && trimmed.all fun ch =>
    ch == '-' || ch == '=' || ch == '+' || ch == '|' || ch == '_' || ch == ':' || Tmux.isWhitespace ch

end Surface

/-! ## Pipes -/

/-- Whether there is a delimiter before the first cell, and how many cells there are. -/
def pipeCellLayout (line : List Char) : Option (Nat × Nat) :=
  let delimiters := line.count '|'
  let leading := if line.head? = some '|' then 1 else 0
  let trailing := if line.getLast? = some '|' then 1 else 0
  let cells := delimiters + 1 - leading - trailing
  if delimiters = 0 then none else if 0 < cells then some (leading, cells) else none

def pipeDelimitedCellText (line : List Char) (colIdx : Nat) : Option (List Char) := do
  let trimmed := trim line
  let (leadingDelimiter, _) ← pipeCellLayout trimmed
  let cells := trimmed.splitOn '|'
  let cells := if leadingDelimiter = 1 then cells.drop 1 else cells
  some (trim ((cells[colIdx]?).getD []))

/-! ## Models -/

/-- The columns from `start` to `stop`, the last one included. -/
structure Column where
  start : Nat
  stop : Nat
deriving DecidableEq

structure TableModel where
  top : Nat
  bottom : Nat
  columns : List Column
  headerRow : Option Nat
  delimiter : Option Char
deriving DecidableEq

/-- The columns so far, whether a word is open, and the spaces since. -/
def countColumn (state : Nat × Bool × Nat) (ch : Char) : Nat × Bool × Nat :=
  let (columns, inWord, spaceRun) := state
  if Tmux.isWhitespace ch then
    if inWord then
      if 2 ≤ spaceRun + 1 then (columns + 1, false, spaceRun + 1) else (columns, true, spaceRun + 1)
    else state
  else (columns, true, 0)

def fixedWidthColumnCount (line : List Char) : Nat :=
  let counted := line.foldl countColumn (0, false, 0)
  if counted.2.1 then counted.1 + 1 else counted.1

def rowHasFixedWidthColumns (view : TerminalSnapshot) (row : Nat) : Bool := 2 ≤ fixedWidthColumnCount (line view row)

namespace TableModel

variable (self : TableModel) (view : TerminalSnapshot)

def columnText (row : Nat) (column : Column) : List Char :=
  trim (contentsBetween view row column.start row (min column.stop (view.size.2 - 1) + 1)).toList

def cellText (row colIdx : Nat) : List Char :=
  let pipeText := if self.delimiter = some '|' then pipeDelimitedCellText (line view row) colIdx else none
  match pipeText with
  | some text => text
  | none => (self.columns[colIdx]?).elim [] (columnText view row)

def isBannerRow (row : Nat) : Bool :=
  if row < self.top || self.bottom < row || isSeparatorRow view row then false
  else if self.delimiter.isNone then !rowHasFixedWidthColumns view row
  else
    let trimmed := trim (line view row)
    if trimmed.head? = some '|' ∧ trimmed.getLast? = some '|' then
      ((List.range self.columns.length).filter fun col =>
        (pipeDelimitedCellText trimmed col).any fun text => !text.isEmpty).length ≤ 1
    else false

def isSkippableRow (row : Nat) : Bool := isSeparatorRow view row || self.isBannerRow view row

end TableModel

/-! ## Detection -/

section Detection

-- `char::is_alphabetic` is whatever table of letters there is.
variable (isAlphabetic : Char → Bool) (view : TerminalSnapshot) (row : Nat)

def rowIsPipeTableRow : Bool :=
  !rowIsBlank view row && (isSeparatorRow view row || (line view row).contains '|')

def nearestPipeRow : Option Nat :=
  let rows := view.size.1
  if rows = 0 then none
  else if rowIsPipeTableRow view row then some row
  else (List.range' 1 6).findSome? fun offset =>
    if offset ≤ row ∧ rowIsPipeTableRow view (row - offset) then some (row - offset)
    else if row + offset < rows ∧ rowIsPipeTableRow view (row + offset) then some (row + offset)
    else none

def rowLooksLikePipeHeader : Bool :=
  let trimmed := trim (line view row)
  if trimmed.isEmpty || isSeparatorRow view row then false
  else
    match pipeCellLayout trimmed with
    | none => false
    | some (leadingDelimiter, cellCount) =>
      2 ≤ ((((trimmed.splitOn '|').drop leadingDelimiter).take cellCount).filter fun cell =>
        !(trim cell).isEmpty).length

variable (top bottom : Nat)

def rowsBetween : List Nat := List.range' top (bottom + 1 - top)

def findPipeHeaderRowInBounds : Option Nat :=
  (rowsBetween top bottom).find? (rowLooksLikePipeHeader view)

def delimiterPositions (delim : Char) : List Nat :=
  (List.range view.size.2).filter fun col =>
    (view.cell row col).any fun cell => cell.contents == String.singleton delim

def columnHasContent (top bottom start stop : Nat) : Bool :=
  (rowsBetween top bottom).any fun row =>
    !isSeparatorRow view row && (rowsBetween start stop).any fun col => cellHasText view row col

def columnsFromDelimiterPositions (lastCol : Nat) : Nat → List Nat → List Column
  | start, [] => if start ≤ lastCol then [⟨start, lastCol⟩] else []
  | start, pos :: positions =>
    (if start < pos then [⟨start, pos - 1⟩] else []) ++ columnsFromDelimiterPositions lastCol (pos + 1) positions

def detectPipeColumns (top bottom headerRow : Nat) : Option (List Column) :=
  let positions := delimiterPositions view headerRow '|'
  let columns := columnsFromDelimiterPositions (view.size.2 - 1) 0 positions
  let columns := columns.filter fun col => columnHasContent view top bottom col.start col.stop
  if positions.isEmpty then none else if columns.length < 2 then none else some columns

def rowHasLetters : Bool := (line view row).any isAlphabetic

/-- The row above a separator row that is not skipped, or the first one with letters. -/
def detectHeaderRow (columns : List Column) (delimiter : Option Char) : Option Nat :=
  let model : TableModel := ⟨top, bottom, columns, none, delimiter⟩
  if bottom ≤ top then none
  else
    ((rowsBetween top bottom).findSome? fun row =>
      if isSeparatorRow view row ∧ top < row then
        (List.range' top (row - top)).reverse.find? fun candidate => !model.isSkippableRow view candidate
      else none).or
    ((rowsBetween top bottom).find? fun row => !model.isSkippableRow view row && rowHasLetters isAlphabetic view row)

def detectPipeTable : Option TableModel := do
  let anchor ← nearestPipeRow view row
  let top := scanDown (fun top => rowIsPipeTableRow view (top - 1)) anchor
  let bottom := scanUp (fun bottom => rowIsPipeTableRow view (bottom + 1)) (view.size.1 - 1) anchor
  let headerRow ← findPipeHeaderRowInBounds view top bottom
  let columns ← detectPipeColumns view top bottom headerRow
  let headerRow := (detectHeaderRow isAlphabetic view top bottom columns (some '|')).or (some headerRow)
  some ⟨top, bottom, columns, headerRow, some '|'⟩

end Detection
end Lector.Table
