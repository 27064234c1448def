import Lector.View.State

/-! Copying the text between the mark and the review cursor (`src/view.rs`), beside the text that is
displayed (`append_contents_range_to` in `crates/lector-ghostty`). Numbers of rows do not saturate.
-/
namespace Lector.Terminal

/-! ## Positions and rows -/

namespace HistoryPosition

def lt (a b : HistoryPosition) : Bool := a.row < b.row || (a.row == b.row && a.col < b.col)

end HistoryPosition

namespace TerminalSnapshot

def cell (snapshot : TerminalSnapshot) (row col : Nat) : Option Cell :=
  snapshot.rows[row]?.bind fun row => row.cells[col]?

def rowWrapped (snapshot : TerminalSnapshot) (row : Nat) : Bool := snapshot.rows[row]?.any (·.wrapped)

end TerminalSnapshot

def Cell.contents (cell : Cell) : String := cell.grapheme

def spaces (n : Nat) : String := String.ofList (List.replicate n ' ')

namespace Row

def appendCell (state : String × Nat) (cell : Cell) : String × Nat :=
  if cell.continuation then state
  else if cell.grapheme = "" then (state.1, state.2 + 1)
  else (state.1 ++ spaces state.2 ++ cell.grapheme, 0)

def appendContentsRangeTo (row : Row) (output : String) (start width : Nat) : String :=
  let stop := min (start + width) row.cells.length
  let start := min start stop
  (((row.cells.drop start).take (stop - start)).foldl appendCell (output, 0)).1

end Row

end Lector.Terminal

namespace Lector.Accessibility
open Terminal

/-! ## The two loops -/

def pushCells (cell : Nat → Option Cell) (startCol endCol : Nat) (contents : String) : String :=
  (List.range' startCol (endCol - startCol)).foldl
    (fun contents col => contents ++ ((cell col).map (·.contents)).getD "") contents

def startCol (start : HistoryPosition) (absoluteRow : Nat) : Nat :=
  if absoluteRow = start.row then start.col else 0

def endCol (stop : HistoryPosition) (cols absoluteRow : Nat) : Nat :=
  min (if absoluteRow = stop.row then stop.col else cols) cols

def pushRow (start stop : HistoryPosition) (cols absoluteRow : Nat) (cell : Nat → Option Cell)
    (wrapped : Bool) (contents : String) : String :=
  let contents := pushCells cell (startCol start absoluteRow) (endCol stop cols absoluteRow) contents
  if absoluteRow ≠ stop.row ∧ !wrapped then contents.push '\n' else contents

def selectedRows (start stop : HistoryPosition) : List Nat := List.range' start.row (stop.row + 1 - start.row)

def contentsBetweenSnapshotHistory (snapshot : TerminalSnapshot) (start stop : HistoryPosition) :
    Option String :=
  let rows := snapshot.scrollback ++ snapshot.rows
  let logicalRows := snapshot.scrollback.length + snapshot.rows.length
  if stop.lt start ∨ logicalRows ≤ stop.row then none
  else
    let cols := snapshot.size.2
    some
      (((rows.zipIdx.drop start.row).take (stop.row - start.row + 1)).foldl
        (fun contents row =>
          pushRow start stop cols row.2 (fun col => row.1.cells[col]?) row.1.wrapped contents) "")

namespace View

variable (view : View)

def scrollback : Nat :=
  match view.accessibilityReadState with
  | .frozen state => state.reviewScrollback
  | .live => view.reviewScrollback

def scrollbackLen : Nat :=
  match view.accessibilityReadState with
  | .frozen _ => view.committedSnapshot.scrollbackExtent
  | .live => view.retainedHistoryLen

def reviewHistoryPosition : HistoryPosition where
  row := view.scrollbackLen - view.scrollback + view.reviewCursorPosition.1
  col := view.reviewCursorPosition.2

/-- Where a row of the history or of the screen is shown: the offset of the viewport and the row in it. -/
def placeOf (engine : GhosttyEngine) (absoluteRow : Nat) : Option (Nat × Nat) :=
  if absoluteRow < view.retainedHistoryLen then some (view.retainedHistoryLen - absoluteRow, 0)
  else
    let row := absoluteRow - view.retainedHistoryLen
    if engine.snapshot.size.1 ≤ row then none else some (0, row)

def pushLiveRows (start stop : HistoryPosition) (cols : Nat) :
    List Nat → GhosttyEngine → String → Option String × GhosttyEngine
  | [], engine, contents => (some contents, engine)
  | absoluteRow :: rest, engine, contents =>
    match view.placeOf engine absoluteRow with
    | none => (none, engine)
    | some (offset, visibleRow) =>
      let engine := engine.selectViewport (.scrollback offset)
      pushLiveRows start stop cols rest engine
        (pushRow start stop cols absoluteRow (engine.snapshot.cell visibleRow)
          (engine.snapshot.rowWrapped visibleRow) contents)

def contentsBetweenHistory (start stop : HistoryPosition) : Option String × View :=
  if stop.lt start then (none, view)
  else
    match view.accessibilityReadState with
    | .frozen _ => (contentsBetweenSnapshotHistory view.committedSnapshot start stop, view)
    | .live =>
      let result := view.pushLiveRows start stop view.size.2 (selectedRows start stop) view.engine ""
      (result.1, { view with engine := result.2.selectViewport (.scrollback view.reviewScrollback) })

def copyReviewSelection (mark : HistoryPosition) : Option String × View :=
  let cursor := view.reviewHistoryPosition
  if cursor.lt mark then (none, view)
  else view.contentsBetweenHistory mark ⟨cursor.row, min (saturatingAdd 16 cursor.col 1) view.size.2⟩

end View

end Lector.Accessibility
