import Lector.Foundations.Shifting
import Lector.Presentation.Encoding
import Lector.Presentation.Glyphs

/-! A terminal with standard semantics, as far as scenes are drawn on it: its rows, its cursor and its
vertical margins. Styles and links are those of the printed cells. -/
namespace Lector.Presentation
open Output Terminal

/-! ## Commands -/

/-- Rows and columns are counted from zero, but the margins of `setMargins` are the numbers of its text. -/
inductive VtCommand
  | setMargins (top bottom : Nat)
  | resetMargins
  | cursorTo (row col : Nat)
  | scrollUp (count : Nat)
  | scrollDown (count : Nat)
  | insertLines (count : Nat)
  | deleteLines (count : Nat)
  | eraseLine
  | insertChars (count : Nat)
  | deleteChars (count : Nat)
  | eraseChars (count : Nat)
  | print (text : String)
  | run (row start stop : Nat) (cells : Row)
deriving DecidableEq

def VtCommand.bytes : VtCommand → Bytes
  | .setMargins top bottom => ascii s!"\x1b[{top};{bottom}r"
  | .resetMargins => ascii "\x1b[r"
  | .cursorTo row col => writeAbsoluteCursor row col
  | .scrollUp count => ascii s!"\x1b[{count}S"
  | .scrollDown count => ascii s!"\x1b[{count}T"
  | .insertLines count => ascii s!"\x1b[{count}L"
  | .deleteLines count => ascii s!"\x1b[{count}M"
  | .eraseLine => ascii "\x1b[2K"
  | .insertChars count => ascii s!"\x1b[{count}@"
  | .deleteChars count => ascii s!"\x1b[{count}P"
  | .eraseChars count => ascii s!"\x1b[{count}X"
  | .print text => utf8 text
  | .run row start stop cells => writeIncrementalRun row start stop cells

/-! ## The screen -/

/-- With a pending wrap the cursor is behind the last column. The bottom margin is the row below the
region. -/
structure Screen where
  cols : Nat
  rows : List Row
  row : Nat
  col : Nat
  top : Nat
  bottom : Nat
deriving DecidableEq

def Screen.home (cols : Nat) (rows : List Row) : Screen := ⟨cols, rows, 0, 0, 0, rows.length⟩

def erasedRow (cols : Nat) : Row := ⟨List.replicate cols blankCell, false⟩

namespace Screen

variable (s : Screen)

def setMargins (top bottom : Nat) : Screen :=
  if 0 < top ∧ top < bottom ∧ bottom ≤ s.rows.length then
    { s with row := 0, col := 0, top := top - 1, bottom := bottom }
  else s

def cursorTo (row col : Nat) : Screen :=
  { s with row := min row (s.rows.length - 1), col := min col (s.cols - 1) }

variable (count : Nat)

def scrollUp : Screen :=
  { s with rows := Shifting.up s.rows s.top s.bottom (min count (s.bottom - s.top)) (erasedRow s.cols) }

def scrollDown : Screen :=
  { s with rows := Shifting.down s.rows s.top s.bottom (min count (s.bottom - s.top)) (erasedRow s.cols) }

def insertLines : Screen :=
  if s.top ≤ s.row ∧ s.row < s.bottom then
    { s with
      col := 0
      rows := Shifting.down s.rows s.row s.bottom (min count (s.bottom - s.row)) (erasedRow s.cols) }
  else s

def deleteLines : Screen :=
  if s.top ≤ s.row ∧ s.row < s.bottom then
    { s with
      col := 0
      rows := Shifting.up s.rows s.row s.bottom (min count (s.bottom - s.row)) (erasedRow s.cols) }
  else s

def changeLine (f : List Cell → List Cell) : Screen :=
  { s with rows := s.rows.modify s.row fun row => { row with cells := mend (f row.cells) } }

def room : Nat := min count (s.cols - s.col)

def eraseLine : Screen := { s with rows := s.rows.set s.row (erasedRow s.cols) }

def insertChars : Screen :=
  s.changeLine fun cells => Shifting.down cells s.col s.cols (s.room count) blankCell

def deleteChars : Screen :=
  s.changeLine fun cells => Shifting.up cells s.col s.cols (s.room count) blankCell

def eraseChars : Screen :=
  s.changeLine fun cells => Shifting.splice cells s.col (List.replicate (s.room count) blankCell)

def wrap : Screen :=
  let wrapped := { s with
    rows := s.rows.modify s.row fun row => { row with wrapped := true }
    col := 0 }
  if s.row + 1 = s.bottom then wrapped.scrollUp 1
  else { wrapped with row := min (s.row + 1) (s.rows.length - 1) }

def printed (cell : Cell) : List Cell :=
  if printedColumns cell = 2 then [shownCell cell, trail (shownCell cell)] else [shownCell cell]

def printCell (cell : Cell) : Screen :=
  let s := if s.cols < s.col + printedColumns cell then s.wrap else s
  { s.changeLine fun cells => Shifting.splice cells s.col (printed cell) with
    col := s.col + printedColumns cell }

def printCells (cells : List Cell) : Screen := (cells.filter fun cell => !cell.continuation).foldl printCell s

def textCell (character : Char) : Cell := ⟨character.toString, 1, false, .default, none⟩

def step : VtCommand → Screen
  | .setMargins top bottom => s.setMargins top bottom
  | .resetMargins => { s with row := 0, col := 0, top := 0, bottom := s.rows.length }
  | .cursorTo row col => s.cursorTo row col
  | .scrollUp count => s.scrollUp count
  | .scrollDown count => s.scrollDown count
  | .insertLines count => s.insertLines count
  | .deleteLines count => s.deleteLines count
  | .eraseLine => s.eraseLine
  | .insertChars count => s.insertChars count
  | .deleteChars count => s.deleteChars count
  | .eraseChars count => s.eraseChars count
  | .print text => s.printCells (text.toList.map textCell)
  | .run row start stop cells => (s.cursorTo row start).printCells ((cells.cells.take stop).drop start)

def replay (commands : List VtCommand) : Screen := commands.foldl step s

end Screen

end Lector.Presentation
