import Lector.Foundations.Shifting
import Lector.Presentation.Encoding
import Lector.Presentation.Glyphs
import Lector.Presentation.Graphics

/-! The outer terminal with all that a repaint finds there: margins and modes, a pending wrap, the pen and
the link of the next character. Graphics do not change its text. -/
namespace Lector.Presentation
open Bytes Output Terminal

/-! ## Commands -/

/-- The numbers are those of the texts. A print has the columns that the terminal gives the text. -/
inductive OuterCommand
  | privateMode (mode : Nat) (enabled : Bool)
  | insertMode (enabled : Bool)
  | resetMargins
  | horizontalMargins (left right : Nat)
  | cursorTo (row col : Nat)
  | home
  | eraseDisplay
  | eraseLine
  | rendition (parameters : List (List Nat))
  | link (uri : String)
  | print (text : String) (columns : Nat)
  | carriageReturn
  | lineFeed
  | cursorShape (code : Nat)
  | keypad (application : Bool)
  | keyboardFlags (flags : UInt8)
  | terminalString (code : Nat) (value : Option String)
  | bell
  | graphics (command : GraphicsCommand)

def joinBytes (separator : Bytes) : List Bytes → Bytes
  | [] => []
  | part :: rest => part ++ rest.flatMap (separator ++ ·)

def parameterBytes (parameter : List Nat) : Bytes :=
  joinBytes (ascii ":") (parameter.map fun n => ascii s!"{n}")

def OuterCommand.bytes : OuterCommand → Bytes
  | .privateMode mode enabled => writePrivateMode mode enabled
  | .insertMode enabled => ascii (if enabled then "\x1b[4h" else "\x1b[4l")
  | .resetMargins => ascii "\x1b[r"
  | .horizontalMargins left right => ascii s!"\x1b[{left};{right}s"
  | .cursorTo row col => ascii s!"\x1b[{row};{col}H"
  | .home => ascii "\x1b[H"
  | .eraseDisplay => ascii "\x1b[2J"
  | .eraseLine => ascii "\x1b[2K"
  | .rendition parameters => ascii "\x1b[" ++ joinBytes (ascii ";") (parameters.map parameterBytes) ++ ascii "m"
  | .link uri => ascii "\x1b]8;;" ++ utf8 uri ++ ascii "\x1b\\"
  | .print text _ => utf8 text
  | .carriageReturn => [cr]
  | .lineFeed => [lf]
  | .cursorShape code => ascii s!"\x1b[{code} q"
  | .keypad application => writeKeypad application
  | .keyboardFlags flags => ascii s!"\x1b[={flags}u"
  | .terminalString code value => writeTerminalString code value
  | .bell => [bellByte]
  | .graphics command => command.bytes

/-! ## The rendition of the pen -/

structure Rendition where
  pen : Style
  selection : Option (Nat × List Nat)

def selectColor (selector : Nat) (color : Color) (pen : Style) : Style :=
  if selector = 38 then { pen with foreground := color }
  else if selector = 48 then { pen with background := color }
  else { pen with underlineColor := color }

def underlineOf : Nat → UnderlineStyle
  | 1 => .single
  | 2 => .double
  | 3 => .curly
  | 4 => .dotted
  | 5 => .dashed
  | _ => .none

def setAttribute (parameter : List Nat) (pen : Style) : Style :=
  match parameter with
  | [0] => .default
  | [1] => { pen with bold := true }
  | [2] => { pen with dim := true }
  | [3] => { pen with italic := true }
  | [5] => { pen with blink := true }
  | [7] => { pen with inverse := true }
  | [8] => { pen with invisible := true }
  | [9] => { pen with strikethrough := true }
  | [53] => { pen with overline := true }
  | [4, kind] => { pen with underline := underlineOf kind }
  | _ => pen

def Rendition.step (state : Rendition) (parameter : List Nat) : Rendition :=
  match state.selection with
  | none =>
    if parameter = [38] ∨ parameter = [48] ∨ parameter = [58] then
      { state with selection := some (parameter.headD 0, []) }
    else { state with pen := setAttribute parameter state.pen }
  | some (selector, chosen) =>
    match chosen ++ parameter with
    | [5, index] => ⟨selectColor selector (.indexed (UInt8.ofNat index)) state.pen, none⟩
    | [2, red, green, blue] =>
      ⟨selectColor selector (.rgb (UInt8.ofNat red) (UInt8.ofNat green) (UInt8.ofNat blue)) state.pen, none⟩
    | chosen => { state with selection := some (selector, chosen) }

def renditionPen (parameters : List (List Nat)) (pen : Style) : Style :=
  (parameters.foldl Rendition.step ⟨pen, none⟩).pen

/-! ## The screen -/

/-- A pending wrap is made by the next character. The margins are the first row or column of the scrolling
region and the first one behind it. `scrolled` counts the lines that went. -/
structure OuterScreen where
  cols : Nat
  rows : List Row
  row : Nat
  col : Nat
  pendingWrap : Bool
  top : Nat
  bottom : Nat
  left : Nat
  right : Nat
  originMode : Bool
  autowrap : Bool
  insertMode : Bool
  leftRightMode : Bool
  pen : Style
  link : Option String
  scrolled : Nat
deriving DecidableEq

namespace OuterScreen

def blank (rows cols : Nat) : OuterScreen where
  cols := cols
  rows := List.replicate rows ⟨List.replicate cols blankCell, false⟩
  row := 0
  col := 0
  pendingWrap := false
  top := 0
  bottom := rows
  left := 0
  right := cols
  originMode := false
  autowrap := true
  insertMode := false
  leftRightMode := false
  pen := .default
  link := none
  scrolled := 0

variable (s : OuterScreen)

def erasedCell : Cell := { blankCell with style := { Style.default with background := s.pen.background } }

def erasedRow : Row := ⟨List.replicate s.cols s.erasedCell, false⟩

/-- The first column and the first one behind the last, as the margins leave them. -/
def leftEdge : Nat := if s.leftRightMode then s.left else 0

def rightEdge : Nat := if s.leftRightMode && s.col < s.right then s.right else s.cols

def moveTo (row col : Nat) : OuterScreen :=
  let row := if s.originMode then min (s.top + row) (s.bottom - 1) else min row (s.rows.length - 1)
  let col := if s.originMode then min (s.leftEdge + col) (s.rightEdge - 1) else min col (s.cols - 1)
  { s with row := row, col := col, pendingWrap := false }

def setPrivateMode (mode : Nat) (enabled : Bool) : OuterScreen :=
  if mode = 6 then { s with originMode := enabled }.moveTo 0 0
  else if mode = 7 then { s with autowrap := enabled }
  else if mode = 69 then { s with leftRightMode := enabled, left := 0, right := s.cols }
  else s

def setHorizontalMargins (left right : Nat) : OuterScreen :=
  if s.leftRightMode ∧ 0 < left ∧ left < right ∧ right ≤ s.cols then
    { s with left := left - 1, right := right }.moveTo 0 0
  else s

def scrollUp : OuterScreen :=
  { s with
    rows := Shifting.up s.rows s.top s.bottom 1 s.erasedRow
    scrolled := s.scrolled + 1 }

def indexDown : OuterScreen :=
  if s.row + 1 = s.bottom then s.scrollUp
  else { s with row := min (s.row + 1) (s.rows.length - 1) }

def wrap : OuterScreen :=
  { s with
    rows := s.rows.modify s.row fun row => { row with wrapped := true }
    col := s.leftEdge
    pendingWrap := false }.indexDown

/-- Where so many columns are printed: behind a wrap that is pending or that they need. -/
def place (columns : Nat) : OuterScreen :=
  let s := if s.pendingWrap && s.autowrap then s.wrap else s
  if s.rightEdge < s.col + columns then
    if s.autowrap then s.wrap else { s with col := s.rightEdge - columns }
  else s

def glyph (text : String) (columns : Nat) : List Cell :=
  let lead : Cell := ⟨text, UInt8.ofNat columns, false, s.pen, s.link⟩
  if columns = 2 then [lead, trail lead] else [lead]

def changeLine (f : List Cell → List Cell) : OuterScreen :=
  { s with rows := s.rows.modify s.row fun row => { row with cells := mend (f row.cells) } }

def write (text : String) (columns : Nat) : OuterScreen :=
  let line := s.changeLine fun cells =>
    Shifting.splice
      (if s.insertMode then Shifting.down cells s.col s.rightEdge (min columns (s.rightEdge - s.col))
        blankCell
      else cells) s.col (s.glyph text columns)
  if s.col + columns < s.rightEdge then { line with col := s.col + columns, pendingWrap := false }
  else { line with col := s.rightEdge - 1, pendingWrap := true }

def step : OuterCommand → OuterScreen
  | .privateMode mode enabled => s.setPrivateMode mode enabled
  | .insertMode enabled => { s with insertMode := enabled }
  | .resetMargins => { s with top := 0, bottom := s.rows.length }.moveTo 0 0
  | .horizontalMargins left right => s.setHorizontalMargins left right
  | .cursorTo row col => s.moveTo (row - 1) (col - 1)
  | .home => s.moveTo 0 0
  | .eraseDisplay => { s with rows := List.replicate s.rows.length s.erasedRow, pendingWrap := false }
  | .eraseLine => { s with rows := s.rows.set s.row s.erasedRow, pendingWrap := false }
  | .rendition parameters => { s with pen := renditionPen parameters s.pen }
  | .link uri => { s with link := if uri = "" then none else some uri }
  | .print text columns => (s.place columns).write text columns
  | .carriageReturn => { s with col := s.leftEdge, pendingWrap := false }
  | .lineFeed => { s with pendingWrap := false }.indexDown
  | .graphics (.place _ _ placement) => s.moveTo (placement.row - 1).toNat (placement.col - 1).toNat
  | _ => s

def replay (commands : List OuterCommand) : OuterScreen := commands.foldl step s

def printOf : OuterCommand → Option (Nat × Nat × String × Nat)
  | .print text columns => some ((s.place columns).row, (s.place columns).col, text, columns)
  | _ => none

def prints : OuterScreen → List OuterCommand → List (Nat × Nat × String × Nat)
  | _, [] => []
  | s, command :: rest => (s.printOf command).toList ++ prints (s.step command) rest

end OuterScreen

end Lector.Presentation
