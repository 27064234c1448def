import Lector.Output.Scheduler

/-! Snapshots of a terminal (`TerminalSnapshot` in `src/terminal.rs`, with the cells and rows of
`crates/lector-ghostty`). Positions inside a grid are `Nat`; nothing here overflows its `u16`. -/
namespace Lector.Terminal
open Output

/-! ## Cells -/

inductive Color
  | default
  | indexed (index : UInt8)
  | rgb (red green blue : UInt8)
deriving DecidableEq

inductive UnderlineStyle
  | none
  | single
  | double
  | curly
  | dotted
  | dashed
deriving DecidableEq

structure Style where
  foreground : Color
  background : Color
  underlineColor : Color
  bold : Bool
  dim : Bool
  italic : Bool
  blink : Bool
  inverse : Bool
  invisible : Bool
  strikethrough : Bool
  overline : Bool
  underline : UnderlineStyle
deriving DecidableEq

def Style.default : Style where
  foreground := .default
  background := .default
  underlineColor := .default
  bold := false
  dim := false
  italic := false
  blink := false
  inverse := false
  invisible := false
  strikethrough := false
  overline := false
  underline := .none

structure Cell where
  grapheme : String
  width : UInt8
  continuation : Bool
  style : Style
  hyperlink : Option String
deriving DecidableEq

namespace Cell

def default : Cell := ⟨"", 1, false, .default, none⟩

def isWide (cell : Cell) : Bool := cell.width == 2 && !cell.continuation

def isWideContinuation (cell : Cell) : Bool := cell.continuation

end Cell

structure Row where
  cells : List Cell
  wrapped : Bool
deriving DecidableEq

/-! ## Snapshots -/

inductive CursorShape
  | bar
  | block
  | underline
  | blockHollow
deriving DecidableEq

structure Cursor where
  row : Nat
  col : Nat
  visible : Bool
  shape : CursorShape
deriving DecidableEq

def Cursor.default : Cursor := ⟨0, 0, false, .block⟩

inductive ScreenIdentity
  | primary
  | alternate
deriving DecidableEq

inductive MouseProtocol
  | none
  | press
  | pressRelease
  | buttonMotion
  | anyMotion
deriving DecidableEq

inductive MouseEncoding
  | default
  | utf8
  | sgr
deriving DecidableEq

structure TerminalModes where
  applicationKeypad : Bool
  applicationCursor : Bool
  bracketedPaste : Bool
  synchronizedOutput : Bool
  focusReporting : Bool
  kittyKeyboardFlags : UInt8
  mouseProtocol : MouseProtocol
  mouseEncoding : MouseEncoding
deriving DecidableEq

def TerminalModes.default : TerminalModes := ⟨false, false, false, false, false, 0, .none, .default⟩

inductive Viewport
  | live
  | scrollback (offset : Nat)
deriving DecidableEq

structure HistoryPosition where
  row : Nat
  col : Nat
deriving DecidableEq

/-- `scrollback` holds the rows of the history only where they were read as well. -/
structure TerminalSnapshot where
  rows : List Row
  scrollback : List Row
  cursor : Cursor
  geometry : TerminalGeometry
  screen : ScreenIdentity
  modes : TerminalModes
  title : Option String
  workingDirectory : Option String
  historyOrigin : Nat
  scrollbackExtent : Nat
  viewport : Viewport
deriving DecidableEq

def clampU16 (n : Nat) : Nat := min n (2 ^ 16 - 1)

namespace TerminalSnapshot

variable (snapshot : TerminalSnapshot)

def size : Nat × Nat :=
  (clampU16 snapshot.rows.length, snapshot.rows.head?.elim 0 fun row => clampU16 row.cells.length)

def cursorPosition : Nat × Nat := (snapshot.cursor.row, snapshot.cursor.col)

end TerminalSnapshot

end Lector.Terminal
