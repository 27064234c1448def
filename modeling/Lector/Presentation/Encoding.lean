import Lector.Presentation.Matching
import Lector.Presentation.RowWriter

/-! Escape sequences of a render (`src/presentation.rs`). Image commands are left out. -/
namespace Lector.Presentation
open Bytes Output Terminal

/-! ## Modes and the cursor -/

def writePrivateMode (mode : Nat) (enabled : Bool) : Bytes :=
  ascii s!"\x1b[?{mode}" ++ ascii (if enabled then "h" else "l")

def cursorShapeCode : CursorShape → Nat
  | .block | .blockHollow => 2
  | .underline => 4
  | .bar => 6

def writeCursor (cursor : Cursor) : Bytes :=
  ascii s!"\x1b[{saturatingAdd 16 cursor.row 1};{saturatingAdd 16 cursor.col 1}H" ++
    ascii s!"\x1b[{cursorShapeCode cursor.shape} q" ++ writePrivateMode 25 cursor.visible

def mouseMode : MouseProtocol → Option Nat
  | .none => none
  | .press => some 9
  | .pressRelease => some 1000
  | .buttonMotion => some 1002
  | .anyMotion => some 1003

def writeMouseEncoding : MouseEncoding → Bytes
  | .default => []
  | .utf8 => writePrivateMode 1005 true
  | .sgr => writePrivateMode 1006 true

def writeMouseModes (modes : TerminalModes) : Bytes :=
  [9, 1000, 1002, 1003, 1005, 1006].flatMap (fun mode => writePrivateMode mode false) ++
    (mouseMode modes.mouseProtocol).elim [] (fun mode => writePrivateMode mode true) ++
    writeMouseEncoding modes.mouseEncoding

def writeKeypad (applicationKeypad : Bool) : Bytes := ascii (if applicationKeypad then "\x1b=" else "\x1b>")

def writeModes (modes : TerminalModes) : Bytes :=
  writeKeypad modes.applicationKeypad ++ writePrivateMode 1 modes.applicationCursor ++
    writePrivateMode 2004 modes.bracketedPaste ++ writePrivateMode 1004 modes.focusReporting ++
    writeMouseModes modes ++ ascii s!"\x1b[={modes.kittyKeyboardFlags}u" ++
    writePrivateMode 2026 modes.synchronizedOutput

def writeModeChange (mode : Nat) (before after : Bool) : Bytes :=
  if before = after then [] else writePrivateMode mode after

def writeModeChanges (previous intended : TerminalModes) : Bytes :=
  (if previous.applicationKeypad = intended.applicationKeypad then []
    else writeKeypad intended.applicationKeypad) ++
    writeModeChange 1 previous.applicationCursor intended.applicationCursor ++
    writeModeChange 2004 previous.bracketedPaste intended.bracketedPaste ++
    writeModeChange 1004 previous.focusReporting intended.focusReporting ++
    (if previous.mouseProtocol = intended.mouseProtocol ∧
        previous.mouseEncoding = intended.mouseEncoding then []
      else writeMouseModes intended) ++
    (if previous.kittyKeyboardFlags = intended.kittyKeyboardFlags then []
      else ascii s!"\x1b[={intended.kittyKeyboardFlags}u") ++
    writeModeChange 2026 previous.synchronizedOutput intended.synchronizedOutput

/-! ## Terminal-wide strings -/

def writeTerminalString (code : Nat) (value : Option String) : Bytes :=
  ascii s!"\x1b]{code};" ++
    (utf8 (value.getD "")).filter (fun byte => space ≤ byte && byte != 0x7f) ++ ascii "\x1b\\"

def writeEffectChanges (presented intended : PresentedScene) : Bytes :=
  (if terminalStringMatches presented.title intended.title then []
    else writeTerminalString 2 intended.title) ++
    if terminalStringMatches presented.workingDirectory intended.workingDirectory then []
    else writeTerminalString 7 intended.workingDirectory

/-! ## Rows -/

def writeAbsoluteCursor (row col : Nat) : Bytes := ascii s!"\x1b[{row + 1};{col + 1}H"

def writeIncrementalRun (row start stop : Nat) (cells : Row) : Bytes :=
  let writer : RowWriter := ⟨writeAbsoluteCursor row start ++ ascii "\x1b[0m\x1b]8;;\x1b\\", 0, .default, none⟩
  (((cells.cells.take stop).drop start).foldl RowWriter.writeCell writer).finish.bytes ++ ascii "\x1b[0m"

/-- A hard line is written with autowrap off; behind a wrapped one a blank realizes the wrap. -/
def writeFullRow (height rowIndex : Nat) (row : Row) : Bytes :=
  if row.wrapped then
    (writeRowAt rowIndex row).bytes ++ (if rowIndex + 1 < height then [space] else [])
  else ascii "\x1b[?7l" ++ (writeRowAt rowIndex row).bytes ++ ascii "\x1b[?7h"

def writeScrolledRows (intended : PresentedScene) : Bytes :=
  let last := intended.rows.length - 1
  ascii s!"\x1b[{last};{intended.geometry.cols}H\x1b[0mXX\r\n" ++ intended.rows.zipIdx.flatMap fun row =>
      (writeRowAt row.2 row.1).bytes ++ (if row.1.wrapped && row.2 < last then [space] else [])

def writeFullRows (intended : PresentedScene) : Bytes :=
  intended.rows.zipIdx.flatMap (fun row => writeFullRow intended.rows.length row.2 row.1) ++
    if 2 ≤ intended.rows.length ∧ intended.rows.getLast?.any (·.wrapped) then
      writeScrolledRows intended
    else []

end Lector.Presentation
