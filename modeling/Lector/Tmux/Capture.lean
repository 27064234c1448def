import Lector.Presentation.RowCommands

/-! Captures of tmux panes and what is rebuilt from them (`reconstruction_bytes`,
`capture_line_flags` in `src/tmux_panes.rs`). A capture changes the pen where the style changes. -/
namespace Lector.Tmux
open Bytes Terminal Presentation
open List hiding max

/-! ## Reconstruction -/

structure CaptureOutput where
  lines : List Bytes
  pendingEscape : Bytes
  lineFlags : Bool

def isLineFlag (byte : UInt8) : Bool := (ascii "-DOPXH").contains byte

/-- The flags in front of a line and its contents; without flags all of the line is contents. -/
def captureLineFlags (line : Bytes) : Bytes × Bytes :=
  match line.findIdx? (· == space) with
  | none => ([], line)
  | some index =>
    let flags := line.take index
    if flags.isEmpty || !flags.all isLineFlag then ([], line) else (flags, line.drop (index + 1))

def reconstructLine (lineFlags : Bool) (line : Bytes) : Bytes :=
  let split := if lineFlags then captureLineFlags line else ([], line)
  (if split.1.contains 0x50 then ascii "\x1b]133;A\x1b\\"
    else if split.1.contains 0x4f then ascii "\x1b]133;C\x1b\\"
    else []) ++ split.2

def shapeCode (cursorShape : String) : Nat :=
  if cursorShape = "underline" ∨ cursorShape = "2" then 4
  else if cursorShape = "bar" ∨ cursorShape = "3" then 6
  else 2

def reconstructionBytes (alternateOn : Bool) (cursorX cursorY : Nat) (cursorVisible : Bool)
    (cursorShape : String) (capture : CaptureOutput) : Bytes :=
  let row := saturatingAdd 32 cursorY 1
  let col := saturatingAdd 32 cursorX 1
  (if alternateOn then ascii "\x1b[?1049h" else []) ++ ascii "\x1b[2J\x1b[H" ++
    (capture.lines.zipIdx.flatMap fun line =>
      (if 0 < line.2 then ascii "\r\n" else []) ++ reconstructLine capture.lineFlags line.1) ++
    ascii s!"\x1b[{row};{col}H" ++ ascii (if cursorVisible then "\x1b[?25h" else "\x1b[?25l") ++
    ascii s!"\x1b[{shapeCode cursorShape} q" ++ capture.pendingEscape

def dimension (value : Nat) : Nat := max (clampU16 value) 1

/-! ## Panes -/

inductive LineFlag
  | dead
  | startOutput
  | startPrompt
  | extended
  | hyperlink
deriving DecidableEq

def LineFlag.letter : LineFlag → UInt8
  | dead => 0x44
  | startOutput => 0x4f
  | startPrompt => 0x50
  | extended => 0x58
  | hyperlink => 0x48

def flagLetters (flags : List LineFlag) : Bytes :=
  if flags.isEmpty then ascii "-" else flags.map LineFlag.letter

structure GridCell where
  text : String
  wide : Bool
  style : Style
deriving DecidableEq

/-- A row with the cells that are stored for it. A wrapped one is joined to the next. -/
structure GridLine where
  cells : List GridCell
  wrapped : Bool
  flags : List LineFlag
deriving DecidableEq

def GridCell.columns (cell : GridCell) : Nat := if cell.wide then 2 else 1

def GridLine.columns (line : GridLine) : Nat := (line.cells.map GridCell.columns).sum

/-- The alternate screen has no history; with a pending wrap the cursor is behind the last column.
-/
structure PaneGrid where
  width : Nat
  height : Nat
  history : List GridLine
  visible : List GridLine
  cursorX : Nat
  cursorY : Nat
  cursorVisible : Bool
  cursorShape : String
  alternateOn : Bool
  width_pos : 0 < width
  height_pos : 0 < height
  width_lt : width < 2 ^ 16
  height_lt : height < 2 ^ 16
  visible_length : visible.length = height
  fits : ∀ line ∈ history ++ visible, line.columns ≤ width
  cursorX_le : cursorX ≤ width
  cursorY_lt : cursorY < height
  alternate : alternateOn = true → history = []

def PaneGrid.lines (grid : PaneGrid) : List GridLine := grid.history ++ grid.visible

/-! ## Captures -/

def logicalLines : List GridLine → List (List GridLine)
  | [] => []
  | line :: rest =>
    if line.wrapped then
      match logicalLines rest with
      | [] => [[line]]
      | joined :: others => (line :: joined) :: others
    else [line] :: logicalLines rest

def lineCells (rows : List GridLine) : List GridCell := rows.flatMap GridLine.cells

def lineFlagsOf (rows : List GridLine) : List LineFlag := rows.head?.elim [] GridLine.flags

/-- How tmux changes the pen: renditions from one style to another. -/
structure PenChange where
  renditions : Style → Style → List (List (List Nat))
  changes : ∀ before after, (renditions before after).foldl (fun pen parameters =>
    renditionPen parameters pen) before = after

def penAfter (pen : Style) (cells : List GridCell) : Style := cells.foldl (fun _ cell => cell.style) pen

section Captures

variable (change : PenChange)

def penCommands (pen : Style) (cell : GridCell) : List OuterCommand :=
  if cell.style = pen then [] else (change.renditions pen cell.style).map .rendition

def textCommands : Style → List GridCell → List OuterCommand
  | _, [] => []
  | pen, cell :: rest =>
    penCommands change pen cell ++ .print cell.text cell.columns :: textCommands cell.style rest

/-- `capture-pane -e -J`, with `-F` where line flags are on, behind a cell with the style of the pen. -/
def captureLines (lineFlags : Bool) : Style → List (List GridLine) → List Bytes
  | _, [] => []
  | pen, rows :: rest =>
    ((if lineFlags then flagLetters (lineFlagsOf rows) ++ [space] else []) ++
        commandBytes (textCommands change pen (lineCells rows))) ::
      captureLines lineFlags (penAfter pen (lineCells rows)) rest

variable (grid : PaneGrid)

def PaneGrid.capture (lineFlags : Bool) : List Bytes :=
  captureLines change lineFlags .default (logicalLines grid.lines)

inductive PaneCommand
  | alternateScreen
  | text (command : OuterCommand)

def PaneCommand.bytes : PaneCommand → Bytes
  | .alternateScreen => ascii "\x1b[?1049h"
  | .text command => command.bytes

def markCommands (lineFlags : Bool) (flags : List LineFlag) : List OuterCommand :=
  if lineFlags && flags.contains .startPrompt then [.terminalString 133 (some "A")]
  else if lineFlags && flags.contains .startOutput then [.terminalString 133 (some "C")]
  else []

def lineCommands (lineFlags : Bool) : Bool → Style → List (List GridLine) → List OuterCommand
  | _, _, [] => []
  | first, pen, rows :: rest =>
    (if first then [] else [.carriageReturn, .lineFeed]) ++ markCommands lineFlags (lineFlagsOf rows) ++
      textCommands change pen (lineCells rows) ++
      lineCommands lineFlags false (penAfter pen (lineCells rows)) rest

def PaneGrid.screenCommands (lineFlags : Bool) : List OuterCommand :=
  [.eraseDisplay, .home] ++ lineCommands change lineFlags true .default (logicalLines grid.lines) ++
    [.cursorTo (grid.cursorY + 1) (grid.cursorX + 1), .privateMode 25 grid.cursorVisible,
      .cursorShape (shapeCode grid.cursorShape)]

def PaneGrid.rebuildCommands (lineFlags : Bool) : List PaneCommand :=
  (if grid.alternateOn then [.alternateScreen] else []) ++ (grid.screenCommands change lineFlags).map .text

end Captures

/-! ## What is spelled -/

section Flags

variable (flags : List LineFlag)

theorem flagLetters_ne_nil : flagLetters flags ≠ [] := by
  unfold flagLetters
  split
  · decide
  · rename_i hsome
    cases flags with
    | nil => exact absurd rfl hsome
    | cons flag flags => simp

theorem isLineFlag_letter (flag : LineFlag) : isLineFlag flag.letter = true := by
  cases flag <;> decide

theorem flagLetters_flags : ∀ byte ∈ flagLetters flags, isLineFlag byte = true := by
  have hdash : ascii "-" = [0x2d] := by decide
  intro byte hmem
  unfold flagLetters at hmem
  split at hmem
  · rw [hdash, mem_singleton] at hmem
    rw [hmem]
    decide
  · obtain ⟨flag, -, rfl⟩ := mem_map.mp hmem
    exact isLineFlag_letter flag

/-- **The flags end at the first blank**, whatever the text of the line. -/
theorem captureLineFlags_flagLetters (contents : Bytes) :
    captureLineFlags (flagLetters flags ++ space :: contents) = (flagLetters flags, contents) := by
  have hindex : (flagLetters flags ++ space :: contents).findIdx? (· == space) =
      some (flagLetters flags).length := by
    rw [findIdx?_append]
    have hnone : (flagLetters flags).findIdx? (· == space) = none := by
      refine findIdx?_eq_none_iff.mpr fun byte hmem => ?_
      have hflag := flagLetters_flags flags byte hmem
      refine beq_eq_false_iff_ne.mpr fun heq => ?_
      rw [heq] at hflag
      cases hflag
    rw [hnone, findIdx?_cons]
    simp
  have hall := all_eq_true.mpr (flagLetters_flags flags)
  have hsome : (flagLetters flags).isEmpty = false := by
    rw [← Bool.not_eq_true, List.isEmpty_iff]
    exact flagLetters_ne_nil flags
  unfold captureLineFlags
  rw [hindex]
  simp only [take_left, hall, hsome]
  rw [drop_append, drop_eq_nil_of_le (Nat.le_succ _), Nat.add_sub_cancel_left]
  rfl

theorem contains_flagLetters (flag : LineFlag) :
    (flagLetters flags).contains flag.letter = flags.contains flag := by
  have hinjective : ∀ other : LineFlag, (flag.letter == other.letter) = (flag == other) := by
    intro other
    cases flag <;> cases other <;> decide
  cases flags with
  | nil => cases flag <;> decide
  | cons other rest =>
    show ((other :: rest).map LineFlag.letter).contains flag.letter = _
    induction other :: rest with
    | nil => rfl
    | cons other rest ih => rw [map_cons, contains_cons, contains_cons, ih, hinjective]

end Flags

section Bytes

variable (change : PenChange)

theorem reconstructLine_capture (lineFlags : Bool) (flags : List LineFlag) (contents : Bytes) :
    reconstructLine lineFlags ((if lineFlags then flagLetters flags ++ [space] else []) ++ contents) =
      commandBytes (markCommands lineFlags flags) ++ contents := by
  have hprompt : commandBytes [.terminalString 133 (some "A")] = ascii "\x1b]133;A\x1b\\" := by decide
  have houtput : commandBytes [.terminalString 133 (some "C")] = ascii "\x1b]133;C\x1b\\" := by decide
  cases lineFlags with
  | false => rfl
  | true =>
    have hsplit : flagLetters flags ++ [space] ++ contents = flagLetters flags ++ space :: contents := by simp
    have hstart := contains_flagLetters flags .startPrompt
    have hcommand := contains_flagLetters flags .startOutput
    unfold reconstructLine markCommands
    simp only [if_true, Bool.true_and]
    rw [hsplit, captureLineFlags_flagLetters]
    rw [show (0x50 : UInt8) = LineFlag.startPrompt.letter from rfl, hstart,
      show (0x4f : UInt8) = LineFlag.startOutput.letter from rfl, hcommand]
    split
    · rw [hprompt]
    · split
      · rw [houtput]
      · rfl

theorem reconstructLines_capture (lineFlags : Bool) (pen : Style) (lines : List (List GridLine)) (index : Nat) :
    ((captureLines change lineFlags pen lines).zipIdx index).flatMap (fun line =>
        (if 0 < line.2 then ascii "\r\n" else []) ++ reconstructLine lineFlags line.1) =
      commandBytes (lineCommands change lineFlags (index == 0) pen lines) := by
  induction lines generalizing pen index with
  | nil => rfl
  | cons rows rest ih =>
    have hbreak : commandBytes (if (index == 0) = true then [] else [.carriageReturn, .lineFeed]) =
        if 0 < index then ascii "\r\n" else [] := by
      cases index with
      | zero => rfl
      | succ index =>
        rw [if_neg (by simp), if_pos (Nat.succ_pos index)]
        decide
    rw [captureLines, zipIdx_cons, flatMap_cons, ih, lineCommands, commandBytes_append,
      commandBytes_append, commandBytes_append, hbreak, reconstructLine_capture]
    simp only [append_assoc]
    rfl

/-- **The bytes are the commands**, with the pending escape behind them. -/
theorem reconstructionBytes_capture (grid : PaneGrid) (lineFlags : Bool) (pendingEscape : Bytes) :
    reconstructionBytes grid.alternateOn grid.cursorX grid.cursorY grid.cursorVisible grid.cursorShape
        ⟨grid.capture change lineFlags, pendingEscape, lineFlags⟩ =
      (grid.rebuildCommands change lineFlags).flatMap PaneCommand.bytes ++ pendingEscape := by
  have hrow : saturatingAdd 32 grid.cursorY 1 = grid.cursorY + 1 := by
    have hlt := grid.cursorY_lt
    have hheight := grid.height_lt
    unfold saturatingAdd
    omega
  have hcol : saturatingAdd 32 grid.cursorX 1 = grid.cursorX + 1 := by
    have hle := grid.cursorX_le
    have hwidth := grid.width_lt
    unfold saturatingAdd
    omega
  have htext : ∀ commands : List OuterCommand,
      (commands.map PaneCommand.text).flatMap PaneCommand.bytes = commandBytes commands := by
    intro commands
    rw [flatMap_map]
    rfl
  have hvisible : (OuterCommand.privateMode 25 grid.cursorVisible).bytes =
      ascii (if grid.cursorVisible then "\x1b[?25h" else "\x1b[?25l") := by
    cases grid.cursorVisible <;> decide
  have hclear : commandBytes [.eraseDisplay, .home] = ascii "\x1b[2J\x1b[H" := by decide
  have halternate : (if grid.alternateOn then [PaneCommand.alternateScreen] else []).flatMap PaneCommand.bytes =
      if grid.alternateOn then ascii "\x1b[?1049h" else [] := by
    cases grid.alternateOn <;> rfl
  unfold reconstructionBytes PaneGrid.rebuildCommands PaneGrid.screenCommands PaneGrid.capture
  rw [hrow, hcol, reconstructLines_capture, flatMap_append, halternate, htext, commandBytes_append,
    commandBytes_append, hclear, commandBytes_cons, commandBytes_cons, commandBytes_singleton, hvisible]
  simp only [append_assoc]
  rfl

end Bytes

end Lector.Tmux
