import Lector.Foundations.Scanning
import Lector.Review.Parser
import Lector.Tmux.Queueing
import Lector.View.Copying

/-! The frozen copy of a terminal that review mode reads (`src/review/document.rs`). The styles of cells are
left out with the formatting of rows. -/
namespace Lector.Review
open Scanning Terminal

/-! ## Documents -/

theorem lt_iff {a b : HistoryPosition} : a.lt b = true ↔ a.row < b.row ∨ a.row = b.row ∧ a.col < b.col := by
  simp [HistoryPosition.lt]

theorem not_lt_iff {a b : HistoryPosition} :
    a.lt b = false ↔ b.row < a.row ∨ b.row = a.row ∧ b.col ≤ a.col := by
  rw [← Bool.not_eq_true, lt_iff]
  omega

structure Cell where
  text : String
  wideContinuation : Bool
deriving DecidableEq

def Cell.blank : Cell := ⟨"", false⟩

def Cell.glyph (cell : Cell) : String := if cell.text = "" then " " else cell.text

structure Row where
  cells : List Cell
  wrapped : Bool
deriving DecidableEq

namespace Row

def used (cells : List Cell) : Nat :=
  cells.zipIdx.foldl
    (fun stop cell => if cell.1.text ≠ "" || cell.1.wideContinuation then cell.2 + 1 else stop) 0

def stop (row : Row) : Nat := if row.wrapped then row.cells.length else used row.cells

def continuation (row : Row) (col : Nat) : Bool := (row.cells[col]?).any Cell.wideContinuation

end Row

inductive SemanticKind
  | promptStart
  | inputStart
  | commandStart
  | commandFinished (exitCode : Option Int)
deriving DecidableEq

structure SemanticMark where
  kind : SemanticKind
  position : HistoryPosition
  alternateScreen : Bool
deriving DecidableEq

structure ReviewDocument where
  rows : List Row
  marks : List SemanticMark
  captureCols : Nat
  alternateScreen : Bool
  cols_pos : 0 < captureCols
  rows_cols : ∀ row ∈ rows, row.cells.length = captureCols

def captureRow (captureCols : Nat) (sourceRow : Terminal.Row) : Row where
  cells := (List.range captureCols).map fun col =>
    (sourceRow.cells[col]?).elim .blank fun cell => ⟨cell.contents, cell.isWideContinuation⟩
  wrapped := sourceRow.wrapped

namespace ReviewDocument

def fromSnapshot (snapshot : TerminalSnapshot) (semanticMarks : List SemanticMark) (captureCols : Nat)
    (cols_pos : 0 < captureCols) : ReviewDocument where
  rows := (snapshot.scrollback ++ snapshot.rows).map (captureRow captureCols)
  marks := semanticMarks
  captureCols
  alternateScreen := snapshot.screen == .alternate
  cols_pos
  rows_cols := by
    intro row hrow
    obtain ⟨source, -, rfl⟩ := List.mem_map.mp hrow
    simp [captureRow]

variable (self : ReviewDocument)

def rowCount : Nat := self.rows.length

def cell (row col : Nat) : Option Cell := self.rows[row]?.bind fun row => row.cells[col]?

def continuation (row col : Nat) : Bool := (self.cell row col).any Cell.wideContinuation

variable (row : Nat)

def wrapped : Bool := (self.rows[row]?).any Row.wrapped

def stop : Nat := (self.rows[row]?).elim 0 Row.stop

def lineLastCol : Nat := self.stop row - 1

def clampCol (row col : Nat) : Nat := scanDown (self.continuation row) (min col (self.lineLastCol row))

variable (position : HistoryPosition)

def clamp : HistoryPosition :=
  let row := min position.row (self.rowCount - 1)
  ⟨row, self.clampCol row position.col⟩

def lineFirstNonblank : Nat :=
  (self.rows[row]?).elim 0 fun row =>
    ((row.cells.take row.stop).findIdx? fun cell =>
      !cell.text.toList.all Tmux.isWhitespace && cell.text ≠ "").getD 0

def cellText : String := (self.cell position.row position.col).elim "" Cell.text

def cellChar : Option Char := (self.cellText position).toList.head?

/-! ## Text -/

def rowPositions (index : Nat) (row : Row) : List HistoryPosition :=
  ((List.range (max row.stop 1)).filter fun col => !row.continuation col).map (⟨index, ·⟩)

def positions : List HistoryPosition := self.rows.zipIdx.flatMap fun row => rowPositions row.2 row.1

def rowGlyphs (index : Nat) (row : Row) : List (String × HistoryPosition) :=
  ((row.cells.take row.stop).zipIdx.filter fun cell => !cell.1.wideContinuation).map fun cell =>
    (cell.1.glyph, ⟨index, cell.2⟩)

/-- The newline of a row that is not wrapped has the position of its first column. -/
def rowText (index : Nat) (row : Row) : List (String × HistoryPosition) :=
  rowGlyphs index row ++ if row.wrapped then [] else [("\n", ⟨index, 0⟩)]

def text : List (String × HistoryPosition) := self.rows.zipIdx.flatMap fun row => rowText row.2 row.1

def flatText : String := String.join (self.text.map Prod.fst)

def flatPositions : List HistoryPosition :=
  self.text.flatMap fun piece => List.replicate piece.1.utf8ByteSize piece.2

def positionForOffset (offset : Nat) : Option HistoryPosition :=
  (self.flatPositions[offset]?).or
    (if self.rows.isEmpty then none else some (self.clamp ⟨self.rowCount - 1, 0⟩))

/-! ## Motions -/

def moved (original position : HistoryPosition) : Option HistoryPosition :=
  if position ≠ original then some position else none

theorem moved_eq_some {original position target : HistoryPosition} :
    moved original position = some target ↔ position ≠ original ∧ position = target := by
  simp [moved]

def stepRight : Option HistoryPosition :=
  let last := self.lineLastCol position.row
  if last ≤ position.col then none
  else
    let next := scanUp (self.continuation position.row) (last + 1) (position.col + 1)
    if last < next then none else some { position with col := next }

def stepLeft : Option HistoryPosition :=
  if position.col = 0 then none
  else some { position with col := scanDown (self.continuation position.row) (position.col - 1) }

def moveHorizontal (forward : Bool) (count : Nat) : Option HistoryPosition :=
  moved position (steps (if forward then self.stepRight else self.stepLeft) count position)

def moveVertical (down : Bool) (count : Nat) : Option HistoryPosition :=
  let row :=
    if down then min (saturatingAdd 64 position.row count) (self.rowCount - 1) else position.row - count
  if row ≠ position.row then some ⟨row, self.clampCol row position.col⟩ else none

/-! ### Logical lines -/

def logicalLineRange : Nat × Nat :=
  (scanDown (fun start => self.wrapped (start - 1)) (min row (self.rowCount - 1)),
    scanUp (fun stop => self.wrapped (stop - 1)) self.rowCount (min (row + 1) self.rowCount))

def sameLogicalLine (left right : HistoryPosition) : Bool :=
  left.row = right.row || (left.row + 1 = right.row && self.wrapped left.row)

/-! ### Words -/

/-- The classes 0, 1 and 2 of `word_class`. -/
inductive WordClass
  | blank
  | word
  | punctuation
deriving DecidableEq

section Words

-- `char::is_alphanumeric` is whatever table of letters and digits there is.
variable (isAlphanumeric : Char → Bool) (style : WordStyle) (position : HistoryPosition)

def wordClass : WordClass :=
  match self.cellChar position with
  | none => .blank
  | some ch =>
    if Tmux.isWhitespace ch then .blank
    else if style == .bigWord || isAlphanumeric ch || ch == '_' then .word
    else .punctuation

def sameWord (left right : HistoryPosition) : Bool :=
  self.sameLogicalLine left right &&
    self.wordClass isAlphanumeric style left == self.wordClass isAlphanumeric style right

def positionAt (index : Nat) : HistoryPosition := self.positions.getD index ⟨0, 0⟩

def classAt (index : Nat) : WordClass := self.wordClass isAlphanumeric style (self.positionAt index)

def joined (index : Nat) : Bool := self.sameLogicalLine (self.positionAt (index - 1)) (self.positionAt index)

def nextWordStart : Option HistoryPosition := do
  let index ← self.positions.idxOf? position
  let size := self.positions.length
  let i := scanUp
    (fun i => self.sameWord isAlphanumeric style (self.positionAt (i - 1)) (self.positionAt i)) size (index + 1)
  self.positions[scanUp (fun i => self.classAt isAlphanumeric style i == .blank) size i]?

def runStart (wordClass : WordClass) (index : Nat) : Nat :=
  scanDown (fun i => self.classAt isAlphanumeric style (i - 1) == wordClass && self.joined i) index

def runEnd (wordClass : WordClass) (index : Nat) : Nat :=
  scanUp (fun i => self.classAt isAlphanumeric style (i + 1) == wordClass && self.joined (i + 1))
    (self.positions.length - 1) index

def previousWordStart : Option HistoryPosition := do
  let index ← self.positions.idxOf? position
  if index = 0 then none
  else
    let i := scanDown (fun i => self.classAt isAlphanumeric style i == .blank) (index - 1)
    some (self.positionAt (self.runStart isAlphanumeric style (self.classAt isAlphanumeric style i) i))

def nextWordEnd : Option HistoryPosition := do
  let index ← self.positions.idxOf? position
  let i := scanUp (fun i => self.classAt isAlphanumeric style i == .blank) self.positions.length (index + 1)
  if self.positions.length ≤ i then none
  else self.positions[self.runEnd isAlphanumeric style (self.classAt isAlphanumeric style i) i]?

def wordStep (movement : WordMove) (position : HistoryPosition) : Option HistoryPosition :=
  match movement with
  | .forwardStart => self.nextWordStart isAlphanumeric style position
  | .backwardStart => self.previousWordStart isAlphanumeric style position
  | .forwardEnd => self.nextWordEnd isAlphanumeric style position

def moveWord (movement : WordMove) (count : Nat) : Option HistoryPosition := do
  let target ← (List.range count).foldlM
    (fun position _ => self.wordStep isAlphanumeric style movement position) position
  moved position target

end Words

/-! ### Characters and braces -/

def adjacent (forward : Bool) : Option HistoryPosition := do
  let index ← self.positions.idxOf? position
  if forward then self.positions[index + 1]?
  else if index = 0 then none
  else self.positions[index - 1]?

def destination (found : HistoryPosition) (forward till : Bool) : Option HistoryPosition :=
  if till then self.adjacent found !forward else some found

def columns (row firstCol : Nat) : List HistoryPosition :=
  (List.range' firstCol (self.stop row - firstCol)).map (⟨row, ·⟩)

def lineRows : List Nat :=
  List.range' (self.logicalLineRange row).1 ((self.logicalLineRange row).2 - (self.logicalLineRange row).1)

def findCharacter (target : Char) (forward till : Bool) (count : Nat) : Option HistoryPosition := do
  let candidates := (self.lineRows position.row).flatMap fun row => self.columns row 0
  let found := candidates.filter fun candidate =>
    self.cellChar candidate == some target && if forward then position.lt candidate else candidate.lt position
  let found ← (if forward then found else found.reverse)[count - 1]?
  let found ← self.destination found forward till
  moved position found

def brackets : List (Char × Char) := [('(', ')'), ('[', ']'), ('{', '}')]

def isBracket (ch : Char) : Bool := brackets.any fun pair => ch == pair.1 || ch == pair.2

def mateOf (ch : Char) : Option (Char × Bool) :=
  match brackets.find? fun pair => ch == pair.1 with
  | some pair => some (pair.2, true)
  | none => (brackets.find? fun pair => ch == pair.2).map fun pair => (pair.1, false)

def hasChar (ch : Char) (position : HistoryPosition) : Bool := self.cellChar position == some ch

/-- The bracket that belongs to the one at `start`. -/
def mateFrom (start : HistoryPosition) : Option HistoryPosition := do
  let ch ← self.cellChar start
  let (mate, forward) ← mateOf ch
  let index ← self.positions.idxOf? start
  Nesting.findMate (self.hasChar ch) (self.hasChar mate) 0
    (if forward then self.positions.drop (index + 1) else (self.positions.take index).reverse)

def startBracket : Option HistoryPosition :=
  ((self.lineRows position.row).flatMap fun row =>
    self.columns row (if row = position.row then position.col else 0)).find? fun candidate =>
      (self.cellChar candidate).any isBracket

def matchingBrace : Option HistoryPosition :=
  (self.startBracket position).bind self.mateFrom

def prompt (forward : Bool) (count : Nat) : Option HistoryPosition :=
  let found := ((self.marks.filter fun mark =>
    mark.alternateScreen == self.alternateScreen && mark.kind == .promptStart).map (·.position)).filter
      fun candidate => if forward then position.lt candidate else candidate.lt position
  ((if forward then found else found.reverse)[count - 1]?).map self.clamp

/-! ## Search -/

/-- `RegexBuilder::new(query).multi_line(true).build().ok()`, then `find_iter`: where the matches start. -/
abbrev RegexEngine := String → Option (String → List Nat)

def searchOrder (direction : SearchDirection) (position : HistoryPosition) (found : List HistoryPosition) :
    List HistoryPosition :=
  match direction with
  | .forward =>
    (found.filter fun candidate => position.lt candidate) ++
      found.filter fun candidate => !position.lt candidate
  | .backward =>
    (found.reverse.filter fun candidate => candidate.lt position) ++
      found.reverse.filter fun candidate => !candidate.lt position

def search (engine : RegexEngine) (query : String) (position : HistoryPosition) (direction : SearchDirection)
    (count : Nat) : Option HistoryPosition := do
  let findIter ← engine query
  let found := (findIter self.flatText).filterMap self.positionForOffset
  if found.isEmpty then none
  else
    let ordered := searchOrder direction position found
    let target ← ordered[(count - 1) % ordered.length]?
    moved position target

/-! ## Text of ranges -/

def trimEnd (text : List Char) : List Char := text.rdropWhile (· = ' ')

def rowSlice (row : Row) (start stop : Nat) : List Char :=
  (((row.cells.take (min stop row.stop)).drop start).filter fun cell => !cell.wideContinuation).flatMap
    fun cell => cell.glyph.toList

variable (first last : HistoryPosition)

def yankRow (linewise : Bool) (text : List Char) (row : Row × Nat) : List Char :=
  let start := if row.2 = first.row then first.col else 0
  let stop := if row.2 = last.row then last.col + 1 else row.1.stop
  let text := text ++ rowSlice row.1 start stop
  let text := if linewise || row.2 ≠ last.row then trimEnd text else text
  if row.2 ≠ last.row && !row.1.wrapped then text ++ ['\n'] else text

def rowsBetween (first last : Nat) : List (Row × Nat) := (self.rows.zipIdx.take (last + 1)).drop first

def orderedEnds : HistoryPosition × HistoryPosition :=
  if last.lt first then (last, first) else (first, last)

def yanked (text : List Char) : Option String := if text = [] then none else some (String.ofList text)

def yankRange (linewise : Bool) : Option String :=
  let ends := orderedEnds first last
  let first : HistoryPosition := if linewise then { ends.1 with col := 0 } else ends.1
  let last : HistoryPosition := if linewise then { ends.2 with col := self.lineLastCol ends.2.row } else ends.2
  let text := (self.rowsBetween first.row last.row).foldl (yankRow first last linewise) []
  yanked (if linewise then text ++ ['\n'] else text)

/-! ## Text objects -/

section Words

variable (isAlphanumeric : Char → Bool) (style : WordStyle)

def countedEnd (wordClass : WordClass) : Nat → Nat → Nat
  | 0, stop => stop
  | remaining + 1, stop =>
    let stop := self.runEnd isAlphanumeric style wordClass stop
    if remaining = 0 then stop
    else
      let next := scanUp (fun i => self.classAt isAlphanumeric style i == .blank) self.positions.length (stop + 1)
      if self.positions.length ≤ next then stop else countedEnd wordClass remaining next

def trailingEnd (stop : Nat) : Nat :=
  scanUp (fun i => self.classAt isAlphanumeric style i == .blank) self.positions.length (stop + 1) - 1

def innerWordIndices (index : Nat) (around : Bool) (count : Nat) : Option (Nat × Nat) :=
  let blankAt := fun i => self.classAt isAlphanumeric style i == .blank
  let index := scanUp blankAt self.positions.length index
  if self.positions.length ≤ index || blankAt index then none
  else
    let wordClass := self.classAt isAlphanumeric style index
    let start := self.runStart isAlphanumeric style wordClass index
    let stop := self.countedEnd isAlphanumeric style wordClass count index
    if around then
      let stop := self.trailingEnd isAlphanumeric style stop
      -- blanks in front are taken when the end is still at the cursor
      if stop = index then some (scanDown (fun i => blankAt (i - 1)) start, stop) else some (start, stop)
    else some (start, stop)

def innerWordRange (position : HistoryPosition) (around : Bool) (count : Nat) :
    Option (HistoryPosition × HistoryPosition) := do
  let index ← self.positions.idxOf? position
  let range ← self.innerWordIndices isAlphanumeric style index around count
  some (self.positionAt range.1, self.positionAt range.2)

end Words

end ReviewDocument

/-! ## Small screens -/

theorem three_cols : 0 < 3 := by decide

def printedRow (text : String) (wrapped : Bool) : Terminal.Row where
  cells := text.toList.map fun ch => ⟨String.singleton ch, 1, false, .default, none⟩
  wrapped

def screenOf (rows : List Terminal.Row) : TerminalSnapshot where
  rows
  scrollback := []
  cursor := .default
  geometry := ⟨1, 1, 0, 0⟩
  screen := .primary
  modes := .default
  title := none
  workingDirectory := none
  historyOrigin := 0
  scrollbackExtent := 0
  viewport := .live

end Lector.Review
