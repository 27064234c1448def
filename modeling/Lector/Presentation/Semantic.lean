import Lector.Presentation.Incremental
import Lector.Presentation.VtScreen

/-! The semantic fast path of the renderer (`semantic_batch` in `src/presentation.rs`). The statistics are
left out. -/
namespace Lector.Presentation
open Bytes Output Terminal

/-! ## Operations -/

/-- The rows that are predicted, the commands written so far, and the regions to repair. -/
structure SemanticState where
  rows : List Row
  commands : List VtCommand
  repairs : List GridRect

def exactRegion (region : GridRect) (geometry : TerminalGeometry) : Option (Nat × Nat × Nat × Nat) :=
  if clipGridRect region geometry ≠ some region then none
  else
    let top := region.origin.row.toNat
    let left := region.origin.col.toNat
    some (top, top + region.rows, left, left + region.cols)

variable (top bottom count : Nat)

def verticalCommands (upward lines : Bool) : List VtCommand :=
  .setMargins (top + 1) bottom ::
    if lines then
      [.cursorTo top 0, if upward then .deleteLines count else .insertLines count, .resetMargins]
    else
      (if upward then .scrollUp count else .scrollDown count) :: .resetMargins ::
        (List.range count).flatMap fun row =>
          [.cursorTo ((if upward then bottom - count else top) + row) 0, .eraseLine]

variable (geometry : TerminalGeometry) (state : SemanticState)

def eraseChars (region : GridRect) : Option SemanticState := do
  let (top, bottom, left, right) ← exactRegion region geometry
  if bottom ≠ top + 1 then none
  else do
    let row ← state.rows[top]?
    if row.wrapped then none
    else
      let cells := Shifting.splice row.cells left (List.replicate (right - left) .default)
      some
        { rows := state.rows.set top { row with cells := cells }
          commands := state.commands ++ [.cursorTo top left, .eraseChars (right - left)]
          repairs := state.repairs ++ [region] }

def isPlainText (text : String) : Bool := (utf8 text).all fun byte => space ≤ byte && byte < 0x7f

def writeRun (origin : GridPoint)
    (text : String) : Option SemanticState :=
  if !isPlainText text ∨ origin.row < 0 ∨ origin.col < 0 then none
  else do
    let region : GridRect := ⟨origin, 1, min text.length u16Max⟩
    let (top, _, left, right) ← exactRegion region geometry
    let row ← state.rows[top]?
    let cells := Shifting.splice row.cells left ((text.toList.take (right - left)).map Screen.textCell)
    some
      { rows := state.rows.set top { row with cells := cells }
        commands := state.commands ++ [.cursorTo top left, .print text]
        repairs := state.repairs ++ [region] }

def copyRun (row intended : Row) (run : Nat × Nat) : Row :=
  { row with cells := Shifting.splice row.cells run.1 ((intended.cells.take run.2).drop run.1) }

variable (capabilities : RenderCapabilities)

end Lector.Presentation
