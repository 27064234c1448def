import Lector.Terminal.Snapshot

/-! What the terminal engine reports of an update (`UpdateSummary` in `src/terminal.rs`) and how the
reports of consecutive updates are merged. -/
namespace Lector.Terminal
open Output

/-! ## Parts of a report -/

structure TerminalEffects where
  bells : Nat
  titleChanged : Bool
  events : List TerminalEvent
deriving DecidableEq

structure RowRange where
  start : Nat
  stop : Nat
deriving DecidableEq

inductive TerminalDamage
  | none
  | rows (ranges : List RowRange)
  | full
deriving DecidableEq

inductive PrintBoundary
  | continue_
  | lineFeed
  | carriageReturn
deriving DecidableEq

structure PrintedRun where
  text : String
  boundary : PrintBoundary
deriving DecidableEq

inductive TerminalOperation
  | scrollUp (top bottom count : Nat)
  | scrollDown (top bottom count : Nat)
  | insertLines (row bottom count : Nat)
  | deleteLines (row bottom count : Nat)
  | insertChars (row col count : Nat)
  | deleteChars (row col count : Nat)
  | eraseChars (row col count : Nat)
  | writeRun (row col : Nat) (text : String)
deriving DecidableEq

structure UpdateSummary where
  effects : TerminalEffects
  damage : TerminalDamage
  ptyReplies : Bytes
  printedRuns : List PrintedRun
  outputReportStructural : Bool
  parserContinuation : Bool
  operations : List TerminalOperation
  cursorOperations : Nat
  cursorOperationsAfterLastLineFeed : Nat
  lineFeedBoundaries : Nat
  scrollOperations : Nat
  historyChanged : Bool
  changedRows : List RowRange
  cursorBefore : Cursor
  cursorAfter : Cursor
  screenBefore : ScreenIdentity
  screenAfter : ScreenIdentity
  synchronizedOutput : Bool
  synchronizedOutputOpened : Bool
  synchronizedOutputClosed : Bool
  semanticInputBoundary : Bool
  cursorVisibilityRestored : Bool
  batchCount : Nat
deriving DecidableEq

def UpdateSummary.default : UpdateSummary where
  effects := ⟨0, false, []⟩
  damage := .none
  ptyReplies := []
  printedRuns := []
  outputReportStructural := false
  parserContinuation := false
  operations := []
  cursorOperations := 0
  cursorOperationsAfterLastLineFeed := 0
  lineFeedBoundaries := 0
  scrollOperations := 0
  historyChanged := false
  changedRows := []
  cursorBefore := .default
  cursorAfter := .default
  screenBefore := .primary
  screenAfter := .primary
  synchronizedOutput := false
  synchronizedOutputOpened := false
  synchronizedOutputClosed := false
  semanticInputBoundary := false
  cursorVisibilityRestored := false
  batchCount := 0

/-! ## Row ranges -/

def u16Max : Nat := 2 ^ 16 - 1

def rowRangesAreNormalized : List RowRange → Bool
  | [] => true
  | [_] => true
  | first :: second :: rest =>
    saturatingAdd 16 first.stop 1 < second.start && rowRangesAreNormalized (second :: rest)

def appendSortedRowRange (target : List RowRange) (range : RowRange) : List RowRange :=
  match target.getLast? with
  | some previous =>
    if range.start ≤ saturatingAdd 16 previous.stop 1 then
      target.dropLast ++ [⟨previous.start, max previous.stop range.stop⟩]
    else target ++ [range]
  | none => [range]

def coalesceSortedRowRanges (ranges : List RowRange) : List RowRange := ranges.foldl appendSortedRowRange []

def normalizeRowRanges (ranges : List RowRange) : List RowRange :=
  coalesceSortedRowRanges (ranges.mergeSort fun a b => a.start ≤ b.start)

/-- The merge from the back, in the storage of `target`: `write` is one more than the next index. -/
def mergeFromBack (source : List RowRange) :
    (write : Nat) → (left right : Nat) → (target : List RowRange) → List RowRange
  | 0, _, _, target => target
  | write + 1, left, right, target =>
    if left = 0 ∧ right = 0 then target
    else
      let kept := target.getD (left - 1) ⟨0, 0⟩
      let incoming := source.getD (right - 1) ⟨0, 0⟩
      if right = 0 ∨ (0 < left ∧ incoming.start < kept.start) then
        mergeFromBack source write (left - 1) right (target.set write kept)
      else mergeFromBack source write left (right - 1) (target.set write incoming)

def mergeRowRanges (target source : List RowRange) : List RowRange :=
  let target := if rowRangesAreNormalized target then target else normalizeRowRanges target
  let source := if rowRangesAreNormalized source then source else normalizeRowRanges source
  match source, target.getLast? with
  | [], _ => target
  | source, none => source
  | first :: rest, some last =>
    if last.start ≤ first.start then (first :: rest).foldl appendSortedRowRange target
    else
      let source := first :: rest
      let storage := target ++ List.replicate source.length ⟨0, 0⟩
      coalesceSortedRowRanges
        (mergeFromBack source (target.length + source.length) target.length source.length storage)

def mergeDamage : TerminalDamage → TerminalDamage → TerminalDamage
  | .full, _ => .full
  | _, .full => .full
  | .none, damage => damage
  | damage, .none => damage
  | .rows left, .rows right => .rows (mergeRowRanges left right)

/-! ## Printed runs and operations -/

def appendPrintedRun (target : List PrintedRun) (run : PrintedRun) : List PrintedRun :=
  match target.getLast? with
  | some previous =>
    if run.boundary = .lineFeed ∧ run.text = "" ∧ previous.boundary = .carriageReturn ∧
        previous.text = "" then
      target.dropLast ++ [{ previous with boundary := .lineFeed }]
    else if run.boundary = .continue_ then
      target.dropLast ++ [{ previous with text := previous.text ++ run.text }]
    else target ++ [run]
  | none => [run]

def appendPrintedRuns (target source : List PrintedRun) : List PrintedRun :=
  source.foldl appendPrintedRun target

def maxCoalescedWriteRunColumns : Nat := 256

def maxCoalescedWriteRunBytes : Nat := maxCoalescedWriteRunColumns * 4

def writeRunEndCol (col : Nat) (text : String) : Nat := saturatingAdd 16 col (min text.length u16Max)

variable (target : List TerminalOperation)

def appendTerminalWriteRunChunk (row col : Nat) (text : String) : List TerminalOperation :=
  match target.getLast? with
  | some (.writeRun previousRow previousCol previousText) =>
    if previousRow = row ∧ previousCol / maxCoalescedWriteRunColumns = col / maxCoalescedWriteRunColumns ∧
        previousText.utf8ByteSize + text.utf8ByteSize ≤ maxCoalescedWriteRunBytes ∧
        writeRunEndCol previousCol previousText = col then
      target.dropLast ++ [.writeRun previousRow previousCol (previousText ++ text)]
    else target ++ [.writeRun row col text]
  | _ => target ++ [.writeRun row col text]

def chunkLimit (col : Nat) : Nat := maxCoalescedWriteRunColumns - col % maxCoalescedWriteRunColumns

/-- The loop over the characters: `chunk` holds those since the last cut, newest first. -/
def writeRunChunks (row : Nat) : List Char → (chunkCol : Nat) → (chunk : List Char) → List TerminalOperation →
      List TerminalOperation
  | [], chunkCol, chunk, target => appendTerminalWriteRunChunk target row chunkCol (String.ofList chunk.reverse)
  | c :: rest, chunkCol, chunk, target =>
    if chunk.length = chunkLimit chunkCol then
      let target := appendTerminalWriteRunChunk target row chunkCol (String.ofList chunk.reverse)
      let chunkCol := saturatingAdd 16 chunkCol (min chunk.length u16Max)
      if chunkCol = u16Max then
        appendTerminalWriteRunChunk target row chunkCol (String.ofList (c :: rest))
      else writeRunChunks row rest chunkCol [c] target
    else writeRunChunks row rest chunkCol (c :: chunk) target

def appendTerminalWriteRun (row col : Nat) (text : String) : List TerminalOperation :=
  if text = "" ∨ col = u16Max then appendTerminalWriteRunChunk target row col text
  else writeRunChunks row text.toList col [] target

def appendTerminalOperation : TerminalOperation → List TerminalOperation
  | .writeRun row col text => appendTerminalWriteRun target row col text
  | operation => target ++ [operation]

def appendTerminalOperations (target source : List TerminalOperation) : List TerminalOperation :=
  source.foldl appendTerminalOperation target

/-! ## Merging -/

namespace UpdateSummary

def merge (self next : UpdateSummary) : UpdateSummary :=
  if next.batchCount = 0 then self
  else
    { effects :=
        { bells := saturatingAdd 64 self.effects.bells next.effects.bells
          titleChanged := self.effects.titleChanged || next.effects.titleChanged
          events := self.effects.events ++ next.effects.events }
      damage := mergeDamage self.damage next.damage
      ptyReplies := self.ptyReplies ++ next.ptyReplies
      printedRuns := appendPrintedRuns self.printedRuns next.printedRuns
      outputReportStructural := self.outputReportStructural || next.outputReportStructural
      parserContinuation := next.parserContinuation
      operations := appendTerminalOperations self.operations next.operations
      cursorOperations := saturatingAdd 64 self.cursorOperations next.cursorOperations
      cursorOperationsAfterLastLineFeed :=
        if 0 < next.lineFeedBoundaries then next.cursorOperationsAfterLastLineFeed
        else saturatingAdd 64 self.cursorOperationsAfterLastLineFeed
          next.cursorOperationsAfterLastLineFeed
      lineFeedBoundaries := saturatingAdd 64 self.lineFeedBoundaries next.lineFeedBoundaries
      scrollOperations := saturatingAdd 64 self.scrollOperations next.scrollOperations
      historyChanged := self.historyChanged || next.historyChanged
      changedRows := mergeRowRanges self.changedRows next.changedRows
      cursorBefore := if self.batchCount = 0 then next.cursorBefore else self.cursorBefore
      cursorAfter := next.cursorAfter
      screenBefore := if self.batchCount = 0 then next.screenBefore else self.screenBefore
      screenAfter := next.screenAfter
      synchronizedOutput := next.synchronizedOutput
      synchronizedOutputOpened := self.synchronizedOutputOpened || next.synchronizedOutputOpened
      synchronizedOutputClosed := next.synchronizedOutputClosed
      semanticInputBoundary := next.semanticInputBoundary
      cursorVisibilityRestored := next.cursorVisibilityRestored
      batchCount := saturatingAdd 64 self.batchCount next.batchCount }

def mergeAll (updates : List UpdateSummary) : UpdateSummary := updates.foldl merge default

end UpdateSummary

end Lector.Terminal
