import Lector.Terminal.Engine
import Lector.View.History

/-! A view (`View` in `src/view.rs`): its state, its frames, and how a position is carried over from
one snapshot to another. Media and indentation levels are left out. -/
namespace Lector.Accessibility
open Output Terminal

def accessibilityJournalMaxEntries : Nat := 1024
def accessibilityJournalMaxBytes : Nat := 1024 * 1024
def presentedHistoryMaxDeltaDepth : Nat := 256
def scrollbackLines : Nat := 10000
def presentedHistoryMaxRetainedRows : Nat := scrollbackLines * 2

/-! ## Frames -/

structure ViewId where
  value : UInt64
deriving DecidableEq

structure AccessibilityEpoch where
  generation : Nat
  startRevision : Nat
deriving DecidableEq

variable (snapshot : TerminalSnapshot)

def PresentedHistoryBasis.fromSnapshot : PresentedHistoryBasis :=
  ⟨snapshot.screen, snapshot.geometry, snapshot.historyOrigin, snapshot.scrollbackExtent⟩

def HistoryState.fromSnapshotWithRevision (revision : Nat) :
    HistoryState := ⟨revision, .fromSnapshot snapshot⟩

structure PresentedViewFrame where
  viewId : ViewId
  revision : Nat
  surfaceId : SurfaceId
  snapshot : TerminalSnapshot
  historyRevision : Nat
  historyBasis : PresentedHistoryBasis
  history : Option (PresentedHistoryDelta Row)
  accessibilityEpoch : AccessibilityEpoch
  explicitlyStable : Bool
  cursorVisibilityRestored : Bool

/-! ## State -/

structure AccessibilityJournalEntry where
  epoch : AccessibilityEpoch
  revision : Nat
  update : UpdateSummary
  requiresSnapshotDiff : Bool
  retainedBytes : Nat
deriving DecidableEq

structure CompletedLinearRecordCache where
  epoch : AccessibilityEpoch
  revision : Nat
  finalizedRevision : Nat
  result : Bool
deriving DecidableEq

structure FrozenAccessibility where
  screen : TerminalSnapshot
  reviewScrollback : Nat
  reviewMark : Option HistoryPosition
  reviewMarkChanged : Bool
  historyChanged : Bool
deriving DecidableEq

inductive AccessibilityReadState
  | live
  | frozen (state : FrozenAccessibility)
deriving DecidableEq

structure View where
  viewId : ViewId
  presentationTracking : Bool
  liveRevision : Nat
  presentedRevision : Nat
  finalizedPresentedRevision : Nat
  liveAccessibilityEpoch : AccessibilityEpoch
  accessibilityEpochFloorGeneration : Nat
  presentedAccessibilityEpoch : AccessibilityEpoch
  presentedAccessibilityEvidenceRevision : Nat
  presentedAccessibilityEvidenceExact : Bool
  presentedAccessibilityRequiresSnapshotDiff : Bool
  accessibilityJournal : List AccessibilityJournalEntry
  accessibilityJournalBytes : Nat
  accessibilityJournalGapStart : Option Nat
  accessibilityJournalDiscardedThrough : Nat
  completedLinearRecordCache : Option CompletedLinearRecordCache
  liveRevisionExplicitlyStable : Bool
  presentedRevisionExplicitlyStable : Bool
  liveRevisionCursorRestored : Bool
  presentedRevisionCursorRestored : Bool
  liveHistoryRevision : Nat
  presentedHistoryRevision : Nat
  presentedHistoryBasis : PresentedHistoryBasis
  sharedLiveHistory : Option (PresentedHistoryDelta Row)
  applicationTransactionOpen : Bool
  unpresentedSynchronizedOutput : Bool
  engine : GhosttyEngine
  committedSnapshot : TerminalSnapshot
  accessibilityReadState : AccessibilityReadState
  standaloneUpdate : UpdateSummary
  presentedUpdate : UpdateSummary
  prevScreen : TerminalSnapshot
  prevScreenTime : Nat
  reviewCursorPosition : Nat × Nat
  reviewCursorFollowPending : Bool
  reviewCursorScreenTransitionPending : Bool
  reviewScrollback : Nat
  retainedHistoryLen : Nat
  reviewMark : Option Nat
  cachedFull : String
  cachedPrevFull : String
  cachedFullValid : Bool
  cachedPrevFullValid : Bool
  cachedFullRowHashes : List UInt64
  cachedPrevFullRowHashes : List UInt64

/-! ## Positions in two snapshots -/

def historyWindowEnd : Nat :=
  saturatingAdd 64 snapshot.historyOrigin snapshot.scrollbackExtent

def clamp (n low high : Nat) : Nat := min (max n low) high

variable (scrollback : Nat)

def translateScrollbackOffset (old new : TerminalSnapshot) : Nat :=
  if scrollback = 0 then 0
  else
    let oldTop := historyWindowEnd old - min scrollback old.scrollbackExtent
    let newTop := clamp oldTop new.historyOrigin (historyWindowEnd new)
    min (historyWindowEnd new - newTop) new.scrollbackExtent

def translateReviewSelection (cursor : Nat × Nat) (old new : TerminalSnapshot) : Nat × (Nat × Nat) :=
  let newRows := new.size.1
  let newCols := new.size.2
  let clampedCursor := (min cursor.1 (newRows - 1), min cursor.2 (newCols - 1))
  if scrollback = 0 then (0, clampedCursor)
  else if old.screen ≠ new.screen ∨ old.size ≠ new.size then
    (translateScrollbackOffset scrollback old new, clampedCursor)
  else
    let oldTop := historyWindowEnd old - min scrollback old.scrollbackExtent
    let selected := clamp (saturatingAdd 64 oldTop cursor.1) new.historyOrigin
      (saturatingAdd 64 (historyWindowEnd new) (newRows - 1))
    let newTop := clamp (selected - cursor.1) new.historyOrigin (historyWindowEnd new)
    (min (historyWindowEnd new - newTop) new.scrollbackExtent,
      (min (selected - newTop) (newRows - 1), clampedCursor.2))

def translateHistoryPosition (position : HistoryPosition) (old new : TerminalSnapshot) :
    Option HistoryPosition :=
  if old.screen ≠ new.screen ∨ old.size ≠ new.size then none
  else do
    let absoluteRow ← checkedAdd old.historyOrigin position.row
    let row ← checkedSub absoluteRow new.historyOrigin
    let logicalRows ← checkedAdd new.scrollbackExtent new.size.1
    if row < logicalRows then some ⟨row, min position.col (new.size.2 - 1)⟩ else none

def snapshotAtScrollback : TerminalSnapshot :=
  let height := snapshot.rows.length
  let historyLen := snapshot.scrollback.length
  let offset := min scrollback historyLen
  let start := historyLen + height - offset - height
  { snapshot with
    rows := if offset = 0 then snapshot.rows
      else ((snapshot.scrollback ++ snapshot.rows).drop start).take height
    scrollback := []
    cursor := if offset = 0 then snapshot.cursor else { snapshot.cursor with visible := false }
    viewport := if offset = 0 then .live else .scrollback offset }

def fitRow (cols : Nat) (row : Row) : Row :=
  let cells := row.cells.take cols ++ List.replicate (cols - row.cells.length) .default
  let cells :=
    match cells.getLast? with
    | some last => if last.isWide then cells.dropLast ++ [.default] else cells
    | none => cells
  { row with cells := cells }

def fitSnapshotToGeometry (geometry : TerminalGeometry) : TerminalSnapshot :=
  let cols := geometry.cols.toNat
  let height := geometry.rows.toNat
  let rows := snapshot.rows.map (fitRow cols)
  { snapshot with
    rows := rows.take height ++ List.replicate (height - rows.length) ⟨List.replicate cols .default, false⟩
    geometry := geometry
    cursor := { snapshot.cursor with
      row := min snapshot.cursor.row (height - 1)
      col := min snapshot.cursor.col (cols - 1) } }

/-! ## Reading a view -/

namespace View

variable (view : View)

def screen : TerminalSnapshot :=
  match view.accessibilityReadState with
  | .frozen state => state.screen
  | .live => view.engine.snapshot

def size : Nat × Nat := view.screen.size

def frozen : Bool :=
  match view.accessibilityReadState with
  | .frozen _ => true
  | .live => false

def reviewMarkPosition : Option HistoryPosition :=
  match view.accessibilityReadState with
  | .frozen state => state.reviewMark
  | .live => view.reviewMark.bind view.engine.reviewMarkPosition

def accessibilityHasUnfinalizedPresentation : Bool :=
  view.presentationTracking && view.finalizedPresentedRevision != view.presentedRevision

/-! ## Small changes -/

def advanceLiveRevision : Option View := do
  let revision ← checkedAdd view.liveRevision 1
  some { view with liveRevision := revision }

def advanceLiveHistoryRevision : Option View := do
  let revision ← checkedAdd view.liveHistoryRevision 1
  some { view with liveHistoryRevision := revision }

def selectViewport (viewport : Viewport) : View := { view with engine := view.engine.selectViewport viewport }

def invalidateVisibleCache : View := { view with cachedFullValid := false, cachedFullRowHashes := [] }

def clearReviewMark : View :=
  match view.accessibilityReadState with
  | .frozen state =>
    { view with
      reviewMark := none
      accessibilityReadState := .frozen
        { state with reviewMark := none, reviewMarkChanged := true } }
  | .live => { view with reviewMark := none }

/-- The review cursor is kept on the screen; where that moves it, the mark goes. -/
def clampReviewCursor (rows cols : Nat) : View :=
  let old := view.reviewCursorPosition
  let position := (min old.1 (rows - 1), min old.2 (cols - 1))
  let view := { view with reviewCursorPosition := position }
  if old ≠ position then view.clearReviewMark else view

def refreshFrozenScreen : View :=
  match view.accessibilityReadState with
  | .frozen state =>
    { view with
      accessibilityReadState := .frozen
        { state with screen := snapshotAtScrollback view.committedSnapshot state.reviewScrollback } }
  | .live => view

def freezeCurrentAccessibility : View :=
  match view.accessibilityReadState with
  | .frozen _ => view
  | .live =>
    { view with
      accessibilityReadState := .frozen
        { screen := view.engine.snapshot
          reviewScrollback := view.reviewScrollback
          reviewMark := view.reviewMarkPosition
          reviewMarkChanged := false
          historyChanged := false } }

def noteHistoryChanged (changed : Bool) : View :=
  match view.accessibilityReadState with
  | .frozen state =>
    { view with
      accessibilityReadState := .frozen
        { state with historyChanged := state.historyChanged || changed } }
  | .live => view

end View

end Lector.Accessibility
