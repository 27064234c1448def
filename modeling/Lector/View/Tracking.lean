import Lector.Foundations.Execution
import Lector.View.Frames

/-! The calls on a view that tracks presentation (`src/view.rs`), and runs of them: output, resizes,
captures, receipts in any order, finalizations and handoffs. -/
namespace Lector.Accessibility
open Output Terminal

/-! ## Batches -/

/-- `captureBatch` and `retainForAccessibility` are the caller's. -/
structure Batch where
  terminal : NativeTerminal
  update : UpdateSummary
  captureBatch : Bool
  retainForAccessibility : Bool

variable (batch : Batch)

def Batch.evidence : Option UpdateSummary :=
  if batch.captureBatch && !batch.retainForAccessibility then none
  else some (takeNormalizedAccessibilityEvidence batch.update batch.captureBatch).1

def Batch.report : Option UpdateSummary :=
  if !batch.captureBatch then none
  else if batch.retainForAccessibility then
    some (takeNormalizedAccessibilityEvidence batch.update true).2
  else some { batch.update with printedRuns := [] }

def Batch.synchronizedActivity (before : TerminalSnapshot) : Bool :=
  before.modes.synchronizedOutput || batch.update.synchronizedOutput || batch.update.synchronizedOutputOpened

def Batch.screenTransition : Bool := batch.update.screenBefore != batch.update.screenAfter

def Batch.historyChanged (before : TerminalSnapshot) : Bool :=
  batch.update.historyChanged || batch.terminal.live.scrollbackExtent != before.scrollbackExtent ||
    batch.terminal.live.historyOrigin != before.historyOrigin || batch.screenTransition

/-! ## Calls -/

variable [EvidenceLayout]

namespace View

variable (view : View)

def recordBatch (batch : Batch) (synchronizedActivity : Bool) : View :=
  match batch.evidence with
  | some evidence => view.appendAccessibilityEvidence evidence synchronizedActivity
  | none => { view with standaloneUpdate := .default }.noteAccessibilityEvidenceGap view.liveRevision

def followBatch (before : TerminalSnapshot) (oldReviewScrollback : Nat) (historyChanged : Bool) : View :=
  let view := view.keepReview
    (if oldReviewScrollback = 0 then 0
      else translateScrollbackOffset oldReviewScrollback before view.engine.snapshot)
  let view := { view with reviewCursorFollowPending := false }.noteHistoryChanged historyChanged
  let view := view.invalidateVisibleCache
  view.clampReviewCursor view.size.1 view.size.2

def parseBatch (batch : Batch) : View :=
  let view := view.selectViewport .live
  { view with
    engine := view.engine.refresh batch.terminal
    applicationTransactionOpen := batch.update.synchronizedOutput
    reviewCursorScreenTransitionPending := view.reviewCursorScreenTransitionPending || batch.screenTransition }

def advanceHistoryIf (changed : Bool) : Option View :=
  if changed then view.advanceLiveHistoryRevision else some view

/-- A handoff between the primary and the alternate screen is a new accessibility context. -/
def beginEpochIf (transition : Bool) : Option View :=
  if transition then view.beginAccessibilityEpoch else some view

def noteBoundary (update : UpdateSummary) : View :=
  { view with
    liveRevisionExplicitlyStable := update.synchronizedOutputClosed ||
      (update.semanticInputBoundary && update.screenAfter == .primary)
    liveRevisionCursorRestored := update.cursorVisibilityRestored }

def noteSynchronizedActivity (activity : Bool) : View :=
  { view with unpresentedSynchronizedOutput := view.unpresentedSynchronizedOutput || activity }

def processChanges (batch : Batch) : Option (Option UpdateSummary × View) := do
  let view := view.freezeCurrentAccessibility
  let before := view.engine.snapshot
  let oldReviewScrollback := view.reviewScrollback
  let historyChanged := batch.historyChanged before
  let activity := batch.synchronizedActivity before
  let view ← (view.parseBatch batch).advanceHistoryIf historyChanged
  let view ← view.beginEpochIf batch.screenTransition
  let view ← (view.noteBoundary batch.update).advanceLiveRevision
  let view := (view.noteSynchronizedActivity activity).recordBatch batch activity
  some (batch.report, view.followBatch before oldReviewScrollback historyChanged)

/-- `terminal` is what the resize leaves behind. -/
def setSize (terminal : NativeTerminal) : Option View := do
  let view := view.freezeCurrentAccessibility
  let view := { view with engine := view.engine.refresh terminal }
  let view ← view.advanceLiveRevision
  let view ← view.advanceLiveHistoryRevision
  let view := { view with sharedLiveHistory := none }
  let view := view.keepReview (min view.reviewScrollback view.engine.scrollbackExtent)
  some (view.noteHistoryChanged true).invalidateVisibleCache

def advancePrevScreen : View :=
  if view.frozen then { view with prevScreen := view.screen }
  else
    let visibleOffset := view.reviewScrollback
    let view := view.selectViewport .live
    { view with prevScreen := view.engine.snapshot }.selectViewport (.scrollback visibleOffset)

def baselineEvidence : View :=
  { view with
    completedLinearRecordCache := none
    standaloneUpdate := .default
    presentedUpdate := .default
    finalizedPresentedRevision := view.presentedRevision
    presentedRevisionExplicitlyStable := false
    presentedRevisionCursorRestored := false
    presentedAccessibilityEvidenceRevision := view.presentedRevision
    presentedAccessibilityEvidenceExact := true
    presentedAccessibilityRequiresSnapshotDiff := false }

/-- What `finalize_changes` does besides the evidence. -/
def finishFinalize (nowMs : Nat) (frozen : Bool) : View :=
  { view with
    prevScreenTime := nowMs
    reviewCursorFollowPending := !frozen && view.reviewCursorScreenTransitionPending
    cachedPrevFull := if view.cachedFullValid then view.cachedFull else view.cachedPrevFull
    cachedPrevFullValid := view.cachedFullValid
    cachedPrevFullRowHashes := if view.cachedFullValid then view.cachedFullRowHashes else [] }

def finalizeChanges (nowMs : Nat) : View :=
  if !view.accessibilityHasUnfinalizedPresentation then view
  else
    let baselined := view.advancePrevScreen.baselineEvidence
    (baselined.discardAccessibilityJournalThrough baselined.presentedRevision).finishFinalize nowMs
      view.frozen

def clearUpdateSummary : Option View :=
  resetAccessibilityJournalForHandoff
    { view with standaloneUpdate := .default, presentedUpdate := .default }

/-- The working model is one revision ahead of the snapshot that accessibility reads. -/
def openTracked : Option View := do
  let view ← view.advanceLiveRevision
  some
    (appendAccessibilityEvidence
      { view with
        liveHistoryRevision := 1
        sharedLiveHistory := none
        unpresentedSynchronizedOutput := true } .default true)

def commitLiveHistory : View :=
  let visibleOffset := view.reviewScrollback
  let view := view.selectViewport .live
  { view with committedSnapshot := view.engine.snapshotWithHistory }.selectViewport
    (.scrollback visibleOffset)

def presentCommitted : View :=
  { view with
    presentedHistoryBasis := .fromSnapshot view.committedSnapshot
    presentedRevision := 0 }

def commitOrOpen (frozen : Bool) : Option View :=
  if frozen then view.openTracked else some view.commitLiveHistory

def enablePresentationTracking : Option View :=
  if view.presentationTracking then some view
  else do
    let frozen := view.frozen
    let view ← resetAccessibilityJournalForHandoff
      { view with presentationTracking := true, standaloneUpdate := .default }
    let view ← view.commitOrOpen frozen
    some view.presentCommitted

end View

def View.new (viewId : ViewId) (terminal : NativeTerminal) : View :=
  let engine : GhosttyEngine := ⟨terminal, .live⟩
  let committedSnapshot := engine.snapshotWithHistory
  { viewId := viewId
    presentationTracking := false
    liveRevision := 0
    presentedRevision := 0
    finalizedPresentedRevision := 0
    liveAccessibilityEpoch := ⟨1, 0⟩
    accessibilityEpochFloorGeneration := 1
    presentedAccessibilityEpoch := ⟨1, 0⟩
    presentedAccessibilityEvidenceRevision := 0
    presentedAccessibilityEvidenceExact := true
    presentedAccessibilityRequiresSnapshotDiff := false
    accessibilityJournal := []
    accessibilityJournalBytes := 0
    accessibilityJournalGapStart := none
    accessibilityJournalDiscardedThrough := 0
    completedLinearRecordCache := none
    liveRevisionExplicitlyStable := false
    presentedRevisionExplicitlyStable := false
    liveRevisionCursorRestored := false
    presentedRevisionCursorRestored := false
    liveHistoryRevision := 0
    presentedHistoryRevision := 0
    presentedHistoryBasis := .fromSnapshot committedSnapshot
    sharedLiveHistory := none
    applicationTransactionOpen := false
    unpresentedSynchronizedOutput := false
    engine := engine
    committedSnapshot := committedSnapshot
    accessibilityReadState := .live
    standaloneUpdate := .default
    presentedUpdate := .default
    prevScreen := engine.snapshot
    prevScreenTime := 0
    reviewCursorPosition := engine.snapshot.cursorPosition
    reviewCursorFollowPending := false
    reviewCursorScreenTransitionPending := false
    reviewScrollback := 0
    retainedHistoryLen := 0
    reviewMark := none
    cachedFull := ""
    cachedPrevFull := ""
    cachedFullValid := false
    cachedPrevFullValid := false
    cachedFullRowHashes := []
    cachedPrevFullRowHashes := [] }

/-- Untouched revisions, epochs and journal; a frozen view holds all rows of its history. -/
structure View.Standalone (view : View) : Prop where
  presentationTracking : view.presentationTracking = false
  liveRevision : view.liveRevision = 0
  presentedRevision : view.presentedRevision = 0
  finalizedPresentedRevision : view.finalizedPresentedRevision = 0
  liveAccessibilityEpoch : view.liveAccessibilityEpoch = ⟨1, 0⟩
  accessibilityJournal : view.accessibilityJournal = []
  accessibilityJournalGapStart : view.accessibilityJournalGapStart = none
  accessibilityJournalDiscardedThrough : view.accessibilityJournalDiscardedThrough = 0
  liveHistoryRevision : view.liveHistoryRevision = 0
  presentedHistoryRevision : view.presentedHistoryRevision = 0
  sharedLiveHistory : view.sharedLiveHistory = none
  presentedUpdate : view.presentedUpdate = .default
  committed : view.frozen = true →
    view.committedSnapshot.scrollback.length = view.committedSnapshot.scrollbackExtent

omit [EvidenceLayout] in
theorem View.new_standalone (viewId : ViewId) (terminal : NativeTerminal) :
    (View.new viewId terminal).Standalone where
  presentationTracking := rfl
  liveRevision := rfl
  presentedRevision := rfl
  finalizedPresentedRevision := rfl
  liveAccessibilityEpoch := rfl
  accessibilityJournal := rfl
  accessibilityJournalGapStart := rfl
  accessibilityJournalDiscardedThrough := rfl
  liveHistoryRevision := rfl
  presentedHistoryRevision := rfl
  sharedLiveHistory := rfl
  presentedUpdate := rfl
  committed := fun hfrozen => nomatch hfrozen

/-! ## Runs -/

structure ObservedHistory where
  basis : PresentedHistoryBasis
  rows : List Row
deriving DecidableEq

def ObservedHistory.window (history : ObservedHistory) : Window Row := ⟨history.basis.origin, history.rows⟩

def heldHistory (terminal : NativeTerminal) : ObservedHistory := ⟨.fromSnapshot terminal.live, terminal.history⟩

structure CapturedFrame where
  frame : PresentedViewFrame
  live : Bool
  held : ObservedHistory

/-- A batch as the parser saw it, whatever became of its evidence. -/
structure LoggedBatch where
  epoch : AccessibilityEpoch
  revision : Nat
  evidence : Option UpdateSummary
  requiresSnapshotDiff : Bool

/-- A view with its frames, histories and batches, and the revisions that the journal lost. -/
structure Run where
  view : View
  captured : List CapturedFrame
  observed : List ObservedHistory
  batches : List LoggedBatch
  lost : List Nat

def View.journaled (view : View) : List Nat := view.accessibilityJournal.map (·.revision)

def View.missing (view : View) (expected : List Nat) : List Nat :=
  expected.filter fun revision => decide (revision ∉ view.journaled)

/-- `receipt` hands the view any frame ever captured, in any order and any number of times. -/
inductive Event
  | output (batch : Batch)
  | resize (terminal : NativeTerminal)
  | captureLive (surfaceId : SurfaceId)
  | captureCommitted (surfaceId : SurfaceId)
  | receipt (captured : Nat)
  | finalize (nowMs : Nat)
  | handoff

namespace Run

def start (standalone : View) : Option Run := do
  let view ← standalone.enablePresentationTracking
  some
    { view := view
      captured := []
      observed :=
        [⟨.fromSnapshot view.committedSnapshot, view.committedSnapshot.scrollback⟩,
          heldHistory view.engine.terminal]
      batches :=
        if standalone.frozen then
          [⟨view.liveAccessibilityEpoch, view.liveRevision, some .default, true⟩]
        else []
      lost := if standalone.frozen then view.missing [view.liveRevision] else [] }

variable (run : Run)

def output (batch : Batch) : Option Run := do
  let (_, view) ← run.view.processChanges batch
  some
    { view := view
      captured := run.captured
      observed := run.observed ++ [heldHistory batch.terminal]
      batches := run.batches ++ [⟨view.liveAccessibilityEpoch, view.liveRevision, batch.evidence,
          batch.synchronizedActivity run.view.engine.snapshot⟩]
      lost := run.lost ++ view.missing (run.view.journaled ++ [view.liveRevision]) }

def resize (terminal : NativeTerminal) : Option Run := do
  let view ← run.view.setSize terminal
  some
    { run with view := view, observed := run.observed ++ [heldHistory terminal] }

def capture (frame : PresentedViewFrame) (live : Bool) (view : View) : Run :=
  { run with
    view := view
    captured := run.captured ++ [⟨frame, live, heldHistory run.view.engine.terminal⟩] }

def receipt (captured : Nat) : Option Run :=
  match run.captured[captured]? with
  | some receipt => do
    let (_, view) ← run.view.applyPresentedFrameRef receipt.frame
    some { run with view := view }
  | none => some run

def step : Event → Option Run
  | .output batch => run.output batch
  | .resize terminal => run.resize terminal
  | .captureLive surfaceId => do
    let (frame, view) ← run.view.captureLivePresentationFrame surfaceId
    some (run.capture frame true view)
  | .captureCommitted surfaceId =>
    let captured := run.view.captureCommittedPresentationFrame surfaceId
    some (run.capture captured.1 false captured.2)
  | .receipt captured => run.receipt captured
  | .finalize nowMs => some { run with view := run.view.finalizeChanges nowMs }
  | .handoff => do
    let view ← run.view.clearUpdateSummary
    some { run with view := view, lost := run.lost ++ view.missing run.view.journaled }

def steps (events : List Event) : Option Run := PartialRun.run step run events

def reach (standalone : View) (events : List Event) : Option Run :=
  (start standalone).bind fun first => first.steps events

end Run

end Lector.Accessibility
