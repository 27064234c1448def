import Lector.View.Journal

/-! Frames of a view (`src/view.rs`): what is captured for a render, and what happens when the render
carrying it has reached the terminal. -/
namespace Lector.Accessibility
open Output Terminal

/-! ## History for a frame -/

def compactHistoryDeltaRoot (committed : List Row) (presented : HistoryState)
    (previous : PresentedHistoryDelta Row) (base target : HistoryState) (replaceFrom : Nat)
    (rows : List Row) : Option (Option (List Row)) :=
  if committed.length ≠ presented.basis.extent then some none
  else if validateHistoryDeltaChain previous presented ≠ some base then some none
  else do
    let applied ← applyHistoryDeltaChain committed presented previous
    if applied.2 ≠ base then some none
    else do
      let materialized ← applyHistoryTransition applied.1 base target replaceFrom false rows
      some (some materialized)

/-- The target continues the base: same screen and geometry, and no index between them is missing. -/
def appendCompatible (base target : PresentedHistoryBasis) : Bool :=
  target.extent != 0 && base.screen == target.screen && base.geometry == target.geometry &&
    base.origin ≤ target.origin && base.stop.any (fun stop => target.origin ≤ stop) &&
    (base.stop.any fun baseEnd => target.stop.any fun targetEnd => baseEnd ≤ targetEnd)

namespace View

variable (view : View)

def historyBase : HistoryState :=
  view.sharedLiveHistory.elim ⟨view.presentedHistoryRevision, view.presentedHistoryBasis⟩
    HistoryState.fromDelta

def mustCompact (base target : PresentedHistoryBasis) : Bool :=
  let incrementalRows := target.origin + target.extent - (base.origin + base.extent)
  view.sharedLiveHistory.any fun history =>
    presentedHistoryMaxDeltaDepth ≤ history.depth ||
      presentedHistoryMaxRetainedRows < saturatingAdd 64 history.retainedRows incrementalRows

def compactedRows (base target : HistoryState) (replaceFrom : Nat) (suffix : List Row) :
    Option (List Row) := do
  let previous ← view.sharedLiveHistory
  let compacted ← compactHistoryDeltaRoot view.committedSnapshot.scrollback
    ⟨view.presentedHistoryRevision, view.presentedHistoryBasis⟩ previous base target replaceFrom
    suffix
  compacted.elim (view.engine.normalizedHistoryRowsFrom 0) some

def deltaRows (compact : Bool) (base target : HistoryState) (replaceFrom : Nat) (suffix : List Row) :
    Option (List Row) :=
  if compact then view.compactedRows base target replaceFrom suffix else some suffix

/-- `none` is a failed expectation: a row that the engine lacks, or an interval beyond `usize`. -/
def nextHistoryDelta : Option (PresentedHistoryDelta Row) := do
  let target : HistoryState := ⟨view.liveHistoryRevision, .fromSnapshot view.engine.snapshot⟩
  let base := view.historyBase
  let compatible := appendCompatible base.basis target.basis
  let compact := compatible && view.mustCompact base.basis target.basis
  let incrementalReplaceFrom :=
    if compatible then base.basis.origin + base.basis.extent else target.basis.origin
  let logicalStart ← checkedSub incrementalReplaceFrom target.basis.origin
  let suffix ← view.engine.normalizedHistoryRowsFrom logicalStart
  let targetEnd ← target.basis.stop
  let expected ← checkedSub targetEnd incrementalReplaceFrom
  if suffix.length ≠ expected then none
  else do
    let rows ← view.deltaRows compact base target incrementalReplaceFrom suffix
    let fullReplacement := compact || !compatible
    let previous := if fullReplacement then none else view.sharedLiveHistory
    some
      { revision := target.revision
        baseRevision := if fullReplacement then view.presentedHistoryRevision else base.revision
        basis := target.basis
        replaceFrom := if compact then target.basis.origin else incrementalReplaceFrom
        rows := rows
        fullReplacement := fullReplacement
        previous := previous
        depth := previous.elim 1 fun history => history.depth + 1
        retainedRows := previous.elim rows.length fun history => history.retainedRows + rows.length }

def presentationHistoryIfChanged : Option (Option (PresentedHistoryDelta Row) × View) :=
  if view.liveHistoryRevision = view.presentedHistoryRevision then some (none, view)
  else
    match view.sharedLiveHistory.filter fun history => history.revision == view.liveHistoryRevision with
    | some history => some (some history, view)
    | none => do
      let history ← view.nextHistoryDelta
      some (some history, { view with sharedLiveHistory := some history })

/-! ## Capturing -/

def keepReview (reviewScrollback : Nat) : View :=
  { view with
    retainedHistoryLen := view.engine.scrollbackExtent
    reviewScrollback := reviewScrollback
    engine := view.engine.selectViewport (.scrollback reviewScrollback) }

def afterLiveScreen : View :=
  let kept := view.keepReview (min view.reviewScrollback view.engine.scrollbackExtent)
  match view.accessibilityReadState with
  | .frozen state =>
    if state.reviewScrollback ≠ 0 then kept.refreshFrozenScreen.invalidateVisibleCache else kept
  | .live => kept

def liveScreen : TerminalSnapshot × View :=
  let atLive := view.selectViewport .live
  (atLive.engine.snapshot, atLive.afterLiveScreen)

def captureLivePresentationFrame (surfaceId : SurfaceId) : Option (PresentedViewFrame × View) := do
  let (snapshot, view) := view.liveScreen
  let (history, view) ← view.presentationHistoryIfChanged
  some
    ({ viewId := view.viewId
       revision := view.liveRevision
       surfaceId := surfaceId
       snapshot := snapshot
       historyRevision := view.liveHistoryRevision
       historyBasis := .fromSnapshot snapshot
       history := history
       accessibilityEpoch := view.liveAccessibilityEpoch
       explicitlyStable := view.liveRevisionExplicitlyStable
       cursorVisibilityRestored := view.liveRevisionCursorRestored }, view)

def committedPresentationSnapshot : TerminalSnapshot × View :=
  match view.accessibilityReadState with
  | .frozen _ =>
    (fitSnapshotToGeometry (snapshotAtScrollback view.committedSnapshot 0)
      view.engine.snapshot.geometry, view)
  | .live => view.liveScreen

def captureCommittedPresentationFrame (surfaceId : SurfaceId) : PresentedViewFrame × View :=
  let captured := view.committedPresentationSnapshot
  ({ viewId := view.viewId
     revision := view.presentedRevision
     surfaceId := surfaceId
     snapshot := captured.1
     historyRevision := view.presentedHistoryRevision
     historyBasis := view.presentedHistoryBasis
     history := none
     accessibilityEpoch := view.presentedAccessibilityEpoch
     explicitlyStable := false
     cursorVisibilityRestored := false }, captured.2)

/-! ## Installing -/

variable (frame : PresentedViewFrame)

def canApplyPresentedFrame : Bool :=
  if !view.presentationTracking ∨ frame.viewId ≠ view.viewId ∨
      view.liveRevision < frame.revision ∨ frame.revision < view.presentedRevision then false
  else
    view.presentedHistoryRevision ≤ frame.historyRevision &&
      (frame.historyRevision == view.presentedHistoryRevision ||
        frame.history.any fun history => history.revision == frame.historyRevision)

structure ReviewBefore where
  scrollback : Nat
  mark : Option HistoryPosition
  markChanged : Bool
  historyChanged : Bool

def reviewBefore : ReviewBefore :=
  match view.accessibilityReadState with
  | .frozen state => ⟨state.reviewScrollback, state.reviewMark, state.reviewMarkChanged, state.historyChanged⟩
  | .live => ⟨view.reviewScrollback, view.reviewMarkPosition, false, false⟩

def resumeLive (reviewScrollback : Nat) (moved : Bool) : View :=
  let reviewScrollback := min reviewScrollback view.engine.scrollbackExtent
  { view with
    reviewScrollback := reviewScrollback
    engine := view.engine.selectViewport (.scrollback reviewScrollback)
    accessibilityReadState := .live
    reviewCursorFollowPending := moved || view.reviewCursorScreenTransitionPending }

def stayFrozen (before : ReviewBefore) (reviewScrollback : Nat) (reviewMark : Option HistoryPosition)
    (historyChanged moved : Bool) : View :=
  { view with
    accessibilityReadState := .frozen
      { screen := snapshotAtScrollback view.committedSnapshot reviewScrollback
        reviewScrollback := reviewScrollback
        reviewMark := if before.markChanged then none else reviewMark
        reviewMarkChanged := before.markChanged
        historyChanged := historyChanged }
    reviewCursorFollowPending := moved }

def installPresentedSnapshot (snapshot : TerminalSnapshot) (caughtUp : Bool) : View :=
  let old := view.committedSnapshot
  let before := view.reviewBefore
  let review := translateReviewSelection before.scrollback view.reviewCursorPosition old snapshot
  let reviewMark := before.mark.bind fun position => translateHistoryPosition position old snapshot
  let historyChanged := before.historyChanged ||
    snapshot.scrollbackExtent != old.scrollbackExtent || snapshot.historyOrigin != old.historyOrigin
  let moved := snapshot.cursorPosition != old.cursorPosition || snapshot.screen != old.screen
  let view :=
    { view with
      committedSnapshot := snapshot
      reviewCursorPosition := review.2
      reviewMark := if before.markChanged then none else view.reviewMark }
  let view :=
    if caughtUp then view.resumeLive review.1 moved
    else view.stayFrozen before review.1 reviewMark historyChanged moved
  (view.clampReviewCursor view.size.1 view.size.2).invalidateVisibleCache

def adoptFrame (historyRevision : Nat)
    (historyBasis : PresentedHistoryBasis) : View :=
  let current := view.accessibilityEpochFloorGeneration ≤ frame.accessibilityEpoch.generation
  { view with
    committedSnapshot := { view.committedSnapshot with scrollback := [] }
    presentedHistoryRevision := historyRevision
    presentedHistoryBasis := historyBasis
    presentedRevision := frame.revision
    completedLinearRecordCache := none
    presentedRevisionExplicitlyStable := current && frame.explicitlyStable
    presentedRevisionCursorRestored := current && frame.cursorVisibilityRestored }

/-- The parser-ahead marker falls when a frame catches up, and a chain that is presented is dropped. -/
def settlePresentation (caughtUp : Bool) : View :=
  { view with
    unpresentedSynchronizedOutput := view.unpresentedSynchronizedOutput && !caughtUp
    sharedLiveHistory := view.sharedLiveHistory.filter fun history =>
      decide (view.presentedHistoryRevision < history.revision) }

def finishPresentedFrame (scrollback : List Row)
    (historyRevision : Nat) (historyBasis : PresentedHistoryBasis) : View :=
  let caughtUp := frame.revision == view.liveRevision
  let view := view.adoptFrame frame historyRevision historyBasis
  let view := view.installPresentedSnapshot { frame.snapshot with scrollback := scrollback } caughtUp
  (view.publishAccessibilityEvidence frame.accessibilityEpoch frame.revision).settlePresentation
    caughtUp

def installPresentedFrame : Option (Bool × View) :=
  let snapshot := frame.snapshot
  if snapshot.screen ≠ frame.historyBasis.screen ∨ snapshot.historyOrigin ≠ frame.historyBasis.origin ∨
      snapshot.scrollbackExtent ≠ frame.historyBasis.extent ∨
      (frame.revision ≠ view.presentedRevision ∧ snapshot.geometry ≠ frame.historyBasis.geometry) then
    some (false, view)
  else if frame.historyRevision = view.presentedHistoryRevision then
    if frame.historyBasis ≠ view.presentedHistoryBasis then some (false, view)
    else
      some (true, view.finishPresentedFrame frame view.committedSnapshot.scrollback
        view.presentedHistoryRevision view.presentedHistoryBasis)
  else do
    let history ← frame.history
    let presented := HistoryState.fromSnapshotWithRevision view.committedSnapshot view.presentedHistoryRevision
    match validateHistoryDeltaChain history presented with
    | none => some (false, view)
    | some target =>
      if target.revision ≠ frame.historyRevision ∨ target.basis ≠ frame.historyBasis then
        some (false, view)
      else do
        let applied ← applyHistoryDeltaChain view.committedSnapshot.scrollback presented history
        some (true, view.finishPresentedFrame frame applied.1 frame.historyRevision target.basis)

def applyPresentedFrameRef : Option (Bool × View) :=
  if view.canApplyPresentedFrame frame then view.installPresentedFrame frame else some (false, view)

end View

end Lector.Accessibility
