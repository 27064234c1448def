import Lector.View.Tracking

/-! The two sides of a view, the history it presents and the evidence for accessibility, and what every
call does to each. -/
namespace Lector.Accessibility
open Terminal

/-! ## Sides -/

structure HistorySide where
  live : Nat
  presented : Nat
  basis : PresentedHistoryBasis
  shared : Option (PresentedHistoryDelta Row)
  committed : TerminalSnapshot
  terminal : NativeTerminal

structure EvidenceSide where
  live : Nat
  presented : Nat
  finalized : Nat
  liveEpoch : AccessibilityEpoch
  floor : Nat
  presentedEpoch : AccessibilityEpoch
  evidenceRevision : Nat
  exact : Bool
  requiresSnapshotDiff : Bool
  journal : List AccessibilityJournalEntry
  gapStart : Option Nat
  discardedThrough : Nat
  update : UpdateSummary

namespace View

variable (view : View)

def historySide : HistorySide where
  live := view.liveHistoryRevision
  presented := view.presentedHistoryRevision
  basis := view.presentedHistoryBasis
  shared := view.sharedLiveHistory
  committed := view.committedSnapshot
  terminal := view.engine.terminal

def evidenceSide : EvidenceSide where
  live := view.liveRevision
  presented := view.presentedRevision
  finalized := view.finalizedPresentedRevision
  liveEpoch := view.liveAccessibilityEpoch
  floor := view.accessibilityEpochFloorGeneration
  presentedEpoch := view.presentedAccessibilityEpoch
  evidenceRevision := view.presentedAccessibilityEvidenceRevision
  exact := view.presentedAccessibilityEvidenceExact
  requiresSnapshotDiff := view.presentedAccessibilityRequiresSnapshotDiff
  journal := view.accessibilityJournal
  gapStart := view.accessibilityJournalGapStart
  discardedThrough := view.accessibilityJournalDiscardedThrough
  update := view.presentedUpdate

/-! ## Calls that leave a side alone -/

@[simp] theorem freezeCurrentAccessibility_historySide :
    view.freezeCurrentAccessibility.historySide = view.historySide := by
  simp only [freezeCurrentAccessibility]
  split
  · rfl
  · rfl

@[simp] theorem freezeCurrentAccessibility_evidenceSide :
    view.freezeCurrentAccessibility.evidenceSide = view.evidenceSide := by
  simp only [freezeCurrentAccessibility]
  split
  · rfl
  · rfl

@[simp] theorem selectViewport_historySide (viewport : Viewport) :
    (view.selectViewport viewport).historySide = view.historySide := by
  simp [historySide, selectViewport]

@[simp] theorem selectViewport_evidenceSide (viewport : Viewport) :
    (view.selectViewport viewport).evidenceSide = view.evidenceSide := rfl

@[simp] theorem noteHistoryChanged_historySide (changed : Bool) :
    (view.noteHistoryChanged changed).historySide = view.historySide := by
  simp only [noteHistoryChanged]
  split
  · rfl
  · rfl

@[simp] theorem noteHistoryChanged_evidenceSide (changed : Bool) :
    (view.noteHistoryChanged changed).evidenceSide = view.evidenceSide := by
  simp only [noteHistoryChanged]
  split
  · rfl
  · rfl

@[simp] theorem invalidateVisibleCache_historySide :
    view.invalidateVisibleCache.historySide = view.historySide := rfl

@[simp] theorem invalidateVisibleCache_evidenceSide :
    view.invalidateVisibleCache.evidenceSide = view.evidenceSide := rfl

@[simp] theorem clearReviewMark_historySide : view.clearReviewMark.historySide = view.historySide := by
  simp only [clearReviewMark]
  split
  · rfl
  · rfl

@[simp] theorem clearReviewMark_evidenceSide : view.clearReviewMark.evidenceSide = view.evidenceSide := by
  simp only [clearReviewMark]
  split
  · rfl
  · rfl

@[simp] theorem clampReviewCursor_historySide (rows cols : Nat) :
    (view.clampReviewCursor rows cols).historySide = view.historySide := by
  simp only [clampReviewCursor]
  split
  · exact clearReviewMark_historySide _
  · rfl

@[simp] theorem clampReviewCursor_evidenceSide (rows cols : Nat) :
    (view.clampReviewCursor rows cols).evidenceSide = view.evidenceSide := by
  simp only [clampReviewCursor]
  split
  · exact clearReviewMark_evidenceSide _
  · rfl

@[simp] theorem refreshFrozenScreen_historySide : view.refreshFrozenScreen.historySide = view.historySide := by
  simp only [refreshFrozenScreen]
  split
  · rfl
  · rfl

@[simp] theorem refreshFrozenScreen_evidenceSide :
    view.refreshFrozenScreen.evidenceSide = view.evidenceSide := by
  simp only [refreshFrozenScreen]
  split
  · rfl
  · rfl

@[simp] theorem keepReview_historySide (reviewScrollback : Nat) :
    (view.keepReview reviewScrollback).historySide = view.historySide := by
  simp [historySide, keepReview]

@[simp] theorem keepReview_evidenceSide (reviewScrollback : Nat) :
    (view.keepReview reviewScrollback).evidenceSide = view.evidenceSide := rfl

theorem afterLiveScreen_historySide : view.afterLiveScreen.historySide = view.historySide := by
  simp only [afterLiveScreen]
  split
  · split
    · simp
    · simp
  · simp

theorem afterLiveScreen_evidenceSide : view.afterLiveScreen.evidenceSide = view.evidenceSide := by
  simp only [afterLiveScreen]
  split
  · split
    · simp
    · simp
  · simp

@[simp] theorem liveScreen_historySide : view.liveScreen.2.historySide = view.historySide := by
  rw [liveScreen, afterLiveScreen_historySide, selectViewport_historySide]

@[simp] theorem liveScreen_evidenceSide : view.liveScreen.2.evidenceSide = view.evidenceSide := by
  rw [liveScreen, afterLiveScreen_evidenceSide, selectViewport_evidenceSide]

@[simp] theorem noteBoundary_historySide (update : UpdateSummary) :
    (view.noteBoundary update).historySide = view.historySide := rfl

@[simp] theorem noteBoundary_evidenceSide (update : UpdateSummary) :
    (view.noteBoundary update).evidenceSide = view.evidenceSide := rfl

@[simp] theorem noteSynchronizedActivity_historySide (activity : Bool) :
    (view.noteSynchronizedActivity activity).historySide = view.historySide := rfl

@[simp] theorem noteSynchronizedActivity_evidenceSide (activity : Bool) :
    (view.noteSynchronizedActivity activity).evidenceSide = view.evidenceSide := rfl

@[simp] theorem parseBatch_historySide (batch : Batch) :
    (view.parseBatch batch).historySide = { view.historySide with terminal := batch.terminal } := rfl

@[simp] theorem parseBatch_evidenceSide (batch : Batch) :
    (view.parseBatch batch).evidenceSide = view.evidenceSide := rfl

@[simp] theorem advancePrevScreen_historySide : view.advancePrevScreen.historySide = view.historySide := by
  rw [advancePrevScreen]
  split
  · rfl
  · rw [selectViewport_historySide]
    exact view.selectViewport_historySide .live

@[simp] theorem advancePrevScreen_evidenceSide : view.advancePrevScreen.evidenceSide = view.evidenceSide := by
  rw [advancePrevScreen]
  split
  · rfl
  · rfl

@[simp] theorem finishFinalize_historySide (nowMs : Nat) (frozen : Bool) :
    (view.finishFinalize nowMs frozen).historySide = view.historySide := rfl

@[simp] theorem finishFinalize_evidenceSide (nowMs : Nat) (frozen : Bool) :
    (view.finishFinalize nowMs frozen).evidenceSide = view.evidenceSide := rfl

@[simp] theorem baselineEvidence_historySide : view.baselineEvidence.historySide = view.historySide := rfl

@[simp] theorem followBatch_historySide (before : TerminalSnapshot) (oldReviewScrollback : Nat)
    (historyChanged : Bool) :
    (view.followBatch before oldReviewScrollback historyChanged).historySide = view.historySide := by
  have hpending : ∀ v : View, { v with reviewCursorFollowPending := false }.historySide =
      v.historySide := fun _ => rfl
  simp only [followBatch, clampReviewCursor_historySide, invalidateVisibleCache_historySide,
    noteHistoryChanged_historySide, hpending, keepReview_historySide]

@[simp] theorem followBatch_evidenceSide (before : TerminalSnapshot) (oldReviewScrollback : Nat)
    (historyChanged : Bool) : (view.followBatch before oldReviewScrollback historyChanged).evidenceSide =
      view.evidenceSide := by
  have hpending : ∀ v : View, { v with reviewCursorFollowPending := false }.evidenceSide =
      v.evidenceSide := fun _ => rfl
  simp only [followBatch, clampReviewCursor_evidenceSide, invalidateVisibleCache_evidenceSide,
    noteHistoryChanged_evidenceSide, hpending, keepReview_evidenceSide]

end View

end Lector.Accessibility
