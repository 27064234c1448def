import Lector.View.Sides

/-! What every call on a view does to the history it presents. -/
namespace Lector.Accessibility
open Terminal Option

namespace View

variable {view view' : View}

/-! ## The journal is elsewhere -/

theorem evictWhileOverLimits_historySide (journal : List AccessibilityJournalEntry) (view : View) :
    (evictWhileOverLimits journal view).historySide = view.historySide := by
  induction journal generalizing view with
  | nil => rfl
  | cons entry rest ih =>
    rw [evictWhileOverLimits]
    split
    · rw [ih]
      rfl
    · rfl

theorem beginAccessibilityEpoch_historySide (h : view.beginAccessibilityEpoch = some view') :
    view'.historySide = view.historySide := by
  simp only [beginAccessibilityEpoch, bind_eq_bind, bind_eq_some_iff, some.injEq] at h
  obtain ⟨-, -, rfl⟩ := h
  rfl

theorem resetAccessibilityJournalForHandoff_historySide
    (h : view.resetAccessibilityJournalForHandoff = some view') : view'.historySide = view.historySide := by
  simp only [resetAccessibilityJournalForHandoff, bind_eq_bind, bind_eq_some_iff, some.injEq] at h
  obtain ⟨next, hepoch, rfl⟩ := h
  have hnext := beginAccessibilityEpoch_historySide hepoch
  split at hnext
  · exact hnext
  · exact hnext

/-- What publishing evidence leaves alone: the history and the two revisions. -/
def unpublished (view : View) : HistorySide × Nat × Nat :=
  (view.historySide, view.liveRevision, view.presentedRevision)

variable (epoch : AccessibilityEpoch)

theorem publishEntries_unpublished (requiredAfter revision : Nat)
    (journal : List AccessibilityJournalEntry) (view : View) :
    (publishEntries epoch requiredAfter revision journal view).unpublished = view.unpublished := by
  induction journal generalizing view with
  | nil => rfl
  | cons entry rest ih =>
    rw [publishEntries]
    split
    · rw [ih, publishEntry]
      split
      · rfl
      · rfl
    · rfl

variable (revision : Nat)

theorem publishAccessibilityEvidence_unpublished (view : View) :
    (view.publishAccessibilityEvidence epoch revision).unpublished = view.unpublished := by
  have henter : (view.enterEpoch epoch).unpublished = view.unpublished := by
    rw [enterEpoch]
    split
    · rfl
    · rfl
  rw [publishAccessibilityEvidence]
  split
  · rfl
  · rw [← henter]
    dsimp only
    split
    · rfl
    · exact publishEntries_unpublished epoch _ revision _ _

theorem publishAccessibilityEvidence_historySide (view : View) :
    (view.publishAccessibilityEvidence epoch revision).historySide = view.historySide :=
  congrArg Prod.fst (publishAccessibilityEvidence_unpublished epoch revision view)

theorem discardEntries_historySide (journal : List AccessibilityJournalEntry)
    (view : View) : (discardEntries revision journal view).historySide = view.historySide := by
  induction journal generalizing view with
  | nil => rfl
  | cons entry rest ih =>
    rw [discardEntries]
    split
    · rw [ih]
      rfl
    · rfl

theorem discardAccessibilityJournalThrough_historySide (view : View) :
    (view.discardAccessibilityJournalThrough revision).historySide = view.historySide := by
  have hdiscarded := discardEntries_historySide revision view.accessibilityJournal view
  simp only [discardAccessibilityJournalThrough]
  split
  · split
    · exact hdiscarded
    · exact hdiscarded
  · exact hdiscarded

/-! ## Calls -/

theorem advanceLiveRevision_historySide (h : view.advanceLiveRevision = some view') :
    view'.historySide = view.historySide := by
  simp only [advanceLiveRevision, bind_eq_bind, bind_eq_some_iff, some.injEq] at h
  obtain ⟨-, -, rfl⟩ := h
  rfl

theorem advanceLiveHistoryRevision_historySide (h : view.advanceLiveHistoryRevision = some view') :
    view'.historySide = { view.historySide with live := view.liveHistoryRevision + 1 } := by
  simp only [advanceLiveHistoryRevision, checkedAdd, bind_eq_bind, bind_eq_some_iff,
    ite_none_right_eq_some, some.injEq] at h
  obtain ⟨-, ⟨-, rfl⟩, rfl⟩ := h
  rfl

theorem finalizeChanges_historySide (nowMs : Nat) (view : View) :
    (view.finalizeChanges nowMs).historySide = view.historySide := by
  rw [finalizeChanges]
  split
  · rfl
  · rw [finishFinalize_historySide, discardAccessibilityJournalThrough_historySide,
      baselineEvidence_historySide, advancePrevScreen_historySide]

theorem clearUpdateSummary_historySide (h : view.clearUpdateSummary = some view') :
    view'.historySide = view.historySide := by
  have hreset := resetAccessibilityJournalForHandoff_historySide h
  exact hreset

variable [EvidenceLayout]

theorem appendAccessibilityEvidence_historySide (update : UpdateSummary) (requires : Bool) (view : View) :
    (view.appendAccessibilityEvidence update requires).historySide = view.historySide := by
  rw [appendAccessibilityEvidence]
  split
  · rfl
  · rw [evictWhileOverLimits_historySide]
    rfl

theorem recordBatch_historySide (batch : Batch) (activity : Bool) (view : View) :
    (view.recordBatch batch activity).historySide = view.historySide := by
  rw [recordBatch]
  split
  · exact appendAccessibilityEvidence_historySide _ _ _
  · rfl

/-- **A batch** moves the engine on and may open a new history revision. -/
theorem processChanges_historySide {batch : Batch} {report : Option UpdateSummary}
    (h : view.processChanges batch = some (report, view')) :
    ∃ live, (live = view.liveHistoryRevision ∨ live = view.liveHistoryRevision + 1) ∧
      view'.historySide = { view.historySide with live := live, terminal := batch.terminal } := by
  have hfrozen := view.freezeCurrentAccessibility_historySide
  generalize hv0 : view.freezeCurrentAccessibility = v0 at hfrozen
  simp only [processChanges, hv0, bind_eq_bind, bind_eq_some_iff] at h
  obtain ⟨v1, h1, v2, h2, v3, h3, -, rfl⟩ := h
  have hlive : v0.liveHistoryRevision = view.liveHistoryRevision := congrArg HistorySide.live hfrozen
  have hmoved : ∃ live, (live = view.liveHistoryRevision ∨ live = view.liveHistoryRevision + 1) ∧
      v1.historySide = { view.historySide with live := live, terminal := batch.terminal } := by
    rw [advanceHistoryIf] at h1
    split at h1
    · refine ⟨view.liveHistoryRevision + 1, .inr rfl, ?_⟩
      rw [advanceLiveHistoryRevision_historySide h1, parseBatch_historySide, hfrozen, ← hlive]
      rfl
    · refine ⟨view.liveHistoryRevision, .inl rfl, ?_⟩
      rw [← some.inj h1, parseBatch_historySide, hfrozen]
      rfl
  have hepoch : v2.historySide = v1.historySide := by
    rw [beginEpochIf] at h2
    split at h2
    · exact beginAccessibilityEpoch_historySide h2
    · rw [some.inj h2]
  obtain ⟨live, hcases, hside⟩ := hmoved
  refine ⟨live, hcases, ?_⟩
  rw [followBatch_historySide, recordBatch_historySide, noteSynchronizedActivity_historySide,
    advanceLiveRevision_historySide h3, noteBoundary_historySide, hepoch, hside]

omit [EvidenceLayout] in
/-- **A resize** moves the engine on, opens a new history revision and drops the shared chain. -/
theorem setSize_historySide {terminal : NativeTerminal} (h : view.setSize terminal = some view') :
    view'.historySide =
      { view.historySide with
        live := view.liveHistoryRevision + 1
        shared := none
        terminal := terminal } := by
  have hfrozen := view.freezeCurrentAccessibility_historySide
  generalize hv0 : view.freezeCurrentAccessibility = v0 at hfrozen
  simp only [setSize, hv0, bind_eq_bind, bind_eq_some_iff, some.injEq] at h
  obtain ⟨v1, h1, v2, h2, rfl⟩ := h
  have hrevision := advanceLiveRevision_historySide h1
  have hhistory := advanceLiveHistoryRevision_historySide h2
  have hlive : v1.liveHistoryRevision = view.liveHistoryRevision :=
    (congrArg HistorySide.live hrevision).trans (congrArg HistorySide.live hfrozen)
  have hresized : ∀ v : View, { v with engine := v.engine.refresh terminal }.historySide =
      { v.historySide with terminal := terminal } := fun _ => rfl
  have hdropped : ∀ v : View, { v with sharedLiveHistory := none }.historySide =
      { v.historySide with shared := none } := fun _ => rfl
  rw [invalidateVisibleCache_historySide, noteHistoryChanged_historySide, keepReview_historySide,
    hdropped, hhistory, hrevision, hresized, hfrozen, hlive]

/-- **Tracking starts** on a committed history with all its rows, under revision zero. -/
theorem enablePresentationTracking_historySide (fresh : view.Standalone)
    (h : view.enablePresentationTracking = some view') : ∃ live committed, view'.historySide =
        ⟨live, 0, .fromSnapshot committed, none, committed, view.engine.terminal⟩ ∧
      committed.scrollback.length = committed.scrollbackExtent := by
  have hpresented : ∀ v : View, v.presentCommitted.historySide =
      { v.historySide with basis := .fromSnapshot v.historySide.committed } := fun _ => rfl
  simp only [enablePresentationTracking, fresh.presentationTracking, Bool.false_eq_true, if_false,
    bind_eq_bind, bind_eq_some_iff, some.injEq] at h
  obtain ⟨v1, h1, v2, h2, rfl⟩ := h
  have hreset := resetAccessibilityJournalForHandoff_historySide h1
  have hside : v1.historySide = view.historySide := hreset
  have hstart : view.historySide = ⟨0, 0, view.presentedHistoryBasis, none, view.committedSnapshot,
      view.engine.terminal⟩ := by
    simp only [historySide, fresh.liveHistoryRevision, fresh.presentedHistoryRevision, fresh.sharedLiveHistory]
  rw [hpresented]
  simp only [commitOrOpen] at h2
  split at h2
  · rename_i hfrozen
    simp only [openTracked, bind_eq_bind, bind_eq_some_iff, some.injEq] at h2
    obtain ⟨v3, h3, rfl⟩ := h2
    have hopened : ∀ v : View, { v with
        liveHistoryRevision := 1
        sharedLiveHistory := none
        unpresentedSynchronizedOutput := true }.historySide =
          { v.historySide with live := 1, shared := none } := fun _ => rfl
    rw [appendAccessibilityEvidence_historySide, hopened, advanceLiveRevision_historySide h3, hside, hstart]
    exact ⟨1, view.committedSnapshot, rfl, fresh.committed hfrozen⟩
  · cases h2
    have hcommitted : v1.commitLiveHistory.historySide = { v1.historySide with
          committed := (v1.selectViewport .live).engine.snapshotWithHistory } := by
      rw [commitLiveHistory, selectViewport_historySide]
      simp [historySide, selectViewport]
    rw [hcommitted, hside, hstart]
    exact ⟨0, (v1.selectViewport .live).engine.snapshotWithHistory, rfl, rfl⟩

/-! ## Receipts -/

omit [EvidenceLayout] in
theorem installPresentedSnapshot_historySide (snapshot : TerminalSnapshot) (caughtUp : Bool)
    (view : View) : (view.installPresentedSnapshot snapshot caughtUp).historySide =
      { view.historySide with committed := snapshot } := by
  have hresume : ∀ (v : View) (scrollback : Nat) (moved : Bool),
      (v.resumeLive scrollback moved).historySide = v.historySide := by
    simp [historySide, resumeLive]
  simp only [installPresentedSnapshot, invalidateVisibleCache_historySide, clampReviewCursor_historySide]
  split
  · rw [hresume]
    rfl
  · rfl

omit [EvidenceLayout] in
/-- **An installed frame** becomes the presented history; a chain it has reached is forgotten. -/
theorem finishPresentedFrame_historySide (frame : PresentedViewFrame) (scrollback : List Row)
    (historyRevision : Nat) (historyBasis : PresentedHistoryBasis) (view : View) :
    (view.finishPresentedFrame frame scrollback historyRevision historyBasis).historySide =
      { live := view.liveHistoryRevision
        presented := historyRevision
        basis := historyBasis
        shared := view.sharedLiveHistory.filter fun history => decide (historyRevision < history.revision)
        committed := { frame.snapshot with scrollback := scrollback }
        terminal := view.engine.terminal } := by
  have hsettled : ∀ (v : View) (caughtUp : Bool), (v.settlePresentation caughtUp).historySide =
      { v.historySide with
        shared := v.historySide.shared.filter fun history =>
          decide (v.historySide.presented < history.revision) } := fun _ _ => rfl
  rw [finishPresentedFrame]
  rw [hsettled, publishAccessibilityEvidence_historySide, installPresentedSnapshot_historySide]
  rfl

inductive Installed (view : View) (frame : PresentedViewFrame) : View → Prop
  | unchanged (basis : frame.historyBasis = view.presentedHistoryBasis)
      (revision : frame.historyRevision = view.presentedHistoryRevision) :
      Installed view frame (view.finishPresentedFrame frame view.committedSnapshot.scrollback
        view.presentedHistoryRevision view.presentedHistoryBasis)
  | moved (history : PresentedHistoryDelta Row) (carried : frame.history = some history)
      (newer : view.presentedHistoryRevision < frame.historyRevision)
      (names : history.revision = frame.historyRevision)
      (validated : validateHistoryDeltaChain history
        (.fromSnapshotWithRevision view.committedSnapshot view.presentedHistoryRevision) =
          some ⟨frame.historyRevision, frame.historyBasis⟩)
      (rows : List Row) (state : HistoryState)
      (applied : applyHistoryDeltaChain view.committedSnapshot.scrollback
        (.fromSnapshotWithRevision view.committedSnapshot view.presentedHistoryRevision) history =
          some (rows, state)) :
      Installed view frame (view.finishPresentedFrame frame rows frame.historyRevision
        frame.historyBasis)

/-- The part of a frame's acceptance that is not about its history chain. -/
structure Acceptable (view : View) (frame : PresentedViewFrame) : Prop where
  tracking : view.presentationTracking = true
  viewId : frame.viewId = view.viewId
  notNewer : frame.revision ≤ view.liveRevision
  notObsolete : view.presentedRevision ≤ frame.revision
  historyNotObsolete : view.presentedHistoryRevision ≤ frame.historyRevision
  screen : frame.snapshot.screen = frame.historyBasis.screen
  origin : frame.snapshot.historyOrigin = frame.historyBasis.origin
  extent : frame.snapshot.scrollbackExtent = frame.historyBasis.extent

omit [EvidenceLayout] in
theorem canApplyPresentedFrame_spec {frame : PresentedViewFrame}
    (h : view.canApplyPresentedFrame frame = true) :
    view.presentationTracking = true ∧ frame.viewId = view.viewId ∧
      frame.revision ≤ view.liveRevision ∧ view.presentedRevision ≤ frame.revision ∧
      view.presentedHistoryRevision ≤ frame.historyRevision ∧
      (frame.historyRevision ≠ view.presentedHistoryRevision →
        ∃ history, frame.history = some history ∧ history.revision = frame.historyRevision) := by
  rw [canApplyPresentedFrame] at h
  split at h
  · exact nomatch h
  · rename_i hguards
    simp only [Bool.not_eq_true', not_or, Bool.not_eq_false, not_lt, not_not] at hguards
    simp only [Bool.and_eq_true, decide_eq_true_eq, Bool.or_eq_true, beq_iff_eq, any_eq_true] at h
    obtain ⟨htracking, hid, hlive, hpresented⟩ := hguards
    refine ⟨htracking, hid, hlive, hpresented, h.1, fun hne => ?_⟩
    rcases h.2 with hsame | ⟨history, hsome, hrevision⟩
    · exact absurd hsame hne
    · exact ⟨history, hsome, hrevision⟩

omit [EvidenceLayout] in
/-- **Every check comes before the first change**: a rejected frame leaves the view as it is, and an
accepted one was acceptable and was installed. -/
theorem applyPresentedFrameRef_spec {frame : PresentedViewFrame} {accepted : Bool}
    (h : view.applyPresentedFrameRef frame = some (accepted, view')) : (accepted = false ∧ view' = view) ∨
      (accepted = true ∧ view.Acceptable frame ∧ Installed view frame view') := by
  rw [applyPresentedFrameRef] at h
  split at h
  · rename_i hcan
    obtain ⟨htracking, hid, hlive, hpresented, hhistory, hcarried⟩ := canApplyPresentedFrame_spec hcan
    rw [installPresentedFrame] at h
    split at h
    · simp only [some.injEq, Prod.mk.injEq] at h
      exact .inl ⟨h.1.symm, h.2.symm⟩
    rename_i hsnapshot
    simp only [not_or, not_not] at hsnapshot
    have hacceptable : view.Acceptable frame :=
      ⟨htracking, hid, hlive, hpresented, hhistory, hsnapshot.1, hsnapshot.2.1, hsnapshot.2.2.1⟩
    split at h
    · rename_i hsame
      split at h
      · simp only [some.injEq, Prod.mk.injEq] at h
        exact .inl ⟨h.1.symm, h.2.symm⟩
      · rename_i hbasis
        obtain ⟨rfl, rfl⟩ := h
        exact .inr ⟨rfl, hacceptable, .unchanged (not_not.mp hbasis) hsame⟩
    · rename_i hmoved
      obtain ⟨history, hsome, hnames⟩ := hcarried hmoved
      rw [hsome] at h
      simp only [bind_eq_bind, bind_some] at h
      split at h
      · simp only [some.injEq, Prod.mk.injEq] at h
        exact .inl ⟨h.1.symm, h.2.symm⟩
      rename_i target hvalid
      split at h
      · simp only [some.injEq, Prod.mk.injEq] at h
        exact .inl ⟨h.1.symm, h.2.symm⟩
      rename_i htarget
      simp only [not_or, not_not] at htarget
      obtain ⟨applied, happlied, h⟩ := bind_eq_some_iff.mp h
      obtain ⟨rfl, rfl⟩ := h
      have htarget' : target = ⟨frame.historyRevision, frame.historyBasis⟩ := by
        rw [← htarget.1, ← htarget.2]
      rw [htarget'] at hvalid
      refine .inr ⟨rfl, hacceptable, ?_⟩
      rw [htarget.2]
      exact .moved history hsome (by omega) hnames hvalid applied.1 applied.2 happlied
  · simp only [some.injEq, Prod.mk.injEq] at h
    exact .inl ⟨h.1.symm, h.2.symm⟩

end View

end Lector.Accessibility
