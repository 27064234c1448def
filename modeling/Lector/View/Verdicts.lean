import Lector.View.EvidenceSide
import Lector.View.Scrollback

/-! The verdict on a frame: a rejected frame leaves the view as it is, and an accepted one moves the
presented revisions forward, never past the live ones. -/
namespace Lector.Accessibility
open Output Terminal HistorySide
open Option hiding max
open List hiding max

namespace View

variable {view view' : View}

/-! ## Revisions -/

theorem finishPresentedFrame_revisions (frame : PresentedViewFrame) (scrollback : List Row)
    (historyRevision : Nat) (historyBasis : PresentedHistoryBasis) (view : View) :
    let view' := view.finishPresentedFrame frame scrollback historyRevision historyBasis
    view'.liveRevision = view.liveRevision ∧ view'.presentedRevision = frame.revision ∧
      view'.liveHistoryRevision = view.liveHistoryRevision ∧
      view'.presentedHistoryRevision = historyRevision := by
  have hhistory := finishPresentedFrame_historySide frame scrollback historyRevision historyBasis view
  have hsnapshot := installPresentedSnapshot_evidenceSide { frame.snapshot with scrollback := scrollback }
    (frame.revision == view.liveRevision) (view.adoptFrame frame historyRevision historyBasis)
  have hkept := publishAccessibilityEvidence_unpublished frame.accessibilityEpoch frame.revision
    ((view.adoptFrame frame historyRevision historyBasis).installPresentedSnapshot
      { frame.snapshot with scrollback := scrollback } (frame.revision == view.liveRevision))
  exact ⟨(congrArg (·.2.1) hkept).trans (congrArg EvidenceSide.live hsnapshot),
    (congrArg (·.2.2) hkept).trans (congrArg EvidenceSide.presented hsnapshot),
    congrArg live hhistory, congrArg presented hhistory⟩

theorem Installed.revisions {frame : PresentedViewFrame} (h : Installed view frame view') :
    view'.liveRevision = view.liveRevision ∧ view'.presentedRevision = frame.revision ∧
      view'.liveHistoryRevision = view.liveHistoryRevision ∧
      view'.presentedHistoryRevision = frame.historyRevision := by
  cases h with
  | unchanged hbasis hrevision =>
    rw [hrevision]
    exact finishPresentedFrame_revisions _ _ _ _ _
  | moved history hcarried hnewer hnames hvalid rows state happlied =>
    exact finishPresentedFrame_revisions _ _ _ _ _

end View

/-! ## Runs -/

/-- The history revisions of a run stay behind the live one. -/
structure Run.Behind (run : Run) : Prop where
  presented : run.view.presentedHistoryRevision ≤ run.view.liveHistoryRevision
  captured : ∀ captured ∈ run.captured, captured.frame.historyRevision ≤ run.view.liveHistoryRevision

theorem Run.Behind.replace {run run' : Run} (h : run.Behind)
    (presented : run'.view.presentedHistoryRevision ≤ run'.view.liveHistoryRevision)
    (live : run.view.liveHistoryRevision ≤ run'.view.liveHistoryRevision)
    (captured : ∀ captured ∈ run'.captured, captured ∈ run.captured ∨
      captured.frame.historyRevision ≤ run'.view.liveHistoryRevision) : run'.Behind where
  presented := presented
  captured := by
    intro frame hmem
    rcases captured frame hmem with hold | hnew
    · exact (h.captured frame hold).trans live
    · exact hnew

theorem Run.Behind.same {run run' : Run} (h : run.Behind)
    (side : run'.view.historySide = run.view.historySide) (captured : run'.captured = run.captured) :
    run'.Behind := by
  have hlive : run'.view.liveHistoryRevision = run.view.liveHistoryRevision := congrArg live side
  have hpresented : run'.view.presentedHistoryRevision = run.view.presentedHistoryRevision :=
    congrArg HistorySide.presented side
  refine h.replace ?_ hlive.symm.le fun frame hmem => .inl (captured ▸ hmem)
  rw [hlive, hpresented]
  exact h.presented

variable [EvidenceLayout]

theorem Run.Behind.step {run run' : Run} {event : Event} (h : run.Behind)
    (stepped : run.step event = some run') : run'.Behind := by
  cases event with
  | output batch =>
    simp only [Run.step, Run.output, bind_eq_bind, bind_eq_some_iff, some.injEq, Prod.exists] at stepped
    obtain ⟨report, view, hprocessed, rfl⟩ := stepped
    obtain ⟨live, hcases, hside⟩ := View.processChanges_historySide hprocessed
    have hlive : view.liveHistoryRevision = live := congrArg HistorySide.live hside
    have hpresented : view.presentedHistoryRevision = run.view.presentedHistoryRevision :=
      congrArg HistorySide.presented hside
    have hbehind := h.presented
    have hlater : run.view.liveHistoryRevision ≤ view.liveHistoryRevision := by omega
    exact h.replace (by simp only [hpresented]; omega) hlater fun _ => .inl
  | resize terminal =>
    simp only [Run.step, Run.resize, bind_eq_bind, bind_eq_some_iff, some.injEq] at stepped
    obtain ⟨view, hresized, rfl⟩ := stepped
    have hside := View.setSize_historySide hresized
    have hlive : view.liveHistoryRevision = run.view.liveHistoryRevision + 1 := congrArg live hside
    have hpresented : view.presentedHistoryRevision = run.view.presentedHistoryRevision :=
      congrArg HistorySide.presented hside
    have hbehind := h.presented
    have hlater : run.view.liveHistoryRevision ≤ view.liveHistoryRevision := by omega
    exact h.replace (by simp only [hpresented]; omega) hlater fun _ => .inl
  | captureLive surfaceId =>
    simp only [Run.step, bind_eq_bind, bind_eq_some_iff, some.injEq, Prod.exists] at stepped
    obtain ⟨frame, view, hcaptured, rfl⟩ := stepped
    have hcapture := View.captureLivePresentationFrame_captured hcaptured
    obtain ⟨shared, hside⟩ := hcapture.history
    have hlive : view.liveHistoryRevision = run.view.liveHistoryRevision := congrArg live hside
    have hpresented : view.presentedHistoryRevision = run.view.presentedHistoryRevision :=
      congrArg HistorySide.presented hside
    refine h.replace ?_ hlive.symm.le fun captured hmem => ?_
    · simp only [Run.capture, hlive, hpresented]
      exact h.presented
    · rcases mem_append.mp hmem with hold | hnew
      · exact .inl hold
      · obtain rfl := mem_singleton.mp hnew
        exact .inr (hcapture.historyRevision.trans hlive.symm).le
  | captureCommitted surfaceId =>
    cases stepped
    obtain ⟨hside, -⟩ := View.captureCommittedPresentationFrame_sides surfaceId run.view
    generalize hcaptured : run.view.captureCommittedPresentationFrame surfaceId = captured at hside
    have hlive : captured.2.liveHistoryRevision = run.view.liveHistoryRevision := congrArg live hside
    have hpresented : captured.2.presentedHistoryRevision = run.view.presentedHistoryRevision :=
      congrArg HistorySide.presented hside
    have hframe : captured.1.historyRevision = run.view.presentedHistoryRevision := by
      rw [← hcaptured]
      rfl
    have hbehind := h.presented
    refine h.replace (by simp only [Run.capture, hlive, hpresented]; exact hbehind) hlive.symm.le
      fun frame hmem => ?_
    rcases mem_append.mp hmem with hold | hnew
    · exact .inl hold
    · obtain rfl := mem_singleton.mp hnew
      exact .inr (by simp only [Run.capture, hlive, hframe]; exact hbehind)
  | receipt index =>
    simp only [Run.step, Run.receipt] at stepped
    split at stepped
    case h_2 =>
      cases stepped
      exact h
    rename_i captured hcaptured
    simp only [bind_eq_bind, bind_eq_some_iff, some.injEq, Prod.exists] at stepped
    obtain ⟨accepted, view, hreceipt, rfl⟩ := stepped
    rcases View.applyPresentedFrameRef_spec hreceipt with ⟨-, rfl⟩ | ⟨-, -, hinstalled⟩
    · exact h
    · obtain ⟨-, -, hlive, hpresented⟩ := hinstalled.revisions
      refine h.replace ?_ hlive.symm.le fun _ => .inl
      simp only [hlive, hpresented]
      exact h.captured captured (mem_of_getElem? hcaptured)
  | finalize nowMs =>
    cases stepped
    exact h.same (View.finalizeChanges_historySide nowMs run.view) rfl
  | handoff =>
    simp only [Run.step, bind_eq_bind, bind_eq_some_iff, some.injEq] at stepped
    obtain ⟨view, hhandoff, rfl⟩ := stepped
    exact h.same (View.clearUpdateSummary_historySide hhandoff) rfl

theorem Run.reach_behind {standalone : View} (fresh : standalone.Standalone) {last : Run}
    {events : List Event} (reached : Run.reach standalone events = some last) : last.Behind := by
  obtain ⟨first, started, ran⟩ := bind_eq_some_iff.mp reached
  have start : first.Behind := by
    simp only [Run.start, bind_eq_bind, bind_eq_some_iff, some.injEq] at started
    obtain ⟨view, hview, rfl⟩ := started
    obtain ⟨live, committed, hside, -⟩ := View.enablePresentationTracking_historySide fresh hview
    have hpresented : view.presentedHistoryRevision = 0 := congrArg presented hside
    exact ⟨by simp only [hpresented, zero_le], forall_mem_nil _⟩
  exact PartialRun.run_invariant (fun _ _ _ hbehind hstep => hbehind.step hstep) start ran

/-- **The verdict on a frame.** A rejected frame leaves the whole view as it is, an accepted one moves both
presented revisions forward to its own, and where the committed rows fill their interval every frame has a
verdict. -/
theorem applyPresentedFrameRef_verdict :
    (∀ (view : View) (frame : PresentedViewFrame) (accepted : Bool) (view' : View),
      view.applyPresentedFrameRef frame = some (accepted, view') →
      (accepted = false → view' = view) ∧
      (accepted = true → view'.liveRevision = view.liveRevision ∧
        view'.liveHistoryRevision = view.liveHistoryRevision ∧
        view'.presentedRevision = frame.revision ∧
        view'.presentedHistoryRevision = frame.historyRevision ∧
        view.presentedRevision ≤ view'.presentedRevision ∧
        view'.presentedRevision ≤ view'.liveRevision ∧
        view.presentedHistoryRevision ≤ view'.presentedHistoryRevision)) ∧
    (∀ (view : View) (frame : PresentedViewFrame),
      view.committedSnapshot.scrollback.length = view.committedSnapshot.scrollbackExtent →
      ∃ accepted view', view.applyPresentedFrameRef frame = some (accepted, view')) ∧
    (∀ (standalone : View) (events : List Event) (last : Run), standalone.Standalone →
      Run.reach standalone events = some last →
      ∀ captured ∈ last.captured, ∀ view',
        last.view.applyPresentedFrameRef captured.frame = some (true, view') →
        view'.presentedHistoryRevision ≤ view'.liveHistoryRevision) := by
  refine ⟨fun view frame accepted view' happlied => ?_,
    fun view frame whole => applyPresentedFrameRef_defined frame whole,
    fun standalone events last fresh reached captured hmem view' happlied => ?_⟩
  · rcases View.applyPresentedFrameRef_spec happlied with ⟨hrejected, hsame⟩ | ⟨haccepted, hok, hinstalled⟩
    · exact ⟨fun _ => hsame, fun haccepted => absurd (haccepted.symm.trans hrejected) Bool.noConfusion⟩
    · obtain ⟨hlive, hpresented, hlive', hpresented'⟩ := hinstalled.revisions
      refine ⟨fun hrejected => absurd (haccepted.symm.trans hrejected) Bool.noConfusion, fun _ =>
        ⟨hlive, hlive', hpresented, hpresented', ?_, ?_, ?_⟩⟩
      · rw [hpresented]
        exact hok.notObsolete
      · rw [hpresented, hlive]
        exact hok.notNewer
      · rw [hpresented']
        exact hok.historyNotObsolete
  · rcases View.applyPresentedFrameRef_spec happlied with ⟨hrejected, -⟩ | ⟨-, -, hinstalled⟩
    · exact nomatch hrejected
    · obtain ⟨-, -, hlive, hpresented⟩ := hinstalled.revisions
      rw [hlive, hpresented]
      exact (Run.reach_behind fresh reached).captured captured hmem

omit [EvidenceLayout] in
theorem applyPresentedFrameRef_verdict_lineRun : ∃ captured ∈ lineRun.captured, ∃ view',
      lineRun.view.applyPresentedFrameRef captured.frame = some (true, view') ∧
      lineRun.view.presentedRevision < view'.presentedRevision ∧
      view'.presentedHistoryRevision ≤ view'.liveHistoryRevision ∧
      lineRun.view.applyPresentedFrameRef { captured.frame with viewId := ⟨2⟩ } =
        some (false, lineRun.view) := by
  have hmember : lineRun.captured.head (by decide +kernel) ∈ lineRun.captured := head_mem _
  have haccepted : (lineRun.view.applyPresentedFrameRef
      (lineRun.captured.head (by decide +kernel)).frame).map Prod.fst = some true := by
    decide +kernel
  have hahead : lineRun.view.presentedRevision <
      (lineRun.captured.head (by decide +kernel)).frame.revision := by decide +kernel
  have hrejected : (lineRun.view.applyPresentedFrameRef
      { (lineRun.captured.head (by decide +kernel)).frame with viewId := ⟨2⟩ }).map Prod.fst =
        some false := by decide +kernel
  obtain ⟨hverdict, -, hrun⟩ := @applyPresentedFrameRef_verdict exampleLayout
  obtain ⟨⟨accepted, view'⟩, happlied, hresult⟩ := map_eq_some_iff.mp haccepted
  obtain rfl : accepted = true := hresult
  obtain ⟨⟨accepted', view''⟩, happlied', hresult'⟩ := map_eq_some_iff.mp hrejected
  obtain rfl : accepted' = false := hresult'
  obtain ⟨-, haccept⟩ := hverdict _ _ _ _ happlied
  obtain ⟨-, -, hpresented, -⟩ := haccept rfl
  refine ⟨_, hmember, view', happlied, hpresented ▸ hahead, ?_, ?_⟩
  · exact hrun _ _ _ (View.new_standalone ⟨1⟩ emptyHistory) lineRun_reached _ hmember view' happlied
  · rw [happlied', (hverdict _ _ _ _ happlied').1 rfl]

def forgedFrame : PresentedViewFrame where
  viewId := ⟨1⟩
  revision := 1
  surfaceId := ⟨1⟩
  snapshot := oneCell
  historyRevision := 5
  historyBasis := .fromSnapshot oneCell
  history := some
    { revision := 5
      baseRevision := 0
      basis := .fromSnapshot oneCell
      replaceFrom := 0
      rows := []
      fullReplacement := true
      previous := none
      depth := 1
      retainedRows := 0 }
  accessibilityEpoch := ⟨2, 0⟩
  explicitlyStable := false
  cursorVisibilityRestored := false

omit [EvidenceLayout] in
/-- The live history revision is not among the checks. -/
theorem applyPresentedFrameRef_forged : (lineRun.view.applyPresentedFrameRef forgedFrame).map (fun result =>
      (result.1, result.2.presentedHistoryRevision, result.2.liveHistoryRevision)) =
        some (true, 5, 1) := by decide +kernel

end Lector.Accessibility
