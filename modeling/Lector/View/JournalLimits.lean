import Lector.Foundations.Retention
import Lector.View.EvidenceSide
import Lector.View.Scrollback

/-! The accessibility journal of a view as a queue that counts its entries' sizes: in every state a view
can reach it is within its limits, its count is right and its revisions increase. -/
namespace Lector.Accessibility
open Output Terminal Retention Option

def journalLimits : Limits := ⟨accessibilityJournalMaxEntries, accessibilityJournalMaxBytes⟩

structure JournalSide where
  queue : Queue AccessibilityJournalEntry
  live : Nat

namespace View

variable (view : View)

def journalSide : JournalSide := ⟨⟨view.accessibilityJournal, view.accessibilityJournalBytes⟩, view.liveRevision⟩

/-! ## Calls that leave the journal alone -/

@[simp] theorem freezeCurrentAccessibility_journalSide :
    view.freezeCurrentAccessibility.journalSide = view.journalSide := by
  simp only [freezeCurrentAccessibility]
  split <;> rfl

@[simp] theorem noteHistoryChanged_journalSide (changed : Bool) :
    (view.noteHistoryChanged changed).journalSide = view.journalSide := by
  simp only [noteHistoryChanged]
  split <;> rfl

@[simp] theorem clearReviewMark_journalSide : view.clearReviewMark.journalSide = view.journalSide := by
  simp only [clearReviewMark]
  split <;> rfl

@[simp] theorem clampReviewCursor_journalSide (rows cols : Nat) :
    (view.clampReviewCursor rows cols).journalSide = view.journalSide := by
  simp only [clampReviewCursor]
  split
  · exact clearReviewMark_journalSide _
  · rfl

@[simp] theorem invalidateVisibleCache_journalSide :
    view.invalidateVisibleCache.journalSide = view.journalSide := rfl

@[simp] theorem keepReview_journalSide (reviewScrollback : Nat) :
    (view.keepReview reviewScrollback).journalSide = view.journalSide := rfl

theorem liveScreen_journalSide : view.liveScreen.2.journalSide = view.journalSide := by
  simp only [liveScreen, afterLiveScreen]
  split
  · split
    · simp only [refreshFrozenScreen]
      split <;> rfl
    · rfl
  · rfl

theorem advancePrevScreen_journalSide : view.advancePrevScreen.journalSide = view.journalSide := by
  rw [advancePrevScreen]
  split <;> rfl

theorem followBatch_journalSide (before : TerminalSnapshot) (oldReviewScrollback : Nat) (changed : Bool) :
    (view.followBatch before oldReviewScrollback changed).journalSide = view.journalSide := by
  have hpending : ∀ v : View, { v with reviewCursorFollowPending := false }.journalSide = v.journalSide :=
    fun _ => rfl
  simp only [followBatch, clampReviewCursor_journalSide, invalidateVisibleCache_journalSide,
    noteHistoryChanged_journalSide, hpending, keepReview_journalSide]

theorem installPresentedSnapshot_journalSide (snapshot : TerminalSnapshot) (caughtUp : Bool) :
    (view.installPresentedSnapshot snapshot caughtUp).journalSide = view.journalSide := by
  simp only [installPresentedSnapshot, invalidateVisibleCache_journalSide, clampReviewCursor_journalSide]
  split <;> rfl

/-! ## The loops over the journal -/

theorem evictWhileOverLimits_journalSide (journal : List AccessibilityJournalEntry) (view : View)
    (held : view.accessibilityJournal = journal) : (evictWhileOverLimits journal view).journalSide =
      ⟨evict (·.retainedBytes) journalLimits journal view.accessibilityJournalBytes, view.liveRevision⟩ := by
  induction journal generalizing view with
  | nil => exact congrArg (fun items => (⟨⟨items, _⟩, _⟩ : JournalSide)) held
  | cons entry rest ih =>
    rw [evictWhileOverLimits, evict]
    by_cases hover : accessibilityJournalMaxEntries < (entry :: rest).length ∨
        accessibilityJournalMaxBytes < view.accessibilityJournalBytes
    · rw [if_pos hover, if_pos (by exact hover)]
      exact ih _ rfl
    · rw [if_neg hover, if_neg (by exact hover)]
      exact congrArg (fun items => (⟨⟨items, _⟩, _⟩ : JournalSide)) held

theorem publishEntry_journalSide (epoch : AccessibilityEpoch) (after : Nat) (entry : AccessibilityJournalEntry) :
    (view.publishEntry epoch after entry).journalSide = view.journalSide := by
  rw [publishEntry]
  split <;> rfl

theorem publishEntries_journalSide (epoch : AccessibilityEpoch) (after revision : Nat)
    (journal : List AccessibilityJournalEntry) (view : View) (held : view.accessibilityJournal = journal) :
    (publishEntries epoch after revision journal view).journalSide =
      ⟨dropThrough (·.retainedBytes) (·.revision) revision journal view.accessibilityJournalBytes,
        view.liveRevision⟩ := by
  induction journal generalizing view with
  | nil => exact congrArg (fun items => (⟨⟨items, _⟩, _⟩ : JournalSide)) held
  | cons entry rest ih =>
    rw [publishEntries, dropThrough]
    by_cases hreached : entry.revision ≤ revision
    · rw [if_pos hreached, if_pos hreached]
      have hentry := publishEntry_journalSide (view.dropOldest entry rest) epoch after entry
      have hrest := ih ((view.dropOldest entry rest).publishEntry epoch after entry)
        (congrArg (·.queue.items) hentry)
      have hbytes := congrArg (·.queue.bytes) hentry
      have hlive := congrArg (·.live) hentry
      simp only [journalSide] at hbytes hlive
      rw [hrest, hbytes, hlive]
      rfl
    · rw [if_neg hreached, if_neg hreached]
      exact congrArg (fun items => (⟨⟨items, _⟩, _⟩ : JournalSide)) held

theorem discardEntries_journalSide (revision : Nat) (journal : List AccessibilityJournalEntry) (view : View)
    (held : view.accessibilityJournal = journal) : (discardEntries revision journal view).journalSide =
      ⟨dropThrough (·.retainedBytes) (·.revision) revision journal view.accessibilityJournalBytes,
        view.liveRevision⟩ := by
  induction journal generalizing view with
  | nil => exact congrArg (fun items => (⟨⟨items, _⟩, _⟩ : JournalSide)) held
  | cons entry rest ih =>
    rw [discardEntries, dropThrough]
    by_cases hreached : entry.revision ≤ revision
    · rw [if_pos hreached, if_pos hreached]
      exact ih _ rfl
    · rw [if_neg hreached, if_neg hreached]
      exact congrArg (fun items => (⟨⟨items, _⟩, _⟩ : JournalSide)) held

end View

/-! ## What the journal keeps -/

variable [EvidenceLayout]

/-- The queue is sound up to the revision `last`, and each entry's size is that of its evidence. -/
structure JournalSide.Kept (last : Nat) (side : JournalSide) : Prop where
  sound : Sound (·.retainedBytes) (·.revision) journalLimits last side.queue
  sized : ∀ entry ∈ side.queue.items, entry.retainedBytes = accessibilityEvidenceRetainedBytes entry.update

/-- The journal of the view is in order, up to the live revision. -/
def View.JournalKept (view : View) : Prop := view.journalSide.Kept view.liveRevision

theorem JournalSide.Kept.later {side : JournalSide} {last last' : Nat} (h : side.Kept last)
    (hlast : last ≤ last') : side.Kept last' := ⟨h.sound.later hlast, h.sized⟩

theorem JournalSide.Kept.dropThrough {side : JournalSide} {last : Nat} (h : side.Kept last) (through live : Nat) :
    JournalSide.Kept last ⟨Retention.dropThrough (·.retainedBytes) (·.revision) through side.queue.items
      side.queue.bytes, live⟩ :=
  ⟨h.sound.dropThrough through, fun entry hentry => h.sized entry (dropThrough_suffix.subset hentry)⟩

theorem JournalSide.kept_empty (last live : Nat) : JournalSide.Kept last ⟨⟨[], 0⟩, live⟩ :=
  ⟨.empty, fun _ h => nomatch h⟩

namespace View

variable {view view' : View}

theorem journalKept_of_side {side : JournalSide} (hside : view.journalSide = side) (h : side.Kept side.live) :
    view.JournalKept := by
  subst hside
  exact h

theorem JournalKept.of_side (h : view.JournalKept) (hside : view'.journalSide = view.journalSide) :
    view'.JournalKept := journalKept_of_side hside h

theorem appendAccessibilityEvidence_kept {last : Nat} (update : UpdateSummary) (requires : Bool)
    (h : view.journalSide.Kept last) (hlast : last < view.liveRevision) :
    (view.appendAccessibilityEvidence update requires).JournalKept := by
  rw [appendAccessibilityEvidence]
  split
  · exact h.later hlast.le
  rename_i hfits
  have hbytes : view.accessibilityJournalBytes ≤ accessibilityJournalMaxBytes := h.sound.bytes
  have hroom : saturatingAdd 64 view.accessibilityJournalBytes (accessibilityEvidenceRetainedBytes update) =
      view.accessibilityJournalBytes + accessibilityEvidenceRetainedBytes update := by
    rw [saturatingAdd]
    simp only [accessibilityJournalMaxBytes] at hbytes hfits
    omega
  rw [hroom]
  refine journalKept_of_side (evictWhileOverLimits_journalSide _ _ rfl)
    ⟨h.sound.push ⟨_, view.liveRevision, update, requires, _⟩ hlast, fun kept hkept => ?_⟩
  cases List.mem_append.mp (evict_suffix.subset hkept) with
  | inl hold => exact h.sized kept hold
  | inr hnew => exact (List.mem_singleton.mp hnew) ▸ rfl

theorem recordBatch_kept {last : Nat} (batch : Batch) (activity : Bool) (h : view.journalSide.Kept last)
    (hlast : last < view.liveRevision) : (view.recordBatch batch activity).JournalKept := by
  rw [recordBatch]
  split
  · exact appendAccessibilityEvidence_kept _ _ h hlast
  · exact h.later hlast.le

omit [EvidenceLayout] in
theorem advanceLiveRevision_journalSide (h : view.advanceLiveRevision = some view') :
    view'.journalSide = { view.journalSide with live := view.liveRevision + 1 } := by
  simp only [advanceLiveRevision, checkedAdd, bind_eq_bind, bind_eq_some_iff,
    ite_none_right_eq_some, some.injEq] at h
  obtain ⟨revision, ⟨-, rfl⟩, rfl⟩ := h
  rfl

omit [EvidenceLayout] in
theorem advanceLiveHistoryRevision_journalSide (h : view.advanceLiveHistoryRevision = some view') :
    view'.journalSide = view.journalSide := by
  simp only [advanceLiveHistoryRevision, bind_eq_bind, bind_eq_some_iff, some.injEq] at h
  obtain ⟨revision, -, rfl⟩ := h
  rfl

omit [EvidenceLayout] in
theorem beginAccessibilityEpoch_journalSide (h : view.beginAccessibilityEpoch = some view') :
    view'.journalSide = view.journalSide := by
  simp only [beginAccessibilityEpoch, bind_eq_bind, bind_eq_some_iff, some.injEq] at h
  obtain ⟨generation, -, rfl⟩ := h
  rfl

theorem resetAccessibilityJournalForHandoff_kept (h : view.resetAccessibilityJournalForHandoff = some view') :
    view'.JournalKept ∧ view'.liveRevision = view.liveRevision := by
  simp only [resetAccessibilityJournalForHandoff, bind_eq_bind, bind_eq_some_iff, some.injEq] at h
  obtain ⟨next, hepoch, rfl⟩ := h
  have hside := beginAccessibilityEpoch_journalSide hepoch
  have hlive : next.liveRevision = view.liveRevision := by
    refine (congrArg JournalSide.live hside).trans ?_
    split <;> rfl
  refine ⟨?_, hlive⟩
  have hempty : next.journalSide = ⟨⟨[], 0⟩, next.liveRevision⟩ := by
    have hqueue := congrArg JournalSide.queue hside
    exact congrArg (fun queue => (⟨queue, next.liveRevision⟩ : JournalSide)) hqueue
  have hkept := JournalSide.kept_empty next.liveRevision next.liveRevision
  rw [← hempty] at hkept
  exact hkept

/-! ## Calls -/

section

variable (h : view.JournalKept)
include h

theorem JournalKept.processChanges {batch : Batch} {report : Option UpdateSummary}
    (hcall : view.processChanges batch = some (report, view')) : view'.JournalKept := by
  simp only [View.processChanges, bind_eq_bind, bind_eq_some_iff] at hcall
  obtain ⟨parsed, hparsed, begun, hbegun, advanced, hadvanced, -, rfl⟩ := hcall
  have hside : parsed.journalSide = view.journalSide := by
    rw [advanceHistoryIf] at hparsed
    split at hparsed
    · rw [advanceLiveHistoryRevision_journalSide hparsed]
      exact view.freezeCurrentAccessibility_journalSide
    · rw [← some.inj hparsed]
      exact view.freezeCurrentAccessibility_journalSide
  have hside' : begun.journalSide = view.journalSide := by
    rw [beginEpochIf] at hbegun
    split at hbegun
    · rw [beginAccessibilityEpoch_journalSide hbegun, hside]
    · rw [← some.inj hbegun, hside]
  have hadvance : advanced.journalSide = ⟨view.journalSide.queue, view.liveRevision + 1⟩ := by
    have hnoted : (begun.noteBoundary batch.update).journalSide = view.journalSide := hside'
    rw [advanceLiveRevision_journalSide hadvanced, hnoted]
    exact congrArg (fun live => (⟨view.journalSide.queue, live + 1⟩ : JournalSide))
      (congrArg JournalSide.live hnoted)
  generalize hactive : advanced.noteSynchronizedActivity _ = active
  have hactive' : active.journalSide = ⟨view.journalSide.queue, view.liveRevision + 1⟩ := hactive ▸ hadvance
  have hkept : active.journalSide.Kept view.liveRevision := by
    rw [hactive']
    exact ⟨h.sound, h.sized⟩
  have hnew : active.liveRevision = view.liveRevision + 1 := congrArg JournalSide.live hactive'
  exact (recordBatch_kept batch _ hkept (hnew ▸ Nat.lt_succ_self _)).of_side (followBatch_journalSide _ _ _ _)

theorem JournalKept.setSize {terminal : NativeTerminal}
    (hcall : view.setSize terminal = some view') : view'.JournalKept := by
  simp only [View.setSize, bind_eq_bind, bind_eq_some_iff, some.injEq] at hcall
  obtain ⟨advanced, hadvanced, resized, hresized, rfl⟩ := hcall
  have hfrozen := view.freezeCurrentAccessibility_journalSide
  have hlive := congrArg JournalSide.live hfrozen
  have hside : resized.journalSide = { view.journalSide with live := view.liveRevision + 1 } := by
    rw [advanceLiveHistoryRevision_journalSide hresized, advanceLiveRevision_journalSide hadvanced]
    exact congrArg₂ JournalSide.mk (congrArg JournalSide.queue hfrozen) (congrArg (· + 1) hlive)
  have hnext : resized.JournalKept := journalKept_of_side hside ⟨h.sound.later (Nat.le_succ _), h.sized⟩
  refine hnext.of_side ?_
  rw [invalidateVisibleCache_journalSide, noteHistoryChanged_journalSide]
  rfl

theorem JournalKept.captureLive {surfaceId : SurfaceId} {frame : PresentedViewFrame}
    (hcall : view.captureLivePresentationFrame surfaceId = some (frame, view')) : view'.JournalKept := by
  simp only [captureLivePresentationFrame, bind_eq_bind, bind_eq_some_iff, Prod.exists] at hcall
  obtain ⟨history, shown, hshown, -, rfl⟩ := hcall
  obtain ⟨shared, rfl⟩ := presentationHistoryIfChanged_shared hshown
  exact h.of_side view.liveScreen_journalSide

theorem JournalKept.captureCommitted (surfaceId : SurfaceId) :
    (view.captureCommittedPresentationFrame surfaceId).2.JournalKept := by
  refine h.of_side ?_
  simp only [captureCommittedPresentationFrame, committedPresentationSnapshot]
  split
  · rfl
  · exact view.liveScreen_journalSide

theorem JournalKept.publish (epoch : AccessibilityEpoch) (revision : Nat) :
    (view.publishAccessibilityEvidence epoch revision).JournalKept := by
  have hentered : (view.enterEpoch epoch).JournalKept := by
    rw [enterEpoch]
    split
    · exact h
    · exact h
  rw [publishAccessibilityEvidence]
  split
  · exact h
  generalize view.enterEpoch epoch = entered at hentered
  dsimp only
  split
  · exact hentered
  · exact journalKept_of_side (publishEntries_journalSide epoch _ revision _ (entered.noticeGap revision _) rfl)
      (hentered.dropThrough revision _)

theorem JournalKept.receipt {frame : PresentedViewFrame} {accepted : Bool}
    (hcall : view.applyPresentedFrameRef frame = some (accepted, view')) : view'.JournalKept := by
  obtain ⟨-, rfl⟩ | ⟨-, -, hinstalled⟩ := applyPresentedFrameRef_spec hcall
  · exact h
  have hfinish : ∀ scrollback historyRevision historyBasis,
      (view.finishPresentedFrame frame scrollback historyRevision historyBasis).JournalKept := by
    intro scrollback historyRevision historyBasis
    have hadopted : (view.adoptFrame frame historyRevision historyBasis).JournalKept := h
    exact (hadopted.of_side (installPresentedSnapshot_journalSide _ _ _)).publish _ _
  cases hinstalled with
  | unchanged => exact hfinish _ _ _
  | moved => exact hfinish _ _ _

theorem JournalKept.discard (revision : Nat) :
    (view.discardAccessibilityJournalThrough revision).JournalKept := by
  have hentries := journalKept_of_side (discardEntries_journalSide revision _ view rfl) (h.dropThrough revision _)
  rw [discardAccessibilityJournalThrough]
  split
  · split
    · exact hentries
    · exact hentries
  · exact hentries

theorem JournalKept.finalize (nowMs : Nat) : (view.finalizeChanges nowMs).JournalKept := by
  rw [finalizeChanges]
  split
  · exact h
  · have hbaseline : view.advancePrevScreen.baselineEvidence.JournalKept :=
      h.of_side view.advancePrevScreen_journalSide
    exact hbaseline.discard _

theorem JournalKept.enable (hcall : view.enablePresentationTracking = some view') : view'.JournalKept := by
  rw [enablePresentationTracking] at hcall
  split at hcall
  · exact some.inj hcall ▸ h
  simp only [bind_eq_bind, bind_eq_some_iff, some.injEq] at hcall
  obtain ⟨reset, hreset, opened, hopened, rfl⟩ := hcall
  obtain ⟨hkept, -⟩ := resetAccessibilityJournalForHandoff_kept hreset
  rw [commitOrOpen] at hopened
  split at hopened
  · simp only [openTracked, bind_eq_bind, bind_eq_some_iff, some.injEq] at hopened
    obtain ⟨advanced, hadvanced, rfl⟩ := hopened
    have hadvance := advanceLiveRevision_journalSide hadvanced
    have hlive : advanced.liveRevision = reset.liveRevision + 1 := congrArg JournalSide.live hadvance
    have hbefore : advanced.journalSide.Kept reset.liveRevision := by
      rw [hadvance]
      exact ⟨hkept.sound, hkept.sized⟩
    exact appendAccessibilityEvidence_kept _ _ hbefore (hlive ▸ Nat.lt_succ_self _)
  · exact some.inj hopened ▸ hkept

end

end View

/-! ## Every reachable state -/

/-- `other` is any call that touches neither the journal nor the live revision. -/
inductive View.Reachable : View → Prop
  | new (viewId : ViewId) (terminal : NativeTerminal) : Reachable (.new viewId terminal)
  | enable {view view' : View} (before : Reachable view)
      (call : view.enablePresentationTracking = some view') : Reachable view'
  | output {view view' : View} {batch : Batch} {report : Option UpdateSummary} (before : Reachable view)
      (tracking : view.presentationTracking = true)
      (call : view.processChanges batch = some (report, view')) : Reachable view'
  | resize {view view' : View} {terminal : NativeTerminal} (before : Reachable view)
      (tracking : view.presentationTracking = true) (call : view.setSize terminal = some view') :
      Reachable view'
  | captureLive {view view' : View} {surfaceId : SurfaceId} {frame : PresentedViewFrame}
      (before : Reachable view)
      (call : view.captureLivePresentationFrame surfaceId = some (frame, view')) : Reachable view'
  | captureCommitted {view : View} (before : Reachable view) (surfaceId : SurfaceId) :
      Reachable (view.captureCommittedPresentationFrame surfaceId).2
  | receipt {view view' : View} {frame : PresentedViewFrame} {accepted : Bool} (before : Reachable view)
      (call : view.applyPresentedFrameRef frame = some (accepted, view')) : Reachable view'
  | finalize {view : View} (before : Reachable view) (nowMs : Nat) : Reachable (view.finalizeChanges nowMs)
  | handoff {view view' : View} (before : Reachable view) (tracking : view.presentationTracking = true)
      (call : view.clearUpdateSummary = some view') : Reachable view'
  | other {view view' : View} (before : Reachable view) (same : view'.journalSide = view.journalSide) :
      Reachable view'

theorem View.Reachable.kept {view : View} (h : view.Reachable) : view.JournalKept := by
  induction h with
  | new viewId terminal => exact JournalSide.kept_empty 0 0
  | enable _ call ih => exact ih.enable call
  | output _ _ call ih => exact ih.processChanges call
  | resize _ _ call ih => exact ih.setSize call
  | captureLive _ call ih => exact ih.captureLive call
  | captureCommitted _ surfaceId ih => exact ih.captureCommitted surfaceId
  | receipt _ call ih => exact ih.receipt call
  | finalize _ nowMs ih => exact ih.finalize nowMs
  | handoff _ _ call _ => exact (resetAccessibilityJournalForHandoff_kept call).1
  | other _ same ih => exact ih.of_side same

theorem View.discardAccessibilityJournalThrough_journal {view : View} (h : view.JournalKept) (revision : Nat) :
    (view.discardAccessibilityJournalThrough revision).accessibilityJournal =
      view.accessibilityJournal.filter fun entry => decide (revision < entry.revision) := by
  have hdropped : (discardEntries revision view.accessibilityJournal view).accessibilityJournal =
      view.accessibilityJournal.filter fun entry => decide (revision < entry.revision) :=
    (congrArg (·.queue.items) (discardEntries_journalSide revision _ view rfl)).trans
      (dropThrough_items h.sound.increasing)
  rw [← hdropped, discardAccessibilityJournalThrough]
  split
  · split <;> rfl
  · rfl

/-- **The journal is bounded, counted and in order**: within both limits, with the counter the sum
of the sizes and growing revisions; discarding through a revision removes just the entries up to it.
-/
theorem View.Reachable.journal_bounded {view : View} (h : view.Reachable) :
    view.accessibilityJournal.length ≤ accessibilityJournalMaxEntries ∧
      view.accessibilityJournalBytes ≤ accessibilityJournalMaxBytes ∧
      view.accessibilityJournalBytes =
        (view.accessibilityJournal.map fun entry => accessibilityEvidenceRetainedBytes entry.update).sum ∧
      (view.accessibilityJournal.map (·.revision)).Pairwise (· < ·) ∧
      ∀ revision, (view.discardAccessibilityJournalThrough revision).accessibilityJournal =
        view.accessibilityJournal.filter fun entry => decide (revision < entry.revision) := by
  have hkept := h.kept
  refine ⟨hkept.sound.items, hkept.sound.bytes, ?_, hkept.sound.increasing,
    discardAccessibilityJournalThrough_journal hkept⟩
  have hsizes : view.accessibilityJournal.map (fun entry => accessibilityEvidenceRetainedBytes entry.update) =
      view.accessibilityJournal.map (·.retainedBytes) :=
    List.map_congr_left fun entry hentry => (hkept.sized entry hentry).symm
  rw [hsizes]
  exact hkept.sound.counted

def recordOne : Option View := do
  let tracked ← (View.new ⟨1⟩ emptyHistory).enablePresentationTracking
  let recorded ← tracked.processChanges
    ⟨emptyHistory, { UpdateSummary.default with batchCount := 1 }, false, true⟩
  some recorded.2

omit [EvidenceLayout] in
theorem recordOne_reachable {view : View} (h : @recordOne exampleLayout = some view) :
    @View.Reachable exampleLayout view := by
  let _ := exampleLayout
  simp only [recordOne, bind_eq_bind, bind_eq_some_iff, some.injEq] at h
  obtain ⟨tracked, htracked, recorded, hrecorded, rfl⟩ := h
  have htracking : (@View.enablePresentationTracking exampleLayout (.new ⟨1⟩ emptyHistory)).map
      (·.presentationTracking) = some true := by decide +kernel
  rw [htracked, map_some, some.injEq] at htracking
  exact .output (.enable (.new ⟨1⟩ emptyHistory) htracked) htracking hrecorded

omit [EvidenceLayout] in
theorem View.Reachable.journal_bounded_recordOne :
    ∃ view, @recordOne exampleLayout = some view ∧ view.accessibilityJournalBytes = 400 ∧
      (view.discardAccessibilityJournalThrough 1).accessibilityJournal = [] := by
  have hsome : (@recordOne exampleLayout).isSome := by decide +kernel
  obtain ⟨view, hview⟩ := isSome_iff_exists.mp hsome
  have hentries : (@recordOne exampleLayout).map (fun view =>
      ((view.accessibilityJournal.map fun entry =>
          @accessibilityEvidenceRetainedBytes exampleLayout entry.update).sum,
        view.accessibilityJournal.filter fun entry => decide (1 < entry.revision))) = some (400, []) := by
    decide +kernel
  rw [hview, map_some, some.injEq, Prod.mk.injEq] at hentries
  obtain ⟨-, -, hcounted, -, hdiscarded⟩ :=
    @View.Reachable.journal_bounded exampleLayout view (recordOne_reachable hview)
  exact ⟨view, hview, hcounted.trans hentries.1, (hdiscarded 1).trans hentries.2⟩

end Lector.Accessibility
