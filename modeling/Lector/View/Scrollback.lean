import Lector.View.Lineage

/-! Presented scrollback: in every run, an installed frame shows the history that the engine held when
the frame was captured. -/
namespace Lector.Accessibility
open Output Terminal List Option View HistorySide Run

variable {seen : List ObservedHistory} {assigned : Assignment}

/-! ## The invariant -/

/-- What holds between the presented history, the shared chain and the engine. -/
structure Tracks (assigned : Assignment) (seen : List ObservedHistory) (side : HistorySide) : Prop where
  shown : ∃ held ∈ seen, held.basis = side.basis ∧ side.committed.scrollback = held.rows
  origin : side.committed.historyOrigin = side.basis.origin
  extent : side.committed.scrollbackExtent = side.basis.extent
  named : assigned side.presented = some side.basis
  bounded : ∀ revision basis, assigned revision = some basis → revision ≤ side.live
  latest : ∀ basis, assigned side.live = some basis → side.presented = side.live ∨
    ∃ history, side.shared = some history ∧ history.revision = side.live
  shared : ∀ history, side.shared = some history →
    Recorded assigned seen history ∧ side.presented < history.revision
  current : heldHistory side.terminal ∈ seen

structure CapturedFrame.Sound (assigned : Assignment) (seen : List ObservedHistory) (live : Nat)
    (captured : CapturedFrame) : Prop where
  held : captured.held ∈ seen
  basis : captured.live = true → captured.frame.historyBasis = captured.held.basis
  committed : captured.live = false → captured.frame.history = none
  bounded : captured.frame.historyRevision ≤ live
  history : ∀ history, captured.frame.history = some history → Recorded assigned seen history

theorem CapturedFrame.Sound.mono {assigned' : Assignment} {live live' : Nat}
    {captured : CapturedFrame} (h : captured.Sound assigned seen live)
    (more : ∀ r basis, assigned r = some basis → assigned' r = some basis) (later : live ≤ live') :
    captured.Sound assigned' seen live' :=
  ⟨h.held, h.basis, h.committed, h.bounded.trans later, fun history hsome =>
    (h.history history hsome).mono more⟩

theorem Tracks.behind {side : HistorySide} (h : Tracks assigned seen side) :
    side.presented ≤ side.live := h.bounded _ _ h.named

theorem Tracks.advance {side : HistorySide} (h : Tracks assigned seen side) {live : Nat}
    (hlive : live = side.live ∨ live = side.live + 1) {terminal : NativeTerminal}
    (hterminal : heldHistory terminal ∈ seen) :
    Tracks assigned seen { side with live := live, terminal := terminal } where
  shown := h.shown
  origin := h.origin
  extent := h.extent
  named := h.named
  bounded := by
    intro revision basis hassigned
    have := h.bounded revision basis hassigned
    simp only
    omega
  latest := by
    intro basis hassigned
    rcases hlive with rfl | rfl
    · exact h.latest basis hassigned
    · have := h.bounded _ _ hassigned
      simp only at this
      omega
  shared := h.shared
  current := hterminal

theorem Tracks.drop {side : HistorySide} (h : Tracks assigned seen side) :
    Tracks assigned seen { side with live := side.live + 1, shared := none } where
  shown := h.shown
  origin := h.origin
  extent := h.extent
  named := h.named
  bounded := by
    intro revision basis hassigned
    exact (h.bounded revision basis hassigned).trans (Nat.le_succ _)
  latest := by
    intro basis hassigned
    have := h.bounded _ _ hassigned
    simp only at this
    omega
  shared := by
    intro history hnone
    exact nomatch hnone
  current := h.current

/-! ## Capturing -/

theorem appendCompatible_spec {base target : PresentedHistoryBasis} (h : appendCompatible base target = true) :
    base.screen = target.screen ∧ base.geometry = target.geometry ∧ base.origin ≤ target.origin ∧
      target.origin ≤ base.origin + base.extent ∧
      base.origin + base.extent ≤ target.origin + target.extent := by
  simp only [appendCompatible, Bool.and_eq_true, beq_iff_eq, decide_eq_true_eq, Option.any_eq_true] at h
  obtain ⟨⟨⟨⟨⟨-, hscreen⟩, hgeometry⟩, horigin⟩, stop, hstop, hinside⟩, baseEnd, hbase, targetEnd,
    htarget, hends⟩ := h
  rw [stop_eq_some hstop] at hinside
  rw [stop_eq_some hbase, stop_eq_some htarget] at hends
  exact ⟨hscreen, hgeometry, horigin, hinside, hends⟩

theorem fromSnapshot_snapshot (engine : GhosttyEngine) :
    PresentedHistoryBasis.fromSnapshot engine.snapshot = (heldHistory engine.terminal).basis := by
  obtain ⟨hscreen, hgeometry, horigin, hextent⟩ := engine.snapshot_history
  simp only [PresentedHistoryBasis.fromSnapshot, heldHistory, hscreen, hgeometry, horigin, hextent]

variable {view view' : View}

theorem Tracks.base (h : Tracks assigned seen view.historySide) :
    assigned view.historyBase.revision = some view.historyBase.basis ∧
      ∀ history, view.sharedLiveHistory = some history →
        view.historyBase = .fromDelta history ∧ Recorded assigned seen history ∧
          view.presentedHistoryRevision < history.revision := by
  rw [historyBase]
  cases hshared : view.sharedLiveHistory with
  | none => exact ⟨h.named, fun history hnone => nomatch hnone⟩
  | some history =>
    obtain ⟨hrecorded, hbehind⟩ := h.shared history hshared
    refine ⟨hrecorded.named, fun history' hsome => ?_⟩
    cases hsome
    exact ⟨rfl, hrecorded, hbehind⟩

section

variable (lineage : Lineage seen)
include lineage

/-- **Compaction keeps the rows**: the materialized chain, continued by the engine's suffix, is the
engine's whole history. -/
theorem Tracks.compactedRows (whole : Whole seen)
    (h : Tracks assigned seen view.historySide) {rows : List Row} {replaceFrom : Nat} {target : HistoryState}
    (htarget : target.basis = (heldHistory view.engine.terminal).basis)
    (compatible : appendCompatible view.historyBase.basis target.basis = true)
    (splice : replaceFrom = view.historyBase.basis.origin + view.historyBase.basis.extent)
    (hrows : view.compactedRows view.historyBase target replaceFrom
      (view.engine.terminal.history.drop (replaceFrom - target.basis.origin)) = some rows) :
    rows = view.engine.terminal.history := by
  simp only [View.compactedRows, bind_eq_bind, bind_eq_some_iff] at hrows
  obtain ⟨previous, hprevious, compacted, hcompacted, hrows⟩ := hrows
  obtain ⟨hbase, hrecorded, hbehind⟩ := h.base.2 previous hprevious
  cases compacted with
  | none =>
    simp only [elim_none, GhosttyEngine.normalizedHistoryRowsFrom, not_lt_zero, if_false, some.injEq] at hrows
    exact hrows.symm
  | some materialized =>
    simp only [elim_some, some.injEq] at hrows
    subst hrows
    rw [compactHistoryDeltaRoot] at hcompacted
    split at hcompacted
    · exact nomatch some.inj hcompacted
    split at hcompacted
    · exact nomatch some.inj hcompacted
    rename_i hvalid
    rw [not_not] at hvalid
    obtain ⟨shown, hshown, hsbasis, hcommitted⟩ := h.shown
    have hmoved : view.historyBase.revision ≠ view.presentedHistoryRevision := by
      rw [hbase]
      exact ne_of_gt hbehind
    have hsbasis' : view.presentedHistoryBasis = shown.basis := hsbasis.symm
    have hnamed : assigned view.presentedHistoryRevision = some shown.basis := by
      rw [hsbasis]
      exact h.named
    obtain ⟨held, hheld, hhbasis, happlied⟩ := hrecorded.apply lineage whole hshown
      ⟨view.presentedHistoryRevision, view.presentedHistoryBasis⟩
      (by rw [hsbasis']) (by rw [hsbasis']) hnamed view.historyBase hvalid hmoved
    have hcommitted' : view.committedSnapshot.scrollback = shown.rows := hcommitted
    rw [hcommitted', happlied] at hcompacted
    simp only [bind_eq_bind, bind_some, ne_eq, not_true_eq_false, if_false,
      bind_eq_some_iff, some.injEq] at hcompacted
    obtain ⟨result, hresult, rfl⟩ := hcompacted
    rw [← hhbasis, htarget] at compatible
    obtain ⟨hscreen, hgeometry, horigin, hinside, hends⟩ := appendCompatible_spec compatible
    have hrows := lineage.transition whole hheld h.current view.historyBase target
      replaceFrom (by rw [hhbasis]) (by rw [hhbasis]) htarget
      hscreen hgeometry (by rw [← hhbasis]; exact hscreen) (by rw [← hhbasis]; exact hgeometry)
      horigin (by rw [hhbasis]; exact splice) (by rw [splice, ← hhbasis]; exact hinside)
      (by rw [splice, ← hhbasis]; exact hends)
    rw [htarget] at hresult
    exact some.inj (hresult.symm.trans hrows)

/-- **The next delta is recorded** under the live history revision, which has no basis before. -/
theorem Tracks.nextHistoryDelta (whole : Whole seen) (h : Tracks assigned seen view.historySide)
    {assigned' : Assignment} (more : ∀ r basis, assigned r = some basis → assigned' r = some basis)
    (fresh : assigned' view.liveHistoryRevision = some (heldHistory view.engine.terminal).basis)
    {delta : PresentedHistoryDelta Row} (hnext : view.nextHistoryDelta = some delta) :
    Recorded assigned' seen delta ∧ delta.revision = view.liveHistoryRevision := by
  simp only [View.nextHistoryDelta, fromSnapshot_snapshot, bind_eq_bind, bind_eq_some_iff] at hnext
  obtain ⟨start, hstart, suffix, hsuffix, -, -, expected, -, hnext⟩ := hnext
  split at hnext
  · exact nomatch hnext
  simp only [bind_eq_some_iff, some.injEq] at hnext
  obtain ⟨rows, hrows, rfl⟩ := hnext
  refine ⟨?_, rfl⟩
  have hsuffix' : suffix = view.engine.terminal.history.drop start := by
    simp only [GhosttyEngine.normalizedHistoryRowsFrom, ite_none_left_eq_some, some.injEq] at hsuffix
    exact hsuffix.2.symm
  have hdropped : ∀ n, view.engine.terminal.history.drop n =
      (heldHistory view.engine.terminal).rows.drop n := fun _ => rfl
  cases hcompatible : appendCompatible view.historyBase.basis (heldHistory view.engine.terminal).basis with
  | false =>
    simp only [hcompatible, Bool.false_and, Bool.false_eq_true, if_false, deltaRows, checkedSub,
      le_refl, if_true, some.injEq] at hrows hstart ⊢
    rw [← hrows, hsuffix', ← hstart]
    exact .delta _ _ h.current rfl (by rw [Nat.sub_self]; rfl) fresh (fun hpart => nomatch hpart)
      (fun _ hnone => nomatch hnone)
  | true =>
    obtain ⟨hscreen, hgeometry, -, hinside, -⟩ := appendCompatible_spec hcompatible
    simp only [hcompatible, if_true, checkedSub, hinside, some.injEq] at hrows hstart ⊢
    rw [← hstart] at hsuffix'
    subst hsuffix'
    cases hcompact : view.mustCompact view.historyBase.basis (heldHistory view.engine.terminal).basis with
    | true =>
      simp only [hcompact, Bool.true_and, if_true] at hrows ⊢
      have hall := h.compactedRows lineage whole rfl hcompatible rfl hrows
      rw [hall]
      exact .delta _ _ h.current rfl (by rw [Nat.sub_self]; rfl) fresh
        (fun hpart => nomatch hpart) (fun _ hnone => nomatch hnone)
    | false =>
      simp only [hcompact, Bool.and_false, deltaRows, Bool.false_eq_true, if_false, some.injEq] at hrows ⊢
      rw [← hrows]
      obtain ⟨hnamed, hshared⟩ := h.base
      exact .delta _ _ h.current rfl (hdropped _) fresh
        (fun _ => ⟨_, more _ _ hnamed, hscreen, hgeometry⟩)
        (fun previous hprevious => (hshared previous hprevious).2.1.mono more)

theorem Tracks.presentationHistoryIfChanged (whole : Whole seen)
    (h : Tracks assigned seen view.historySide) {history : Option (PresentedHistoryDelta Row)}
    (hcaptured : view.presentationHistoryIfChanged = some (history, view')) :
    ∃ assigned' : Assignment, (∀ r basis, assigned r = some basis → assigned' r = some basis) ∧
      Tracks assigned' seen view'.historySide ∧ view'.liveHistoryRevision = view.liveHistoryRevision ∧
      ∀ delta, history = some delta → Recorded assigned' seen delta := by
  rw [View.presentationHistoryIfChanged] at hcaptured
  split at hcaptured
  · obtain ⟨rfl, rfl⟩ := hcaptured
    exact ⟨assigned, fun _ _ hr => hr, h, rfl, fun _ hnone => nomatch hnone⟩
  rename_i hbehind
  split at hcaptured
  · rename_i delta hshared
    obtain ⟨rfl, rfl⟩ := hcaptured
    refine ⟨assigned, fun _ _ hr => hr, h, rfl, fun delta' hsome => ?_⟩
    cases hsome
    exact (h.shared delta (filter_eq_some_iff.mp hshared).1).1
  · rename_i hunshared
    simp only [bind_eq_bind, bind_eq_some_iff] at hcaptured
    obtain ⟨delta, hnext, rfl, rfl⟩ := hcaptured
    have hfree : assigned view.liveHistoryRevision = none := by
      cases hassigned : assigned view.liveHistoryRevision with
      | none => rfl
      | some basis =>
        rcases h.latest basis hassigned with hsame | ⟨shared, hshared, hrevision⟩
        · exact absurd hsame.symm hbehind
        · have hlive : shared.revision = view.liveHistoryRevision := hrevision
          have hkept : view.sharedLiveHistory.filter (fun history =>
              history.revision == view.liveHistoryRevision) = some shared :=
            filter_eq_some_iff.mpr ⟨hshared, by simpa using hlive⟩
          rw [hkept] at hunshared
          exact nomatch hunshared
    let assigned' : Assignment := Function.update assigned view.liveHistoryRevision
      (some (heldHistory view.engine.terminal).basis)
    have hsame : ∀ r, r ≠ view.liveHistoryRevision → assigned' r = assigned r := fun r hr =>
      Function.update_of_ne hr _ _
    have hnew : assigned' view.liveHistoryRevision = some (heldHistory view.engine.terminal).basis :=
      Function.update_self _ _ _
    have hmore : ∀ r basis, assigned r = some basis → assigned' r = some basis := by
      intro r basis hr
      rw [hsame r (fun heq => by rw [heq, hfree] at hr; exact nomatch hr), hr]
    obtain ⟨hrecorded, hrevision⟩ := h.nextHistoryDelta lineage whole hmore hnew hnext
    have hahead : view.presentedHistoryRevision < delta.revision := by
      have hle : view.presentedHistoryRevision ≤ view.liveHistoryRevision := h.behind
      omega
    refine ⟨assigned', hmore, ?_, rfl, fun delta' hsome => some.inj hsome ▸ hrecorded⟩
    exact
      { shown := h.shown
        origin := h.origin
        extent := h.extent
        named := hmore _ _ h.named
        bounded := by
          intro r basis hr
          by_cases hlive : r = view.liveHistoryRevision
          · exact hlive.le
          · exact h.bounded r basis (hsame r hlive ▸ hr)
        latest := fun _ _ => .inr ⟨delta, rfl, hrevision⟩
        shared := by
          intro shared hshared
          cases hshared
          exact ⟨hrecorded, hahead⟩
        current := h.current }

/-! ## Installing -/

/-- **An installed frame shows what the engine held** under the basis of the frame, and the presented
history stays tracked. -/
theorem Tracks.installed (whole : Whole seen)
    (h : Tracks assigned seen view.historySide) {frame : PresentedViewFrame}
    (acceptable : view.Acceptable frame) (bounded : frame.historyRevision ≤ view.liveHistoryRevision)
    (recorded : ∀ history, frame.history = some history → Recorded assigned seen history)
    (installed : View.Installed view frame view') : Tracks assigned seen view'.historySide ∧
      view'.historySide.presented = frame.historyRevision ∧
      view'.historySide.basis = frame.historyBasis ∧
      view'.historySide.live = view.liveHistoryRevision := by
  have hfinish : ∀ (held : ObservedHistory) (rows : List Row), held ∈ seen →
      held.basis = frame.historyBasis → rows = held.rows →
      assigned frame.historyRevision = some frame.historyBasis →
      Tracks assigned seen (view.finishPresentedFrame frame rows frame.historyRevision
        frame.historyBasis).historySide := by
    intro held rows hheld hbasis hrows hnamed
    rw [finishPresentedFrame_historySide]
    exact
      { shown := ⟨held, hheld, hbasis, hrows⟩
        origin := acceptable.origin
        extent := acceptable.extent
        named := hnamed
        bounded := h.bounded
        latest := by
          intro basis hassigned
          have hahead := acceptable.historyNotObsolete
          rcases h.latest basis hassigned with hsame | ⟨shared, hshared, hrevision⟩
          · exact .inl (le_antisymm bounded (hsame.symm.le.trans hahead))
          · by_cases hreached : frame.historyRevision = view.liveHistoryRevision
            · exact .inl hreached
            · refine .inr ⟨shared, filter_eq_some_iff.mpr ⟨hshared, ?_⟩, hrevision⟩
              have hlive : shared.revision = view.liveHistoryRevision := hrevision
              simp only [decide_eq_true_eq]
              omega
        shared := by
          intro shared hshared
          obtain ⟨hkept, hahead⟩ := filter_eq_some_iff.mp hshared
          exact ⟨(h.shared shared hkept).1, of_decide_eq_true hahead⟩
        current := h.current }
  cases installed with
  | unchanged hbasis hrevision =>
    obtain ⟨shown, hshown, hsbasis, hrows⟩ := h.shown
    have htracks := hfinish shown view.committedSnapshot.scrollback hshown
      (hsbasis.trans hbasis.symm) hrows (by rw [hrevision, hbasis]; exact h.named)
    rw [hrevision, hbasis] at htracks
    refine ⟨htracks, ?_⟩
    rw [finishPresentedFrame_historySide]
    exact ⟨hrevision.symm, hbasis.symm, rfl⟩
  | moved history hcarried hnewer hnames hvalid rows state happlied =>
    obtain ⟨shown, hshown, hsbasis, hrows⟩ := h.shown
    have hrecorded := recorded history hcarried
    have hnamed : assigned view.presentedHistoryRevision = some shown.basis := by
      rw [hsbasis]
      exact h.named
    obtain ⟨held, hheld, hbasis, happlied'⟩ := hrecorded.apply lineage whole hshown
      (.fromSnapshotWithRevision view.committedSnapshot view.presentedHistoryRevision)
      (by rw [hsbasis]; exact h.origin) (by rw [hsbasis]; exact h.extent) hnamed _ hvalid
      (ne_of_gt hnewer)
    have hscrollback : view.committedSnapshot.scrollback = shown.rows := hrows
    rw [hscrollback, happlied'] at happlied
    simp only [some.injEq, Prod.mk.injEq] at happlied
    have htarget : HistoryState.mk frame.historyRevision frame.historyBasis = .fromDelta history := by
      rcases validate_target hvalid with hcurrent | htarget
      · have hsame := congrArg HistoryState.revision hcurrent
        exact absurd hsame (ne_of_gt hnewer)
      · exact htarget
    have hgiven : assigned frame.historyRevision = some frame.historyBasis := by
      have hrevision := congrArg HistoryState.revision htarget
      have hbasis' := congrArg HistoryState.basis htarget
      simp only [HistoryState.fromDelta] at hrevision hbasis'
      rw [hrevision, hbasis']
      exact hrecorded.named
    refine ⟨hfinish held rows hheld hbasis happlied.1.symm hgiven, ?_⟩
    rw [finishPresentedFrame_historySide]
    exact ⟨rfl, rfl, rfl⟩

end

/-- **No check of an installation fails half-way** where the committed rows fill their interval. -/
theorem applyPresentedFrameRef_defined (frame : PresentedViewFrame)
    (whole : view.committedSnapshot.scrollback.length = view.committedSnapshot.scrollbackExtent) :
    ∃ accepted view', view.applyPresentedFrameRef frame = some (accepted, view') := by
  rw [applyPresentedFrameRef]
  split
  case isFalse => exact ⟨false, view, rfl⟩
  rename_i hcan
  obtain ⟨-, -, -, -, -, hcarried⟩ := canApplyPresentedFrame_spec hcan
  simp only [installPresentedFrame]
  split
  · exact ⟨false, view, rfl⟩
  split
  · split
    · exact ⟨false, view, rfl⟩
    · exact ⟨true, _, rfl⟩
  rename_i hmoved
  obtain ⟨history, hsome, -⟩ := hcarried hmoved
  simp only [hsome, bind_eq_bind, bind_some]
  split
  · exact ⟨false, view, rfl⟩
  rename_i target hvalid
  split
  · exact ⟨false, view, rfl⟩
  have hextent := whole
  obtain ⟨rows, happlied, -⟩ := apply_shows hextent history target hvalid
  rw [happlied]
  exact ⟨true, _, rfl⟩

theorem Tracks.receipt_defined (whole : Whole seen) (h : Tracks assigned seen view.historySide)
    (frame : PresentedViewFrame) :
    ∃ accepted view', view.applyPresentedFrameRef frame = some (accepted, view') := by
  obtain ⟨shown, hshown, hbasis, hrows⟩ := h.shown
  refine applyPresentedFrameRef_defined frame ((congrArg length hrows).trans ?_)
  rw [whole shown hshown, hbasis]
  exact h.extent.symm

/-! ## Runs -/

section Runs

variable [EvidenceLayout]

def Run.Tracked (seen : List ObservedHistory) (run : Run) : Prop :=
  ∃ assigned, Tracks assigned seen run.view.historySide ∧
    ∀ captured ∈ run.captured, captured.Sound assigned seen run.view.liveHistoryRevision

variable {standalone view : View}

theorem start_tracked (fresh : standalone.Standalone) {first : Run} (started : start standalone = some first)
    (inside : ∀ a ∈ first.observed, a ∈ seen) : first.Tracked seen ∧ Whole first.observed := by
  simp only [Run.start, bind_eq_bind, bind_eq_some_iff, some.injEq] at started
  obtain ⟨view, hview, rfl⟩ := started
  obtain ⟨live, committed, hside, hwhole⟩ := enablePresentationTracking_historySide fresh hview
  have hcommitted : view.committedSnapshot = committed := congrArg HistorySide.committed hside
  have hcurrent : heldHistory view.engine.terminal ∈ seen := inside _ (by simp)
  have hterminal := congrArg terminal hside
  have hshown : (⟨.fromSnapshot committed, committed.scrollback⟩ : ObservedHistory) ∈ seen :=
    inside _ (by simp [hcommitted])
  constructor
  · refine ⟨fun revision => if revision = 0 then some (.fromSnapshot committed) else none, ?_,
      fun captured hnone => absurd hnone not_mem_nil⟩
    rw [hside]
    exact
      { shown := ⟨_, hshown, rfl, rfl⟩
        origin := rfl
        extent := rfl
        named := rfl
        bounded := by
          intro revision basis hassigned
          have hzero : revision = 0 := (ite_none_right_eq_some.mp hassigned).1
          omega
        latest := by
          intro basis hassigned
          exact .inl (ite_none_right_eq_some.mp hassigned).1.symm
        shared := fun history hnone => nomatch hnone
        current := hterminal ▸ hcurrent }
  · intro a ha
    simp only [mem_cons, not_mem_nil, or_false] at ha
    rcases ha with rfl | rfl
    · rw [hcommitted]
      exact hwhole
    · exact heldHistory_whole _

/-! ### One step -/

variable {run run' last : Run}

omit [EvidenceLayout] in
theorem Run.Tracked.replace {assigned : Assignment} (frames : ∀ captured ∈ run.captured,
      captured.Sound assigned seen run.view.liveHistoryRevision)
    (tracks : Tracks assigned seen view.historySide)
    (later : run.view.liveHistoryRevision ≤ view.liveHistoryRevision)
    {observed : List ObservedHistory} {batches : List LoggedBatch} {lost : List Nat} :
    Run.Tracked seen
      { view := view
        captured := run.captured
        observed := observed
        batches := batches
        lost := lost } :=
  ⟨assigned, tracks, fun captured hmem => (frames captured hmem).mono (fun _ _ h => h) later⟩

omit [EvidenceLayout] in
theorem Run.Tracked.same (h : run.Tracked seen) (side : view.historySide = run.view.historySide)
    {lost : List Nat} : Run.Tracked seen { run with view := view, lost := lost } := by
  obtain ⟨assigned, htracks, hframes⟩ := h
  have hlive := congrArg live side
  exact .replace hframes (side ▸ htracks) hlive.symm.le

theorem Run.Tracked.output {batch : Batch} (h : run.Tracked seen) (inside : ∀ a ∈ run'.observed, a ∈ seen)
    (stepped : run.output batch = some run') : run'.Tracked seen := by
  simp only [Run.output, bind_eq_bind, bind_eq_some_iff, some.injEq, Prod.exists] at stepped
  obtain ⟨report, view, hprocessed, rfl⟩ := stepped
  obtain ⟨assigned, htracks, hframes⟩ := h
  obtain ⟨live, hcases, hside⟩ := processChanges_historySide hprocessed
  have hlive : view.liveHistoryRevision = live := congrArg HistorySide.live hside
  have hterminal : heldHistory batch.terminal ∈ seen := inside _ (by simp)
  refine .replace hframes (hside ▸ htracks.advance hcases hterminal) ?_
  omega

omit [EvidenceLayout] in
theorem Run.Tracked.resize {terminal : NativeTerminal} (h : run.Tracked seen)
    (inside : ∀ a ∈ run'.observed, a ∈ seen) (stepped : run.resize terminal = some run') :
    run'.Tracked seen := by
  simp only [Run.resize, bind_eq_bind, bind_eq_some_iff, some.injEq] at stepped
  obtain ⟨view, hresized, rfl⟩ := stepped
  obtain ⟨assigned, htracks, hframes⟩ := h
  have hside := setSize_historySide hresized
  have hlive : view.liveHistoryRevision = run.view.liveHistoryRevision + 1 := congrArg live hside
  have hterminal : heldHistory terminal ∈ seen := inside _ (by simp)
  refine .replace hframes ?_ (by omega)
  rw [hside]
  exact htracks.drop.advance (.inl rfl) hterminal

omit [EvidenceLayout] in
theorem Run.Tracked.captureLive (lineage : Lineage seen) (whole : Whole seen)
    {surfaceId : SurfaceId} {frame : PresentedViewFrame} (h : run.Tracked seen)
    (captured : run.view.captureLivePresentationFrame surfaceId = some (frame, view)) :
    (run.capture frame true view).Tracked seen := by
  obtain ⟨assigned, htracks, hframes⟩ := h
  have hscreen := run.view.liveScreen_historySide
  have hbasis : PresentedHistoryBasis.fromSnapshot run.view.liveScreen.1 =
      (heldHistory run.view.engine.terminal).basis := by
    rw [liveScreen, fromSnapshot_snapshot]
    simp [View.selectViewport]
  simp only [captureLivePresentationFrame, bind_eq_bind, bind_eq_some_iff, Prod.exists] at captured
  obtain ⟨history, view', hhistory, rfl, rfl⟩ := captured
  rw [← hscreen] at htracks
  obtain ⟨assigned', hmore, htracks', hlive, hrecorded⟩ :=
    htracks.presentationHistoryIfChanged lineage whole hhistory
  have hlive' := hlive.trans (congrArg live hscreen)
  refine ⟨assigned', htracks', fun captured hmem => ?_⟩
  rcases mem_append.mp hmem with hold | hnew
  · exact (hframes captured hold).mono hmore hlive'.symm.le
  · obtain rfl := mem_singleton.mp hnew
    exact
      { held := by
          have hcurrent := htracks.current
          rw [hscreen] at hcurrent
          exact hcurrent
        basis := fun _ => hbasis
        committed := fun hlive => Bool.noConfusion hlive
        bounded := le_rfl
        history := hrecorded }

omit [EvidenceLayout] in
theorem Run.Tracked.captureCommitted (h : run.Tracked seen) (surfaceId : SurfaceId) :
    (run.capture (run.view.captureCommittedPresentationFrame surfaceId).1 false
      (run.view.captureCommittedPresentationFrame surfaceId).2).Tracked seen := by
  obtain ⟨assigned, htracks, hframes⟩ := h
  have hside : (run.view.captureCommittedPresentationFrame surfaceId).2.historySide =
      run.view.historySide := by
    simp only [captureCommittedPresentationFrame, committedPresentationSnapshot]
    split
    · rfl
    · exact run.view.liveScreen_historySide
  have hlive := congrArg live hside
  refine ⟨assigned, ?_, fun captured hmem => ?_⟩
  · rw [capture, hside]
    exact htracks
  rcases mem_append.mp hmem with hold | hnew
  · exact (hframes captured hold).mono (fun _ _ h => h) hlive.symm.le
  · obtain rfl := mem_singleton.mp hnew
    exact
      { held := htracks.current
        basis := fun hlive => nomatch hlive
        committed := fun _ => rfl
        bounded := by
          have hbehind := htracks.behind
          exact hbehind.trans hlive.symm.le
        history := fun _ hnone => nomatch hnone }

omit [EvidenceLayout] in
theorem Run.Tracked.receipt (lineage : Lineage seen) (whole : Whole seen) {index : Nat} (h : run.Tracked seen)
    (stepped : run.receipt index = some run') : run'.Tracked seen := by
  rw [Run.receipt] at stepped
  split at stepped
  case h_2 =>
    cases stepped
    exact h
  rename_i captured hcaptured
  simp only [bind_eq_bind, bind_eq_some_iff, some.injEq, Prod.exists] at stepped
  obtain ⟨accepted, view, hreceipt, rfl⟩ := stepped
  rcases applyPresentedFrameRef_spec hreceipt with ⟨-, rfl⟩ | ⟨-, hacceptable, hinstalled⟩
  · exact h
  · obtain ⟨assigned, htracks, hframes⟩ := h
    have hsound := hframes captured (mem_of_getElem? hcaptured)
    obtain ⟨htracks', -, -, hlive⟩ :=
      htracks.installed lineage whole hacceptable hsound.bounded hsound.history hinstalled
    have hlive' := hlive
    exact .replace hframes htracks' hlive'.symm.le

theorem Run.Tracked.step (lineage : Lineage seen) (whole : Whole seen) {event : Event} (h : run.Tracked seen)
    (inside : ∀ a ∈ run'.observed, a ∈ seen) (stepped : run.step event = some run') : run'.Tracked seen := by
  cases event with
  | output batch => exact h.output inside stepped
  | resize terminal => exact h.resize inside stepped
  | captureLive surfaceId =>
    simp only [Run.step, bind_eq_bind, bind_eq_some_iff, some.injEq, Prod.exists] at stepped
    obtain ⟨frame, view, hcaptured, rfl⟩ := stepped
    exact h.captureLive lineage whole hcaptured
  | captureCommitted surfaceId =>
    cases stepped
    exact h.captureCommitted surfaceId
  | receipt index => exact h.receipt lineage whole stepped
  | finalize nowMs =>
    cases stepped
    exact h.same (finalizeChanges_historySide nowMs run.view)
  | handoff =>
    simp only [Run.step, bind_eq_bind, bind_eq_some_iff, some.injEq] at stepped
    obtain ⟨view, hhandoff, rfl⟩ := stepped
    exact h.same (clearUpdateSummary_historySide hhandoff)

theorem Run.step_observed {event : Event} (stepped : run.step event = some run') :
    ∃ more, run'.observed = run.observed ++ more ∧ Whole more := by
  have hwhole : ∀ terminal, Whole [heldHistory terminal] := by
    intro terminal a ha
    rw [mem_singleton.mp ha]
    exact heldHistory_whole terminal
  have hnone : run'.observed = run.observed → ∃ more, run'.observed = run.observed ++ more ∧ Whole more :=
    fun hsame => ⟨[], by rw [hsame, append_nil], fun a ha => nomatch ha⟩
  cases event with
  | output batch =>
    simp only [step, output, bind_eq_bind, bind_eq_some_iff] at stepped
    obtain ⟨-, view, -, rfl⟩ := stepped
    exact ⟨_, rfl, hwhole _⟩
  | resize terminal =>
    simp only [step, resize, bind_eq_bind, bind_eq_some_iff, some.injEq] at stepped
    obtain ⟨view, -, rfl⟩ := stepped
    exact ⟨_, rfl, hwhole _⟩
  | captureLive surfaceId =>
    simp only [step, bind_eq_bind, bind_eq_some_iff] at stepped
    obtain ⟨frame, view, -, rfl⟩ := stepped
    exact hnone rfl
  | captureCommitted surfaceId =>
    cases stepped
    exact hnone rfl
  | receipt index =>
    simp only [step, receipt] at stepped
    split at stepped
    · simp only [bind_eq_bind, bind_eq_some_iff] at stepped
      obtain ⟨accepted, view, -, rfl⟩ := stepped
      exact hnone rfl
    · cases stepped
      exact hnone rfl
  | finalize nowMs =>
    cases stepped
    exact hnone rfl
  | handoff =>
    simp only [step, bind_eq_bind, bind_eq_some_iff, some.injEq] at stepped
    obtain ⟨view, -, rfl⟩ := stepped
    exact hnone rfl

theorem Run.steps_whole {events : List Event} (whole : Whole run.observed)
    (ran : run.steps events = some run') : Whole run'.observed := by
  refine PartialRun.run_invariant (P := fun run : Run => Whole run.observed) ?_ whole ran
  intro run event run' hwhole hstep a ha
  obtain ⟨more, hobserved, hmore⟩ := step_observed hstep
  rw [hobserved, mem_append] at ha
  exact ha.elim (hwhole a) (hmore a)

theorem Run.reach_whole (fresh : standalone.Standalone) {events : List Event}
    (reached : reach standalone events = some last) : Whole last.observed := by
  obtain ⟨first, started, ran⟩ := bind_eq_some_iff.mp reached
  exact steps_whole (start_tracked fresh started fun a ha => ha).2 ran

/-- **Every state of a run is tracked**, against all that the whole run observes. -/
theorem Run.reach_tracked (fresh : standalone.Standalone)
    {events : List Event} (reached : reach standalone events = some last)
    (lineage : Lineage last.observed) : last.Tracked last.observed := by
  have whole := reach_whole fresh reached
  obtain ⟨first, started, ran⟩ := bind_eq_some_iff.mp reached
  have start : (∀ a ∈ first.observed, a ∈ last.observed) → first.Tracked last.observed :=
    fun inside => (start_tracked fresh started inside).1
  have hrun := PartialRun.run_invariant
    (P := fun run : Run => (∀ a ∈ run.observed, a ∈ last.observed) → run.Tracked last.observed)
    ?_ start ran
  · exact hrun fun a ha => ha
  intro run event run' htracked hstep hinside
  obtain ⟨more, hobserved, -⟩ := step_observed hstep
  have hbefore : ∀ a ∈ run.observed, a ∈ last.observed := fun a ha =>
    hinside a (by rw [hobserved]; exact mem_append_left _ ha)
  exact (htracked hbefore).step lineage whole hinside hstep

/-! ## The presented history -/

/-- **Presented scrollback equals the engine's history.** In every run each captured frame has a verdict; a live
one presents the rows of the engine's history when it was captured, a committed one leaves the presented
history. -/
theorem Run.presented_scrollback {standalone : View} (fresh : standalone.Standalone)
    {last : Run} {events : List Event} (reached : reach standalone events = some last)
    (lineage : Lineage last.observed) {captured : CapturedFrame} (member : captured ∈ last.captured) :
    ∃ accepted view', last.view.applyPresentedFrameRef captured.frame = some (accepted, view') ∧
      (accepted = true → captured.live = true → view'.committedSnapshot.scrollback = captured.held.rows ∧
          view'.presentedHistoryBasis = captured.held.basis) ∧
      (accepted = true → captured.live = false →
        view'.committedSnapshot.scrollback = last.view.committedSnapshot.scrollback ∧
          view'.presentedHistoryBasis = last.view.presentedHistoryBasis) := by
  have hwhole := reach_whole fresh reached
  obtain ⟨assigned, htracks, hframes⟩ := reach_tracked fresh reached lineage
  have hsound := hframes captured member
  obtain ⟨accepted, view', happlied⟩ := htracks.receipt_defined hwhole captured.frame
  refine ⟨accepted, view', happlied, fun haccepted hlive => ?_, fun haccepted hcommitted => ?_⟩
  · rcases applyPresentedFrameRef_spec happlied with ⟨hrejected, -⟩ | ⟨-, hok, hinstalled⟩
    · cases haccepted.symm.trans hrejected
    obtain ⟨htracks', -, hbasis, -⟩ :=
      htracks.installed lineage hwhole hok hsound.bounded hsound.history hinstalled
    obtain ⟨held, hheld, hsame, hrows⟩ := htracks'.shown
    have hbasis' := hbasis.trans (hsound.basis hlive)
    have hheld' := hsame.trans hbasis'
    exact ⟨hrows.trans (lineage.rows_eq hwhole hheld hsound.held hheld'), hbasis'⟩
  · rcases applyPresentedFrameRef_spec happlied with ⟨hrejected, -⟩ | ⟨-, -, hinstalled⟩
    · cases haccepted.symm.trans hrejected
    cases hinstalled with
    | unchanged _ _ =>
      have hside := finishPresentedFrame_historySide captured.frame
        last.view.committedSnapshot.scrollback last.view.presentedHistoryRevision
        last.view.presentedHistoryBasis last.view
      have hrows := congrArg (fun side => side.committed.scrollback) hside
      exact ⟨hrows, congrArg basis hside⟩
    | moved history hcarried =>
      rw [hsound.committed hcommitted] at hcarried
      exact nomatch hcarried

end Runs

/-! ### A line scrolls out -/

def oneCell : TerminalSnapshot where
  rows := [⟨[.default], false⟩]
  scrollback := []
  cursor := .default
  geometry := ⟨1, 1, 0, 0⟩
  screen := .primary
  modes := .default
  title := none
  workingDirectory := none
  historyOrigin := 0
  scrollbackExtent := 0
  viewport := .live

def emptyHistory : NativeTerminal := ⟨oneCell, [], fun _ => none, rfl, rfl, rfl⟩

def oneLine : NativeTerminal :=
  ⟨{ oneCell with scrollbackExtent := 1 }, [⟨[.default], true⟩], fun _ => none, rfl, rfl, rfl⟩

@[reducible] def exampleLayout : EvidenceLayout := ⟨400, 32, 6⟩

def lineScrolls : List Event :=
  [.output ⟨oneLine, { UpdateSummary.default with batchCount := 1 }, false, true⟩,
    .captureLive ⟨1⟩, .captureCommitted ⟨1⟩]

def lineRun : Run := (@Run.reach exampleLayout (View.new ⟨1⟩ emptyHistory) lineScrolls).get (by decide +kernel)

theorem lineRun_reached : @reach exampleLayout (View.new ⟨1⟩ emptyHistory) lineScrolls = some lineRun :=
  (some_get _).symm

theorem lineRun_lineage : Lineage lineRun.observed := by
  have hobserved : lineRun.observed =
      [heldHistory emptyHistory, heldHistory emptyHistory, heldHistory oneLine] := by decide +kernel
  have hempty : (heldHistory emptyHistory).window.items = [] := rfl
  rw [hobserved]
  intro a ha b hb _ _ _ _
  simp only [mem_cons, not_mem_nil, or_false, or_self_left] at ha hb
  rcases ha with rfl | rfl
  · exact .of_nil (.inl hempty)
  · rcases hb with rfl | rfl
    · exact .of_nil (.inr hempty)
    · exact .refl

theorem Run.presented_scrollback_lineRun : ∃ captured ∈ lineRun.captured, ∃ view',
      lineRun.view.applyPresentedFrameRef captured.frame = some (true, view') ∧
      view'.committedSnapshot.scrollback = captured.held.rows ∧ captured.held.rows.length = 1 := by
  have hmember : lineRun.captured.head (by decide +kernel) ∈ lineRun.captured := head_mem _
  have hlive : (lineRun.captured.head (by decide +kernel)).live = true := by decide +kernel
  have hlength : (lineRun.captured.head (by decide +kernel)).held.rows.length = 1 := by
    decide +kernel
  have haccepted : (lineRun.view.applyPresentedFrameRef
      (lineRun.captured.head (by decide +kernel)).frame).map Prod.fst = some true := by
    decide +kernel
  obtain ⟨accepted, view', happlied, hshown, -⟩ := @presented_scrollback exampleLayout _
    (new_standalone ⟨1⟩ emptyHistory) _ _ lineRun_reached lineRun_lineage _ hmember
  rw [happlied] at haccepted
  cases haccepted
  exact ⟨_, hmember, view', happlied, (hshown rfl hlive).1, hlength⟩

/-- A frame of the committed model is installed without the line that the engine holds by then. -/
theorem Run.committedFrame_keeps_older :
    @reach exampleLayout (View.new ⟨1⟩ emptyHistory) lineScrolls = some lineRun ∧ Lineage lineRun.observed ∧
      ∃ captured ∈ lineRun.captured, ∃ view',
        lineRun.view.applyPresentedFrameRef captured.frame = some (true, view') ∧
        view'.committedSnapshot.scrollback ≠ captured.held.rows := by
  have hmember : lineRun.captured.getLast (by decide +kernel) ∈ lineRun.captured := getLast_mem _
  have hlength : (lineRun.captured.getLast (by decide +kernel)).held.rows.length = 1 := by
    decide +kernel
  have hempty : (lineRun.view.applyPresentedFrameRef
      (lineRun.captured.getLast (by decide +kernel)).frame).map
        (fun r => (r.1, r.2.committedSnapshot.scrollback)) = some (true, []) := by decide +kernel
  refine ⟨lineRun_reached, lineRun_lineage, _, hmember, ?_⟩
  obtain ⟨⟨accepted, view'⟩, happlied, hresult⟩ := map_eq_some_iff.mp hempty
  simp only [Prod.mk.injEq] at hresult
  obtain ⟨rfl, hrows⟩ := hresult
  refine ⟨view', happlied, fun hsame => ?_⟩
  rw [← hsame, hrows] at hlength
  exact nomatch hlength

end Lector.Accessibility
