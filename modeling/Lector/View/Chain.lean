import Lector.View.History

/-! An accepted chain of history deltas applies without a miss, and every row of its target is the one
shown last at that index. -/
namespace Lector.Accessibility
open List Option PresentedHistoryDelta HistoryState

variable {Row : Type}

theorem stop_eq_some {basis : PresentedHistoryBasis} {n : Nat} (h : basis.stop = some n) :
    n = basis.origin + basis.extent := by
  simp only [PresentedHistoryBasis.stop, checkedAdd, ite_none_right_eq_some, some.injEq] at h
  exact h.2.symm

/-! ## What the validation accepts -/

/-- The interval of a delta is the tail of its basis, with one row for every index. -/
structure PresentedHistoryDelta.Fits (delta : PresentedHistoryDelta Row) : Prop where
  from_origin : delta.basis.origin ≤ delta.replaceFrom
  to_stop : delta.replaceFrom + delta.rows.length = delta.basis.origin + delta.basis.extent

/-- The basis moves on from `base` and the new rows start where `base` stops. -/
structure PresentedHistoryDelta.Extends (delta : PresentedHistoryDelta Row) (base : HistoryState) : Prop where
  revision : base.revision = delta.baseRevision
  screen : base.basis.screen = delta.basis.screen
  geometry : base.basis.geometry = delta.basis.geometry
  origin : base.basis.origin ≤ delta.basis.origin
  splice : delta.replaceFrom = base.basis.origin + base.basis.extent

variable {delta : PresentedHistoryDelta Row}

variable {base target current state : HistoryState}

theorem followsOn_extends {targetEnd : Nat} (h : delta.followsOn targetEnd base = some target) :
    target = .fromDelta delta ∧ delta.Extends base := by
  simp only [followsOn, bind_eq_bind, bind_eq_some_iff, ite_none_right_eq_some, some.injEq] at h
  obtain ⟨baseEnd, hend, ⟨hrevision, hscreen, hgeometry, horigin, -, hsplice, -⟩, htarget⟩ := h
  rw [stop_eq_some hend] at hsplice
  exact ⟨htarget.symm, hrevision, hscreen, hgeometry, horigin, hsplice⟩

inductive Accepted (delta : PresentedHistoryDelta Row) (currentRevision : Nat)
    (current : HistoryState) (older : Option HistoryState) (target : HistoryState) : Prop
  | obsolete (old : delta.revision ≤ currentRevision) (same : target = current)
  | full (new : currentRevision < delta.revision) (fits : delta.Fits)
      (whole : delta.fullReplacement = true) (start : delta.replaceFrom = delta.basis.origin)
      (here : target = .fromDelta delta)
  | onCurrent (new : currentRevision < delta.revision) (fits : delta.Fits)
      (part : delta.fullReplacement = false) (base : delta.baseRevision = currentRevision)
      (follows : delta.Extends current) (here : target = .fromDelta delta)
  | onOlder (new : currentRevision < delta.revision) (fits : delta.Fits)
      (part : delta.fullReplacement = false) (base : delta.baseRevision ≠ currentRevision)
      (state : HistoryState) (validated : older = some state) (follows : delta.Extends state)
      (here : target = .fromDelta delta)

theorem check_accepted {currentRevision : Nat} {older : Option HistoryState}
    (h : delta.check currentRevision current older = some target) :
    Accepted delta currentRevision current older target := by
  rw [check] at h
  split at h
  · rename_i hold
    exact .obsolete hold (some.inj h).symm
  have hnew' : currentRevision < delta.revision := by omega
  split at h
  · exact nomatch h
  simp only [bind_eq_bind, bind_eq_some_iff] at h
  obtain ⟨targetEnd, hend, h⟩ := h
  have hstop := stop_eq_some hend
  split at h
  · exact nomatch h
  have hfits : delta.Fits := ⟨by omega, by omega⟩
  split at h
  · rename_i hwhole
    simp only [ite_none_right_eq_some, some.injEq] at h
    exact .full hnew' hfits hwhole h.1.1 h.2.symm
  rename_i hpart
  rw [Bool.not_eq_true] at hpart
  split at h
  · rename_i hbase
    obtain ⟨htarget, hextends⟩ := followsOn_extends h
    exact .onCurrent hnew' hfits hpart hbase hextends htarget
  · rename_i hbase
    obtain ⟨state, hstate, h⟩ := bind_eq_some_iff.mp h
    obtain ⟨htarget, hextends⟩ := followsOn_extends h
    exact .onOlder hnew' hfits hpart hbase state hstate hextends htarget

/-! ## One transition -/

theorem applyTo_full (fits : delta.Fits) (whole : delta.fullReplacement = true)
    (start : delta.replaceFrom = delta.basis.origin) (scrollback : List Row) (base : HistoryState) :
    delta.applyTo scrollback base = some (delta.rows, .fromDelta delta) := by
  have hlength : delta.rows.length = delta.basis.extent := by
    have := fits.to_stop
    omega
  simp [applyTo, applyHistoryTransition, whole, hlength, fromDelta]

variable {scrollback rows : List Row}

/-- **An incremental transition slides the window of its base** on, and drops no row that is not
there. -/
theorem applyHistoryTransition_extends (target : HistoryState)
    {replaceFrom : Nat} (screen : base.basis.screen = target.basis.screen)
    (geometry : base.basis.geometry = target.basis.geometry)
    (origin : base.basis.origin ≤ target.basis.origin) (hfrom : target.basis.origin ≤ replaceFrom)
    (splice : replaceFrom = base.basis.origin + base.basis.extent)
    (hto : replaceFrom + rows.length = target.basis.origin + target.basis.extent)
    (extent : scrollback.length = base.basis.extent) :
    applyHistoryTransition scrollback base target replaceFrom false rows =
      some ((base.window scrollback).slide target.basis.origin rows).items := by
  have hevicted : checkedSub target.basis.origin base.basis.origin =
      some (target.basis.origin - base.basis.origin) := if_pos origin
  have hkept : checkedSub replaceFrom target.basis.origin =
      some (replaceFrom - target.basis.origin) := if_pos hfrom
  have hinside : target.basis.origin - base.basis.origin ≤ scrollback.length := by omega
  have htake : (scrollback.drop (target.basis.origin - base.basis.origin)).take
      (replaceFrom - target.basis.origin) = scrollback.drop (target.basis.origin - base.basis.origin) := by
    apply take_of_length_le
    rw [length_drop]
    omega
  have hlength : (scrollback.drop (target.basis.origin - base.basis.origin) ++ rows).length =
      target.basis.extent := by
    rw [length_append, length_drop]
    omega
  simp only [applyHistoryTransition, Bool.false_eq_true, if_false, screen, geometry, and_self,
    if_true, hevicted, hkept, bind_eq_bind, bind_some, hinside, htake, hlength,
    Window.slide, HistoryState.window]

theorem applyTo_extends (fits : delta.Fits) (part : delta.fullReplacement = false)
    (follows : delta.Extends base) (extent : scrollback.length = base.basis.extent) :
    delta.applyTo scrollback base =
      some (((base.window scrollback).slide delta.basis.origin delta.rows).items, .fromDelta delta) := by
  have happlied := applyHistoryTransition_extends (.fromDelta delta) follows.screen
    follows.geometry follows.origin fits.from_origin follows.splice fits.to_stop extent
  rw [applyTo, part, happlied]
  rfl

/-! ## Which row is shown -/

variable {base : Window Row}

theorem shownRow_nil {i : Nat} : shownRow base [] i = base.get? i := by
  cases h : base.get? i with
  | none => simp [shownRow, h]
  | some row => simp [shownRow, h]

variable {older : List (PresentedHistoryDelta Row)}

theorem shownRow_kept {i : Nat} (keeps : delta.Keeps i) :
    shownRow base (delta :: older) i = shownRow base older i := by
  have hcovers : delta.covers i = false := by
    have hbelow := keeps.2.2
    have hle : ¬ delta.replaceFrom ≤ i := by omega
    simp [PresentedHistoryDelta.covers, hle]
  simp [shownRow, keeps, hcovers]

theorem shownRow_covered {i : Nat} (hfrom : delta.replaceFrom ≤ i)
    (hto : i < delta.replaceFrom + delta.rows.length) :
    shownRow base (delta :: older) i = delta.rows[i - delta.replaceFrom]? := by
  have hkeeps : ¬ delta.Keeps i := fun h => absurd h.2.2 (by omega)
  have hcovers : delta.covers i = true := by simp [PresentedHistoryDelta.covers, hfrom, hto]
  simp [shownRow, hkeeps, hcovers]

/-! ## The chain -/

/-- `rows` are the rows of `state` that `newestFirst` shows on `base`. -/
structure Shows (base : Window Row) (newestFirst : List (PresentedHistoryDelta Row))
    (state : HistoryState) (rows : List Row) : Prop where
  extent : rows.length = state.basis.extent
  row : ∀ i, state.basis.origin ≤ i → i < state.basis.origin + state.basis.extent →
    (state.window rows).get? i = shownRow base newestFirst i

theorem shows_base (extent : rows.length = state.basis.extent) : Shows (state.window rows) [] state rows :=
  ⟨extent, fun _ _ _ => shownRow_nil.symm⟩

theorem shows_full (fits : delta.Fits) (start : delta.replaceFrom = delta.basis.origin) :
    Shows base (delta :: older) (.fromDelta delta) delta.rows := by
  have hto := fits.to_stop
  constructor
  · simp only [fromDelta]
    omega
  · intro i hi hstop
    simp only [fromDelta] at hi hstop
    rw [shownRow_covered (by omega) (by omega), Window.get?_of_le _ hi, start]
    rfl

theorem shows_extends
    (fits : delta.Fits) (part : delta.fullReplacement = false) (follows : delta.Extends state)
    (shows_ : Shows base older state rows) : Shows base (delta :: older) (.fromDelta delta)
      ((state.window rows).slide delta.basis.origin delta.rows).items := by
  obtain ⟨-, -, -, horigin, hsplice⟩ := follows
  obtain ⟨hfrom, hto⟩ := fits
  have hstop : (state.window rows).stop = delta.replaceFrom := by
    simp only [Window.stop, HistoryState.window, shows_.extent, hsplice]
  have hwindow : (fromDelta delta).window
      ((state.window rows).slide delta.basis.origin delta.rows).items =
        (state.window rows).slide delta.basis.origin delta.rows := rfl
  constructor
  · have hslid := (state.window rows).stop_slide delta.rows horigin (by omega)
    simp only [Window.stop] at hslid hstop
    simp only [fromDelta, Window.slide] at hslid ⊢
    omega
  · intro i hi hend
    simp only [fromDelta] at hi hend
    rw [hwindow]
    by_cases hkept : i < delta.replaceFrom
    · rw [Window.get?_slide_kept _ horigin hi (by omega), shownRow_kept ⟨part, hi, hkept⟩]
      exact shows_.row i (le_trans horigin hi) (by omega)
    · rw [Window.get?_slide_added _ horigin (by omega) (by omega),
        shownRow_covered (by omega) (by omega), hstop]

theorem apply_shows {presented : HistoryState}
    (extent : scrollback.length = presented.basis.extent) (delta : PresentedHistoryDelta Row) :
    ∀ target, validateHistoryDeltaChainFrom presented.revision presented delta = some target →
      ∃ rows, applyHistoryDeltaChain scrollback presented delta = some (rows, target) ∧
        Shows (presented.window scrollback) (transitions presented delta) target rows := by
  induction delta using chain_induction with
  | step delta ih =>
    intro target hvalid
    rw [validate_eq] at hvalid
    rw [apply_eq, transitions_eq]
    cases check_accepted hvalid with
    | obsolete hold hsame =>
      subst hsame
      rw [if_pos hold, if_pos hold]
      exact ⟨scrollback, rfl, shows_base extent⟩
    | full hnew hfits hwhole hstart hhere =>
      subst hhere
      have hroot : delta.isRoot presented = true := by simp [isRoot, hwhole]
      rw [if_neg (by omega), if_pos hroot, if_neg (by omega), applyTo_full hfits hwhole hstart]
      exact ⟨delta.rows, rfl, shows_full hfits hstart⟩
    | onCurrent hnew hfits hpart hbase hfollows hhere =>
      subst hhere
      have hroot : delta.isRoot presented = true := by simp [isRoot, hbase]
      rw [if_neg (by omega), if_pos hroot, if_neg (by omega), if_pos hroot,
        applyTo_extends hfits hpart hfollows extent]
      exact ⟨_, rfl, shows_extends hfits hpart hfollows (shows_base extent)⟩
    | onOlder hnew hfits hpart hbase state holder hfollows hhere =>
      subst hhere
      have hroot : ¬ delta.isRoot presented = true := by
        simp [isRoot, hpart, hbase]
      obtain ⟨previous, hprevious, hstate⟩ := bind_eq_some_iff.mp holder
      obtain ⟨rows, hrows, hshows⟩ := ih previous hprevious state hstate
      rw [if_neg (by omega), if_neg hroot, if_neg (by omega), if_neg hroot, hprevious]
      simp only [bind_some, hrows]
      rw [applyTo_extends hfits hpart hfollows hshows.extent]
      exact ⟨_, rfl, shows_extends hfits hpart hfollows hshows⟩

/-- **An accepted chain applies**: nothing goes below zero or leaves the rows, the result is the
validated target, and the row at an index is the base's own or the one of the last delta that covers
it. -/
theorem applyHistoryDeltaChain_rows (delta : PresentedHistoryDelta Row) (scrollback : List Row)
    (presented target : HistoryState) (extent : scrollback.length = presented.basis.extent)
    (accepted : validateHistoryDeltaChain delta presented = some target) :
    ∃ rows, applyHistoryDeltaChain scrollback presented delta = some (rows, target) ∧
      rows.length = target.basis.extent ∧
      ∀ i, target.basis.origin ≤ i → i < target.basis.origin + target.basis.extent →
        rows[i - target.basis.origin]? =
          shownRow (presented.window scrollback) (transitions presented delta) i := by
  obtain ⟨rows, hrows, hshows⟩ := apply_shows extent delta target accepted
  refine ⟨rows, hrows, hshows.extent, fun i hi hstop => ?_⟩
  rw [← hshows.row i hi hstop, Window.get?_of_le _ hi]
  rfl

def twoLines : PresentedHistoryDelta Nat where
  revision := 3
  baseRevision := 2
  basis := ⟨.primary, ⟨24, 80, 0, 0⟩, 4, 3⟩
  replaceFrom := 6
  rows := [60]
  fullReplacement := false
  previous := some
    { revision := 2
      baseRevision := 1
      basis := ⟨.primary, ⟨24, 80, 0, 0⟩, 4, 2⟩
      replaceFrom := 5
      rows := [50]
      fullReplacement := false
      previous := none
      depth := 1
      retainedRows := 1 }
  depth := 2
  retainedRows := 2

theorem applyHistoryDeltaChain_rows_twoLines :
    ∃ rows, applyHistoryDeltaChain [30, 40] ⟨1, ⟨.primary, ⟨24, 80, 0, 0⟩, 3, 2⟩⟩ twoLines =
        some (rows, .fromDelta twoLines) ∧ rows.length = 3 ∧
      ∀ i, 4 ≤ i → i < 7 → rows[i - 4]? =
        shownRow ⟨3, [30, 40]⟩ (transitions ⟨1, ⟨.primary, ⟨24, 80, 0, 0⟩, 3, 2⟩⟩ twoLines) i :=
  applyHistoryDeltaChain_rows twoLines [30, 40] ⟨1, ⟨.primary, ⟨24, 80, 0, 0⟩, 3, 2⟩⟩
    (.fromDelta twoLines) rfl (by decide)

end Lector.Accessibility
