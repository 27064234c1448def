import Lector.View.HistorySide
import Lector.View.Chain

/-! Histories of one lineage, and the deltas recorded between them. A history revision is given to one
basis only, and a recorded chain shows exactly what the engine held. -/
namespace Lector.Accessibility
open Output Terminal List PresentedHistoryDelta

/-! ## The lineage -/

/-- Where two histories share screen and geometry and overlap, a row keeps its index. -/
def Lineage (seen : List ObservedHistory) : Prop :=
  ∀ a ∈ seen, ∀ b ∈ seen, a.basis.screen = b.basis.screen → a.basis.geometry = b.basis.geometry →
    a.basis.origin ≤ b.basis.origin → b.basis.origin ≤ a.basis.origin + a.basis.extent →
    a.window.Agrees b.window

/-- A history has a row for every index of its interval. -/
def Whole (seen : List ObservedHistory) : Prop := ∀ a ∈ seen, a.rows.length = a.basis.extent

theorem heldHistory_whole (terminal : NativeTerminal) :
    (heldHistory terminal).rows.length = (heldHistory terminal).basis.extent := terminal.extent.symm

variable {seen : List ObservedHistory}

theorem Whole.stop (whole : Whole seen) {a : ObservedHistory} (ha : a ∈ seen) :
    a.window.stop = a.basis.origin + a.basis.extent := by
  simp only [Window.stop, ObservedHistory.window, whole a ha]

/-- **The basis tells the rows.** -/
theorem Lineage.rows_eq (lineage : Lineage seen) (whole : Whole seen) {a b : ObservedHistory}
    (ha : a ∈ seen) (hb : b ∈ seen) (basis : a.basis = b.basis) : a.rows = b.rows := by
  have horigin : a.basis.origin = b.basis.origin := by rw [basis]
  have hextent : a.basis.extent = b.basis.extent := by rw [basis]
  have hagrees := lineage a ha b hb (by rw [basis]) (by rw [basis]) (by omega) (by omega)
  have hstop := whole.stop ha
  have hstop' := whole.stop hb
  have hslid := Window.slide_of_agrees hagrees (by simpa [ObservedHistory.window] using horigin.le)
    (by simp only [ObservedHistory.window] at hstop ⊢; omega) (by omega)
  have hnew : b.rows.drop (a.window.stop - b.basis.origin) = [] := by
    apply drop_eq_nil_of_le
    rw [whole b hb]
    omega
  have hold : a.rows.drop (b.basis.origin - a.basis.origin) = a.rows := by
    rw [horigin, Nat.sub_self, drop_zero]
  simp only [Window.slide, ObservedHistory.window, Window.mk.injEq, true_and] at hslid hnew
  rw [hnew, append_nil, hold] at hslid
  exact hslid

/-- **A transition between two histories of the lineage** gives the rows of the later one. -/
theorem Lineage.transition (lineage : Lineage seen) (whole : Whole seen) {a b : ObservedHistory}
    (ha : a ∈ seen) (hb : b ∈ seen) (base target : HistoryState) (replaceFrom : Nat)
    (haorigin : base.basis.origin = a.basis.origin) (haextent : base.basis.extent = a.basis.extent)
    (hbasis : target.basis = b.basis) (screen : a.basis.screen = b.basis.screen)
    (geometry : a.basis.geometry = b.basis.geometry) (screen' : base.basis.screen = b.basis.screen)
    (geometry' : base.basis.geometry = b.basis.geometry) (origin : a.basis.origin ≤ b.basis.origin)
    (splice : replaceFrom = a.basis.origin + a.basis.extent) (hfrom : b.basis.origin ≤ replaceFrom)
    (hto : replaceFrom ≤ b.basis.origin + b.basis.extent) :
    applyHistoryTransition a.rows base target replaceFrom false
      (b.rows.drop (replaceFrom - b.basis.origin)) = some b.rows := by
  have hlength : (b.rows.drop (replaceFrom - b.basis.origin)).length =
      b.basis.origin + b.basis.extent - replaceFrom := by
    rw [length_drop, whole b hb]
    omega
  rw [applyHistoryTransition_extends target (by rw [screen', hbasis]) (by rw [geometry', hbasis])
    (by rw [haorigin, hbasis]; exact origin) (by rw [hbasis]; exact hfrom) (by omega)
    (by rw [hbasis]; omega) (by rw [whole a ha, haextent])]
  have hstop := whole.stop ha
  have hagrees := lineage a ha b hb screen geometry origin (by omega)
  have hslid := Window.slide_of_agrees hagrees origin (by rw [hstop]; exact splice ▸ hfrom)
    (by rw [whole.stop hb]; omega)
  have hitems := congrArg Window.items hslid
  have hwindow : base.window a.rows = a.window := by
    simp only [HistoryState.window, ObservedHistory.window, haorigin]
  rw [hwindow, hbasis, splice, ← hstop]
  exact congrArg some hitems

/-! ## Recorded deltas -/

abbrev Assignment := Nat → Option PresentedHistoryBasis

/-- Every delta of the chain brings rows that the engine held, on a base with its own geometry. -/
inductive Recorded (assigned : Assignment) (seen : List ObservedHistory) : PresentedHistoryDelta Row → Prop
  | delta (delta : PresentedHistoryDelta Row) (held : ObservedHistory) (observed : held ∈ seen)
      (basis : held.basis = delta.basis)
      (rows : delta.rows = held.rows.drop (delta.replaceFrom - delta.basis.origin))
      (named : assigned delta.revision = some delta.basis)
      (based : delta.fullReplacement = false → ∃ base, assigned delta.baseRevision = some base ∧
        base.screen = delta.basis.screen ∧ base.geometry = delta.basis.geometry)
      (previous : ∀ previous, delta.previous = some previous → Recorded assigned seen previous) :
      Recorded assigned seen delta

variable {assigned assigned' : Assignment}

variable {delta : PresentedHistoryDelta Row}

theorem Recorded.named (h : Recorded assigned seen delta) : assigned delta.revision = some delta.basis := by
  cases h with
  | delta _ _ _ _ _ named _ _ => exact named

theorem Recorded.mono (more : ∀ r basis, assigned r = some basis → assigned' r = some basis)
    (h : Recorded assigned seen delta) : Recorded assigned' seen delta := by
  induction h with
  | delta delta held observed basis rows named based _ ih =>
    refine .delta delta held observed basis rows (more _ _ named) (fun hpart => ?_) ih
    obtain ⟨base, hbase, hscreen, hgeometry⟩ := based hpart
    exact ⟨base, more _ _ hbase, hscreen, hgeometry⟩

theorem validate_target {currentRevision : Nat} {current target : HistoryState}
    (h : validateHistoryDeltaChainFrom currentRevision current delta = some target) :
    target = current ∨ target = .fromDelta delta := by
  rw [validate_eq] at h
  cases check_accepted h with
  | obsolete _ same => exact .inl same
  | full _ _ _ _ here => exact .inr here
  | onCurrent _ _ _ _ _ here => exact .inr here
  | onOlder _ _ _ _ _ _ _ here => exact .inr here

/-- **A recorded chain that is accepted shows what the engine held** for its target. The induction is
on the chain; only the base that is presented may have been fitted to another geometry. -/
theorem Recorded.apply (lineage : Lineage seen) (whole : Whole seen) {shown : ObservedHistory}
    (hshown : shown ∈ seen) (current : HistoryState) (origin : current.basis.origin = shown.basis.origin)
    (extent : current.basis.extent = shown.basis.extent)
    (named : assigned current.revision = some shown.basis) (recorded : Recorded assigned seen delta) :
    ∀ target, validateHistoryDeltaChainFrom current.revision current delta = some target →
      target.revision ≠ current.revision →
      ∃ held ∈ seen, held.basis = target.basis ∧
        applyHistoryDeltaChain shown.rows current delta = some (held.rows, target) := by
  induction recorded with
  | delta delta held observed basis rows _ based previous ih =>
    intro target hvalid hmoved
    rw [validate_eq] at hvalid
    rw [apply_eq]
    cases check_accepted hvalid with
    | obsolete _ hsame => exact absurd (congrArg HistoryState.revision hsame) hmoved
    | full hnew hfits hwhole hstart hhere =>
      subst hhere
      have hroot : delta.isRoot current = true := by simp [isRoot, hwhole]
      have hall : delta.rows = held.rows := by rw [rows, hstart, Nat.sub_self, drop_zero]
      rw [if_neg (by omega), if_pos hroot, applyTo_full hfits hwhole hstart, hall]
      exact ⟨held, observed, basis, rfl⟩
    | onCurrent hnew hfits hpart hbase hfollows hhere =>
      subst hhere
      have hroot : delta.isRoot current = true := by simp [isRoot, hbase]
      obtain ⟨base, hassigned, hscreen, hgeometry⟩ := based hpart
      have hsame : shown.basis = base := by
        rw [hbase, named] at hassigned
        exact Option.some.inj hassigned
      obtain ⟨-, hscreen', hgeometry', horigin, hsplice⟩ := hfollows
      have hfrom := hfits.from_origin
      have hto := hfits.to_stop
      have hrows := lineage.transition whole hshown observed current (.fromDelta delta)
        delta.replaceFrom origin extent
        basis.symm (by rw [hsame, hscreen, basis]) (by rw [hsame, hgeometry, basis])
        (by rw [hscreen', basis]) (by rw [hgeometry', basis]) (by rw [basis]; omega) (by omega)
        (by rw [basis]; exact hfrom) (by rw [basis]; omega)
      rw [if_neg (by omega), if_pos hroot, applyTo, hpart, rows, ← basis, hrows]
      exact ⟨held, observed, basis, rfl⟩
    | onOlder hnew hfits hpart hbase state holder hfollows hhere =>
      subst hhere
      have hroot : ¬ delta.isRoot current = true := by
        simp [isRoot, hpart, hbase]
      obtain ⟨older, hprevious, hstate⟩ := Option.bind_eq_some_iff.mp holder
      obtain ⟨hrevision, hscreen', hgeometry', horigin, hsplice⟩ := hfollows
      obtain ⟨earlier, hearlier, hebasis, happlied⟩ :=
        ih older hprevious state hstate (by rw [hrevision]; exact hbase)
      have hfrom := hfits.from_origin
      have hto := hfits.to_stop
      have hrows := lineage.transition whole hearlier observed state (.fromDelta delta)
        delta.replaceFrom (by rw [hebasis])
        (by rw [hebasis]) basis.symm (by rw [hebasis, hscreen', basis])
        (by rw [hebasis, hgeometry', basis]) (by rw [hscreen', basis]) (by rw [hgeometry', basis])
        (by rw [hebasis, basis]; exact horigin) (by rw [hebasis]; exact hsplice)
        (by rw [basis]; exact hfrom) (by rw [basis]; omega)
      rw [if_neg (by omega), if_neg hroot, hprevious]
      simp only [Option.bind_some, happlied]
      rw [applyTo, hpart, rows, ← basis, hrows]
      exact ⟨held, observed, basis, rfl⟩

end Lector.Accessibility
