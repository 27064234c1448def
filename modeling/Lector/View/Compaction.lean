import Lector.View.Chain
import Lector.View.Frames

/-! A history chain that is cut shows the same rows as the chain that it replaces, to every receipt that
was started on it and to everything that is put on top later. -/
namespace Lector.Accessibility
open Terminal PresentedHistoryDelta HistoryState
open Option hiding all

section Chains

variable {Line : Type} {delta older root : PresentedHistoryDelta Line} {presented s target : HistoryState}
  {scrollback rows : List Line}

/-! ## Continuations -/

def continued (older : PresentedHistoryDelta Line) (newer : List (PresentedHistoryDelta Line)) :
    PresentedHistoryDelta Line :=
  newer.foldr (fun delta older => { delta with previous := some older }) older

variable {current state : HistoryState}

theorem check_mono {revision : Nat} {before before' : Option HistoryState}
    (older older' : PresentedHistoryDelta Line) (delta : PresentedHistoryDelta Line)
    (hbefore : ∀ state, before = some state → before' = some state)
    (h : { delta with previous := some older }.check revision current before = some target) :
    { delta with previous := some older' }.check revision current before' = some target := by
  unfold check at h ⊢
  split at h
  · rename_i hold
    rw [if_pos hold]
    exact h
  rename_i hnew
  rw [if_neg hnew]
  split at h
  · cases h
  rename_i hbase
  rw [if_neg hbase]
  simp only [bind_eq_bind, bind_eq_some_iff] at h ⊢
  obtain ⟨targetEnd, hend, h⟩ := h
  refine ⟨targetEnd, hend, ?_⟩
  split at h
  · cases h
  rename_i hfits
  rw [if_neg hfits]
  split at h
  · rename_i hfull
    rw [if_pos hfull]
    exact h
  rename_i hpart
  rw [if_neg hpart]
  split at h
  · rename_i hcurrent
    rw [if_pos hcurrent]
    exact h
  rename_i hcurrent
  rw [if_neg hcurrent]
  obtain ⟨state, hstate, h⟩ := bind_eq_some_iff.mp h
  exact bind_eq_some_iff.mpr ⟨state, hbefore state hstate, h⟩

/-- **What is put on top of a chain** may be put on top of another one that is accepted where the first one
is, and then is accepted too. -/
theorem validate_continued {revision : Nat}
    (hvalid : ∀ state, validateHistoryDeltaChainFrom revision current older = some state →
      validateHistoryDeltaChainFrom revision current root = some state)
    (newer : List (PresentedHistoryDelta Line))
    (h : validateHistoryDeltaChainFrom revision current (continued older newer) = some state) :
    validateHistoryDeltaChainFrom revision current (continued root newer) = some state := by
  induction newer generalizing state with
  | nil => exact hvalid state h
  | cons delta newer ih => exact check_mono (continued older newer) (continued root newer) delta (fun _ => ih) h

theorem apply_continued
    (happly : applyHistoryDeltaChain scrollback s root = applyHistoryDeltaChain scrollback s older)
    (newer : List (PresentedHistoryDelta Line)) :
    applyHistoryDeltaChain scrollback s (continued root newer) =
      applyHistoryDeltaChain scrollback s (continued older newer) := by
  induction newer with
  | nil => exact happly
  | cons delta newer ih =>
    show (if delta.revision ≤ s.revision then _ else if delta.isRoot s then _ else
      (applyHistoryDeltaChain scrollback s (continued root newer)).bind _) = _
    rw [ih]
    rfl

/-! ## Receipts in between -/

theorem revision_of_transitions (h : delta ∈ transitions presented older) :
    presented.revision < delta.revision := by
  induction older using chain_induction with
  | step older ih =>
    rw [transitions_eq] at h
    split at h
    · cases h
    rename_i hnew
    rcases List.mem_cons.mp h with rfl | h
    · exact Nat.lt_of_not_le hnew
    · split at h
      · cases h
      · cases hprevious : older.previous with
        | none =>
          rw [hprevious] at h
          cases h
        | some previous =>
          rw [hprevious] at h
          exact ih previous hprevious h

theorem applyTo_state (h : delta.applyTo scrollback presented = some (rows, state)) :
    state = .fromDelta delta := by
  simp only [applyTo, bind_eq_bind, bind_eq_some_iff, some.injEq, Prod.mk.injEq] at h
  obtain ⟨_, -, -, hstate⟩ := h
  exact hstate.symm

section

variable (hnew : presented.revision < delta.revision)
include hnew

theorem apply_state (h : applyHistoryDeltaChain scrollback presented delta = some (rows, state)) :
    state = .fromDelta delta := by
  rw [apply_eq, if_neg (by omega)] at h
  split at h
  · exact applyTo_state h
  · obtain ⟨middle, -, h⟩ := bind_eq_some_iff.mp h
    exact applyTo_state h

theorem validate_state
    (hvalid : validateHistoryDeltaChainFrom presented.revision presented delta = some target) :
    target = .fromDelta delta ∧ delta.baseRevision < delta.revision := by
  rw [validate_eq] at hvalid
  have hbase : delta.baseRevision < delta.revision := by
    unfold check at hvalid
    rw [if_neg (by omega)] at hvalid
    split at hvalid
    · cases hvalid
    · omega
  cases check_accepted hvalid with
  | obsolete hold _ => omega
  | full _ _ _ _ hhere => exact ⟨hhere, hbase⟩
  | onCurrent _ _ _ _ _ hhere => exact ⟨hhere, hbase⟩
  | onOlder _ _ _ _ _ _ _ hhere => exact ⟨hhere, hbase⟩

theorem validate_older
    (hvalid : validateHistoryDeltaChainFrom presented.revision presented delta = some target)
    (hroot : ¬ delta.isRoot presented = true) : ∃ previous state, delta.previous = some previous ∧
      validateHistoryDeltaChainFrom presented.revision presented previous = some state ∧
      delta.Extends state := by
  rw [validate_eq] at hvalid
  cases check_accepted hvalid with
  | obsolete hold _ => omega
  | full _ _ hwhole _ _ => exact absurd (by simp [isRoot, hwhole]) hroot
  | onCurrent _ _ _ hbase _ _ => exact absurd (by simp [isRoot, hbase]) hroot
  | onOlder _ _ _ _ state holder hfollows _ =>
    obtain ⟨previous, hprevious, hstate⟩ := bind_eq_some_iff.mp holder
    exact ⟨previous, state, hprevious, hstate, hfollows⟩

end

section

variable (hvalid : validateHistoryDeltaChainFrom presented.revision presented older = some target)
include hvalid

theorem transitions_cases
   
    (h : delta ∈ transitions presented older) :
    presented.revision < older.revision ∧ (delta = older ∨ ¬ older.isRoot presented = true ∧
      ∃ previous state, older.previous = some previous ∧ delta ∈ transitions presented previous ∧
        validateHistoryDeltaChainFrom presented.revision presented previous = some state ∧
        older.Extends state) := by
  rw [transitions_eq] at h
  split at h
  · cases h
  rename_i hnew
  have hnew := Nat.lt_of_not_le hnew
  refine ⟨hnew, ?_⟩
  rcases List.mem_cons.mp h with hdelta | h
  · exact .inl hdelta
  · split at h
    · cases h
    rename_i hroot
    obtain ⟨previous, state, hprevious, hstate, hfollows⟩ := validate_older hnew hvalid hroot
    rw [hprevious] at h
    exact .inr ⟨hroot, previous, state, hprevious, h, hstate, hfollows⟩

theorem revision_le (h : delta ∈ transitions presented older) : delta.revision ≤ older.revision := by
  induction older using chain_induction generalizing target with
  | step older ih =>
    obtain ⟨hnew, rfl | ⟨-, previous, state, hprevious, hmem, hstate, hfollows⟩⟩ := transitions_cases hvalid h
    · exact le_rfl
    · have hle := ih previous hprevious hstate hmem
      have hlate := (revision_of_transitions hmem).trans_le hle
      obtain ⟨rfl, -⟩ := validate_state hlate hstate
      exact (hle.trans (le_of_eq hfollows.revision)).trans (validate_state hnew hvalid).2.le

/-- **A receipt in between**: what is left of a chain leads to the same rows as the whole chain. -/
theorem apply_resume {sub : PresentedHistoryDelta Line} {committed : List Line}
   
    (hsub : sub ∈ transitions presented older)
    (happly : applyHistoryDeltaChain committed presented sub = some (scrollback, s)) :
    applyHistoryDeltaChain scrollback s older = applyHistoryDeltaChain committed presented older := by
  have hs : s = .fromDelta sub := apply_state (revision_of_transitions hsub) happly
  induction older using chain_induction generalizing target with
  | step older ih =>
    obtain ⟨hnew, rfl | ⟨hroot, previous, state, hprevious, hmem, hstate, hfollows⟩⟩ :=
      transitions_cases hvalid hsub
    · have hdone : sub.revision ≤ s.revision := le_of_eq (congrArg HistoryState.revision hs).symm
      rw [happly, apply_eq, if_pos hdone]
    · have hrest := ih previous hprevious hstate hmem
      have hle := revision_le hstate hmem
      have hlate := (revision_of_transitions hmem).trans_le hle
      obtain ⟨rfl, -⟩ := validate_state hlate hstate
      have hbase : previous.revision = older.baseRevision := hfollows.revision
      have hbelow := (validate_state hnew hvalid).2
      have hsub' : s.revision = sub.revision := congrArg HistoryState.revision hs
      have hleft := apply_eq scrollback s older
      have hright := apply_eq committed presented older
      rw [if_neg (by omega), hprevious, bind_some, hrest] at hleft
      rw [if_neg (by omega), hprevious, bind_some] at hright
      rw [hleft, hright]
      split
      · rename_i hhere
        have hpart : older.fullReplacement = false := by
          cases hfull : older.fullReplacement with
          | false => rfl
          | true => exact absurd (by simp [isRoot, hfull]) hroot
        have hlast : older.baseRevision = s.revision := by
          simpa [isRoot, hpart] using hhere
        rw [← hrest, apply_eq, if_pos (by omega)]
        rfl
      · rfl

end

/-! ## Cutting -/

def appended (previous : PresentedHistoryDelta Line) (target : HistoryState) (replaceFrom : Nat)
    (rows : List Line) : PresentedHistoryDelta Line where
  revision := target.revision
  baseRevision := previous.revision
  basis := target.basis
  replaceFrom := replaceFrom
  rows := rows
  fullReplacement := false
  previous := some previous
  depth := previous.depth + 1
  retainedRows := previous.retainedRows + rows.length

def compactedRoot (presented target : HistoryState) (rows : List Line) : PresentedHistoryDelta Line where
  revision := target.revision
  baseRevision := presented.revision
  basis := target.basis
  replaceFrom := target.basis.origin
  rows := rows
  fullReplacement := true
  previous := none
  depth := 1
  retainedRows := rows.length

theorem validate_old (hold : delta.revision ≤ s.revision) :
    validateHistoryDeltaChainFrom s.revision s delta = some s := by
  rw [validate_eq, check, if_pos hold]

theorem validate_stop (hnew : s.revision < delta.revision)
    (hvalid : validateHistoryDeltaChainFrom s.revision s delta = some target) :
    ∃ targetEnd, delta.basis.stop = some targetEnd := by
  rw [validate_eq, check, if_neg (by omega)] at hvalid
  split at hvalid
  · cases hvalid
  · obtain ⟨targetEnd, hend, -⟩ := bind_eq_some_iff.mp hvalid
    exact ⟨targetEnd, hend⟩

theorem validate_full {targetEnd : Nat} (hnew : s.revision < delta.revision)
    (hbase : delta.baseRevision < delta.revision) (hend : delta.basis.stop = some targetEnd)
    (hwhole : delta.fullReplacement = true) (hfrom : delta.replaceFrom = delta.basis.origin)
    (hlength : delta.rows.length = delta.basis.extent) (halone : delta.previous = none) :
    validateHistoryDeltaChainFrom s.revision s delta = some (.fromDelta delta) := by
  have hstop := stop_eq_some hend
  rw [validate_eq, check, if_neg (by omega), if_neg (by omega), hend]
  show (if _ then none else _) = _
  rw [if_neg (by omega), if_pos hwhole, if_pos ⟨hfrom, by rw [halone]; rfl⟩]

theorem validate_compactedRoot {replaceFrom : Nat} {previous : PresentedHistoryDelta Line}
    {compacted : List Line} (hlength : compacted.length = target.basis.extent)
    (hnew : presented.revision < target.revision)
    (hvalid : validateHistoryDeltaChainFrom s.revision s (appended previous target replaceFrom rows) = some state) :
    validateHistoryDeltaChainFrom s.revision s (compactedRoot presented target compacted) = some state := by
  by_cases hold : target.revision ≤ s.revision
  · have hsame := (validate_old hold).symm.trans hvalid
    exact (validate_old hold).trans hsame
  · have hlater : s.revision < target.revision := Nat.lt_of_not_le hold
    obtain ⟨hstate, -⟩ := validate_state hlater hvalid
    obtain ⟨targetEnd, hend⟩ := validate_stop hlater hvalid
    rw [hstate]
    exact validate_full hlater hnew hend rfl rfl hlength rfl

theorem apply_compactedRoot {compacted : List Line} (hlength : compacted.length = target.basis.extent) :
    applyHistoryDeltaChain scrollback s (compactedRoot presented target compacted) =
      if target.revision ≤ s.revision then some (scrollback, s) else some (compacted, target) := by
  rw [apply_eq]
  show (if target.revision ≤ s.revision then _ else _) = _
  split
  · rfl
  · have hroot : (compactedRoot presented target compacted).isRoot s = true := rfl
    rw [if_pos hroot]
    simp [applyTo, applyHistoryTransition, compactedRoot, hlength, fromDelta]

end Chains

/-! ## Compaction -/

variable {previous : PresentedHistoryDelta Row} {presented target : HistoryState}
  {committed rows : List Row} {replaceFrom : Nat}

theorem compact_eq {compacted : List Row} {state : HistoryState} (hnew : presented.revision < target.revision)
    (hvalid : validateHistoryDeltaChain (appended previous target replaceFrom rows) presented = some state)
    (hcompact : compactHistoryDeltaRoot committed presented previous (.fromDelta previous) target replaceFrom rows =
      some (some compacted)) :
    applyHistoryDeltaChain committed presented (appended previous target replaceFrom rows) =
        some (compacted, target) ∧ compacted.length = target.basis.extent := by
  unfold compactHistoryDeltaRoot at hcompact
  split at hcompact
  · cases hcompact
  rename_i hextent
  split at hcompact
  · cases hcompact
  obtain ⟨⟨applied, reached⟩, happlied, hcompact⟩ := bind_eq_some_iff.mp hcompact
  split at hcompact
  · cases hcompact
  rename_i hreached
  obtain ⟨materialized, hmaterialized, hcompact⟩ := bind_eq_some_iff.mp hcompact
  obtain rfl := some.inj (some.inj hcompact)
  have hreached := of_not_not hreached
  subst hreached
  have hstep : (appended previous target replaceFrom rows).applyTo applied (.fromDelta previous) =
      some (materialized, target) := bind_eq_some_iff.mpr ⟨materialized, hmaterialized, rfl⟩
  have happly : applyHistoryDeltaChain committed presented (appended previous target replaceFrom rows) =
      some (materialized, target) := by
    have hlater : ¬ (appended previous target replaceFrom rows).revision ≤ presented.revision :=
      Nat.not_le_of_lt hnew
    rw [apply_eq, if_neg hlater]
    split
    · rename_i hroot
      -- The chain starts where the view is: nothing of the older chain is applied.
      have hhere : previous.revision = presented.revision := by
        simpa [isRoot, appended] using hroot
      rw [apply_eq, if_pos hhere.le] at happlied
      obtain ⟨hcommitted, hpresented⟩ := Prod.mk.inj (some.inj happlied)
      rw [hcommitted, hpresented]
      exact hstep
    · show (applyHistoryDeltaChain committed presented previous).bind _ = _
      rw [happlied]
      exact hstep
  refine ⟨happly, ?_⟩
  obtain ⟨all, hall, hlength, -⟩ :=
    applyHistoryDeltaChain_rows _ committed presented state (of_not_not hextent) hvalid
  obtain ⟨rfl, rfl⟩ := Prod.mk.inj (some.inj (happly.symm.trans hall))
  exact hlength

theorem compact_some {state : HistoryState} (extent : committed.length = presented.basis.extent)
    (hnew : presented.revision < target.revision)
    (hvalid : validateHistoryDeltaChain (appended previous target replaceFrom rows) presented = some state)
    (hprevious : validateHistoryDeltaChain previous presented = some (.fromDelta previous)) :
    ∃ compacted, compactHistoryDeltaRoot committed presented previous (.fromDelta previous) target
      replaceFrom rows = some (some compacted) := by
  obtain ⟨applied, happlied, hlength, -⟩ :=
    applyHistoryDeltaChain_rows previous committed presented _ extent hprevious
  have hfits : (appended previous target replaceFrom rows).Fits ∧
      (appended previous target replaceFrom rows).Extends (.fromDelta previous) := by
    have haccepted := hvalid
    cases check_accepted haccepted with
    | obsolete hold _ => exact absurd hold (Nat.not_le_of_lt hnew)
    | full _ _ hwhole _ _ => cases hwhole
    | onCurrent _ hfits _ hbase hfollows _ =>
      have hold := le_of_eq hbase
      rw [validateHistoryDeltaChain, validate_old hold] at hprevious
      rw [← some.inj hprevious]
      exact ⟨hfits, hfollows⟩
    | onOlder _ hfits _ _ older holder hfollows _ =>
      have hsame : older = .fromDelta previous := some.inj (holder.symm.trans hprevious)
      exact ⟨hfits, hsame ▸ hfollows⟩
  obtain ⟨hfits, hfollows⟩ := hfits
  have htransition := applyHistoryTransition_extends target hfollows.screen hfollows.geometry
    hfollows.origin hfits.from_origin hfollows.splice hfits.to_stop hlength
  refine ⟨(((fromDelta previous).window applied).slide target.basis.origin rows).items, ?_⟩
  rw [compactHistoryDeltaRoot, if_neg (not_not.mpr extent), if_neg (not_not.mpr hprevious), happlied]
  show (if fromDelta previous ≠ .fromDelta previous then _ else _) = _
  rw [if_neg (not_not.mpr rfl)]
  exact bind_eq_some_iff.mpr ⟨_, htransition, rfl⟩

/-- What a view shows that has applied a part of a chain, or nothing of it yet. -/
def Reaches (committed : List Row) (presented : HistoryState) (chain : PresentedHistoryDelta Row)
    (scrollback : List Row) (s : HistoryState) : Prop :=
  (scrollback = committed ∧ s = presented) ∨ ∃ sub ∈ transitions presented chain,
    applyHistoryDeltaChain committed presented sub = some (scrollback, s)

theorem reaches_old {chain : PresentedHistoryDelta Row} {scrollback : List Row} {s : HistoryState}
    (hold : chain.revision ≤ presented.revision) (h : Reaches committed presented chain scrollback s) :
    s = presented := by
  rcases h with ⟨-, rfl⟩ | ⟨sub, hsub, -⟩
  · rfl
  · rw [transitions_eq, if_pos hold] at hsub
    cases hsub

/-- **Cutting a chain is not seen** where the chain before its last delta is valid by itself. The new root leads
from the base to the same rows and state, and so does every valid continuation. -/
theorem compaction_transparent (committed rows : List Row) (presented target state : HistoryState)
    (previous : PresentedHistoryDelta Row) (replaceFrom : Nat)
    (extent : committed.length = presented.basis.extent)
    (valid : validateHistoryDeltaChain (appended previous target replaceFrom rows) presented = some state) :
    (presented.revision < target.revision →
      validateHistoryDeltaChain previous presented = some (.fromDelta previous) →
      ∃ compacted, compactHistoryDeltaRoot committed presented previous (.fromDelta previous) target
        replaceFrom rows = some (some compacted)) ∧
    ∀ compacted, compactHistoryDeltaRoot committed presented previous (.fromDelta previous) target
        replaceFrom rows = some (some compacted) →
      (presented.revision < target.revision → compacted.length = target.basis.extent ∧
        applyHistoryDeltaChain committed presented (appended previous target replaceFrom rows) =
          some (compacted, target)) ∧
      applyHistoryDeltaChain committed presented (compactedRoot presented target compacted) =
        applyHistoryDeltaChain committed presented (appended previous target replaceFrom rows) ∧
      ∀ scrollback s newer,
        Reaches committed presented (appended previous target replaceFrom rows) scrollback s →
        ∀ last, validateHistoryDeltaChain
            (continued (appended previous target replaceFrom rows) newer) s = some last →
          validateHistoryDeltaChain (continued (compactedRoot presented target compacted) newer) s =
            some last ∧
          applyHistoryDeltaChain scrollback s
              (continued (compactedRoot presented target compacted) newer) =
            applyHistoryDeltaChain scrollback s
              (continued (appended previous target replaceFrom rows) newer) := by
  refine ⟨fun hnew => compact_some extent hnew valid, fun compacted hcompact => ?_⟩
  by_cases hnew : presented.revision < target.revision
  · obtain ⟨happly, hlength⟩ := compact_eq hnew valid hcompact
    have hroot : applyHistoryDeltaChain committed presented (compactedRoot presented target compacted) =
        some (compacted, target) := by
      rw [apply_compactedRoot hlength, if_neg (Nat.not_le_of_lt hnew)]
    refine ⟨fun _ => ⟨hlength, happly⟩, hroot.trans happly.symm,
      fun scrollback s newer hreaches last hlast => ⟨?_, ?_⟩⟩
    · exact validate_continued (fun _ => validate_compactedRoot hlength hnew) newer hlast
    · refine apply_continued ?_ newer
      rcases hreaches with ⟨rfl, rfl⟩ | ⟨sub, hsub, hpart⟩
      · rw [hroot, happly]
      · rw [apply_compactedRoot hlength]
        split
        · rename_i hold
          exact ((apply_eq _ _ _).trans (if_pos hold)).symm
        · rw [apply_resume valid hsub hpart, happly]
  · -- Neither is applied: the view is there already.
    have hold := Nat.le_of_not_lt hnew
    have hsame : ∀ scrollback, applyHistoryDeltaChain scrollback presented
          (compactedRoot presented target compacted) =
        applyHistoryDeltaChain scrollback presented (appended previous target replaceFrom rows) :=
      fun scrollback => ((apply_eq _ _ _).trans (if_pos hold)).trans
        ((apply_eq _ _ _).trans (if_pos hold)).symm
    refine ⟨fun h => absurd h hnew, hsame committed, fun scrollback s newer hreaches last hlast => ?_⟩
    obtain rfl := reaches_old hold hreaches
    refine ⟨validate_continued (fun state hstate => ?_) newer hlast, apply_continued (hsame _) newer⟩
    have hboth := (validate_old hold).symm.trans hstate
    exact (validate_old hold).trans hboth

/-- A base with one line, one line that came, and one line more. -/
theorem compaction_transparent_lines :
    let presented : HistoryState := ⟨1, ⟨.primary, ⟨24, 80, 0, 0⟩, 3, 1⟩⟩
    let previous : PresentedHistoryDelta Row :=
      ⟨2, 1, ⟨.primary, ⟨24, 80, 0, 0⟩, 3, 2⟩, 4, [⟨[], true⟩], false, none, 1, 1⟩
    let target : HistoryState := ⟨3, ⟨.primary, ⟨24, 80, 0, 0⟩, 4, 2⟩⟩
    applyHistoryDeltaChain [⟨[], false⟩] presented
        (compactedRoot presented target [⟨[], true⟩, ⟨[], false⟩]) =
      applyHistoryDeltaChain [⟨[], false⟩] presented (appended previous target 5 [⟨[], false⟩]) :=
  ((compaction_transparent [⟨[], false⟩] [⟨[], false⟩] ⟨1, ⟨.primary, ⟨24, 80, 0, 0⟩, 3, 1⟩⟩
    ⟨3, ⟨.primary, ⟨24, 80, 0, 0⟩, 4, 2⟩⟩ ⟨3, ⟨.primary, ⟨24, 80, 0, 0⟩, 4, 2⟩⟩
    ⟨2, 1, ⟨.primary, ⟨24, 80, 0, 0⟩, 3, 2⟩, 4, [⟨[], true⟩], false, none, 1, 1⟩ 5 rfl
    (by decide)).2 [⟨[], true⟩, ⟨[], false⟩] (by decide)).2.1

/-! ## The deltas of a view -/

/-- **What a view puts on its chain** is one delta more, or the root of a chain that was cut. -/
theorem nextHistoryDelta_shared {view : View} {previous delta : PresentedHistoryDelta Row}
    (hshared : view.sharedLiveHistory = some previous)
    (hcompatible : appendCompatible previous.basis (.fromSnapshot view.engine.snapshot) = true)
    (h : view.nextHistoryDelta = some delta) :
    delta = compactedRoot ⟨view.presentedHistoryRevision, view.presentedHistoryBasis⟩
        ⟨view.liveHistoryRevision, .fromSnapshot view.engine.snapshot⟩ delta.rows ∨
      delta = appended previous ⟨view.liveHistoryRevision, .fromSnapshot view.engine.snapshot⟩
        (previous.basis.origin + previous.basis.extent) delta.rows := by
  have hbase : view.historyBase = .fromDelta previous := by rw [View.historyBase, hshared]; rfl
  unfold View.nextHistoryDelta at h
  rw [hbase] at h
  simp only [fromDelta, hcompatible, bind_eq_bind, bind_eq_some_iff] at h
  obtain ⟨-, -, suffix, -, -, -, expected, -, h⟩ := h
  split at h
  · cases h
  obtain ⟨rows, -, h⟩ := bind_eq_some_iff.mp h
  cases h
  cases view.mustCompact previous.basis (.fromSnapshot view.engine.snapshot) with
  | true => exact .inl rfl
  | false =>
    rw [hshared]
    exact .inr rfl

end Lector.Accessibility
