import Lector.Foundations.Ranges
import Lector.View.Scrollback

/-! Anchors of the review in a history that grows and evicts: which absolute row a scrollback offset, a
selection or a mark stands for, and that translating them to another snapshot keeps that row. -/
namespace Lector.Accessibility
open Terminal Nearest

/-! ## Absolute rows -/

variable (snapshot : TerminalSnapshot)

/-- The rows of the history and of the screen have indices that a `usize` holds. -/
def Addressable : Prop :=
  snapshot.historyOrigin + snapshot.scrollbackExtent + snapshot.size.1 < 2 ^ 64

def topRow (scrollback : Nat) : Nat :=
  snapshot.historyOrigin + snapshot.scrollbackExtent - scrollback

def topRows : Set Nat :=
  Set.Icc snapshot.historyOrigin (snapshot.historyOrigin + snapshot.scrollbackExtent)

def retainedRows : Set Nat :=
  Set.Ico snapshot.historyOrigin
    (snapshot.historyOrigin + snapshot.scrollbackExtent + snapshot.size.1)

def SameExtent (old new : TerminalSnapshot) : Prop :=
  old.historyOrigin = new.historyOrigin ∧ old.scrollbackExtent = new.scrollbackExtent

/-- Only between snapshots of one screen and one size is a row of the screen the same row. -/
def SameGrid (old new : TerminalSnapshot) : Prop := old.screen = new.screen ∧ old.size = new.size

variable {old new : TerminalSnapshot} {scrollback : Nat}

theorem historyWindowEnd_eq (h : Addressable new) :
    historyWindowEnd new = new.historyOrigin + new.scrollbackExtent := by
  rw [Addressable] at h
  rw [historyWindowEnd, saturatingAdd, min_eq_left (by omega)]

theorem retainedRows_eq (h : 0 < new.size.1) : retainedRows new =
    Set.Icc new.historyOrigin (new.historyOrigin + new.scrollbackExtent + (new.size.1 - 1)) := by
  ext row
  simp only [retainedRows, Set.mem_Ico, Set.mem_Icc]
  omega

theorem topRow_sub {top : Nat} (h : top ∈ topRows new) :
    topRow new (new.historyOrigin + new.scrollbackExtent - top) = top := by
  obtain ⟨-, hhigh⟩ := h
  rw [topRow]
  omega

/-! ## Offsets -/

/-- The live screen stays live; another offset keeps its top row, or the nearest one. -/
structure OffsetAnchored (old new : TerminalSnapshot) (scrollback scrollback' : Nat) : Prop where
  live : scrollback = 0 → scrollback' = 0
  within : scrollback' ≤ new.scrollbackExtent
  anchored : scrollback ≠ 0 → IsNearest (topRows new) (topRow old scrollback) (topRow new scrollback')
  same : SameExtent old new → scrollback' = scrollback

theorem offset_anchored (hold : Addressable old) (hnew : Addressable new)
    (hvalid : scrollback ≤ old.scrollbackExtent) :
    OffsetAnchored old new scrollback (translateScrollbackOffset scrollback old new) := by
  by_cases hlive : scrollback = 0
  · subst hlive
    exact ⟨fun _ => rfl, Nat.zero_le _, fun h => absurd rfl h, fun _ => rfl⟩
  have hnearest := isNearest_clamp (Nat.le_add_right new.historyOrigin new.scrollbackExtent)
    (topRow old scrollback)
  have hresult : translateScrollbackOffset scrollback old new = new.historyOrigin + new.scrollbackExtent -
        min (max (topRow old scrollback) new.historyOrigin) (new.historyOrigin + new.scrollbackExtent) := by
    rw [translateScrollbackOffset, if_neg hlive]
    simp only [historyWindowEnd_eq hold, historyWindowEnd_eq hnew, clamp, topRow]
    omega
  rw [hresult]
  refine ⟨fun h => absurd h hlive, by omega, fun _ => ?_, fun hsame => ?_⟩
  · rw [topRow_sub hnearest.1]
    exact hnearest
  · obtain ⟨horigin, hextent⟩ := hsame
    rw [topRow]
    omega

/-! ## Selections -/

def onScreen (cursor : Nat × Nat) : Nat × Nat :=
  (min cursor.1 (snapshot.size.1 - 1), min cursor.2 (snapshot.size.2 - 1))

/-- On one grid it keeps its row or the nearest; otherwise the viewport keeps its top row. -/
structure SelectionAnchored (old new : TerminalSnapshot) (scrollback : Nat) (cursor : Nat × Nat)
    (result : Nat × (Nat × Nat)) : Prop where
  within : result.1 ≤ new.scrollbackExtent ∧ result.2.1 ≤ new.size.1 - 1 ∧ result.2.2 ≤ new.size.2 - 1
  live : scrollback = 0 → result = (0, onScreen new cursor)
  regridded : scrollback ≠ 0 → ¬ SameGrid old new →
    IsNearest (topRows new) (topRow old scrollback) (topRow new result.1) ∧ result.2 = onScreen new cursor
  anchored : scrollback ≠ 0 → SameGrid old new →
    IsNearest (retainedRows new) (topRow old scrollback + cursor.1) (topRow new result.1 + result.2.1) ∧
      result.2.2 = cursor.2
  same : SameExtent old new → cursor.1 < new.size.1 → cursor.2 < new.size.2 → result = (scrollback, cursor)

theorem onScreen_of_lt {cursor : Nat × Nat} (hrow : cursor.1 < new.size.1) (hcol : cursor.2 < new.size.2) :
    onScreen new cursor = cursor := by
  rw [onScreen, min_eq_left (by omega), min_eq_left (by omega)]

theorem translateReviewSelection_sameGrid (hold : Addressable old) (hnew : Addressable new)
    (hvalid : scrollback ≤ old.scrollbackExtent) (hscrolled : scrollback ≠ 0) (hgrid : SameGrid old new)
    {cursor : Nat × Nat} (hrow : cursor.1 < new.size.1) (hcol : cursor.2 < new.size.2) :
    ∃ top ∈ topRows new, translateReviewSelection scrollback cursor old new =
        (new.historyOrigin + new.scrollbackExtent - top,
          (min (max (topRow old scrollback + cursor.1) new.historyOrigin)
            (new.historyOrigin + new.scrollbackExtent + (new.size.1 - 1)) - top, cursor.2)) ∧
      top ≤ min (max (topRow old scrollback + cursor.1) new.historyOrigin)
        (new.historyOrigin + new.scrollbackExtent + (new.size.1 - 1)) ∧
      min (max (topRow old scrollback + cursor.1) new.historyOrigin)
        (new.historyOrigin + new.scrollbackExtent + (new.size.1 - 1)) < top + new.size.1 ∧
      (SameExtent old new → top = topRow old scrollback) := by
  obtain ⟨hscreen, hsize⟩ := hgrid
  have holdEnd := historyWindowEnd_eq hold
  have hnewEnd := historyWindowEnd_eq hnew
  rw [Addressable] at hold hnew
  have hdiffer : ¬ (old.screen ≠ new.screen ∨ old.size ≠ new.size) := by
    rintro (h | h)
    · exact h hscreen
    · exact h hsize
  generalize hselected : min (max (topRow old scrollback + cursor.1) new.historyOrigin)
    (new.historyOrigin + new.scrollbackExtent + (new.size.1 - 1)) = selected
  refine ⟨min (max (selected - cursor.1) new.historyOrigin) (new.historyOrigin + new.scrollbackExtent),
    ⟨by omega, by omega⟩, ?_, by omega, by omega, ?_⟩
  · rw [translateReviewSelection, if_neg hscrolled, if_neg hdiffer]
    have hclamped : clamp (saturatingAdd 64 (historyWindowEnd old - min scrollback old.scrollbackExtent) cursor.1)
        new.historyOrigin (saturatingAdd 64 (historyWindowEnd new) (new.size.1 - 1)) = selected := by
      rw [← hselected]
      simp only [clamp, saturatingAdd, topRow]
      omega
    simp only [hclamped]
    simp only [clamp, Prod.mk.injEq]
    omega
  · rintro ⟨horigin, hextent⟩
    rw [topRow] at hselected ⊢
    omega

theorem selection_anchored (hold : Addressable old) (hnew : Addressable new)
    (hvalid : scrollback ≤ old.scrollbackExtent) {cursor : Nat × Nat} (hrow : cursor.1 < old.size.1)
    (hcol : cursor.2 < old.size.2) :
    SelectionAnchored old new scrollback cursor (translateReviewSelection scrollback cursor old new) := by
  have hoffset := offset_anchored hold hnew hvalid
  by_cases hlive : scrollback = 0
  · subst hlive
    exact ⟨⟨Nat.zero_le _, min_le_right _ _, min_le_right _ _⟩, fun _ => rfl,
      fun h => absurd rfl h, fun h => absurd rfl h,
      fun _ hrow' hcol' => congrArg (Prod.mk 0) (onScreen_of_lt hrow' hcol')⟩
  by_cases hgrid : SameGrid old new
  · obtain ⟨top, htop, hresult, hbelow, habove, hsameTop⟩ :=
      translateReviewSelection_sameGrid hold hnew hvalid hlive hgrid (hgrid.2 ▸ hrow) (hgrid.2 ▸ hcol)
    have hcols : cursor.2 < new.size.2 := hgrid.2 ▸ hcol
    have hrows : cursor.1 < new.size.1 := hgrid.2 ▸ hrow
    have hnearest : IsNearest (retainedRows new) (topRow old scrollback + cursor.1)
        (min (max (topRow old scrollback + cursor.1) new.historyOrigin)
          (new.historyOrigin + new.scrollbackExtent + (new.size.1 - 1))) := by
      rw [retainedRows_eq (Nat.zero_lt_of_lt hrows)]
      exact isNearest_clamp (by omega) _
    obtain ⟨hlow, hhigh⟩ := htop
    rw [hresult]
    refine ⟨?_, fun h => absurd h hlive, fun _ h => absurd hgrid h, fun _ _ => ⟨?_, rfl⟩,
      fun hsame hrow' _ => ?_⟩
    · simp only
      omega
    · rw [topRow_sub ⟨hlow, hhigh⟩, Nat.add_sub_cancel' hbelow]
      exact hnearest
    · obtain ⟨horigin, hextent⟩ := hsame
      rw [hsameTop ⟨horigin, hextent⟩]
      simp only [topRow]
      refine Prod.ext (by omega) (Prod.ext ?_ rfl)
      simp only
      omega
  · have hresult : translateReviewSelection scrollback cursor old new =
        (translateScrollbackOffset scrollback old new, onScreen new cursor) := by
      have hdiffer : old.screen ≠ new.screen ∨ old.size ≠ new.size := by
        rw [SameGrid, not_and_or] at hgrid
        exact hgrid
      rw [translateReviewSelection, if_neg hlive, if_pos hdiffer]
      rfl
    rw [hresult]
    refine ⟨⟨hoffset.within, min_le_right _ _, min_le_right _ _⟩, fun h => absurd h hlive,
      fun _ _ => ⟨hoffset.anchored hlive, rfl⟩, fun _ h => absurd h hgrid, fun hsame hrow' hcol' => ?_⟩
    rw [hoffset.same hsame, onScreen_of_lt hrow' hcol']

/-! ## Positions -/

/-- On one grid it keeps its place if the row is there; otherwise there is none. -/
structure PositionAnchored (old new : TerminalSnapshot) (position : HistoryPosition)
    (result : Option HistoryPosition) : Prop where
  kept : ∀ position', result = some position' ↔
    SameGrid old new ∧ old.historyOrigin + position.row ∈ retainedRows new ∧
      new.historyOrigin + position'.row = old.historyOrigin + position.row ∧ position'.col = position.col
  same : SameExtent old new → SameGrid old new → result = some position

theorem translateHistoryPosition_eq_some (hold : Addressable old) (hnew : Addressable new)
    {position : HistoryPosition} (hrow : position.row < old.scrollbackExtent + old.size.1)
    (hcol : position.col < old.size.2) (position' : HistoryPosition) :
    translateHistoryPosition position old new = some position' ↔
      SameGrid old new ∧ old.historyOrigin + position.row ∈ retainedRows new ∧
        new.historyOrigin + position'.row = old.historyOrigin + position.row ∧
        position'.col = position.col := by
  rw [Addressable] at hold hnew
  rw [translateHistoryPosition]
  split
  · rename_i hdiffer
    constructor
    · exact fun h => nomatch h
    · rintro ⟨⟨hscreen, hsize⟩, -⟩
      exact absurd hdiffer (not_or.mpr ⟨not_not.mpr hscreen, not_not.mpr hsize⟩)
  rename_i hgrid
  rw [not_or, not_not, not_not] at hgrid
  obtain ⟨hscreen, hsize⟩ := hgrid
  have hcols : old.size.2 = new.size.2 := congrArg Prod.snd hsize
  have hmin : min position.col (new.size.2 - 1) = position.col := by omega
  simp only [checkedAdd, checkedSub, Option.bind_eq_bind, Option.bind_eq_some_iff,
    Option.ite_none_right_eq_some, Option.some.injEq, hmin, SameGrid, hscreen, hsize, retainedRows,
    Set.mem_Ico]
  constructor
  · rintro ⟨-, ⟨-, rfl⟩, row, ⟨hle, rfl⟩, -, ⟨-, rfl⟩, hlt, rfl⟩
    exact ⟨⟨trivial, trivial⟩, by omega, by simp only; omega, rfl⟩
  · rintro ⟨-, ⟨hlow, hhigh⟩, hsame, hcol'⟩
    obtain ⟨row', col'⟩ := position'
    refine ⟨_, ⟨by omega, rfl⟩, _, ⟨hlow, rfl⟩, _, ⟨by omega, rfl⟩, by omega, ?_⟩
    simp only at hsame hcol'
    rw [hcol', ← hsame, Nat.add_sub_cancel_left]

theorem position_anchored (hold : Addressable old) (hnew : Addressable new) {position : HistoryPosition}
    (hrow : position.row < old.scrollbackExtent + old.size.1) (hcol : position.col < old.size.2) :
    PositionAnchored old new position (translateHistoryPosition position old new) := by
  refine ⟨translateHistoryPosition_eq_some hold hnew hrow hcol, ?_⟩
  rintro ⟨horigin, hextent⟩ hgrid
  have hrows : old.size.1 = new.size.1 := congrArg Prod.fst hgrid.2
  rw [translateHistoryPosition_eq_some hold hnew hrow hcol]
  exact ⟨hgrid, ⟨by omega, by omega⟩, by rw [horigin], rfl⟩

/-! ## Anchors survive -/

/-- **Anchors keep their row.** An offset other than the live one keeps its top row, a selection on
one grid keeps its row or the nearest there is, and a mark keeps its row or goes with it. -/
theorem anchors_survive (hold : Addressable old) (hnew : Addressable new) :
    (∀ scrollback ≤ old.scrollbackExtent,
      OffsetAnchored old new scrollback (translateScrollbackOffset scrollback old new)) ∧
    (∀ scrollback ≤ old.scrollbackExtent, ∀ cursor, cursor.1 < old.size.1 → cursor.2 < old.size.2 →
      SelectionAnchored old new scrollback cursor (translateReviewSelection scrollback cursor old new)) ∧
    ∀ position : HistoryPosition, position.row < old.scrollbackExtent + old.size.1 →
      position.col < old.size.2 →
        PositionAnchored old new position (translateHistoryPosition position old new) :=
  ⟨fun _ hvalid => offset_anchored hold hnew hvalid,
    fun _ hvalid _ hrow hcol => selection_anchored hold hnew hvalid hrow hcol,
    fun _ hrow hcol => position_anchored hold hnew hrow hcol⟩

/-- A screen of one cell below a history of `extent` rows from `origin` on. -/
def oneCellBelow (origin extent : Nat) : TerminalSnapshot :=
  { oneCell with historyOrigin := origin, scrollbackExtent := extent }

/-- A viewport at an evicted row goes to the first that is left, and a mark keeps its row. -/
theorem anchors_survive_eviction : IsNearest (topRows (oneCellBelow 2 2)) 1
        (topRow (oneCellBelow 2 2) (translateScrollbackOffset 2 (oneCellBelow 0 3) (oneCellBelow 2 2))) ∧
      (translateReviewSelection 3 (0, 0) (oneCellBelow 0 3) (oneCellBelow 0 3) = (3, (0, 0))) ∧
      translateHistoryPosition ⟨2, 0⟩ (oneCellBelow 0 3) (oneCellBelow 2 2) = some ⟨0, 0⟩ := by
  have hold : Addressable (oneCellBelow 0 3) := by
    unfold Addressable
    decide
  have hnew : Addressable (oneCellBelow 2 2) := by
    unfold Addressable
    decide
  exact ⟨((anchors_survive hold hnew).1 2 (by decide)).anchored (by decide),
    ((anchors_survive hold hold).2.1 3 (by decide) (0, 0) (by decide) (by decide)).same ⟨rfl, rfl⟩
      (by decide) (by decide),
    (((anchors_survive hold hnew).2.2 ⟨2, 0⟩ (by decide) (by decide)).kept ⟨0, 0⟩).mpr
      ⟨⟨rfl, rfl⟩, ⟨by decide, by decide⟩, rfl, rfl⟩⟩

/-- The live viewport moves on, a mark goes with its row, and overflowing indices move an offset. -/
theorem anchors_move : (topRow (oneCellBelow 0 0) 0 ∈ topRows (oneCellBelow 0 1) ∧
      topRow (oneCellBelow 0 1) (translateScrollbackOffset 0 (oneCellBelow 0 0) (oneCellBelow 0 1)) ≠
        topRow (oneCellBelow 0 0) 0) ∧
    translateHistoryPosition ⟨0, 0⟩ (oneCellBelow 0 1) (oneCellBelow 1 1) = none ∧
    translateScrollbackOffset 3 (oneCellBelow (2 ^ 64 - 2) 5) (oneCellBelow (2 ^ 64 - 2) 5) = 1 := by
  refine ⟨⟨⟨by decide, by decide⟩, by decide⟩, by decide, by decide⟩

end Lector.Accessibility
