import Lector.Foundations.Execution
import Lector.Foundations.Ranges
import Lector.Presentation.Matching
import Lector.Presentation.RowWriter

/-! The cells of a row that a diff emits (`changed_cell_ranges` and `expand_and_merge_cell_ranges` in
`src/presentation.rs`). A column outside a row reads as a blank cell. -/
namespace Lector.Presentation
open Terminal
open List hiding max min

/-! ## Changed cells -/

/-- The loop over the columns from `col` on, with the start of the run that is open. -/
def changedCellRangesFrom (previous intended : Row) (stop : Nat) :
    (count col : Nat) → Option Nat → List (Nat × Nat)
  | 0, _, none => []
  | 0, _, some first => [(first, stop)]
  | count + 1, col, runStart =>
    let changed := !cellsPhysicallyMatch (cellOr previous.cells col) (cellOr intended.cells col)
    match runStart, changed with
    | none, true => changedCellRangesFrom previous intended stop count (col + 1) (some col)
    | some first, false => (first, col) :: changedCellRangesFrom previous intended stop count (col + 1) none
    | open_, _ => changedCellRangesFrom previous intended stop count (col + 1) open_

def changedCellRanges (previous intended : Row) (start stop : Nat) : List (Nat × Nat) :=
  changedCellRangesFrom previous intended stop (stop - start) start none

/-! ## Whole glyphs -/

def expandStart (previous intended : Row) : Nat → Nat
  | 0 => 0
  | start + 1 =>
    if (cellOr previous.cells (start + 1)).continuation ||
        (cellOr intended.cells (start + 1)).continuation then
      expandStart previous intended start
    else start + 1

def skipContinuations (row : Row) (cols expanded : Nat) : Nat :=
  expanded + (((row.cells.take cols).drop expanded).takeWhile (·.continuation)).length

def expandOver (cols start : Nat) (expanded : Nat) (row : Row) : Nat :=
  let expanded :=
    if start < row.cells.length then
      max expanded (start + max (cellOr row.cells start).width.toNat 1)
    else expanded
  skipContinuations row cols expanded

def expandedEnd (previous intended : Row) (cols start stop : Nat) : Nat :=
  min ([previous, intended].foldl (expandOver cols start) stop) cols

def expandRound (previous intended : Row) (cols start stop : Nat) : Nat ⊕ Nat :=
  if expandedEnd previous intended cols start stop = stop then .inr stop
  else .inl (expandedEnd previous intended cols start stop)

theorem le_skipContinuations (row : Row) (cols expanded : Nat) :
    expanded ≤ skipContinuations row cols expanded := Nat.le_add_right _ _

theorem le_expandOver (cols start expanded : Nat) (row : Row) :
    expanded ≤ expandOver cols start expanded row := by
  refine le_trans ?_ (le_skipContinuations row cols _)
  split
  · exact le_max_left _ _
  · exact le_rfl

variable {cols stop low start expanded : Nat}

section

variable (previous intended : Row)

theorem le_expandedEnd (start : Nat) (h : stop ≤ cols) :
    stop ≤ expandedEnd previous intended cols start stop := by
  refine Nat.le_min.mpr ⟨?_, h⟩
  exact (le_expandOver cols start stop previous).trans (le_expandOver cols start _ intended)

theorem expandedEnd_le (cols start stop : Nat) :
    expandedEnd previous intended cols start stop ≤ cols := min_le_right _ _

def expandBody (cols start : Nat) : Loop.Body Nat Nat where
  round := expandRound previous intended cols start
  measure stop := if stop ≤ cols then cols - stop else cols + 1
  lowers stop stop' h := by
    unfold expandRound at h
    split at h
    · exact absurd h (by simp)
    · rename_i hne
      obtain rfl := Sum.inl.inj h
      have hcols := expandedEnd_le previous intended cols start stop
      rw [if_pos hcols]
      split
      · rename_i hstop
        have hle := le_expandedEnd previous intended start hstop
        omega
      · omega

def expandEnd (cols start stop : Nat) : Nat :=
  Loop.run (expandBody previous intended cols start) stop

def expandRange (range : Nat × Nat) : Nat × Nat :=
  let cols := min previous.cells.length intended.cells.length
  let start := expandStart previous intended range.1
  (start, expandEnd previous intended cols start range.2)

end

def expandAndMergeCellRanges (ranges : List (Nat × Nat)) (previous intended : Row) :
    List (Nat × Nat) := Ranges.merge (ranges.map (expandRange previous intended))

/-! ## What changed -/

theorem changedCellRangesFrom_spec (previous intended : Row) (count col : Nat)
    (runStart : Option Nat) (hstop : col + count = stop) (hlow : low ≤ col)
    (hstart : ∀ first, runStart = some first → low ≤ first ∧ first < col) :
    (∀ range ∈ changedCellRangesFrom previous intended stop count col runStart,
      low ≤ range.1 ∧ range.1 < range.2 ∧ range.2 ≤ stop) ∧
    ∀ n, n < stop → ((∃ first, runStart = some first ∧ first ≤ n ∧ n < col) ∨ (col ≤ n ∧
        cellsPhysicallyMatch (cellOr previous.cells n) (cellOr intended.cells n) = false)) →
      Ranges.Covers (changedCellRangesFrom previous intended stop count col runStart) n := by
  induction count generalizing col runStart with
  | zero =>
    cases runStart with
    | none =>
      refine ⟨fun range hmem => absurd hmem not_mem_nil, fun n hn h => ?_⟩
      rcases h with ⟨_, h, -⟩ | ⟨hle, -⟩
      · cases h
      · omega
    | some first =>
      obtain ⟨hfirst, hlt⟩ := hstart first rfl
      refine ⟨fun range hmem => ?_, fun n hn h => ?_⟩
      · rw [mem_singleton.mp hmem]
        exact ⟨hfirst, by omega, le_rfl⟩
      · rcases h with ⟨_, h, hle, -⟩ | ⟨hle, -⟩
        · cases h
          exact Ranges.covers_singleton.mpr ⟨hle, hn⟩
        · omega
  | succ count ih =>
    -- the columns behind this one, and this one where it has not changed
    have hbehind : ∀ {n : Nat}, cellsPhysicallyMatch (cellOr previous.cells col)
        (cellOr intended.cells col) = true → col ≤ n →
        cellsPhysicallyMatch (cellOr previous.cells n) (cellOr intended.cells n) = false →
        col + 1 ≤ n := by
      intro n hsame hle hdiffer
      rcases lt_or_eq_of_le hle with hlt | rfl
      · exact hlt
      · rw [hsame] at hdiffer
        cases hdiffer
    cases hchanged : cellsPhysicallyMatch (cellOr previous.cells col) (cellOr intended.cells col) with
    | false =>
      cases runStart with
      | none =>
        obtain ⟨hranges, hcovers⟩ := ih (col + 1) (some col) (by omega) (by omega)
          (fun first h => by cases h; exact ⟨hlow, Nat.lt_succ_self _⟩)
        have hopen : changedCellRangesFrom previous intended stop (count + 1) col none =
            changedCellRangesFrom previous intended stop count (col + 1) (some col) := by
          simp only [changedCellRangesFrom, hchanged, Bool.not_false]
        rw [hopen]
        refine ⟨hranges, fun n hn h => hcovers n hn ?_⟩
        rcases h with ⟨_, h, -⟩ | ⟨hle, hdiffer⟩
        · cases h
        · rcases lt_or_ge n (col + 1) with hlt | hge
          · exact .inl ⟨col, rfl, hle, hlt⟩
          · exact .inr ⟨hge, hdiffer⟩
      | some first =>
        obtain ⟨hfirst, hlt⟩ := hstart first rfl
        obtain ⟨hranges, hcovers⟩ := ih (col + 1) (some first) (by omega)
          (by omega) (fun _ h => by cases h; exact ⟨hfirst, by omega⟩)
        have hgoesOn : changedCellRangesFrom previous intended stop (count + 1) col (some first) =
            changedCellRangesFrom previous intended stop count (col + 1) (some first) := by
          simp only [changedCellRangesFrom, hchanged, Bool.not_false]
        rw [hgoesOn]
        refine ⟨hranges, fun n hn h => hcovers n hn ?_⟩
        rcases h with ⟨_, h, hle, hlt'⟩ | ⟨hle, hdiffer⟩
        · cases h
          exact .inl ⟨first, rfl, hle, by omega⟩
        · rcases lt_or_ge n (col + 1) with hlt' | hge
          · exact .inl ⟨first, rfl, by omega, hlt'⟩
          · exact .inr ⟨hge, hdiffer⟩
    | true =>
      obtain ⟨hranges, hcovers⟩ := ih (col + 1) none (by omega) (by omega) (fun _ h => by cases h)
      cases runStart with
      | none =>
        have hpasses : changedCellRangesFrom previous intended stop (count + 1) col none =
            changedCellRangesFrom previous intended stop count (col + 1) none := by
          simp only [changedCellRangesFrom, hchanged, Bool.not_true]
        rw [hpasses]
        refine ⟨hranges, fun n hn h => hcovers n hn ?_⟩
        rcases h with ⟨_, h, -⟩ | ⟨hle, hdiffer⟩
        · cases h
        · exact .inr ⟨hbehind hchanged hle hdiffer, hdiffer⟩
      | some first =>
        obtain ⟨hfirst, hlt⟩ := hstart first rfl
        have hcloses : changedCellRangesFrom previous intended stop (count + 1) col (some first) =
            (first, col) :: changedCellRangesFrom previous intended stop count (col + 1) none := by
          simp only [changedCellRangesFrom, hchanged, Bool.not_true]
        rw [hcloses]
        refine ⟨fun range hmem => ?_, fun n hn h => Ranges.covers_cons.mpr ?_⟩
        · rcases mem_cons.mp hmem with rfl | hmem
          · exact ⟨hfirst, hlt, by show col ≤ stop; omega⟩
          · exact hranges range hmem
        · rcases h with ⟨_, h, hle, hlt'⟩ | ⟨hle, hdiffer⟩
          · cases h
            exact .inl ⟨hle, hlt'⟩
          · exact .inr (hcovers n hn (.inr ⟨hbehind hchanged hle hdiffer, hdiffer⟩))

/-- **The changed cells of a part of a row.** -/
theorem changedCellRanges_spec (previous intended : Row) (h : start ≤ stop) :
    (∀ range ∈ changedCellRanges previous intended start stop,
      start ≤ range.1 ∧ range.1 < range.2 ∧ range.2 ≤ stop) ∧
    ∀ n, start ≤ n → n < stop →
      cellsPhysicallyMatch (cellOr previous.cells n) (cellOr intended.cells n) = false →
      Ranges.Covers (changedCellRanges previous intended start stop) n := by
  obtain ⟨hranges, hcovers⟩ := changedCellRangesFrom_spec previous intended (stop - start) start
    none (Nat.add_sub_of_le h) (le_refl start) (fun _ h => by cases h)
  exact ⟨hranges, fun n hle hlt hdiffer => hcovers n hlt (.inr ⟨hle, hdiffer⟩)⟩

/-! ## Where glyphs begin -/

/-- No glyph of the row reaches over the column. -/
def Between (row : Row) (col : Nat) : Prop := (cellOr row.cells col).isWideContinuation = false

theorem expandStart_le (previous intended : Row) (start : Nat) :
    expandStart previous intended start ≤ start := by
  induction start with
  | zero => exact le_refl 0
  | succ start ih =>
    rw [expandStart]
    split
    · exact ih.trans (Nat.le_succ start)
    · exact le_rfl

variable {previous intended row : Row}

theorem expandStart_between (hrow : row = previous ∨ row = intended)
    (between : Between row 0) (start : Nat) : Between row (expandStart previous intended start) := by
  induction start with
  | zero => exact between
  | succ start ih =>
    rw [expandStart]
    split
    · exact ih
    · rename_i h
      rw [Bool.not_eq_true, Bool.or_eq_false_iff] at h
      rcases hrow with rfl | rfl
      · exact h.1
      · exact h.2

theorem skipContinuations_between (hcols : cols ≤ row.cells.length) (hexpanded : expanded < cols)
    (h : skipContinuations row cols expanded ≤ expanded) : Between row expanded := by
  have hcell : ((row.cells.take cols).drop expanded)[0]? = some (cellOr row.cells expanded) := by
    rw [getElem?_drop, add_zero, getElem?_take, if_pos hexpanded,
      getElem?_eq_getElem (hexpanded.trans_le hcols),
      cellOr_of_some (getElem?_eq_getElem (hexpanded.trans_le hcols))]
  have hnone : (((row.cells.take cols).drop expanded).takeWhile (·.continuation)).length = 0 := by
    rw [skipContinuations] at h
    omega
  cases hrest : (row.cells.take cols).drop expanded with
  | nil =>
    rw [hrest] at hcell
    cases hcell
  | cons cell rest =>
    rw [hrest, getElem?_cons_zero, Option.some.injEq] at hcell
    rw [hrest, takeWhile_cons, hcell] at hnone
    cases hcontinuation : (cellOr row.cells expanded).continuation with
    | false => exact hcontinuation
    | true =>
      rw [hcontinuation, if_pos rfl, length_cons] at hnone
      omega

theorem expandedEnd_between
    (hprevious : cols ≤ previous.cells.length) (hintended : cols ≤ intended.cells.length)
    (hstop : stop < cols) (h : expandedEnd previous intended cols start stop = stop) :
    Between previous stop ∧ Between intended stop := by
  have hfold : expandOver cols start (expandOver cols start stop previous) intended ≤ stop := by
    rw [expandedEnd, foldl_cons, foldl_cons, foldl_nil] at h
    omega
  have hfirst := le_expandOver cols start stop previous
  have hsecond := le_expandOver cols start (expandOver cols start stop previous) intended
  have heq : expandOver cols start stop previous = stop := by omega
  rw [heq] at hfold
  have hskip : ∀ row, expandOver cols start stop row ≤ stop → skipContinuations row cols stop ≤ stop := by
    intro row hrow
    rw [expandOver] at hrow
    split at hrow
    · have hle := (le_skipContinuations row cols _).trans hrow
      rwa [le_antisymm hle (le_max_left _ _)] at hrow
    · exact hrow
  exact ⟨skipContinuations_between hprevious hstop (hskip previous heq.le),
    skipContinuations_between hintended hstop (hskip intended hfold)⟩

theorem expandEnd_spec (start : Nat)
    (hprevious : cols ≤ previous.cells.length) (hintended : cols ≤ intended.cells.length)
    (hstop : stop ≤ cols) : stop ≤ expandEnd previous intended cols start stop ∧
      expandEnd previous intended cols start stop ≤ cols ∧
      (expandEnd previous intended cols start stop < cols →
        Between previous (expandEnd previous intended cols start stop) ∧
          Between intended (expandEnd previous intended cols start stop)) := by
  refine Loop.run_rule (expandBody previous intended cols start) (P := fun s => stop ≤ s ∧ s ≤ cols)
    (Q := fun r => stop ≤ r ∧ r ≤ cols ∧ (r < cols → Between previous r ∧ Between intended r))
    (fun s hs => ?_) stop ⟨le_rfl, hstop⟩
  change (expandRound previous intended cols start s).elim _ _
  rw [expandRound]
  split
  · rename_i heq
    exact ⟨hs.1, hs.2, fun hlt => expandedEnd_between hprevious hintended hlt heq⟩
  · exact ⟨hs.1.trans (le_expandedEnd previous intended start hs.2), expandedEnd_le _ _ _ _ _⟩

/-- Ranges in order, apart and inside the row, between the glyphs of both rows. -/
structure Emitted (previous intended : Row) (ranges : List (Nat × Nat)) : Prop where
  separated : Ranges.Separated ranges
  proper : Ranges.Proper ranges
  inBounds : ∀ range ∈ ranges, range.2 ≤ intended.cells.length
  starts : ∀ range ∈ ranges, Between previous range.1 ∧ Between intended range.1
  stops : ∀ range ∈ ranges, Between previous range.2 ∧ Between intended range.2

theorem emitted_nil (previous intended : Row) : Emitted previous intended [] where
  separated := Pairwise.nil
  proper _ hmem := absurd hmem not_mem_nil
  inBounds _ hmem := absurd hmem not_mem_nil
  starts _ hmem := absurd hmem not_mem_nil
  stops _ hmem := absurd hmem not_mem_nil

theorem between_length (row : Row) : Between row row.cells.length := by
  rw [Between, cellOr, getElem?_eq_none (le_rfl)]
  rfl

theorem WellFormed.between_zero (h : WellFormed row) : Between row 0 := ((wellFormed_iff row).mp h).1

section Emitted

variable {previous intended : Row}

theorem expandRange_spec (length : previous.cells.length = intended.cells.length) {range : Nat × Nat}
    (hstop : range.2 ≤ intended.cells.length) : (expandRange previous intended range).1 ≤ range.1 ∧
      range.2 ≤ (expandRange previous intended range).2 ∧
      (expandRange previous intended range).2 ≤ intended.cells.length := by
  have hcols : min previous.cells.length intended.cells.length = intended.cells.length := by omega
  rw [expandRange, hcols]
  obtain ⟨hgrows, hbound, -⟩ := expandEnd_spec (expandStart previous intended range.1) length.ge (le_rfl) hstop
  exact ⟨expandStart_le _ _ _, hgrows, hbound⟩

theorem expandRange_between (length : previous.cells.length = intended.cells.length)
    {range : Nat × Nat} (hstop : range.2 ≤ intended.cells.length) {row : Row}
    (hrow : row = previous ∨ row = intended) (wellFormed : WellFormed row) :
    Between row (expandRange previous intended range).1 ∧
      Between row (expandRange previous intended range).2 := by
  have hcols : min previous.cells.length intended.cells.length = intended.cells.length := by omega
  rw [expandRange, hcols]
  obtain ⟨-, hbound, hbetween⟩ := expandEnd_spec (expandStart previous intended range.1) length.ge
    (le_rfl) hstop
  refine ⟨expandStart_between hrow wellFormed.between_zero range.1, ?_⟩
  have hlength : row.cells.length = intended.cells.length := by
    rcases hrow with rfl | rfl
    · exact length
    · rfl
  rcases lt_or_eq_of_le hbound with hlt | heq
  · obtain ⟨hprevious, hintended⟩ := hbetween hlt
    rcases hrow with rfl | rfl
    · exact hprevious
    · exact hintended
  · rw [heq, ← hlength]
    exact between_length row

variable {start stop : Nat}

theorem expandAndMerge_merged (length : previous.cells.length = intended.cells.length)
    (hstart : start ≤ stop) (hstop : stop ≤ intended.cells.length) :
    Ranges.Merged ((changedCellRanges previous intended start stop).map (expandRange previous intended))
      (expandAndMergeCellRanges (changedCellRanges previous intended start stop) previous intended) := by
  obtain ⟨hchanged, -⟩ := changedCellRanges_spec previous intended hstart
  refine Ranges.merge_spec fun range hmem => ?_
  obtain ⟨changed, hmem', rfl⟩ := mem_map.mp hmem
  obtain ⟨-, hproper, hend⟩ := hchanged changed hmem'
  obtain ⟨hleft, hright, -⟩ := expandRange_spec length (hend.trans hstop)
  omega

theorem emitted_range (length : previous.cells.length = intended.cells.length) (hstart : start ≤ stop)
    (hstop : stop ≤ intended.cells.length) {range : Nat × Nat}
    (hmem : range ∈ expandAndMergeCellRanges (changedCellRanges previous intended start stop) previous intended) :
    range.1 < range.2 ∧ range.2 ≤ intended.cells.length ∧
      ∀ row, (row = previous ∨ row = intended) → WellFormed row →
        Between row range.1 ∧ Between row range.2 := by
  obtain ⟨hchanged, -⟩ := changedCellRanges_spec previous intended hstart
  have hmerged := expandAndMerge_merged length hstart hstop
  obtain ⟨a, ha, hfirst⟩ := hmerged.starts range hmem
  obtain ⟨b, hb, hlast⟩ := hmerged.stops range hmem
  obtain ⟨changed, hmemA, rfl⟩ := mem_map.mp ha
  obtain ⟨changed', hmemB, rfl⟩ := mem_map.mp hb
  have hendA := (hchanged changed hmemA).2.2.trans hstop
  have hendB := (hchanged changed' hmemB).2.2.trans hstop
  refine ⟨hmerged.proper range hmem, ?_, fun row hrow wellFormed => ?_⟩
  · rw [hlast]
    exact (expandRange_spec length hendB).2.2
  · rw [hfirst, hlast]
    exact ⟨(expandRange_between length hendA hrow wellFormed).1,
      (expandRange_between length hendB hrow wellFormed).2⟩

/-- **What is emitted of a part of a row** covers all that changed in it. -/
theorem emitted_spec (hprevious : WellFormed previous) (hintended : WellFormed intended)
    (length : previous.cells.length = intended.cells.length) (hstart : start ≤ stop)
    (hstop : stop ≤ intended.cells.length) : Emitted previous intended
      (expandAndMergeCellRanges (changedCellRanges previous intended start stop) previous intended) ∧
    ∀ n, start ≤ n → n < stop →
      cellsPhysicallyMatch (cellOr previous.cells n) (cellOr intended.cells n) = false →
      Ranges.Covers (expandAndMergeCellRanges (changedCellRanges previous intended start stop)
        previous intended) n := by
  obtain ⟨hchanged, hcovers⟩ := changedCellRanges_spec previous intended hstart
  have hmerged := expandAndMerge_merged length hstart hstop
  have hrange := fun range hmem => @emitted_range previous intended start stop length hstart hstop range hmem
  refine ⟨⟨hmerged.separated, hmerged.proper, fun range hmem => (hrange range hmem).2.1,
    fun range hmem => ?_, fun range hmem => ?_⟩, fun n hle hlt hdiffer => ?_⟩
  · have hboth := (hrange range hmem).2.2
    exact ⟨(hboth previous (.inl rfl) hprevious).1, (hboth intended (.inr rfl) hintended).1⟩
  · have hboth := (hrange range hmem).2.2
    exact ⟨(hboth previous (.inl rfl) hprevious).2, (hboth intended (.inr rfl) hintended).2⟩
  · obtain ⟨changed, hmem, hfirst, hlast⟩ := hcovers n hle hlt hdiffer
    obtain ⟨hleft, hright, -⟩ := expandRange_spec length ((hchanged changed hmem).2.2.trans hstop)
    exact (hmerged.covers n).mpr ⟨_, mem_map_of_mem hmem, hleft.trans hfirst, hlast.trans_le hright⟩

end Emitted

end Lector.Presentation
