import Lector.Table.Entering
import Mathlib.Data.List.Dedup

/-! Tables without pipes (`src/table/detection.rs`): their columns are told by blanks, or set by hand. Whatever
detects it, a table is well formed. -/
namespace Lector.Table
open Scanning Terminal List
open Option hiding all_eq_false guard

/-! ## Rows -/

section Detection

variable (isAlphabetic : Char → Bool) (view : TerminalSnapshot) (row : Nat)

def rowIsFixedWidthContinuation : Bool :=
  !(rowIsBlank view row || rowHasFixedWidthColumns view row) &&
    (0 < row && rowHasFixedWidthColumns view (row - 1) ||
      row + 1 < view.size.1 && rowHasFixedWidthColumns view (row + 1))

def rowIsFixedWidthCandidate : Bool :=
  !rowIsBlank view row &&
    (isSeparatorRow view row || rowHasFixedWidthColumns view row || rowIsFixedWidthContinuation view row)

def rowIsManualTableRow : Bool :=
  !rowIsBlank view row &&
    (isSeparatorRow view row || rowHasFixedWidthColumns view row || rowIsFixedWidthContinuation view row ||
      (line view row).contains '|')

def nearestFixedWidthCandidate : Option Nat :=
  if view.size.1 = 0 then none
  else (List.range' 1 2).findSome? fun offset =>
    if offset ≤ row ∧ rowIsFixedWidthCandidate view (row - offset) then some (row - offset)
    else if row + offset < view.size.1 ∧ rowIsFixedWidthCandidate view (row + offset) then some (row + offset)
    else none

/-! ## Columns -/

def columnsFromStarts (cols : Nat) : List Nat → List Column
  | [] => []
  | start :: starts =>
    let stop := starts.head?.elim (cols - 1) (· - 1)
    (if start < cols ∧ start ≤ stop then [⟨start, stop⟩] else []) ++ columnsFromStarts cols starts

/-- `sort_unstable` and then `dedup`. -/
def distinct (starts : List Nat) : List Nat := (starts.insertionSort (· ≤ ·)).dedup

/-- Columns without contents are dropped, and one column is no table. -/
def retainColumns (top bottom : Nat) (columns : List Column) : Option (List Column) :=
  let columns := columns.filter fun col => columnHasContent view top bottom col.start col.stop
  if columns.length < 2 then none else some columns

variable (structuralRows : List Nat)

def blankCountAtCut (cut : Nat) : Nat := (structuralRows.filter fun row => !cellHasText view row cut).length

def betterCut (best : Option (Nat × Nat)) (cut : Nat) : Option (Nat × Nat) :=
  let blankRows := blankCountAtCut view structuralRows cut
  if blankRows * 3 < structuralRows.length * 2 then best
  else best.elim (some (blankRows, cut)) fun (bestBlankRows, bestCut) =>
    if bestBlankRows < blankRows ∨ blankRows = bestBlankRows ∧ bestCut < cut then some (blankRows, cut) else best

def supportedCutInGap (start stop : Nat) : Option Nat :=
  ((rowsBetween start stop).foldl (betterCut view structuralRows) none).map Prod.snd

/-- The cuts, whether text was seen, and where the gap starts that is open. -/
def headerCutAt (headerRow : Nat) (state : List Nat × Bool × Option Nat) (col : Nat) : List Nat × Bool × Option Nat :=
  let (cuts, seenText, gapStart) := state
  match gapStart, cellHasText view headerRow col with
  | some start, true => (cuts ++ (supportedCutInGap view structuralRows start (col - 1)).toList, true, none)
  | none, false => (cuts, seenText, if seenText then some col else none)
  | none, true => (cuts, true, none)
  | some start, false => (cuts, seenText, some start)

def supportedHeaderCuts (headerRow : Nat) : List Nat :=
  ((List.range view.size.2).foldl (headerCutAt view structuralRows headerRow) ([], false, none)).1

def chooseFixedWidthHeaderRow : Option Nat :=
  structuralRows.find? fun row => !isSeparatorRow view row && rowHasLetters isAlphabetic view row &&
    2 ≤ (supportedHeaderCuts view structuralRows row).length

def detectFixedWidthColumnsFromHeader (top bottom headerRow : Nat) : Option (List Column) :=
  let cuts := supportedHeaderCuts view structuralRows headerRow
  if cuts.isEmpty then none
  else retainColumns view top bottom (columnsFromStarts view.size.2 (distinct (0 :: cuts)))

/-- Two thirds of the rows, rounded up, where there are more than two. -/
def mostlyBlank (col : Nat) : Bool :=
  let rowCount := structuralRows.length
  (if rowCount ≤ 2 then rowCount else (rowCount * 2 + 2) / 3) ≤ blankCountAtCut view structuralRows col

def rowRangeIsBlank (row start stop : Nat) : Bool := (rowsBetween start stop).all fun col => !cellHasText view row col

/-- The loop over the columns from `col` on, with the column that is open. -/
def columnsFromBlanks (headerRow : Option Nat) (cols col : Nat) (start : Option Nat) : List Column :=
  if cols ≤ col then start.toList.map (⟨·, cols - 1⟩)
  else if mostlyBlank view structuralRows col then
    let runEnd := scanUp (fun c => mostlyBlank view structuralRows (c + 1)) (cols - 1) col
    if (if structuralRows.length ≤ 4 then 1 else 2) ≤ runEnd - col + 1 ∧
        headerRow.all (rowRangeIsBlank view · col runEnd) then
      start.toList.map (⟨·, col - 1⟩) ++ columnsFromBlanks headerRow cols (runEnd + 1) none
    else columnsFromBlanks headerRow cols (runEnd + 1) (start.or (some col))
  else columnsFromBlanks headerRow cols (col + 1) (start.or (some col))
termination_by cols - col
decreasing_by
  all_goals
    have hle := @le_scanUp (fun c => mostlyBlank view structuralRows (c + 1)) col (cols - 1)
    omega

def detectFixedWidthColumnsFromBlanks (top bottom : Nat) (headerRow : Option Nat) : Option (List Column) :=
  if structuralRows.isEmpty then none
  else retainColumns view top bottom (columnsFromBlanks view structuralRows headerRow view.size.2 0 none)

def detectFixedWidthColumns (top bottom : Nat) (headerRow : Option Nat) : Option (List Column) :=
  (headerRow.bind (detectFixedWidthColumnsFromHeader view structuralRows top bottom)).or
    (detectFixedWidthColumnsFromBlanks view structuralRows top bottom headerRow)

/-! ## Detection -/

def detectFixedWidthTable : Option TableModel := do
  guard (view.size.1 ≠ 0 ∧ view.size.2 ≠ 0)
  let anchor ← (if rowIsFixedWidthCandidate view row then some row else nearestFixedWidthCandidate view row)
  let top := scanDown (fun top => rowIsFixedWidthCandidate view (top - 1)) anchor
  let bottom := scanUp (fun bottom => rowIsFixedWidthCandidate view (bottom + 1)) (view.size.1 - 1) anchor
  let structuralRows := (rowsBetween top bottom).filter fun candidate =>
    !isSeparatorRow view candidate && rowHasFixedWidthColumns view candidate
  guard (2 ≤ structuralRows.length)
  let headerHint := (chooseFixedWidthHeaderRow isAlphabetic view structuralRows).or
    ((rowsBetween top bottom).find? fun candidate =>
      !isSeparatorRow view candidate && rowHasLetters isAlphabetic view candidate)
  let columns ← detectFixedWidthColumns view structuralRows top bottom headerHint
  let columns ← retainColumns view top bottom columns
  some ⟨top, bottom, columns, detectHeaderRow isAlphabetic view top bottom columns none, none⟩

def detect : Option TableModel :=
  (detectPipeTable isAlphabetic view row).or (detectFixedWidthTable isAlphabetic view row)

def detectManualFromHeader (headerRow : Nat) (tabstops : List Nat) : Option TableModel := do
  guard (view.size.1 ≠ 0 ∧ view.size.2 ≠ 0 ∧ headerRow < view.size.1)
  let starts := distinct (0 :: tabstops.filter fun stop => 0 < stop && stop < view.size.2)
  let columns := columnsFromStarts view.size.2 starts
  guard (2 ≤ columns.length)
  let top := scanDown (fun top => rowIsManualTableRow view (top - 1)) headerRow
  let bottom := scanUp (fun bottom => rowIsManualTableRow view (bottom + 1)) (view.size.1 - 1) headerRow
  let columns ← retainColumns view top bottom columns
  some ⟨top, bottom, columns, some headerRow, none⟩

end Detection

namespace TableModel

variable (self : TableModel) (view : TerminalSnapshot)

def prevDataRow (row : Nat) : Option Nat :=
  (List.range' self.top (row - self.top)).reverse.find? fun candidate => !self.isSkippableRow view candidate

def nextDataRow (row : Nat) : Option Nat :=
  (rowsBetween (row + 1) self.bottom).find? fun candidate => !self.isSkippableRow view candidate

structure WellFormed : Prop where
  rows : self.top ≤ self.bottom ∧ self.bottom < view.size.1
  header : ∀ row ∈ self.headerRow, self.top ≤ row ∧ row ≤ self.bottom
  enough : 2 ≤ self.columns.length
  sorted : self.columns.Pairwise fun a b => a.stop < b.start
  inside : ∀ column ∈ self.columns, column.start ≤ column.stop ∧ column.stop < view.size.2

end TableModel

/-! ## Columns in order -/

/-- Columns from `lo` on, in order and apart, on a screen of this width. -/
structure Ordered (width lo : Nat) (columns : List Column) : Prop where
  sorted : columns.Pairwise fun a b => a.stop < b.start
  inside : ∀ column ∈ columns, lo ≤ column.start ∧ column.start ≤ column.stop ∧ column.stop < width

section Columns

variable {view : TerminalSnapshot} {structuralRows : List Nat} {width lo lo' start stop : Nat}
  {columns : List Column}

theorem Ordered.nil : Ordered width lo [] := ⟨.nil, fun _ h => absurd h not_mem_nil⟩

theorem Ordered.mono (h : Ordered width lo columns) (hle : lo' ≤ lo) : Ordered width lo' columns :=
  ⟨h.sorted, fun column hmem => (h.inside column hmem).imp_left hle.trans⟩

theorem Ordered.cons (h : Ordered width (stop + 1) columns) (hlo : lo ≤ start) (hle : start ≤ stop)
    (hlt : stop < width) : Ordered width lo (⟨start, stop⟩ :: columns) where
  sorted := pairwise_cons.mpr ⟨fun column hmem => (h.inside column hmem).1, h.sorted⟩
  inside column hmem := by
    obtain rfl | hmem := mem_cons.mp hmem
    · exact ⟨hlo, hle, hlt⟩
    · exact (h.mono (by omega)).inside column hmem

theorem ordered_positions (positions : List Nat) (hpositions : positions.Pairwise (· < ·))
    (hbounds : ∀ position ∈ positions, start ≤ position ∧ position < width) (hwidth : 0 < width) :
    Ordered width start (columnsFromDelimiterPositions (width - 1) start positions) := by
  induction positions generalizing start with
  | nil =>
    rw [columnsFromDelimiterPositions]
    split
    · exact Ordered.nil.cons (le_rfl) ‹_› (by omega)
    · exact Ordered.nil
  | cons position positions ih =>
    obtain ⟨hfirst, hrest⟩ := pairwise_cons.mp hpositions
    obtain ⟨hstart, hlt⟩ := hbounds position mem_cons_self
    have hmore := ih hrest fun p hp => ⟨hfirst p hp, (hbounds p (mem_cons_of_mem _ hp)).2⟩
    rw [columnsFromDelimiterPositions]
    split
    · exact (hmore.mono (by omega)).cons (le_rfl) (by omega) (by omega)
    · exact hmore.mono (by omega)

theorem ordered_starts (starts : List Nat) (hstarts : starts.Pairwise (· < ·))
    (hbounds : ∀ start ∈ starts, lo ≤ start ∧ start < width) : Ordered width lo (columnsFromStarts width starts) := by
  induction starts generalizing lo with
  | nil => exact Ordered.nil
  | cons start starts ih =>
    obtain ⟨hfirst, hrest⟩ := pairwise_cons.mp hstarts
    obtain ⟨hlo, hlt⟩ := hbounds start mem_cons_self
    rw [columnsFromStarts]
    have hstop : start ≤ starts.head?.elim (width - 1) (· - 1) ∧ starts.head?.elim (width - 1) (· - 1) < width ∧
        ∀ p ∈ starts, starts.head?.elim (width - 1) (· - 1) < p ∧ p < width := by
      cases starts with
      | nil => exact ⟨Nat.le_sub_one_of_lt hlt, Nat.sub_one_lt_of_lt hlt, forall_mem_nil _⟩
      | cons next starts =>
        have hnext := hfirst next mem_cons_self
        have hwidth := (hbounds next (mem_cons_of_mem _ mem_cons_self)).2
        refine ⟨Nat.le_sub_one_of_lt hnext, (Nat.sub_one_lt_of_lt hnext).trans hwidth, fun p hp => ?_⟩
        refine ⟨?_, (hbounds p (mem_cons_of_mem _ hp)).2⟩
        obtain rfl | hp := mem_cons.mp hp
        · exact Nat.sub_one_lt_of_lt hnext
        · exact (Nat.sub_one_lt_of_lt hnext).trans ((pairwise_cons.mp hrest).1 p hp)
    obtain ⟨hle, hin, hmore⟩ := hstop
    rw [if_pos ⟨hlt, hle⟩]
    exact (ih hrest hmore).cons hlo hle hin

theorem distinct_sorted (starts : List Nat) : (distinct starts).Pairwise (· < ·) := by
  have hle := (pairwise_insertionSort (· ≤ ·) starts).sublist (dedup_sublist _)
  exact (hle.and (nodup_dedup _)).imp fun h => lt_of_le_of_ne h.1 h.2

theorem mem_distinct {starts : List Nat} : start ∈ distinct starts ↔ start ∈ starts := by
  rw [distinct, mem_dedup, mem_insertionSort]

theorem mem_rowsBetween {row top bottom : Nat} (h : row ∈ rowsBetween top bottom) : top ≤ row ∧ row ≤ bottom := by
  have hbounds := mem_range'_1.mp h
  omega

theorem betterCut_mem {cuts : List Nat} {best : Option (Nat × Nat)}
    (hbest : ∀ cut ∈ best.map Prod.snd, start ≤ cut ∧ cut ≤ stop) (hcuts : ∀ cut ∈ cuts, start ≤ cut ∧ cut ≤ stop) :
    ∀ cut ∈ (cuts.foldl (betterCut view structuralRows) best).map Prod.snd, start ≤ cut ∧ cut ≤ stop := by
  induction cuts generalizing best with
  | nil => exact hbest
  | cons cut cuts ih =>
    refine ih (fun other hother => ?_) fun other hmem => hcuts other (mem_cons_of_mem _ hmem)
    have hcut := hcuts cut mem_cons_self
    unfold betterCut at hother
    dsimp only at hother
    split at hother
    · exact hbest other hother
    · cases best with
      | none =>
        cases hother
        exact hcut
      | some best =>
        simp only [Option.elim] at hother
        split at hother
        · cases hother
          exact hcut
        · exact hbest other hother

theorem headerCuts_lt {headerRow : Nat} {cols : List Nat} {state : List Nat × Bool × Option Nat}
    (hstate : ∀ cut ∈ state.1, cut < width) (hcols : ∀ col ∈ cols, col < width) :
    ∀ cut ∈ (cols.foldl (headerCutAt view structuralRows headerRow) state).1, cut < width := by
  induction cols generalizing state with
  | nil => exact hstate
  | cons col cols ih =>
    refine ih (fun cut hcut => ?_) fun other hmem => hcols other (mem_cons_of_mem _ hmem)
    have hcol := hcols col mem_cons_self
    unfold headerCutAt at hcut
    dsimp only at hcut
    split at hcut
    · obtain hcut | hcut := mem_append.mp hcut
      · exact hstate cut hcut
      · have hgap := betterCut_mem (fun _ h => absurd h (not_mem_none _)) (fun _ => mem_rowsBetween) cut
          (mem_toList.mp hcut)
        omega
    all_goals exact hstate cut hcut

theorem ordered_blanks (headerRow : Option Nat) (col : Nat) (open_ : Option Nat)
    (hopen : ∀ s ∈ open_, s < col ∧ s < width) :
    Ordered width (open_.getD col) (columnsFromBlanks view structuralRows headerRow width col open_) := by
  fun_induction columnsFromBlanks view structuralRows headerRow width col open_ with
  | case1 col open_ hend =>
    cases open_ with
    | none => exact Ordered.nil
    | some s =>
      have hs := hopen s rfl
      exact Ordered.nil.cons (le_rfl) (by omega) (by omega)
  | case2 col open_ hend hblank runEnd hgap ih =>
    have hrun : col ≤ runEnd := le_scanUp
    have hmore := ih fun _ h => nomatch h
    cases open_ with
    | none => exact hmore.mono (by simp only [getD_none]; omega)
    | some s =>
      have hs := hopen s rfl
      exact (hmore.mono (by simp only [getD_none]; omega)).cons (le_rfl) (by omega) (by omega)
  | case3 col open_ hend hblank runEnd hgap ih =>
    have hrun : col ≤ runEnd := le_scanUp
    cases open_ with
    | none => exact ih fun s hs => by obtain rfl := some.inj hs; omega
    | some s => exact ih fun s' hs => by have := hopen s' hs; omega
  | case4 col open_ hend hblank ih =>
    cases open_ with
    | none => exact ih fun s hs => by obtain rfl := some.inj hs; omega
    | some s => exact ih fun s' hs => by have := hopen s' hs; omega

theorem Ordered.retain {top bottom : Nat} {kept : List Column} (h : Ordered width 0 columns)
    (hkept : retainColumns view top bottom columns = some kept) : Ordered width 0 kept ∧ 2 ≤ kept.length := by
  unfold retainColumns at hkept
  dsimp only at hkept
  split at hkept
  · cases hkept
  · cases hkept
    exact ⟨⟨h.sorted.filter _, fun column hmem => h.inside column (mem_of_mem_filter hmem)⟩, by omega⟩

theorem ordered_distinct {starts : List Nat} (hwidth : 0 < width) (hstarts : ∀ start ∈ starts, start < width) :
    Ordered width 0 (columnsFromStarts width (distinct (0 :: starts))) := by
  refine ordered_starts _ (distinct_sorted _) fun start hmem => ⟨Nat.zero_le _, ?_⟩
  obtain rfl | hmem := mem_cons.mp (mem_distinct.mp hmem)
  · exact hwidth
  · exact hstarts start hmem

theorem ordered_fixedWidth {top bottom : Nat} {headerRow : Option Nat} (hwidth : 0 < view.size.2)
    (h : detectFixedWidthColumns view structuralRows top bottom headerRow = some columns) :
    Ordered view.size.2 0 columns := by
  obtain hheader | ⟨-, hblanks⟩ := or_eq_some_iff.mp h
  · obtain ⟨header, -, hheader⟩ := bind_eq_some_iff.mp hheader
    unfold detectFixedWidthColumnsFromHeader at hheader
    dsimp only at hheader
    split at hheader
    · cases hheader
    · refine ((ordered_distinct hwidth fun cut hcut => ?_).retain hheader).1
      exact headerCuts_lt (forall_mem_nil _) (fun _ => mem_range.mp) cut hcut
  · unfold detectFixedWidthColumnsFromBlanks at hblanks
    split at hblanks
    · cases hblanks
    · exact ((ordered_blanks headerRow 0 none fun _ h => nomatch h).retain hblanks).1

theorem ordered_pipes {top bottom headerRow : Nat} (h : detectPipeColumns view top bottom headerRow = some columns) :
    Ordered view.size.2 0 columns ∧ 2 ≤ columns.length := by
  unfold detectPipeColumns at h
  dsimp only at h
  split at h
  · cases h
  · next hsome =>
    have hlt : ∀ position ∈ delimiterPositions view headerRow '|', position < view.size.2 := fun position hmem =>
      mem_range.mp (mem_of_mem_filter hmem)
    obtain ⟨position, hmem⟩ := exists_mem_of_ne_nil _ (mt isEmpty_iff.mpr hsome)
    exact (ordered_positions _ (pairwise_lt_range.filter _) (fun p hp => ⟨Nat.zero_le _, hlt p hp⟩)
      (Nat.zero_lt_of_lt (hlt position hmem))).retain h

end Columns

/-! ## Rows in bounds -/

section Rows

variable {isAlphabetic : Char → Bool} {view : TerminalSnapshot} {row anchor n : Nat} {p : Nat → Bool}
  {model : TableModel}

theorem row_lt (hrows : view.rows.length < 2 ^ 16) (h : rowIsBlank view row = false) : row < view.size.1 := by
  obtain ⟨col, -, hcol⟩ := all_eq_false.mp h
  obtain ⟨cell, hcell, -⟩ := (any_eq_true _ _).mp (by simpa [cellHasText] using hcol)
  obtain ⟨cells, hcells, -⟩ := bind_eq_some_iff.mp hcell
  have hlt := (List.getElem?_eq_some_iff.mp hcells).1
  simp only [TerminalSnapshot.size, clampU16]
  omega

theorem near_passes
    (h : ((range' 1 n).findSome? fun offset => if offset ≤ row ∧ p (row - offset) then some (row - offset)
      else if row + offset < view.size.1 ∧ p (row + offset) then some (row + offset) else none) = some anchor) :
    p anchor = true := by
  obtain ⟨offset, -, hfound⟩ := exists_of_findSome?_eq_some h
  split at hfound
  · next hup =>
    cases hfound
    exact hup.2
  · split at hfound
    · next hdown =>
      cases hfound
      exact hdown.2
    · cases hfound

theorem nearestPipeRow_passes (h : nearestPipeRow view row = some anchor) : rowIsPipeTableRow view anchor = true := by
  unfold nearestPipeRow at h
  dsimp only at h
  split at h
  · cases h
  · split at h
    · next hhere =>
      cases h
      exact hhere
    · exact near_passes h

theorem nearestCandidate_passes (h : (if rowIsFixedWidthCandidate view row then some row
      else nearestFixedWidthCandidate view row) = some anchor) : rowIsFixedWidthCandidate view anchor = true := by
  split at h
  · next hhere =>
    cases h
    exact hhere
  · unfold nearestFixedWidthCandidate at h
    split at h
    · cases h
    · exact near_passes h

theorem scanned (p : Nat → Bool) {rows : Nat} (h : anchor < rows) :
    (scanDown (fun top => p (top - 1)) anchor ≤ anchor ∧
      anchor ≤ scanUp (fun bottom => p (bottom + 1)) (rows - 1) anchor) ∧
      scanUp (fun bottom => p (bottom + 1)) (rows - 1) anchor < rows := by
  have hle := @scanUp_le (fun bottom => p (bottom + 1)) anchor (rows - 1) (by omega)
  exact ⟨⟨scanDown_le, le_scanUp⟩, by omega⟩

theorem detectHeaderRow_mem {top bottom : Nat} {columns : List Column} {delimiter : Option Char}
    (h : detectHeaderRow isAlphabetic view top bottom columns delimiter = some row) : top ≤ row ∧ row ≤ bottom := by
  unfold detectHeaderRow at h
  split at h
  · cases h
  · obtain hfound | ⟨-, hfound⟩ := or_eq_some_iff.mp h
    · obtain ⟨separator, hmem, hfound⟩ := exists_of_findSome?_eq_some hfound
      split at hfound
      · have hrow := mem_range'_1.mp (mem_reverse.mp (mem_of_find?_eq_some hfound))
        have hseparator := mem_rowsBetween hmem
        omega
      · cases hfound
    · exact mem_rowsBetween (mem_of_find?_eq_some hfound)

theorem wellFormed_pipes (hrows : view.rows.length < 2 ^ 16) (h : detectPipeTable isAlphabetic view row = some model) :
    model.WellFormed view := by
  simp only [detectPipeTable, bind_eq_bind, bind_eq_some_iff, some.injEq] at h
  obtain ⟨anchor, hanchor, header, hheader, columns, hcolumns, rfl⟩ := h
  have hblank := (Bool.and_eq_true_iff.mp (nearestPipeRow_passes hanchor)).1
  have hscan := scanned (rowIsPipeTableRow view) (row_lt hrows (by simpa using hblank))
  obtain ⟨hordered, henough⟩ := ordered_pipes hcolumns
  refine ⟨⟨hscan.1.1.trans hscan.1.2, hscan.2⟩, fun row hrow => ?_, henough, hordered.sorted,
    fun column hmem => (hordered.inside column hmem).2⟩
  obtain hfound | ⟨-, hfound⟩ := or_eq_some_iff.mp hrow
  · exact detectHeaderRow_mem hfound
  · cases hfound
    exact mem_rowsBetween (mem_of_find?_eq_some hheader)

theorem wellFormed_fixedWidth (hrows : view.rows.length < 2 ^ 16)
    (h : detectFixedWidthTable isAlphabetic view row = some model) : model.WellFormed view := by
  simp only [detectFixedWidthTable, bind_eq_bind, bind_eq_some_iff, some.injEq,
    guard_eq_some', exists_const] at h
  obtain ⟨⟨-, hwidth⟩, anchor, hanchor, -, detected, hdetected, columns, hcolumns, rfl⟩ := h
  have hblank := (Bool.and_eq_true_iff.mp (nearestCandidate_passes hanchor)).1
  have hscan := scanned (rowIsFixedWidthCandidate view) (row_lt hrows (by simpa using hblank))
  obtain ⟨hordered, henough⟩ := (ordered_fixedWidth (pos_of_ne_zero hwidth) hdetected).retain hcolumns
  exact ⟨⟨hscan.1.1.trans hscan.1.2, hscan.2⟩, fun row hrow => detectHeaderRow_mem hrow, henough, hordered.sorted,
    fun column hmem => (hordered.inside column hmem).2⟩

theorem wellFormed_manual {headerRow : Nat} {tabstops : List Nat}
    (h : detectManualFromHeader view headerRow tabstops = some model) : model.WellFormed view := by
  simp only [detectManualFromHeader, bind_eq_bind, bind_eq_some_iff, some.injEq,
    guard_eq_some', exists_const] at h
  obtain ⟨⟨-, hwidth, hheader⟩, -, columns, hcolumns, rfl⟩ := h
  have hscan := scanned (rowIsManualTableRow view) hheader
  have htabstops : ∀ stop ∈ tabstops.filter fun stop => 0 < stop && stop < view.size.2, stop < view.size.2 := by
    intro stop hmem
    have hkept := (mem_filter.mp hmem).2
    simp only [Bool.and_eq_true, decide_eq_true_eq] at hkept
    exact hkept.2
  obtain ⟨hordered, henough⟩ := (ordered_distinct (pos_of_ne_zero hwidth) htabstops).retain hcolumns
  refine ⟨⟨hscan.1.1.trans hscan.1.2, hscan.2⟩, fun row hrow => ?_, henough, hordered.sorted,
    fun column hmem => (hordered.inside column hmem).2⟩
  cases hrow
  exact hscan.1

end Rows

/-! ## Moving between rows -/

/-- The place that comes first in the order `R`, where there is one. -/
def Chooses (R : Nat → Nat → Prop) (places : Set Nat) : Option Nat → Prop
  | some m => m ∈ places ∧ ∀ k ∈ places, R m k
  | none => places = ∅

theorem chooses_find {R : Nat → Nat → Prop} {places : Set Nat} {items : List Nat} {p : Nat → Bool}
    (hrefl : ∀ m, R m m) (hsorted : items.Pairwise R) (hmem : ∀ k, k ∈ places ↔ k ∈ items ∧ p k = true) :
    Chooses R places (items.find? p) := by
  cases hfound : items.find? p with
  | none =>
    refine Set.eq_empty_iff_forall_notMem.mpr fun k hk => ?_
    exact find?_eq_none.mp hfound k ((hmem k).mp hk).1 ((hmem k).mp hk).2
  | some m =>
    refine ⟨(hmem m).mpr ⟨mem_of_find?_eq_some hfound, find?_some hfound⟩, fun k hk => ?_⟩
    obtain ⟨hin, hpass⟩ := (hmem k).mp hk
    obtain ⟨-, before, after, rfl, hbefore⟩ := find?_eq_some_iff_append.mp hfound
    obtain hin | hin := mem_append.mp hin
    · have hnot := hbefore k hin
      rw [hpass] at hnot
      cases hnot
    · obtain rfl | hin := mem_cons.mp hin
      · exact hrefl k
      · exact (pairwise_cons.mp (pairwise_append.mp hsorted).2.1).1 k hin

namespace TableModel

variable {self : TableModel} {view : TerminalSnapshot} {row : Nat}

theorem nextDataRow_spec (htop : self.top ≤ row) :
    Chooses (· ≤ ·) {k ∈ self.dataRows view | row < k} (self.nextDataRow view row) := by
  refine chooses_find le_refl pairwise_le_range' fun k => ?_
  rw [rowsBetween, mem_range'_1, Bool.not_eq_true']
  constructor
  · rintro ⟨⟨-, hle, hskip⟩, hlt⟩
    exact ⟨by omega, hskip⟩
  · rintro ⟨hbounds, hskip⟩
    exact ⟨⟨by omega, by omega, hskip⟩, by omega⟩

theorem prevDataRow_spec (hbottom : row ≤ self.bottom) :
    Chooses (· ≥ ·) {k ∈ self.dataRows view | k < row} (self.prevDataRow view row) := by
  refine chooses_find le_refl (pairwise_reverse.mpr pairwise_le_range') fun k => ?_
  rw [mem_reverse, mem_range'_1, Bool.not_eq_true']
  constructor
  · rintro ⟨⟨htop, -, hskip⟩, hlt⟩
    exact ⟨by omega, hskip⟩
  · rintro ⟨hbounds, hskip⟩
    exact ⟨⟨by omega, by omega, hskip⟩, by omega⟩

/-- **Every table that is detected, automatically or by hand, is well formed**, and from each of its rows the next
one up or down is the nearest that is not skipped. -/
theorem detected_wellFormed (isAlphabetic : Char → Bool) (view : TerminalSnapshot) (hrows : view.rows.length < 2 ^ 16)
    (model : TableModel) (hdetected : (∃ row, detect isAlphabetic view row = some model) ∨
      ∃ headerRow tabstops, detectManualFromHeader view headerRow tabstops = some model) :
    model.WellFormed view ∧ ∀ row, model.top ≤ row → row ≤ model.bottom →
      Chooses (· ≤ ·) {k ∈ model.dataRows view | row < k} (model.nextDataRow view row) ∧
      Chooses (· ≥ ·) {k ∈ model.dataRows view | k < row} (model.prevDataRow view row) := by
  refine ⟨?_, fun row htop hbottom => ⟨nextDataRow_spec htop, prevDataRow_spec hbottom⟩⟩
  obtain ⟨row, hdetected⟩ | ⟨headerRow, tabstops, hmanual⟩ := hdetected
  · obtain hpipes | ⟨-, hfixed⟩ := or_eq_some_iff.mp hdetected
    · exact wellFormed_pipes hrows hpipes
    · exact wellFormed_fixedWidth hrows hfixed
  · exact wellFormed_manual hmanual

def blanks : TerminalSnapshot := tableView ["id  name", "1   ada "]

theorem detected_wellFormed_blanks : (⟨0, 1, [⟨0, 2⟩, ⟨3, 7⟩], some 0, none⟩ : TableModel).WellFormed blanks ∧
      (⟨0, 1, [⟨0, 3⟩, ⟨4, 7⟩], some 0, none⟩ : TableModel).WellFormed blanks :=
  ⟨(detected_wellFormed Char.isAlpha blanks (by decide) _ (.inl ⟨0, by decide⟩)).1,
    (detected_wellFormed Char.isAlpha blanks (by decide) _ (.inr ⟨0, [4], by decide⟩)).1⟩

end TableModel
end Lector.Table
