import Lector.Review.Document

/-! Rows, logical lines and the positions of a review document. -/
namespace Lector.Review
open Scanning Terminal
open List hiding min

namespace ReviewDocument

/-- A column of a row that is not the second half of a wide glyph. -/
structure Addressable (document : ReviewDocument) (position : HistoryPosition) : Prop where
  row : position.row < document.rowCount
  col : position.col ≤ document.lineLastCol position.row
  glyph : document.continuation position.row position.col = false

variable {self : ReviewDocument}

/-! ## Rows -/

theorem used_concat (cells : List Cell) (cell : Cell) : Row.used (cells ++ [cell]) =
      if cell.text ≠ "" || cell.wideContinuation then cells.length + 1 else Row.used cells := by
  rw [Row.used, zipIdx_append, zipIdx_singleton, foldl_concat, zero_add]
  rfl

variable {col row other index : Nat}

theorem lt_used {cells : List Cell} {cell : Cell} (h : cells[col]? = some cell) (htext : cell.text ≠ "") :
    col < Row.used cells := by
  induction cells using reverseRecOn with
  | nil => cases h
  | append_singleton cells last ih =>
    rw [used_concat]
    obtain hlt | heq := lt_or_ge col cells.length
    · rw [getElem?_append_left hlt] at h
      have hused := ih h
      split <;> omega
    · have hcol := (List.getElem?_eq_some_iff.mp h).1
      rw [length_append, length_singleton] at hcol
      obtain rfl : col = cells.length := by omega
      rw [getElem?_append_right (le_rfl), Nat.sub_self] at h
      cases h
      simp [htext]

theorem lt_stop {row : Row} {cell : Cell} (h : row.cells[col]? = some cell) (htext : cell.text ≠ "") :
    col < row.stop := by
  unfold Row.stop
  split
  · exact (List.getElem?_eq_some_iff.mp h).1
  · exact lt_used h htext

/-! ## Logical lines -/

theorem wrapped_of_line (hrow : row < self.rowCount) (hstart : (self.logicalLineRange row).1 ≤ other)
    (hstop : other + 1 < (self.logicalLineRange row).2) : self.wrapped other = true := by
  simp only [logicalLineRange] at hstart hstop
  by_cases hother : other < row
  · exact @of_scanDown_lt (fun start => self.wrapped (start - 1)) (min row (self.rowCount - 1)) (other + 1)
      (by omega) (by omega)
  · exact @of_lt_scanUp (fun stop => self.wrapped (stop - 1)) (min (row + 1) self.rowCount) (other + 1)
      self.rowCount (by omega) hstop

theorem line_contains (hrow : row < self.rowCount) :
    (self.logicalLineRange row).1 ≤ row ∧ row < (self.logicalLineRange row).2 := by
  simp only [logicalLineRange]
  have hstart := @scanDown_le (fun start => self.wrapped (start - 1)) (min row (self.rowCount - 1))
  have hstop := @le_scanUp (fun stop => self.wrapped (stop - 1)) (min (row + 1) self.rowCount) self.rowCount
  omega

theorem line_stop_le (hrow : row < self.rowCount) : (self.logicalLineRange row).2 ≤ self.rowCount :=
  scanUp_le (by omega)

/-! ## Positions -/

theorem continuation_of_row {source : Row} (h : self.rows[row]? = some source) (col : Nat) :
    self.continuation row col = source.continuation col := by
  rw [continuation, cell, h]
  rfl

variable {position : HistoryPosition}

/-- **The positions of the text are the addressable positions.** -/
theorem mem_positions : position ∈ self.positions ↔ self.Addressable position := by
  simp only [positions, mem_flatMap, rowPositions, mem_map, mem_filter, mem_range,
    Prod.exists, mem_zipIdx_iff_getElem?, Bool.not_eq_eq_eq_not]
  constructor
  · rintro ⟨source, row, hrow, col, ⟨hcol, hglyph⟩, rfl⟩
    refine ⟨(List.getElem?_eq_some_iff.mp hrow).1, ?_, ?_⟩
    · simp only [lineLastCol, stop, hrow, Option.elim_some]
      omega
    · rw [continuation_of_row hrow]
      exact hglyph
  · intro h
    obtain ⟨row, col⟩ := position
    have hrow := getElem?_eq_getElem h.row
    refine ⟨_, row, hrow, col, ⟨?_, ?_⟩, rfl⟩
    · have hcol := h.col
      simp only [lineLastCol, stop, hrow, Option.elim_some] at hcol
      dsimp only at hcol ⊢
      omega
    · rw [← continuation_of_row hrow]
      exact h.glyph

theorem addressable_of_getElem? (h : self.positions[index]? = some position) : self.Addressable position :=
  mem_positions.mp (mem_of_getElem? h)

theorem getElem?_positionAt (h : index < self.positions.length) :
    self.positions[index]? = some (self.positionAt index) := by
  rw [positionAt, getD_eq_getElem?_getD, getElem?_eq_getElem h, Option.getD_some]

theorem addressable_positionAt (h : index < self.positions.length) : self.Addressable (self.positionAt index) :=
  addressable_of_getElem? (getElem?_positionAt h)

theorem lt_of_idxOf? (h : self.positions.idxOf? position = some index) : index < self.positions.length :=
  (findIdx?_eq_some_iff_getElem.mp h).1

/-! ### Order -/

theorem zipIdx_sorted {α : Type} (items : List α) : items.zipIdx.Pairwise fun a b => a.2 < b.2 := by
  have hindices : (range' 0 items.length).Pairwise (· < ·) := pairwise_lt_range'
  rw [← zipIdx_map_snd] at hindices
  exact pairwise_map.mp hindices

theorem rowPositions_sorted (index : Nat) (row : Row) :
    (rowPositions index row).Pairwise fun a b => a.lt b = true := by
  apply pairwise_map.mpr
  apply (pairwise_lt_range.filter _).imp
  intro a b hab
  exact lt_iff.mpr (.inr ⟨rfl, hab⟩)

theorem row_of_mem_rowPositions {row : Row} (h : position ∈ rowPositions index row) : position.row = index := by
  obtain ⟨-, -, rfl⟩ := mem_map.mp h
  rfl

/-- **The positions stand in the order of the document.** -/
theorem positions_sorted : self.positions.Pairwise fun a b => a.lt b = true := by
  apply pairwise_flatMap.mpr
  constructor
  · intro row _
    exact rowPositions_sorted row.2 row.1
  · apply (zipIdx_sorted self.rows).imp
    intro a b hab position hposition other hother
    rw [lt_iff, row_of_mem_rowPositions hposition, row_of_mem_rowPositions hother]
    exact .inl hab

theorem positions_nodup : self.positions.Nodup := by
  apply positions_sorted.imp
  rintro a b hlt rfl
  rw [lt_iff] at hlt
  omega

theorem idxOf?_eq_some_iff :
    self.positions.idxOf? position = some index ↔ self.positions[index]? = some position := by
  constructor
  · intro h
    obtain ⟨hlt, hsame, -⟩ := findIdx?_eq_some_iff_getElem.mp h
    rw [getElem?_eq_getElem hlt, beq_iff_eq.mp hsame]
  · intro h
    obtain ⟨hlt, rfl⟩ := List.getElem?_eq_some_iff.mp h
    refine findIdx?_eq_some_iff_getElem.mpr ⟨hlt, beq_self_eq_true _, ?_⟩
    intro j hj
    have hne := pairwise_iff_getElem.mp positions_nodup j index (by omega) hlt hj
    simpa using hne

theorem positionAt_inj (h : index < self.positions.length) (h' : other < self.positions.length)
    (heq : self.positionAt index = self.positionAt other) : index = other := by
  have hindex := idxOf?_eq_some_iff.mpr (getElem?_positionAt h)
  have hother := idxOf?_eq_some_iff.mpr (getElem?_positionAt h')
  rw [heq, hother] at hindex
  exact (Option.some.inj hindex).symm

end ReviewDocument
end Lector.Review
