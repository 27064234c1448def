import Lector.Foundations.Trimming
import Lector.Review.Positions

/-! What a yank within one logical line keeps: every glyph of the range in order, unless the text of the range
ends in a space at a border between two rows. -/
namespace Lector.Review
open Terminal Trimming Bool
open List hiding min

namespace ReviewDocument

/-! ## The text of a range -/

section Spec

variable (self : ReviewDocument)

/-- The position is in the logical line of the other one. -/
structure SameLine (document : ReviewDocument) (first last : HistoryPosition) : Prop where
  row : first.row < document.rowCount
  low : (document.logicalLineRange first.row).1 ≤ last.row
  high : last.row < (document.logicalLineRange first.row).2

def glyphsBetween (first last : HistoryPosition) : List (String × HistoryPosition) :=
  (self.rows.zipIdx.flatMap fun row => rowGlyphs row.2 row.1).filter fun glyph =>
    !glyph.2.lt first && !last.lt glyph.2

def rangeText (first last : HistoryPosition) : List Char :=
  (self.glyphsBetween first last).flatMap fun glyph => glyph.1.toList

def textThrough (first : HistoryPosition) (row : Nat) : List Char := self.rangeText first ⟨row, self.stop row⟩

end Spec

variable {self : ReviewDocument} {first last : HistoryPosition}

/-! ## Logical lines -/

theorem orderedEnds_cases (first last : HistoryPosition) :
    orderedEnds first last = (last, first) ∧ last.row ≤ first.row ∨
      orderedEnds first last = (first, last) ∧ first.row ≤ last.row := by
  unfold orderedEnds
  cases hswap : last.lt first with
  | true =>
    rw [lt_iff] at hswap
    exact .inl ⟨rfl, by omega⟩
  | false =>
    rw [not_lt_iff] at hswap
    exact .inr ⟨rfl, by omega⟩

theorem SameLine.ordered (h : self.SameLine first last) :
    (orderedEnds first last).1.row ≤ (orderedEnds first last).2.row ∧
      (orderedEnds first last).2.row < self.rowCount ∧
      ∀ row, (orderedEnds first last).1.row ≤ row → row < (orderedEnds first last).2.row →
        self.wrapped row = true := by
  have hfirst := line_contains h.row
  have hcount := line_stop_le h.row
  have hlow := h.low
  have hhigh := h.high
  have hwrapped : ∀ row, (self.logicalLineRange first.row).1 ≤ row →
      row + 1 < (self.logicalLineRange first.row).2 → self.wrapped row = true := fun _ => wrapped_of_line h.row
  obtain ⟨hends, hrows⟩ | ⟨hends, hrows⟩ := orderedEnds_cases first last <;> rw [hends]
  · exact ⟨hrows, h.row, fun row hstart hstop => hwrapped row (by dsimp only at *; omega) (by dsimp only at *; omega)⟩
  · exact ⟨hrows, by dsimp only; omega,
      fun row hstart hstop => hwrapped row (by dsimp only at *; omega) (by dsimp only at *; omega)⟩

/-! ## Rows and columns of a range -/

theorem filter_zipIdx {α : Type} (items : List α) (k start stop : Nat) :
    (items.zipIdx k).filter (fun item => decide (start ≤ item.2) && decide (item.2 < stop)) =
      ((items.zipIdx k).take (stop - k)).drop (start - k) := by
  induction items generalizing k with
  | nil => simp
  | cons item items ih =>
    rw [zipIdx_cons, filter_cons, ih]
    by_cases hstop : k < stop
    · have htake : stop - k = stop - (k + 1) + 1 := by omega
      rw [htake]
      by_cases hstart : start ≤ k
      · have hrest : start - (k + 1) = 0 := by omega
        simp [hstart, hstop, hrest]
      · have hdrop : start - k = start - (k + 1) + 1 := by omega
        rw [hdrop]
        simp [hstart]
    · have htake : stop - k = 0 := by omega
      have hrest : stop - (k + 1) = 0 := by omega
      simp [hstop, htake, hrest]

theorem flatMap_filter {α β : Type} {f : α → List β} {items : List α} (keep : α → Bool)
    (h : ∀ item ∈ items, keep item = false → f item = []) : items.flatMap f = (items.filter keep).flatMap f := by
  induction items with
  | nil => rfl
  | cons item items ih =>
    have hrest := ih fun other hother => h other (mem_cons_of_mem _ hother)
    rw [filter_cons]
    split
    · rw [flatMap_cons, flatMap_cons, hrest]
    · next hdrop => rw [flatMap_cons, h item mem_cons_self (by simpa using hdrop), nil_append, hrest]

def slice (first last : HistoryPosition) (row : Row × Nat) : List Char :=
  rowSlice row.1 (if row.2 = first.row then first.col else 0) (if row.2 = last.row then last.col + 1 else row.1.stop)

theorem slice_eq {row : Row × Nat} (hfirst : first.row ≤ row.2) (hlast : row.2 ≤ last.row) :
    ((rowGlyphs row.2 row.1).filter fun glyph => !glyph.2.lt first && !last.lt glyph.2).flatMap
      (fun glyph => glyph.1.toList) = slice first last row := by
  obtain ⟨row, index⟩ := row
  have hcols : ∀ cell ∈ (row.cells.take row.stop).zipIdx,
      (!HistoryPosition.lt ⟨index, cell.2⟩ first && !last.lt ⟨index, cell.2⟩) =
        (decide ((if index = first.row then first.col else 0) ≤ cell.2) &&
          decide (cell.2 < if index = last.row then last.col + 1 else row.stop)) := by
    intro cell hcell
    have hlt := snd_lt_of_mem_zipIdx hcell
    rw [length_take] at hlt
    rw [Bool.eq_iff_iff]
    simp only [and_eq_true, not_eq_true', not_lt_iff, decide_eq_true_eq]
    split <;> split <;> omega
  have hrange := filter_congr hcols
  rw [filter_zipIdx] at hrange
  unfold rowGlyphs
  rw [filter_map, flatMap_map, filter_comm]
  simp only [Function.comp_def]
  rw [hrange, slice, rowSlice, ← take_take, ← zipIdx_map_fst 0 (row.cells.take row.stop),
    ← map_take, ← map_drop, filter_map, flatMap_map]
  rw [zipIdx_map_fst]
  rfl

theorem slice_outside {row : Row × Nat} (h : row.2 < first.row ∨ last.row < row.2) :
    ((rowGlyphs row.2 row.1).filter fun glyph => !glyph.2.lt first && !last.lt glyph.2) = [] := by
  apply filter_eq_nil_iff.mpr
  intro glyph hglyph
  obtain ⟨-, -, rfl⟩ := mem_map.mp hglyph
  simp only [and_eq_true, not_eq_true', not_lt_iff]
  omega

theorem rowsBetween_eq (first last : Nat) : self.rowsBetween first last =
      self.rows.zipIdx.filter fun row => decide (first ≤ row.2) && decide (row.2 < last + 1) := by
  rw [filter_zipIdx]
  rfl

theorem rangeText_eq (first last : HistoryPosition) :
    self.rangeText first last = (self.rowsBetween first.row last.row).flatMap (slice first last) := by
  unfold rangeText glyphsBetween
  rw [filter_flatMap, flatMap_assoc, rowsBetween_eq]
  rw [flatMap_filter fun row => decide (first.row ≤ row.2) && decide (row.2 < last.row + 1)]
  · apply flatMap_congr
    intro row hrow
    obtain ⟨-, hin⟩ := mem_filter.mp hrow
    simp only [and_eq_true, decide_eq_true_eq] at hin
    exact slice_eq hin.1 (by omega)
  · intro row hrow hout
    simp only [and_eq_false_iff, decide_eq_false_iff_not] at hout
    rw [slice_outside (by omega), flatMap_nil]

/-! ## Borders between rows -/

def rowsBefore (self : ReviewDocument) (first last : Nat) : List (Row × Nat) := (self.rows.zipIdx.take last).drop first

theorem rowsBetween_concat {a b : Nat} (hab : a ≤ b) (hb : b < self.rows.length) :
    self.rowsBetween a b = self.rowsBefore a b ++ [(self.rows[b], b)] := by
  have hlength : b < self.rows.zipIdx.length := by rwa [length_zipIdx]
  rw [rowsBetween, rowsBefore, take_succ_eq_append_getElem hlength, drop_append_of_le_length]
  · simp
  · rw [length_take]
    omega

theorem mem_rowsBefore {a b : Nat} {row : Row × Nat} (h : row ∈ self.rowsBefore a b) :
    self.rows[row.2]? = some row.1 ∧ a ≤ row.2 ∧ row.2 < b := by
  have hfilter := filter_zipIdx self.rows 0 a b
  rw [Nat.sub_zero, Nat.sub_zero] at hfilter
  rw [rowsBefore, ← hfilter, mem_filter] at h
  simp only [and_eq_true, decide_eq_true_eq] at h
  exact ⟨mem_zipIdx_iff_getElem?.mp h.1, h.2⟩

theorem rowSlice_stop (row : Row) (start : Nat) : rowSlice row start (row.stop + 1) = rowSlice row start row.stop := by
  have hmin : min (row.stop + 1) row.stop = min row.stop row.stop := by omega
  rw [rowSlice, rowSlice, hmin]

theorem textThrough_eq {row : Nat} (hlast : row < last.row) :
    self.textThrough first row = ((self.rowsBefore first.row (row + 1)).map (slice first last)).flatten := by
  rw [textThrough, rangeText_eq]
  apply flatMap_congr
  intro source hsource
  obtain ⟨hrow, -, hindex⟩ := mem_rowsBefore hsource
  dsimp only at hindex
  have hne : source.2 ≠ last.row := by omega
  unfold slice
  rw [if_neg hne]
  by_cases hend : source.2 = row
  · have hstop : self.stop row = source.1.stop := by rw [stop, ← hend, hrow, Option.elim_some]
    rw [if_pos hend, hstop, rowSlice_stop]
  · rw [if_neg hend]

theorem rangeText_after {row : Nat} (hfirst : first.row ≤ row) :
    self.rangeText ⟨row + 1, 0⟩ last =
      ((self.rowsBefore (row + 1) (last.row + 1)).map (slice first last)).flatten := by
  rw [rangeText_eq]
  apply flatMap_congr
  intro source hsource
  obtain ⟨-, hindex, -⟩ := mem_rowsBefore hsource
  dsimp only at hindex
  have hne : source.2 ≠ first.row := by omega
  unfold slice
  rw [if_neg hne, ite_self]

theorem cut_rows {a b : Nat} (hb : b ≤ self.rows.length) {f : Row × Nat → List Char} {before after : List (List Char)}
    (h : before ++ after = (self.rowsBefore a b).map f) :
    before = [] ∨ after = [] ∨ ∃ row, a ≤ row ∧ row + 1 < b ∧ before = (self.rowsBefore a (row + 1)).map f ∧
      after = (self.rowsBefore (row + 1) b).map f := by
  have hlength : ((self.rowsBefore a b).map f).length = b - a := by
    rw [length_map, rowsBefore, length_drop, length_take, length_zipIdx]
    omega
  have hcut : before.length + after.length = b - a := by rw [← hlength, ← h, length_append]
  obtain hzero | hpos := eq_zero_or_pos before.length
  · exact .inl (length_eq_zero_iff.mp hzero)
  obtain hzero | hmore := eq_zero_or_pos after.length
  · exact .inr (.inl (length_eq_zero_iff.mp hzero))
  refine .inr (.inr ⟨a + before.length - 1, by omega, by omega, ?_, ?_⟩)
  · have hrow : a + before.length - 1 + 1 = min (a + before.length) b := by omega
    have hbefore : ((self.rowsBefore a b).map f).take before.length = before := by rw [← h, take_left]
    rw [hrow, rowsBefore, ← take_take, ← take_drop, map_take]
    exact hbefore.symm
  · have hrow : a + before.length - 1 + 1 = a + before.length := by omega
    have hafter : ((self.rowsBefore a b).map f).drop before.length = after := by rw [← h, drop_left]
    rw [hrow, rowsBefore, ← drop_drop, map_drop]
    exact hafter.symm

theorem rowsBefore_append {a row b : Nat} (ha : a ≤ row) (hb : row ≤ b) :
    self.rowsBefore a row ++ self.rowsBefore row b = self.rowsBefore a b := by
  have hrow : row = min row b := by omega
  unfold rowsBefore
  rw [hrow, ← take_take]
  rw [min_eq_left hb]
  have hsplit := take_append_drop (row - a) ((self.rows.zipIdx.take b).drop a)
  rw [take_drop, drop_drop, Nat.add_sub_cancel' ha] at hsplit
  exact hsplit

/-! ## Yanks -/

theorem endsIn_space {text : List Char} : EndsIn (fun ch => decide (ch = ' ')) text ↔ text.getLast? = some ' ' := by
  simp [EndsIn]

theorem yanked_inj {text text' : List Char} : yanked text = yanked text' ↔ text = text' := by
  constructor
  · intro h
    have hchars := congrArg (fun yank : Option String => yank.elim [] String.toList) h
    simp only [yanked] at hchars
    split at hchars <;> split at hchars <;> simp_all
  · rintro rfl
    rfl

theorem foldl_yankRow (linewise : Bool)
    (hwrapped : ∀ row, first.row ≤ row → row < last.row → self.wrapped row = true) :
    (self.rowsBefore first.row last.row).foldl (yankRow first last linewise) [] =
      joinTrimmed (fun ch => decide (ch = ' ')) ((self.rowsBefore first.row last.row).map (slice first last)) := by
  rw [joinTrimmed, foldl_map]
  apply foldl_ext
  intro text row hrow
  obtain ⟨hsource, hlow, hhigh⟩ := mem_rowsBefore hrow
  have hwrap := hwrapped row.2 hlow hhigh
  rw [wrapped, hsource, Option.any_some] at hwrap
  have hne : row.2 ≠ last.row := by omega
  simp [yankRow, slice, trimEnd, hwrap, hne]

theorem rangeText_pieces (first last : HistoryPosition) :
    self.rangeText first last = ((self.rowsBefore first.row (last.row + 1)).map (slice first last)).flatten := by
  rw [rangeText_eq]
  rfl

section Ordered

variable (hrows : first.row ≤ last.row) (hlast : last.row < self.rowCount)
  (hwrapped : ∀ row, first.row ≤ row → row < last.row → self.wrapped row = true)

include hrows hlast hwrapped

theorem foldl_characters :
    (self.rowsBetween first.row last.row).foldl (yankRow first last false) [] = self.rangeText first last ↔
      ∀ row, first.row ≤ row → row < last.row → (self.textThrough first row).getLast? ≠ some ' ' := by
  have hlines := rowsBetween_concat hrows hlast
  have hfold : ∀ text, yankRow first last false text (self.rows[last.row], last.row) =
      text ++ slice first last (self.rows[last.row], last.row) := by
    simp [yankRow, slice]
  rw [rangeText_eq, hlines, foldl_concat, foldl_yankRow false hwrapped, hfold, flatMap_append,
    flatMap_singleton, append_left_inj, flatMap_def, joinTrimmed_eq_flatten]
  constructor
  · intro h row hlow hhigh
    rw [textThrough_eq hhigh, ne_eq, ← endsIn_space]
    refine h _ ⟨(self.rowsBefore (row + 1) last.row).map (slice first last), ?_⟩
    rw [← map_append, rowsBefore_append (by omega) hhigh]
  · rintro h before ⟨after, hcut⟩
    have hall : before ++ (after ++ [slice first last (self.rows[last.row], last.row)]) =
        (self.rowsBefore first.row (last.row + 1)).map (slice first last) := by
      rw [← append_assoc, hcut]
      show _ = (self.rowsBetween first.row last.row).map _
      rw [hlines, map_append, map_singleton]
    obtain rfl | hnil | ⟨row, hlow, hhigh, rfl, -⟩ := cut_rows hlast hall
    · simp [EndsIn]
    · simp at hnil
    · rw [← textThrough_eq (by omega), endsIn_space]
      exact h row hlow (by omega)

theorem foldl_lines : (self.rowsBetween first.row last.row).foldl (yankRow first last true) [] =
        trimEnd (self.rangeText first last) ↔
      ∀ row, first.row ≤ row → row < last.row → (self.textThrough first row).getLast? ≠ some ' ' ∨
          ∀ ch ∈ self.rangeText ⟨row + 1, 0⟩ last, ch = ' ' := by
  have hlines := rowsBetween_concat hrows hlast
  have hfold : (self.rowsBetween first.row last.row).foldl (yankRow first last true) [] =
      joinTrimmed (fun ch => decide (ch = ' '))
        ((self.rowsBefore first.row (last.row + 1)).map (slice first last)) := by
    show _ = joinTrimmed _ ((self.rowsBetween first.row last.row).map _)
    rw [hlines, foldl_concat, foldl_yankRow true hwrapped, map_append, map_singleton, joinTrimmed_concat]
    simp [yankRow, slice, trimEnd]
  rw [hfold, rangeText_pieces, trimEnd, joinTrimmed_eq_rdropWhile]
  constructor
  · intro h row hlow hhigh
    rw [textThrough_eq hhigh, ne_eq, ← endsIn_space, rangeText_after hlow]
    have hsplit : self.rowsBefore first.row (row + 1) ++ self.rowsBefore (row + 1) (last.row + 1) =
        self.rowsBefore first.row (last.row + 1) := rowsBefore_append (by omega) (by omega)
    have hcut := h ((self.rowsBefore first.row (row + 1)).map (slice first last))
      ((self.rowsBefore (row + 1) (last.row + 1)).map (slice first last)) (by rw [← map_append, hsplit])
    simpa using hcut
  · intro h before after hcut
    obtain rfl | rfl | ⟨row, hlow, hhigh, rfl, rfl⟩ := cut_rows hlast hcut
    · exact .inl (by simp [EndsIn])
    · exact .inr (by simp)
    · rw [← textThrough_eq (by omega), ← rangeText_after hlow, endsIn_space]
      simpa using h row hlow (by omega)

end Ordered

/-- **A yank within a logical line is the text of the range exactly when** at no border between two
rows the text so far ends in a space; a yank of whole rows, exactly when only spaces follow such a
border. -/
theorem yankRange_eq_iff (h : self.SameLine first last) :
    let ends := orderedEnds first last
    let whole : HistoryPosition × HistoryPosition :=
      (⟨ends.1.row, 0⟩, ⟨ends.2.row, self.lineLastCol ends.2.row⟩)
    (self.yankRange first last false = yanked (self.rangeText ends.1 ends.2) ↔
      ∀ row, ends.1.row ≤ row → row < ends.2.row → (self.textThrough ends.1 row).getLast? ≠ some ' ') ∧
    (self.yankRange first last true = yanked (trimEnd (self.rangeText whole.1 whole.2) ++ ['\n']) ↔
      ∀ row, ends.1.row ≤ row → row < ends.2.row → (self.textThrough whole.1 row).getLast? ≠ some ' ' ∨
          ∀ ch ∈ self.rangeText ⟨row + 1, 0⟩ whole.2, ch = ' ') := by
  intro ends whole
  obtain ⟨hrows, hlast, hwrapped⟩ := h.ordered
  constructor
  · rw [← foldl_characters hrows hlast hwrapped]
    exact yanked_inj
  · rw [← @foldl_lines self whole.1 whole.2 hrows hlast hwrapped, ← append_left_inj ['\n']]
    exact yanked_inj

/-! ### A space at a wrap border -/

/-- The row `ab `, full and wrapped, and `c` after it. -/
def spacedBorder : ReviewDocument :=
  fromSnapshot (screenOf [printedRow "ab " true, printedRow "c" false]) [] 3 three_cols

theorem sameLine_spacedBorder : spacedBorder.SameLine ⟨0, 0⟩ ⟨1, 0⟩ := ⟨by decide, by decide, by decide⟩

theorem yankRange_eq_iff_first_row :
    let ends := orderedEnds ⟨0, 0⟩ ⟨0, 1⟩
    spacedBorder.yankRange ⟨0, 0⟩ ⟨0, 1⟩ false = yanked (spacedBorder.rangeText ends.1 ends.2) ↔
      ∀ row, ends.1.row ≤ row → row < ends.2.row → (spacedBorder.textThrough ends.1 row).getLast? ≠ some ' ' :=
  (@yankRange_eq_iff spacedBorder ⟨0, 0⟩ ⟨0, 1⟩ ⟨by decide, by decide, by decide⟩).1

/-- The space before the border is part of the range and not of the yank. -/
theorem yankRange_loses_space :
    spacedBorder.SameLine ⟨0, 0⟩ ⟨1, 0⟩ ∧ spacedBorder.rangeText ⟨0, 0⟩ ⟨1, 0⟩ = ['a', 'b', ' ', 'c'] ∧
      spacedBorder.yankRange ⟨0, 0⟩ ⟨1, 0⟩ false = some "abc" :=
  ⟨sameLine_spacedBorder, by decide, by decide⟩

end ReviewDocument
end Lector.Review
