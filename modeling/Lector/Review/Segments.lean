import Lector.Presentation.RowWriter
import Lector.Tmux.Queueing

/-! The words of a row as the review cursor moves over them (`src/ext/mod.rs`, `src/view.rs`): every word takes the
blanks after it, and the blanks in front of the first word are a segment too. -/
namespace Lector.Segments
open Terminal Presentation
open Option hiding le min
open List hiding min

/-! ## The searches -/

def isInWord (cell : Cell) : Bool := cell.grapheme ≠ "" && !cell.grapheme.toList.any Tmux.isWhitespace

section
variable (row : Row)

def last : Nat := row.cells.length - 1

def findCell (matcher : Cell → Bool) (colStart colEnd : Nat) : Option Nat :=
  (List.range' colStart (min colEnd (last row) + 1 - colStart)).find? fun col => row.cells[col]?.any matcher

def rfindCell (matcher : Cell → Bool) (colStart colEnd : Nat) : Option Nat :=
  (List.range' colStart (min colEnd (last row) + 1 - colStart)).reverse.find? fun col => row.cells[col]?.any matcher

variable (col : Nat)

def findWordStart : Nat :=
  let col := (rfindCell row isInWord 0 col).getD 0
  if col = 0 then col
  else ((rfindCell row (fun cell => !isInWord cell) 0 col).map (· + 1)).getD 0

def findWordEnd : Nat :=
  let col := (findCell row (fun cell => !isInWord cell) col (last row)).getD (last row)
  if col = last row then col
  else ((findCell row isInWord col (last row)).map (· - 1)).getD (last row)

def reviewCursorPrevWord : Bool × Nat :=
  let col := findWordStart row col
  if col = 0 then (false, 0) else (true, findWordStart row (col - 1))

def reviewCursorNextWord : Bool × Nat :=
  let stop := findWordEnd row col
  if last row ≤ stop then (false, col) else (true, stop + 1)

/-! ## Where segments start -/

def InWord : Prop := row.cells[col]?.any isInWord = true

def Starts : Prop := col = 0 ∨ InWord row col ∧ ¬ InWord row (col - 1)

structure IsStart (col start : Nat) : Prop where
  starts : Starts row start
  le : start ≤ col
  nearest : ∀ b, start < b → b ≤ col → ¬ Starts row b

structure IsEnd (col stop : Nat) : Prop where
  le : col ≤ stop
  inside : stop ≤ last row
  none : ∀ b, col < b → b ≤ stop → ¬ Starts row b
  next : stop < last row → Starts row (stop + 1)

end

section
variable {row : Row} {matcher : Cell → Bool} {col col' start first found : Nat}

theorem not_inWord_of_not (h : row.cells[col]?.any (fun cell => !isInWord cell) = true) : ¬ InWord row col := by
  intro hin
  rw [InWord] at hin
  cases hcell : row.cells[col]? <;> simp_all

theorem inWord_of_not (hcol : col < row.cells.length)
    (h : row.cells[col]?.any (fun cell => !isInWord cell) = false) : InWord row col := by
  rw [InWord]
  rw [getElem?_eq_getElem hcol] at h ⊢
  simpa using h

theorem findCell_some (h : findCell row matcher first (last row) = some found) :
    first ≤ found ∧ found ≤ last row ∧ row.cells[found]?.any matcher = true ∧
      ∀ b, first ≤ b → b < found → row.cells[b]?.any matcher = false := by
  rw [findCell, find?_range'_eq_some, mem_range'_1] at h
  obtain ⟨hfound, ⟨hle, hlt⟩, hfirst⟩ := h
  exact ⟨hle, by omega, hfound, fun b hb hb' => by simpa using hfirst b hb hb'⟩

theorem findCell_none (h : findCell row matcher first (last row) = none) :
    ∀ b, first ≤ b → b ≤ last row → row.cells[b]?.any matcher = false := by
  rw [findCell, find?_range'_eq_none] at h
  intro b hb hb'
  simpa using h b hb (by omega)

theorem find?_reverse_range {p : Nat → Bool} {n : Nat} : match (range' 0 n).reverse.find? p with
    | some found => found < n ∧ p found = true ∧ ∀ b, found < b → b < n → p b = false
    | none => ∀ b, b < n → p b = false := by
  induction n with
  | zero => exact fun b hb => absurd hb (Nat.not_lt_zero b)
  | succ n ih =>
    rw [range'_concat, reverse_concat, find?_cons, one_mul, zero_add]
    split
    · next found hfound =>
      split at hfound
      · next hp =>
        cases hfound
        exact ⟨Nat.lt_succ_self _, hp, fun b hb hb' => by omega⟩
      · next hp =>
        rw [hfound] at ih
        refine ⟨ih.1.trans (Nat.lt_succ_self n), ih.2.1, fun b hb hb' => ?_⟩
        obtain hlt | rfl := Nat.lt_succ_iff_lt_or_eq.mp hb'
        · exact ih.2.2 b hb hlt
        · exact hp
    · next hnone =>
      split at hnone
      · cases hnone
      · next hp =>
        rw [hnone] at ih
        intro b hb
        obtain hlt | rfl := Nat.lt_succ_iff_lt_or_eq.mp hb
        · exact ih b hlt
        · exact hp

theorem rfindCell_some (hcol : col ≤ last row) (h : rfindCell row matcher 0 col = some found) :
    found ≤ col ∧ row.cells[found]?.any matcher = true ∧
      ∀ b, found < b → b ≤ col → row.cells[b]?.any matcher = false := by
  have hspec := @find?_reverse_range (fun col => row.cells[col]?.any matcher) (col + 1)
  rw [rfindCell, min_eq_left hcol, Nat.sub_zero] at h
  rw [h] at hspec
  exact ⟨Nat.le_of_lt_succ hspec.1, hspec.2.1, fun b hb hb' => hspec.2.2 b hb (Nat.lt_succ_of_le hb')⟩

theorem rfindCell_none (hcol : col ≤ last row) (h : rfindCell row matcher 0 col = none) :
    ∀ b, b ≤ col → row.cells[b]?.any matcher = false := by
  have hspec := @find?_reverse_range (fun col => row.cells[col]?.any matcher) (col + 1)
  rw [rfindCell, min_eq_left hcol, Nat.sub_zero] at h
  rw [h] at hspec
  exact fun b hb => hspec b (Nat.lt_succ_of_le hb)

theorem not_starts_of_blank (hpos : 0 < col) (h : ¬ InWord row col) : ¬ Starts row col := by
  rintro (rfl | ⟨hin, -⟩)
  · exact absurd hpos (lt_irrefl 0)
  · exact h hin

theorem not_starts_of_inWord (hpos : 0 < col) (h : InWord row (col - 1)) : ¬ Starts row col := by
  rintro (rfl | ⟨-, hout⟩)
  · exact absurd hpos (lt_irrefl 0)
  · exact hout h

theorem isStart_findWordStart (hcol : col < row.cells.length) : IsStart row col (findWordStart row col) := by
  have hlast : col ≤ last row := Nat.le_sub_one_of_lt hcol
  rw [findWordStart]
  cases hword : rfindCell row isInWord 0 col with
  | none =>
    -- nothing but blanks up to the column
    have hblank := rfindCell_none hlast hword
    refine ⟨.inl rfl, Nat.zero_le _, fun b hb hb' => not_starts_of_blank hb ?_⟩
    exact Bool.eq_false_iff.mp (hblank b hb')
  | some word =>
    obtain ⟨hle, hin, hafter⟩ := rfindCell_some hlast hword
    have hblank : ∀ b, word < b → b ≤ col → ¬ Starts row b := fun b hb hb' =>
      not_starts_of_blank (Nat.zero_lt_of_lt hb) (Bool.eq_false_iff.mp (hafter b hb hb'))
    simp only [getD_some]
    split
    · next hzero =>
      subst hzero
      exact ⟨.inl rfl, Nat.zero_le _, hblank⟩
    · cases hout : rfindCell row (fun cell => !isInWord cell) 0 word with
      | none =>
        have hwords := rfindCell_none (hle.trans hlast) hout
        refine ⟨.inl rfl, Nat.zero_le _, fun b hb hb' => ?_⟩
        obtain hbehind | hbefore := lt_or_ge word b
        · exact hblank b hbehind hb'
        · exact not_starts_of_inWord hb (inWord_of_not (by omega) (hwords (b - 1) (by omega)))
      | some before =>
        obtain ⟨hbefore, hnot, hwords⟩ := rfindCell_some (hle.trans hlast) hout
        have hne : before ≠ word := by
          rintro rfl
          exact not_inWord_of_not hnot hin
        simp only [map_some, getD_some]
        refine ⟨.inr ⟨inWord_of_not (by omega) (hwords (before + 1) (by omega) (by omega)), ?_⟩, ?_,
          fun b hb hb' => ?_⟩
        · exact not_inWord_of_not hnot
        · exact (Nat.succ_le_of_lt (hbefore.lt_of_ne hne)).trans hle
        · obtain hbehind | hbefore := lt_or_ge word b
          · exact hblank b hbehind hb'
          · exact not_starts_of_inWord (by omega)
              (inWord_of_not (by omega) (hwords (b - 1) (by omega) (by omega)))

theorem isEnd_findWordEnd (hcol : col < row.cells.length) : IsEnd row col (findWordEnd row col) := by
  have hlast : col ≤ last row := Nat.le_sub_one_of_lt hcol
  have hwidth : last row < row.cells.length := Nat.sub_one_lt_of_lt hcol
  rw [findWordEnd]
  cases hblank : findCell row (fun cell => !isInWord cell) col (last row) with
  | none =>
    have hwords := findCell_none hblank
    simp only [getD_none, if_true]
    refine ⟨hlast, le_rfl, fun b hb hb' => ?_, fun h => absurd h (lt_irrefl _)⟩
    exact not_starts_of_inWord (by omega) (inWord_of_not (by omega) (hwords (b - 1) (by omega) (by omega)))
  | some blank =>
    obtain ⟨hle, hinside, hnot, hwords⟩ := findCell_some hblank
    have hword : ∀ b, col < b → b ≤ blank → ¬ Starts row b := fun b hb hb' =>
      not_starts_of_inWord (by omega) (inWord_of_not (by omega) (hwords (b - 1) (by omega) (by omega)))
    simp only [getD_some]
    split
    · next hend =>
      subst hend
      exact ⟨hle, le_rfl, hword, fun h => absurd h (lt_irrefl _)⟩
    · cases hnext : findCell row isInWord blank (last row) with
      | none =>
        have hblanks := findCell_none hnext
        refine ⟨hlast, le_rfl, fun b hb hb' => ?_, fun h => absurd h (lt_irrefl _)⟩
        obtain hbehind | hbefore := lt_or_ge blank b
        · exact not_starts_of_blank (by omega) (Bool.eq_false_iff.mp (hblanks b (by omega) hb'))
        · exact hword b hb hbefore
      | some next =>
        obtain ⟨hbehind, hfits, hin, hblanks⟩ := findCell_some hnext
        have hne : blank ≠ next := by
          rintro rfl
          exact not_inWord_of_not hnot hin
        have hstop : next - 1 + 1 = next := by omega
        simp only [map_some, getD_some]
        refine ⟨by omega, by omega, fun b hb hb' => ?_, fun _ => .inr ?_⟩
        · obtain hbehind | hbefore := lt_or_ge blank b
          · exact not_starts_of_blank (by omega) (Bool.eq_false_iff.mp (hblanks b (by omega) (by omega)))
          · exact hword b hb hbefore
        · rw [hstop]
          exact ⟨hin, Bool.eq_false_iff.mp (hblanks (next - 1) (by omega) (by omega))⟩

/-! ## Segments -/

theorem IsStart.unique {first start : Nat} (h : IsStart row col first) (h' : IsStart row col start) :
    first = start := by
  obtain hlt | rfl | hgt := lt_trichotomy first start
  · exact absurd h'.starts (h.nearest start hlt h'.le)
  · rfl
  · exact absurd h.starts (h'.nearest first hgt h.le)

theorem IsEnd.unique {first stop : Nat} (h : IsEnd row col first) (h' : IsEnd row col stop) : first = stop := by
  obtain hlt | rfl | hgt := lt_trichotomy first stop
  · exact absurd (h.next (hlt.trans_le h'.inside)) (h'.none _ (Nat.lt_succ_of_le h.le) hlt)
  · rfl
  · exact absurd (h'.next (hgt.trans_le h.inside)) (h.none _ (Nat.lt_succ_of_le h'.le) hgt)

section

variable (hcol : col < row.cells.length)
include hcol

theorem findWordStart_eq (h : IsStart row col start) : findWordStart row col = start :=
  (isStart_findWordStart hcol).unique h

theorem findWordEnd_eq (h : IsEnd row col found) : findWordEnd row col = found :=
  (isEnd_findWordEnd hcol).unique h

theorem findWordEnd_lt : findWordEnd row col < row.cells.length :=
  (isEnd_findWordEnd hcol).inside.trans_lt (Nat.sub_one_lt_of_lt hcol)

theorem same_segment (hle : findWordStart row col ≤ col') (hend : col' ≤ findWordEnd row col) :
    findWordStart row col' = findWordStart row col ∧ findWordEnd row col' = findWordEnd row col := by
  have hstart := isStart_findWordStart hcol
  have hstop := isEnd_findWordEnd hcol
  have hcol' : col' < row.cells.length := hend.trans_lt (findWordEnd_lt hcol)
  have hinside : ∀ b, findWordStart row col < b → b ≤ findWordEnd row col → ¬ Starts row b := by
    intro b hb hb'
    obtain hbehind | hbefore := lt_or_ge col b
    · exact hstop.none b hbehind hb'
    · exact hstart.nearest b hb hbefore
  constructor
  · exact findWordStart_eq hcol' ⟨hstart.starts, hle, fun b hb hb' => hinside b hb (hb'.trans hend)⟩
  · exact findWordEnd_eq hcol' ⟨hend, hstop.inside, fun b hb => hinside b (hle.trans_lt hb), hstop.next⟩

theorem findWordStart_of_starts (h : Starts row col) : findWordStart row col = col :=
  findWordStart_eq hcol ⟨h, le_rfl, fun _ hb hb' => absurd hb (not_lt.mpr hb')⟩

theorem next_start (h : findWordEnd row col + 1 < row.cells.length) :
    findWordStart row (findWordEnd row col + 1) = findWordEnd row col + 1 :=
  findWordStart_of_starts h ((isEnd_findWordEnd hcol).next (Nat.lt_sub_of_add_lt h))

end

theorem findWordEnd_before (hcol : col + 1 < row.cells.length) (h : findWordStart row (col + 1) = col + 1) :
    findWordEnd row col = col :=
  have hstart := (isStart_findWordStart hcol).starts
  findWordEnd_eq (Nat.lt_of_succ_lt hcol) ⟨le_rfl, Nat.le_sub_one_of_lt (Nat.lt_of_succ_lt hcol),
    fun _ hb hb' => absurd hb (not_lt.mpr hb'), fun _ => h ▸ hstart⟩

theorem prevWord_nextWord (hcol : col < row.cells.length) (hstart : findWordStart row col = col)
    (hmoved : (reviewCursorNextWord row col).1 = true) :
    reviewCursorPrevWord row (reviewCursorNextWord row col).2 = (true, col) := by
  rw [reviewCursorNextWord] at hmoved ⊢
  split at hmoved
  · cases hmoved
  · next hinside =>
    have hfits : findWordEnd row col + 1 < row.cells.length := by
      rw [last] at hinside
      omega
    have hle := (isEnd_findWordEnd hcol).le
    obtain ⟨hsame, -⟩ := same_segment hcol ((isStart_findWordStart hcol).le.trans hle) (le_rfl)
    rw [if_neg hinside, reviewCursorPrevWord, next_start hcol hfits, if_neg (Nat.succ_ne_zero _),
      Nat.add_sub_cancel, hsame, hstart]

theorem nextWord_prevWord (hcol : col < row.cells.length) (hstart : findWordStart row col = col)
    (hmoved : (reviewCursorPrevWord row col).1 = true) :
    reviewCursorNextWord row (reviewCursorPrevWord row col).2 = (true, col) := by
  rw [reviewCursorPrevWord, hstart] at hmoved ⊢
  cases col with
  | zero => cases hmoved
  | succ before =>
    have hbefore : before < row.cells.length := Nat.lt_of_succ_lt hcol
    have hend := findWordEnd_before hcol hstart
    have hspan := isStart_findWordStart hbefore
    obtain ⟨-, hsame⟩ := same_segment hbefore (le_rfl) (hspan.le.trans (isEnd_findWordEnd hbefore).le)
    have hinside : ¬ last row ≤ before := by
      rw [last]
      omega
    rw [if_neg (Nat.succ_ne_zero _), Nat.add_sub_cancel, reviewCursorNextWord, hsame, hend, if_neg hinside]

end

/-! ## Glyphs -/

structure ScreenRow where
  row : Row
  wellFormed : WellFormed row
  continuations : ∀ cell ∈ row.cells, cell.isWideContinuation = true → cell.grapheme = ""

def afterGlyph (row : Row) (col : Nat) : Nat := if (cellOr row.cells col).isWide then col + 2 else col + 1

/-- What is expected of the segments of a row. -/
structure Segmented (row : Row) : Prop where
  around : ∀ col < row.cells.length,
    findWordStart row col ≤ col ∧ col ≤ findWordEnd row col ∧ findWordEnd row col < row.cells.length
  same : ∀ col col', col < row.cells.length → findWordStart row col ≤ col' → col' ≤ findWordEnd row col →
    findWordStart row col' = findWordStart row col ∧ findWordEnd row col' = findWordEnd row col
  idempotent : ∀ col < row.cells.length, findWordStart row (findWordStart row col) = findWordStart row col
  next : ∀ col < row.cells.length, findWordEnd row col + 1 < row.cells.length →
    findWordStart row (findWordEnd row col + 1) = findWordEnd row col + 1
  /-- No boundary between two glyphs side by side that are not blank. -/
  glyphs : ∀ col, InWord row col → InWord row (afterGlyph row col) →
    findWordStart row (afterGlyph row col) = findWordStart row col
  prevNext : ∀ col < row.cells.length, findWordStart row col = col → (reviewCursorNextWord row col).1 = true →
    reviewCursorPrevWord row (reviewCursorNextWord row col).2 = (true, col)
  nextPrev : ∀ col < row.cells.length, findWordStart row col = col → (reviewCursorPrevWord row col).1 = true →
    reviewCursorNextWord row (reviewCursorPrevWord row col).2 = (true, col)

/-- No wide glyph has a glyph right after it that is not blank. -/
def WideGlyphsApart (row : Row) : Prop :=
  ∀ col, (cellOr row.cells col).isWide = true → InWord row col → ¬ InWord row (col + 2)

theorem InWord.lt {row : Row} {col : Nat} (h : InWord row col) : col < row.cells.length := by
  by_contra hge
  rw [InWord, getElem?_eq_none (not_lt.mp hge)] at h
  cases h

theorem ScreenRow.not_inWord_after_wide (screen : ScreenRow) {col : Nat}
    (hwide : (cellOr screen.row.cells col).isWide = true) : ¬ InWord screen.row (col + 1) := by
  obtain ⟨next, hnext, hcont⟩ := screen.wellFormed.followed col _ (exists_of_cellOr (.inl hwide)) hwide
  rw [InWord, hnext, any_some, isInWord, screen.continuations next (mem_of_getElem? hnext) hcont]
  exact Bool.false_ne_true

/-- **The segments of a row cut no word exactly when no wide glyph is followed by another glyph.** The second
cell of a wide glyph counts as a blank, so the word ends there. -/
theorem segmented_iff (screen : ScreenRow) : Segmented screen.row ↔ WideGlyphsApart screen.row := by
  constructor
  · intro h col hwide hin hnext
    have hafter : afterGlyph screen.row col = col + 2 := if_pos hwide
    have hjoined := h.glyphs col hin (hafter ▸ hnext)
    have hstart := findWordStart_of_starts hnext.lt (.inr ⟨hnext, screen.not_inWord_after_wide hwide⟩)
    have hle := (isStart_findWordStart hin.lt).le
    rw [hafter] at hjoined
    omega
  · intro hapart
    refine ⟨fun col hcol => ?_, fun col col' => same_segment, fun col hcol => ?_, fun col => next_start,
      fun col hin hnext => ?_, fun col => prevWord_nextWord, fun col => nextWord_prevWord⟩
    · exact ⟨(isStart_findWordStart hcol).le, (isEnd_findWordEnd hcol).le, findWordEnd_lt hcol⟩
    · have hstart := isStart_findWordStart hcol
      exact findWordStart_of_starts (hstart.le.trans_lt hcol) hstart.starts
    · rw [afterGlyph] at hnext ⊢
      split at hnext
      · next hwide => exact absurd hnext (hapart col hwide hin)
      · next hnarrow =>
        have hstart := isStart_findWordStart hin.lt
        rw [if_neg hnarrow]
        refine findWordStart_eq hnext.lt ⟨hstart.starts, hstart.le.trans (Nat.le_succ col), fun b hb hb' => ?_⟩
        obtain hle | rfl := Nat.le_succ_iff.mp hb'
        · exact hstart.nearest b hb hle
        · exact not_starts_of_inWord (Nat.succ_pos col) hin

def wideCell (grapheme : String) : Cell := { Cell.default with grapheme, width := 2 }

def wideTail : Cell := { Cell.default with continuation := true }

def twoWide : ScreenRow where
  row := ⟨[wideCell "漢", wideTail, wideCell "字", wideTail], false⟩
  wellFormed := (wellFormed_iff _).mpr ⟨rfl, fun n => match n with
    | 0 | 1 | 2 | 3 => rfl
    | _ + 4 => rfl⟩
  continuations := by decide

theorem twoWide_cut : ¬ Segmented twoWide.row := fun h => absurd (h.glyphs 0 rfl rfl) (by decide)

end Lector.Segments
