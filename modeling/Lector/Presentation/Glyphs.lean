import Lector.Presentation.Matching
import Lector.Presentation.RowWriter

/-! What a terminal shows of a row: it has no half glyphs, so a lead without its continuation and a
continuation without its lead are blanks. -/
namespace Lector.Presentation
open Terminal List Option

theorem continuation_of_isWide {cell : Cell} (h : cell.isWide) : cell.isWideContinuation = false := by
  rw [Cell.isWide, Bool.and_eq_true, Bool.not_eq_true'] at h
  exact h.2

theorem isWide_of_continuation {cell : Cell} (h : cell.isWideContinuation) : cell.isWide = false :=
  eq_false_of_ne_true fun hwide => by
    rw [continuation_of_isWide hwide] at h
    cases h

def blankCell : Cell := shownCell .default

def trail (lead : Cell) : Cell := { lead with grapheme := " ", width := 0, continuation := true }

section

variable (cells : List Cell)

def joined (n : Nat) : Bool :=
  (cellOr cells n).isWide && (cellOr cells (n + 1)).isWideContinuation

def mendCell (n : Nat) : Cell :=
  let cell := cellOr cells n
  if cell.isWide then if joined cells n then cell else blankCell
  else if cell.isWideContinuation then
    if n ≠ 0 ∧ joined cells (n - 1) then trail (cellOr cells (n - 1)) else blankCell
  else cell

def mend : List Cell := cells.mapIdx fun n _ => mendCell cells n

def visibleCells : List Cell := mend (cells.map shownCell)

end

def visibleRow (row : Row) : Row := { row with cells := visibleCells row.cells }

def visibleRows (rows : List Row) : List Row := rows.map visibleRow

/-! ## Mending -/

theorem length_mend (cells : List Cell) : (mend cells).length = cells.length := length_mapIdx

variable {cells : List Cell} {n : Nat}

theorem cellOr_mend (h : n < cells.length) : cellOr (mend cells) n = mendCell cells n := by
  rw [cellOr, mend, getElem?_mapIdx, getElem?_eq_getElem h, map_some, getD_some]

theorem mend_congr {a b : List Cell} (length : a.length = b.length)
    (h : ∀ n, n < a.length → mendCell a n = mendCell b n) : mend a = mend b := by
  refine ext_getElem ?_ fun n hn hn' => ?_
  · rw [length_mend, length_mend, length]
  · rw [length_mend] at hn
    simp only [mend, getElem_mapIdx]
    exact h n hn

theorem cellOr_of_length_le (h : cells.length ≤ n) : cellOr cells n = .default := by
  rw [cellOr, getElem?_eq_none h, getD_none]

theorem joined_lt (h : joined cells n = true) : n + 1 < cells.length := by
  rw [joined, Bool.and_eq_true] at h
  by_contra hle
  rw [cellOr_of_length_le (by omega : cells.length ≤ n + 1)] at h
  exact Bool.noConfusion h.2

def Narrow (cell : Cell) : Prop := cell.isWide = false ∧ cell.isWideContinuation = false

theorem narrow_blankCell : Narrow blankCell := ⟨rfl, rfl⟩

theorem mendCell_narrow (h : Narrow (cellOr cells n)) : mendCell cells n = cellOr cells n := by
  simp only [mendCell, h.1, h.2, Bool.false_eq_true, if_false]

theorem mendCell_lead (h : joined cells n = true) : mendCell cells n = cellOr cells n := by
  have hwide := (Bool.and_eq_true_iff.mp h).1
  rw [mendCell]
  simp only [hwide, h, if_true]

theorem mendCell_trail (h : joined cells n = true) : mendCell cells (n + 1) = trail (cellOr cells n) := by
  have hcont := (Bool.and_eq_true_iff.mp h).2
  have hwide := isWide_of_continuation hcont
  rw [mendCell]
  simp only [hwide, hcont, Bool.false_eq_true, if_false, if_true, Nat.add_sub_cancel, h]
  exact if_pos ⟨Nat.succ_ne_zero n, trivial⟩

theorem mendCell_cases (cells : List Cell) (n : Nat) :
    (joined cells n = true) ∨ (∃ m, n = m + 1 ∧ joined cells m = true) ∨
      (Narrow (cellOr cells n) ∨ mendCell cells n = blankCell) := by
  by_cases hwide : (cellOr cells n).isWide
  · cases hjoined : joined cells n with
    | true => exact .inl rfl
    | false =>
      refine .inr (.inr (.inr ?_))
      rw [mendCell]
      simp only [hwide, hjoined, if_true, Bool.false_eq_true, if_false]
  · have hwide := eq_false_of_ne_true hwide
    cases hcont : (cellOr cells n).isWideContinuation with
    | false => exact .inr (.inr (.inl ⟨hwide, hcont⟩))
    | true =>
      cases n with
      | zero =>
        refine .inr (.inr (.inr ?_))
        rw [mendCell]
        simp only [hwide, hcont, Bool.false_eq_true, if_false, if_true]
        exact if_neg fun h => h.1 rfl
      | succ m =>
        cases hjoined : joined cells m with
        | true => exact .inr (.inl ⟨m, rfl, hjoined⟩)
        | false =>
          refine .inr (.inr (.inr ?_))
          rw [mendCell]
          simp only [hwide, hcont, Bool.false_eq_true, if_false, if_true, Nat.add_sub_cancel,
            hjoined, and_false]

/-! ## Writing over cells -/

theorem mendCell_isWide (cells : List Cell) (n : Nat) : (mendCell cells n).isWide = joined cells n := by
  cases hjoined : joined cells n with
  | true =>
    rw [mendCell_lead hjoined]
    exact (Bool.and_eq_true_iff.mp hjoined).1
  | false =>
    rcases mendCell_cases cells n with h | ⟨m, rfl, h⟩ | h | h
    · rw [hjoined] at h
      cases h
    · rw [mendCell_trail h]
      exact Bool.and_false _
    · rw [mendCell_narrow h]
      exact h.1
    · rw [h]
      rfl

theorem mendCell_isWideContinuation (cells : List Cell) (n : Nat) :
    (mendCell cells (n + 1)).isWideContinuation = joined cells n := by
  cases hjoined : joined cells n with
  | true =>
    rw [mendCell_trail hjoined]
    rfl
  | false =>
    rcases mendCell_cases cells (n + 1) with h | ⟨m, hm, h⟩ | h | h
    · rw [mendCell_lead h]
      exact continuation_of_isWide (Bool.and_eq_true_iff.mp h).1
    · cases hm
      rw [hjoined] at h
      cases h
    · rw [mendCell_narrow h]
      exact h.2
    · rw [h]
      rfl

section Overwrite

variable {a b f : List Cell} {T : Nat → Prop}

/-- `b` is `f` with the columns of `T` written over, and `a` is the same on a terminal, where both parts
have been mended for themselves. No glyph of `b` is half inside. -/
structure Overwritten (a b f : List Cell) (T : Nat → Prop) : Prop where
  length : a.length = b.length
  inside : ∀ n, n < b.length → T n → cellOr a n = mendCell b n
  outside : ∀ n, n < b.length → ¬ T n → cellOr a n = mendCell f n ∧ cellOr b n = cellOr f n
  whole : ∀ n, joined b n = true → (T n ↔ T (n + 1))

theorem Overwritten.joined_eq (h : Overwritten a b f T) (n : Nat) : joined a n = joined b n := by
  by_cases hn : n + 1 < b.length
  · have hwide : ∀ {x : List Cell}, (cellOr a n) = mendCell x n → (cellOr a n).isWide = joined x n :=
      fun hcell => hcell ▸ mendCell_isWide _ n
    have hcont : ∀ {x : List Cell}, (cellOr a (n + 1)) = mendCell x (n + 1) →
        (cellOr a (n + 1)).isWideContinuation = joined x n :=
      fun hcell => hcell ▸ mendCell_isWideContinuation _ n
    have hsplit : ¬ (T n ↔ T (n + 1)) → joined b n = false := fun hne =>
      eq_false_of_ne_true fun hjoined => hne (h.whole n hjoined)
    rw [joined]
    by_cases hleft : T n
    · have hlead := hwide (h.inside n (by omega) hleft)
      by_cases hright : T (n + 1)
      · rw [hlead, hcont (h.inside (n + 1) hn hright), Bool.and_self]
      · rw [hlead, hsplit fun heq => hright (heq.mp hleft), Bool.false_and]
    · obtain ⟨houter, hsame⟩ := h.outside n (by omega) hleft
      by_cases hright : T (n + 1)
      · rw [hcont (h.inside (n + 1) hn hright), hsplit fun heq => hleft (heq.mpr hright), Bool.and_false]
      · obtain ⟨houter', hsame'⟩ := h.outside (n + 1) hn hright
        rw [hwide houter, hcont houter', Bool.and_self, joined, joined, hsame, hsame']
  · have hnot : ∀ x : List Cell, x.length ≤ n + 1 → joined x n = false := fun x hx =>
      eq_false_of_ne_true fun hjoined => absurd (joined_lt hjoined) (by omega)
    rw [hnot a (by rw [h.length]; omega), hnot b (by omega)]

theorem Overwritten.lead (h : Overwritten a b f T) {n : Nat} (hjoined : joined b n = true) :
    cellOr a n = cellOr b n := by
  have hn := joined_lt hjoined
  by_cases hT : T n
  · rw [h.inside n (by omega) hT, mendCell_lead hjoined]
  · obtain ⟨houter, hsame⟩ := h.outside n (by omega) hT
    obtain ⟨-, hsame'⟩ := h.outside (n + 1) hn fun hright => hT ((h.whole n hjoined).mpr hright)
    have hjoined' : joined f n = true := by
      rw [joined] at hjoined ⊢
      rwa [← hsame, ← hsame']
    rw [houter, mendCell_lead hjoined', hsame]

/-- **Writing over cells and mending commute.** -/
theorem Overwritten.mend_eq (h : Overwritten a b f T) : mend a = mend b := by
  refine mend_congr h.length fun n hn => ?_
  rw [h.length] at hn
  cases hjoined : joined b n with
  | true => rw [mendCell_lead hjoined, mendCell_lead ((h.joined_eq n).trans hjoined), h.lead hjoined]
  | false =>
    rcases mendCell_cases b n with hlead | ⟨m, rfl, hlead⟩ | hnarrow | hblank
    · rw [hjoined] at hlead
      cases hlead
    · rw [mendCell_trail hlead, mendCell_trail ((h.joined_eq m).trans hlead), h.lead hlead]
    · have hcell : cellOr a n = cellOr b n := by
        by_cases hT : T n
        · rw [h.inside n hn hT, mendCell_narrow hnarrow]
        · obtain ⟨houter, hsame⟩ := h.outside n hn hT
          rw [houter, mendCell_narrow (hsame ▸ hnarrow), hsame]
      rw [mendCell_narrow hnarrow, mendCell_narrow (hcell ▸ hnarrow), hcell]
    · -- a half of `b` that is blank is no half of `a` either
      have hnone : ¬ ∃ m, n = m + 1 ∧ joined b m = true := by
        rintro ⟨m, rfl, hlead⟩
        rw [mendCell_trail hlead] at hblank
        have htrail : true = false := congrArg Cell.continuation hblank
        cases htrail
      rw [hblank]
      rcases mendCell_cases a n with hlead | ⟨m, rfl, hlead⟩ | hnarrow | hblank'
      · rw [h.joined_eq, hjoined] at hlead
        cases hlead
      · exact absurd ⟨m, rfl, (h.joined_eq m).symm.trans hlead⟩ hnone
      · rw [mendCell_narrow hnarrow]
        by_cases hT : T n
        · rw [h.inside n hn hT, hblank]
        · obtain ⟨houter, hsame⟩ := h.outside n hn hT
          rw [houter] at hnarrow ⊢
          rcases mendCell_cases f n with hlead | ⟨m, rfl, hlead⟩ | hnarrow' | hblank'
          · exact absurd (mendCell_isWide f n) (by rw [hnarrow.1, hlead]; decide)
          · exact absurd (mendCell_isWideContinuation f m) (by rw [hnarrow.2, hlead]; decide)
          · rw [mendCell_narrow hnarrow', ← hsame, ← hblank]
            exact (mendCell_narrow (hsame ▸ hnarrow')).symm
          · exact hblank'
      · exact hblank'

end Overwrite

end Lector.Presentation
