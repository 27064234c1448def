import Lector.Presentation.Scene

/-! When two rows look the same on the terminal (`rows_physically_match` in `src/presentation.rs`): an empty
grapheme is written as a blank. -/
namespace Lector.Presentation
open Terminal List

/-! ## Cells and rows -/

def isBlank (grapheme : String) : Bool := grapheme == "" || grapheme == " "

def cellsPhysicallyMatch (left right : Cell) : Bool :=
  (left.grapheme == right.grapheme || (isBlank left.grapheme && isBlank right.grapheme)) &&
    left.width == right.width && left.continuation == right.continuation &&
    left.style == right.style && left.hyperlink == right.hyperlink

def terminalStringMatches (left right : Option String) : Bool :=
  left == right || (left.getD "" == "" && right.getD "" == "")

/-! ## What the terminal shows -/

def shownCell (cell : Cell) : Cell :=
  { cell with grapheme := if cell.grapheme = "" then " " else cell.grapheme }

def shownRow (row : Row) : Row := { row with cells := row.cells.map shownCell }

def shownRows (rows : List Row) : List Row := rows.map shownRow

theorem cellsPhysicallyMatch_iff (left right : Cell) :
    cellsPhysicallyMatch left right = true ↔ shownCell left = shownCell right := by
  have hgrapheme : (left.grapheme == right.grapheme ||
      (isBlank left.grapheme && isBlank right.grapheme)) = true ↔
      (if left.grapheme = "" then " " else left.grapheme) =
        if right.grapheme = "" then " " else right.grapheme := by
    simp only [isBlank, Bool.or_eq_true, Bool.and_eq_true, beq_iff_eq]
    by_cases hleft : left.grapheme = ""
    · rw [hleft]
      by_cases hright : right.grapheme = ""
      · simp [hright]
      · rw [if_neg hright]
        constructor
        · rintro (h | ⟨-, h | h⟩)
          · exact absurd h.symm hright
          · exact absurd h hright
          · exact h.symm
        · intro h
          exact .inr ⟨.inl rfl, .inr h.symm⟩
    · rw [if_neg hleft]
      by_cases hright : right.grapheme = ""
      · rw [hright]
        constructor
        · rintro (h | ⟨h | h, -⟩)
          · exact absurd h hleft
          · exact absurd h hleft
          · exact h
        · intro h
          exact .inr ⟨.inr h, .inl rfl⟩
      · rw [if_neg hright]
        constructor
        · rintro (h | ⟨h | h, h' | h'⟩)
          · exact h
          · exact absurd h hleft
          · exact absurd h hleft
          · exact absurd h' hright
          · exact h.trans h'.symm
        · exact .inl
  rw [cellsPhysicallyMatch, Bool.and_eq_true, Bool.and_eq_true, Bool.and_eq_true, Bool.and_eq_true, hgrapheme]
  simp only [beq_iff_eq, shownCell, Cell.mk.injEq, and_assoc]

end Lector.Presentation
