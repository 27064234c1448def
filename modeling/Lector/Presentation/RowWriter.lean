import Lector.Presentation.Scene

/-! Writing a row of a scene (`write_row_at` in `src/presentation.rs`), and the columns it takes. -/
namespace Lector.Presentation
open Bytes Output Terminal List

/-! ## Well-formed rows -/

/-- Every double-width cell is followed by its continuation, and no continuation stands elsewhere. -/
structure WellFormed (row : Row) : Prop where
  followed : ∀ (n : Nat) (cell : Cell), row.cells[n]? = some cell → cell.isWide →
    ∃ next, row.cells[n + 1]? = some next ∧ next.isWideContinuation
  preceded : ∀ (n : Nat) (cell : Cell), row.cells[n]? = some cell → cell.isWideContinuation →
    ∃ m lead, n = m + 1 ∧ row.cells[m]? = some lead ∧ lead.isWide

def cellOr (cells : List Cell) (n : Nat) : Cell := cells[n]?.getD .default

theorem default_isWideContinuation : Cell.default.isWideContinuation = false := rfl

theorem cellOr_of_some {cells : List Cell} {n : Nat} {cell : Cell} (h : cells[n]? = some cell) :
    cellOr cells n = cell := by
  rw [cellOr, h, Option.getD_some]

theorem exists_of_cellOr {cells : List Cell} {n : Nat}
    (h : (cellOr cells n).isWide ∨ (cellOr cells n).isWideContinuation) :
    cells[n]? = some (cellOr cells n) := by
  rw [cellOr] at h ⊢
  cases hcell : cells[n]? with
  | some cell => rfl
  | none =>
    rw [hcell] at h
    exact absurd h (by decide)

/-- **Wide cells and continuations come in pairs.** -/
theorem wellFormed_iff (row : Row) : WellFormed row ↔ (cellOr row.cells 0).isWideContinuation = false ∧
      ∀ n, (cellOr row.cells n).isWide = (cellOr row.cells (n + 1)).isWideContinuation := by
  constructor
  · intro h
    refine ⟨?_, fun n => ?_⟩
    · by_contra hfirst
      have hcont := eq_true_of_ne_false hfirst
      obtain ⟨m, -, hzero, -⟩ := h.preceded 0 _ (exists_of_cellOr (.inr hcont)) hcont
      omega
    · rw [Bool.eq_iff_iff]
      constructor
      · intro hwide
        obtain ⟨next, hnext, hcont⟩ := h.followed n _ (exists_of_cellOr (.inl hwide)) hwide
        rwa [cellOr_of_some hnext]
      · intro hcont
        obtain ⟨m, lead, hm, hlead, hwide⟩ := h.preceded (n + 1) _ (exists_of_cellOr (.inr hcont)) hcont
        rw [Nat.succ.inj hm, cellOr_of_some hlead]
        exact hwide
  · rintro ⟨hfirst, hpairs⟩
    refine ⟨fun n cell hcell hwide => ?_, fun n cell hcell hcont => ?_⟩
    · have hnext := hpairs n
      rw [cellOr_of_some hcell, hwide] at hnext
      exact ⟨_, exists_of_cellOr (.inr hnext.symm), hnext.symm⟩
    · cases n with
      | zero =>
        rw [cellOr_of_some hcell, hcont] at hfirst
        cases hfirst
      | succ m =>
        have hlead := hpairs m
        rw [cellOr_of_some hcell, hcont] at hlead
        exact ⟨m, _, rfl, exists_of_cellOr (.inl hlead), hlead⟩

/-! ## The writer -/

def writeHyperlink (link : Option String) : Bytes :=
  ascii "\x1b]8;;" ++
    link.elim [] (fun link => (utf8 link).filter fun byte => space ≤ byte && byte != 0x7f) ++
    ascii "\x1b\\"

def writeColor (color : Color) (selector : Nat) : Bytes :=
  match color with
  | .default => []
  | .indexed index => ascii s!";{selector};5;{index}"
  | .rgb red green blue => ascii s!";{selector};2;{red};{green};{blue}"

def writeUnderline : UnderlineStyle → Bytes
  | .none => []
  | .single => ascii ";4:1"
  | .double => ascii ";4:2"
  | .curly => ascii ";4:3"
  | .dotted => ascii ";4:4"
  | .dashed => ascii ";4:5"

def writeStyle (style : Style) : Bytes :=
  let enabled :=
    [(style.bold, ";1"), (style.dim, ";2"), (style.italic, ";3"), (style.blink, ";5"),
      (style.inverse, ";7"), (style.invisible, ";8"), (style.strikethrough, ";9"),
      (style.overline, ";53")]
  ascii "\x1b[0" ++ (enabled.filter (·.1)).flatMap (fun enabled => ascii enabled.2) ++
    writeUnderline style.underline ++ writeColor style.foreground 38 ++
    writeColor style.background 48 ++ writeColor style.underlineColor 58 ++ ascii "m"

structure RowWriter where
  bytes : Bytes
  columns : Nat
  activeStyle : Style
  activeLink : Option String

/-- The columns that the text of a cell takes: two for a double-width grapheme and one otherwise. -/
def printedColumns (cell : Cell) : Nat :=
  if cell.grapheme.isEmpty then 1 else if cell.isWide then 2 else 1

namespace RowWriter

def writeCell (writer : RowWriter) (cell : Cell) : RowWriter :=
  if cell.continuation then writer
  else
    let linked := if cell.hyperlink ≠ writer.activeLink then writeHyperlink cell.hyperlink else []
    let styled := if cell.style ≠ writer.activeStyle then writeStyle cell.style else []
    let text := if cell.grapheme.isEmpty then [space] else utf8 cell.grapheme
    { bytes := writer.bytes ++ linked ++ styled ++ text
      columns := writer.columns + printedColumns cell
      activeStyle := cell.style
      activeLink := cell.hyperlink }

def start (rowIndex : Nat) (row : Row) : RowWriter where
  bytes := ascii s!"\x1b[{rowIndex + 1};1H" ++ (if row.wrapped then [] else ascii "\x1b[2K") ++
    ascii "\x1b[0m"
  columns := 0
  activeStyle := .default
  activeLink := none

def finish (writer : RowWriter) : RowWriter :=
  if writer.activeLink.isSome then { writer with bytes := writer.bytes ++ writeHyperlink none }
  else writer

end RowWriter

def writeRowAt (rowIndex : Nat) (row : Row) : RowWriter :=
  (row.cells.foldl RowWriter.writeCell (.start rowIndex row)).finish

/-! ## Columns -/

def isWideBlank (cell : Cell) : Bool := cell.isWide && cell.grapheme.isEmpty

theorem finish_columns (writer : RowWriter) : writer.finish.columns = writer.columns := by
  rw [RowWriter.finish]
  split <;> rfl

theorem foldl_writeCell_columns {cells : List Cell} (lead : Bool) (writer : RowWriter)
    (first : (cellOr cells 0).isWideContinuation = lead)
    (pairs : ∀ n, (cellOr cells n).isWide = (cellOr cells (n + 1)).isWideContinuation) :
    (cells.foldl RowWriter.writeCell writer).columns + lead.toNat + cells.countP isWideBlank =
      writer.columns + cells.length := by
  induction cells generalizing lead writer with
  | nil =>
    subst first
    rfl
  | cons cell rest ih =>
    have hrest : ∀ n, cellOr (cell :: rest) (n + 1) = cellOr rest n := fun _ => rfl
    have hcell : cellOr (cell :: rest) 0 = cell := rfl
    have hstep := ih cell.isWide (writer.writeCell cell) (by rw [← hrest 0, ← pairs 0, hcell])
      (fun n => by rw [← hrest n]; exact pairs (n + 1))
    rw [hcell] at first
    subst first
    rw [foldl_cons, countP_cons, length_cons]
    have hwrite : (writer.writeCell cell).columns + cell.isWideContinuation.toNat +
        (if isWideBlank cell then 1 else 0) = writer.columns + cell.isWide.toNat + 1 := by
      rw [RowWriter.writeCell, isWideBlank, Cell.isWideContinuation, Cell.isWide]
      by_cases hcont : cell.continuation
      · simp [hcont]
      · by_cases hblank : cell.grapheme.isEmpty
        · by_cases hwidth : cell.width = 2
          · simp [hcont, hblank, hwidth, printedColumns]
          · simp [hcont, hblank, hwidth, printedColumns]
        · by_cases hwidth : cell.width = 2
          · simp [hcont, hblank, hwidth, printedColumns, Cell.isWide]
          · simp [hcont, hwidth, printedColumns, Cell.isWide]
    omega

/-- **A well-formed row takes a column for each of its cells** if and only if all its wide cells have
graphemes. -/
theorem writeRowAt_columns {row : Row} (wellFormed : WellFormed row) (rowIndex : Nat) :
    (writeRowAt rowIndex row).columns = row.cells.length ↔ ∀ cell ∈ row.cells, isWideBlank cell = false := by
  obtain ⟨hfirst, hpairs⟩ := (wellFormed_iff row).mp wellFormed
  have hcolumns := foldl_writeCell_columns false (.start rowIndex row) hfirst hpairs
  have hstart : (RowWriter.start rowIndex row).columns = 0 := rfl
  rw [Bool.toNat_false] at hcolumns
  rw [writeRowAt, finish_columns]
  have hcount : row.cells.countP isWideBlank = 0 ↔ ∀ cell ∈ row.cells, isWideBlank cell = false := by
    simp only [countP_eq_zero, Bool.not_eq_true]
  rw [← hcount]
  omega

end Lector.Presentation
