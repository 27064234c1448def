import Lector.Presentation.PaintersOrder
import Lector.Presentation.RowPrinting

/-! Rows of a scene of disjoint panes on the terminal: every cell on its own column, unless a pane's row
ends in the spacer that an engine puts before a wide glyph that did not fit. -/
namespace Lector.Presentation
open Output Terminal Bool
open List hiding min

/-! ## Exact prints -/

/-- Every cell but the continuations is printed on its own column, and no column is left out. -/
structure ColumnExact (row column : Nat) (cells : List Cell) (prints : List (Nat × Nat × String × Nat)) :
    Prop where
  printed : prints = OuterScreen.spots row column cells
  covered : ∀ n, column ≤ n → n < column + cells.length →
    ∃ print ∈ prints, print.2.1 ≤ n ∧ n < print.2.1 + print.2.2.2

/-- Every wide cell is followed by its continuation. -/
def Followed (cells : List Cell) : Prop :=
  ∀ (n : Nat) (cell : Cell), cells[n]? = some cell → cell.isWide →
    ∃ next, cells[n + 1]? = some next ∧ next.isWideContinuation

variable {rest cells : List Cell}

theorem Followed.tail {cell : Cell} (followed : Followed (cell :: rest)) :
    Followed rest := fun n other hget hwide => followed (n + 1) other hget hwide

namespace OuterScreen

variable {row column rowIndex start stop : Nat}

theorem column_le_of_mem_spots {cells : List Cell}
    {print : Nat × Nat × String × Nat} (h : print ∈ spots row column cells) : column ≤ print.2.1 := by
  induction cells generalizing column with
  | nil => cases h
  | cons cell rest ih =>
    rw [spots, mem_append] at h
    rcases h with h | h
    · split at h
      · cases h
      · rw [mem_singleton.mp h]
    · exact Nat.le_of_succ_le (ih h)

theorem covered_of_glyphs {cells : List Cell} (glyphs : Glyphs cells) (row column : Nat) :
    ∀ n, column ≤ n → n < column + cells.length →
      ∃ print ∈ spots row column cells, print.2.1 ≤ n ∧ n < print.2.1 + print.2.2.2 := by
  -- one cell with its continuation before the others
  have hgroup : ∀ (cell : Cell) (group others : List Cell) (column : Nat), Group cell group →
      (∀ n, column + group.length ≤ n → n < column + group.length + others.length →
        ∃ print ∈ spots row (column + group.length) others, print.2.1 ≤ n ∧ n < print.2.1 + print.2.2.2) →
      ∀ n, column ≤ n → n < column + (group ++ others).length →
        ∃ print ∈ spots row column (group ++ others), print.2.1 ≤ n ∧ n < print.2.1 + print.2.2.2 := by
    intro cell group others column hgroup hothers n hle hlt
    rw [length_append] at hlt
    rw [hgroup.spots]
    by_cases hn : n < column + group.length
    · exact ⟨_, mem_cons_self, hle, by rw [hgroup.columns]; exact hn⟩
    · obtain ⟨print, hmem, hcovers⟩ := hothers n (by omega) (by omega)
      exact ⟨print, mem_cons_of_mem _ hmem, hcovers⟩
  induction glyphs generalizing column with
  | nil =>
    intro n hle hlt
    rw [length_nil] at hlt
    omega
  | narrow narrow _ ih => exact hgroup _ [_] _ column (.narrow narrow) (ih (column + 1))
  | wide wide text continues _ ih =>
    exact hgroup _ [_, _] _ column (.wide wide text continues) (ih (column + 2))

/-- **Where no column is left out the cells are whole glyphs.** -/
theorem glyphs_of_covered {cells : List Cell} (followed : Followed cells) (column : Nat)
    (covered : ∀ n, column ≤ n → n < column + cells.length →
      ∃ print ∈ spots row column cells, print.2.1 ≤ n ∧ n < print.2.1 + print.2.2.2) :
    Glyphs cells := by
  induction hlength : cells.length using Nat.strongRecOn generalizing cells column with
  | ind length ih =>
    subst hlength
    cases cells with
    | nil => exact .nil
    | cons cell rest =>
      rw [length_cons] at covered
      have hcontinuation : cell.continuation = false := by
        obtain ⟨print, hmem, hle, -⟩ := covered column (le_refl _) (by omega)
        rw [spots] at hmem
        by_contra hcont
        rw [if_pos (eq_true_of_ne_false hcont)] at hmem
        have := column_le_of_mem_spots hmem
        omega
      have hspots : spots row column (cell :: rest) =
          (row, column, cellText cell, printedColumns cell) :: spots row (column + 1) rest := by
        rw [spots, if_neg (by rw [hcontinuation]; decide)]
        rfl
      by_cases hwide : cell.isWide = true
      · obtain ⟨tail, htail, hcont⟩ := followed 0 cell rfl hwide
        cases rest with
        | nil => cases htail
        | cons first others =>
          obtain rfl := Option.some.inj htail
          have hskip : spots row (column + 1) (first :: others) = spots row (column + 2) others := by
            have hcont' : first.continuation = true := hcont
            rw [spots, hcont']
            rfl
          rw [length_cons] at covered
          rw [hspots, hskip] at covered
          have htext : cell.grapheme.isEmpty = false := by
            obtain ⟨print, hmem, hle, hlt⟩ := covered (column + 1) (by omega) (by omega)
            rcases mem_cons.mp hmem with rfl | hmem
            · by_contra hempty
              have hone : printedColumns cell = 1 := by
                rw [printedColumns, if_pos (eq_true_of_ne_false hempty)]
              simp only [hone] at hlt
              omega
            · have := column_le_of_mem_spots hmem
              omega
          refine .wide hwide htext hcont (ih others.length ?_ followed.tail.tail (column + 2)
            (fun n hle hlt => ?_) rfl)
          · rw [length_cons, length_cons]
            omega
          · obtain ⟨print, hmem, hcovers⟩ := covered n (by omega) (by omega)
            rcases mem_cons.mp hmem with rfl | hmem
            · have htwo := printedColumns_wide hwide htext
              simp only [htwo] at hcovers
              omega
            · exact ⟨print, hmem, hcovers⟩
      · have narrow : Narrow cell := ⟨eq_false_of_ne_true hwide, hcontinuation⟩
        rw [hspots] at covered
        refine .narrow narrow (ih rest.length (by rw [length_cons]; omega) followed.tail
          (column + 1) (fun n hle hlt => ?_) rfl)
        obtain ⟨print, hmem, hcovers⟩ := covered n (by omega) (by omega)
        rcases mem_cons.mp hmem with rfl | hmem
        · have hone := printedColumns_narrow narrow
          simp only [hone] at hcovers
          omega
        · exact ⟨print, hmem, hcovers⟩

/-! ## Rows and runs -/

/-- A screen of the size of the scene, as a repaint prepares it. -/
structure Ready (s : OuterScreen) (geometry : TerminalGeometry) : Prop where
  plain : s.Plain
  cols : s.cols = geometry.cols.toNat
  rows : s.rows.length = geometry.rows.toNat
  link : s.link = none

variable {s : OuterScreen}

def lineStartCommands (rowIndex : Nat) (row : Row) : List OuterCommand :=
  .cursorTo (rowIndex + 1) 1 :: ((if row.wrapped then [] else [.eraseLine]) ++ [.rendition [[0]]])

theorem rowCommands_eq (rowIndex : Nat) (row : Row) : rowCommands rowIndex row =
    lineStartCommands rowIndex row ++ cellsCommands .default none row.cells := by
  rw [lineStartCommands, cons_append, append_assoc]
  rfl

theorem step_cursorTo (plain : s.Plain) (hrow : row < s.rows.length) (hcolumn : column < s.cols) :
    s.step (.cursorTo (row + 1) (column + 1)) = { s with row := row, col := column, pendingWrap := false } := by
  have hrow' : min row (s.rows.length - 1) = row := by omega
  have hcolumn' : min column (s.cols - 1) = column := by omega
  rw [step, moveTo, plain.origin, Nat.add_sub_cancel, Nat.add_sub_cancel]
  simp only [false_eq_true, if_false, hrow', hcolumn']

theorem replay_lineStart (plain : s.Plain) (hrow : rowIndex < s.rows.length) (row : Row) :
    s.replay (lineStartCommands rowIndex row) =
        { s with
          rows := if row.wrapped then s.rows else s.rows.set rowIndex s.erasedRow
          row := rowIndex
          col := 0
          pendingWrap := false
          pen := .default } ∧
      s.prints (lineStartCommands rowIndex row) = [] := by
  have hmove := step_cursorTo plain hrow plain.wide
  rw [lineStartCommands]
  constructor
  · show (s.step (.cursorTo (rowIndex + 1) (0 + 1))).replay _ = _
    rw [hmove]
    split <;> rfl
  · split <;> rfl

theorem Plain.erase (plain : s.Plain) (rowIndex : Nat) (wrapped : Bool) :
    ∀ row ∈ (if wrapped then s.rows else s.rows.set rowIndex s.erasedRow), row.cells.length = s.cols := by
  intro row hmem
  split at hmem
  · exact plain.lines row hmem
  · rcases mem_or_eq_of_mem_set hmem with hold | rfl
    · exact plain.lines row hold
    · exact length_replicate

/-- **A row of whole glyphs is printed on its own columns**, over the whole line. -/
theorem printed_row (plain : s.Plain) (hlink : s.link = none) (hrow : rowIndex < s.rows.length) {row : Row}
    (glyphs : Glyphs row.cells) (width : row.cells.length ≤ s.cols) :
    s.prints (rowCommands rowIndex row) = spots rowIndex 0 row.cells ∧
      Printed (s.replay (lineStartCommands rowIndex row)) (cellsCommands .default none row.cells) 0
        row.cells none := by
  obtain ⟨hstart, hquiet⟩ := replay_lineStart plain hrow row
  have hprinted : Printed (s.replay (lineStartCommands rowIndex row))
      (cellsCommands .default none row.cells) 0 row.cells none := by
    refine printed_cells glyphs ?_ ?_ ?_ ?_ ⟨fun _ => ?_, fun hle => ?_⟩ ?_
    · rw [hstart]
      exact ⟨plain.origin, plain.insert, plain.leftRight, plain.wide, plain.erase rowIndex row.wrapped⟩
    · rw [hstart]
    · rw [hstart]
      exact hlink
    · rw [hstart]
      split
      · exact hrow
      · rw [length_set]
        exact hrow
    · rw [hstart]
      exact ⟨rfl, rfl⟩
    · rw [hstart] at hle
      exact absurd plain.wide (not_lt.mpr hle)
    · rw [hstart, zero_add]
      exact width
  refine ⟨?_, hprinted⟩
  rw [rowCommands_eq, prints_append, hquiet, hprinted.prints, hstart]
  rfl

def runStart (s : OuterScreen) (row start : Nat) : OuterScreen :=
  { s with row := row, col := start, pendingWrap := false, pen := .default, link := none }

theorem prints_run (plain : s.Plain) (hrow : rowIndex < s.rows.length)
    {row : Row} (hstart : start < s.cols) (glyphs : Glyphs ((row.cells.take stop).drop start))
    (width : start + ((row.cells.take stop).drop start).length ≤ s.cols) :
    s.prints (runCommands rowIndex start stop row) =
      spots rowIndex start ((row.cells.take stop).drop start) := by
  have hmove := step_cursorTo plain hrow hstart
  have hprinted : Printed (s.runStart rowIndex start)
      (cellsCommands .default none ((row.cells.take stop).drop start)) start
      ((row.cells.take stop).drop start) none :=
    printed_cells (s := s.runStart rowIndex start) glyphs
      ⟨plain.origin, plain.insert, plain.leftRight, plain.wide, plain.lines⟩ rfl rfl hrow
      ⟨fun _ => ⟨rfl, rfl⟩, fun hle => absurd hstart (not_lt.mpr hle)⟩ width
  show (s.step (.cursorTo (rowIndex + 1) (start + 1))).prints (_ :: _ :: (_ ++ [_])) = _
  rw [hmove]
  show (s.runStart rowIndex start).prints (_ ++ [_]) = _
  rw [prints_append, hprinted.prints]
  exact append_nil _

/-- **A row is written exactly if and only if it has whole glyphs.** -/
theorem columnExact_row_iff {geometry : TerminalGeometry} (ready : s.Ready geometry)
    (hrow : rowIndex < geometry.rows.toNat) {row : Row}
    (length : row.cells.length = geometry.cols.toNat) (followed : Followed row.cells) :
    ColumnExact rowIndex 0 row.cells (s.prints (rowCommands rowIndex row)) ↔ Glyphs row.cells := by
  constructor
  · intro exact_
    exact glyphs_of_covered followed 0 (exact_.printed ▸ exact_.covered)
  · intro glyphs
    obtain ⟨hprints, -⟩ := printed_row ready.plain ready.link (ready.rows.symm ▸ hrow) glyphs
      (by rw [length, ready.cols])
    exact ⟨hprints, hprints ▸ covered_of_glyphs glyphs rowIndex 0⟩

theorem columnExact_run_iff {geometry : TerminalGeometry} (ready : s.Ready geometry)
    (hrow : rowIndex < geometry.rows.toNat) {row : Row}
    (length : row.cells.length = geometry.cols.toNat) (hstart : start < stop)
    (hstop : stop ≤ geometry.cols.toNat) (followed : Followed ((row.cells.take stop).drop start)) :
    ColumnExact rowIndex start ((row.cells.take stop).drop start)
        (s.prints (runCommands rowIndex start stop row)) ↔
      Glyphs ((row.cells.take stop).drop start) := by
  have hlength : ((row.cells.take stop).drop start).length = stop - start := by
    rw [length_drop, length_take]
    omega
  constructor
  · intro exact_
    exact glyphs_of_covered followed start (exact_.printed ▸ exact_.covered)
  · intro glyphs
    have hprints := prints_run ready.plain (ready.rows.symm ▸ hrow) (by rw [ready.cols]; omega) glyphs
      (by rw [ready.cols]; omega)
    exact ⟨hprints, hprints ▸ covered_of_glyphs glyphs rowIndex start⟩

end OuterScreen

/-! ## Spacer heads -/

/-- The column that an engine leaves at the end of a line for a wide glyph that did not fit. -/
def SpacerHead (cells : List Cell) (n : Nat) : Prop :=
  (cellOr cells n).isWideContinuation = true ∧ ∀ m, n = m + 1 → (cellOr cells m).isWide = false

theorem spacerHead_zero : SpacerHead cells 0 ↔ (cellOr cells 0).isWideContinuation = true :=
  ⟨fun h => h.1, fun h => ⟨h, fun m hm => absurd hm (Nat.succ_ne_zero m).symm⟩⟩

variable {n start stop : Nat}

theorem spacerHead_succ : SpacerHead cells (n + 1) ↔
    (cellOr cells (n + 1)).isWideContinuation = true ∧ (cellOr cells n).isWide = false :=
  ⟨fun h => ⟨h.1, h.2 n rfl⟩, fun h => ⟨h.1, fun _ hm => Nat.succ.inj hm ▸ h.2⟩⟩

theorem spacerHead_cons {cell : Cell} (narrow : cell.isWide = false) :
    SpacerHead (cell :: rest) (n + 1) ↔ SpacerHead rest n := by
  rw [spacerHead_succ]
  cases n with
  | zero =>
    rw [spacerHead_zero]
    exact and_iff_left narrow
  | succ n => exact Iff.symm (@spacerHead_succ rest n)

theorem spacerHead_group {lead tail : Cell} (continues : tail.isWideContinuation = true) :
    SpacerHead (lead :: tail :: rest) (n + 2) ↔ SpacerHead rest n := by
  refine Iff.trans ?_ (spacerHead_cons (isWide_of_continuation continues))
  rw [spacerHead_succ, spacerHead_succ]
  rfl

/-- **Whole glyphs are rows without spacers**, and with a text for each wide cell. -/
theorem glyphs_iff (followed : Followed cells) : Glyphs cells ↔
    ∀ n < cells.length, ¬ SpacerHead cells n ∧ isWideBlank (cellOr cells n) = false := by
  constructor
  · intro glyphs
    clear followed
    induction glyphs with
    | nil => exact fun n hn => absurd hn (Nat.not_lt_zero n)
    | @narrow cell rest narrow _ ih =>
      intro n hn
      cases n with
      | zero =>
        refine ⟨fun h => ?_, ?_⟩
        · exact false_ne_true (narrow.2.symm.trans (spacerHead_zero.mp h))
        · show (cell.isWide && _) = false
          rw [narrow.1, Bool.false_and]
      | succ n =>
        obtain ⟨hspacer, hblank⟩ := ih n (Nat.lt_of_succ_lt_succ hn)
        exact ⟨fun h => hspacer ((spacerHead_cons narrow.1).mp h), hblank⟩
    | @wide lead tail rest wide text continues _ ih =>
      have htail : tail.isWide = false := isWide_of_continuation continues
      intro n hn
      match n with
      | 0 =>
        refine ⟨fun h => ?_, ?_⟩
        · exact false_ne_true ((continuation_of_isWide wide).symm.trans (spacerHead_zero.mp h))
        · show (lead.isWide && lead.grapheme.isEmpty) = false
          rw [text, Bool.and_false]
      | 1 =>
        refine ⟨fun h => ?_, ?_⟩
        · exact false_ne_true ((spacerHead_succ.mp h).2.symm.trans wide)
        · show (tail.isWide && _) = false
          rw [htail, Bool.false_and]
      | n + 2 =>
        obtain ⟨hspacer, hblank⟩ := ih n (Nat.lt_of_succ_lt_succ (Nat.lt_of_succ_lt_succ hn))
        exact ⟨fun h => hspacer ((spacerHead_group continues).mp h), hblank⟩
  · intro whole
    induction hlength : cells.length using Nat.strongRecOn generalizing cells with
    | ind length ih =>
      subst hlength
      cases cells with
      | nil => exact .nil
      | cons cell rest =>
        obtain ⟨hfirst, hblank⟩ := whole 0 (Nat.succ_pos _)
        have hcontinuation := eq_false_of_ne_true fun h => hfirst (spacerHead_zero.mpr h)
        by_cases hwide : cell.isWide = true
        · obtain ⟨tail, htail, hcont⟩ := followed 0 cell rfl hwide
          cases rest with
          | nil => cases htail
          | cons first others =>
            cases htail
            have htext : cell.grapheme.isEmpty = false := by
              have hboth : (cell.isWide && cell.grapheme.isEmpty) = false := hblank
              rwa [hwide, Bool.true_and] at hboth
            refine .wide hwide htext hcont (ih others.length ?_ followed.tail.tail (fun n hn => ?_) rfl)
            · rw [length_cons, length_cons]
              omega
            · obtain ⟨hspacer, hblank'⟩ :=
                whole (n + 2) (by rw [length_cons, length_cons]; omega)
              exact ⟨fun h => hspacer ((spacerHead_group hcont).mpr h), hblank'⟩
        · have narrow : Narrow cell := ⟨eq_false_of_ne_true hwide, hcontinuation⟩
          refine .narrow narrow (ih rest.length (by rw [length_cons]; omega) followed.tail (fun n hn => ?_) rfl)
          obtain ⟨hspacer, hblank'⟩ := whole (n + 1) (by rw [length_cons]; omega)
          exact ⟨fun h => hspacer ((spacerHead_cons narrow.1).mpr h), hblank'⟩

/-! ## Runs of whole glyphs -/

def CutsNone (cells : List Cell) (start stop : Nat) : Prop :=
  ∀ m, m + 1 = start ∨ m + 1 = stop → (cellOr cells m).isWide = false

theorem cellOr_slice (h : start + n < stop) :
    cellOr ((cells.take stop).drop start) n = cellOr cells (start + n) := by
  rw [cellOr, cellOr, getElem?_drop, getElem?_take, if_pos h]

theorem getElem?_eq_cellOr (h : n < cells.length) : cells[n]? = some (cellOr cells n) := by
  rw [cellOr, getElem?_eq_getElem h]
  rfl

theorem followed_slice (followed : Followed cells) (hstop : stop ≤ cells.length)
    (cuts : CutsNone cells start stop) : Followed ((cells.take stop).drop start) := by
  intro n cell hget hwide
  obtain ⟨hlt, -⟩ := List.getElem?_eq_some_iff.mp hget
  have hlength : ((cells.take stop).drop start).length = stop - start := by
    rw [length_drop, length_take]
    omega
  rw [getElem?_drop, getElem?_take, if_pos (by omega)] at hget
  obtain ⟨next, hnext, hcont⟩ := followed (start + n) cell hget hwide
  have hinside : start + (n + 1) < stop := by
    by_contra hout
    have hend := cuts (start + n) (.inr (by omega))
    rw [cellOr_of_some hget, hwide] at hend
    cases hend
  refine ⟨next, ?_, hcont⟩
  rw [getElem?_drop, getElem?_take, if_pos hinside]
  exact hnext

theorem glyphs_slice_iff (followed : Followed cells)
    (hstop : stop ≤ cells.length) (cuts : CutsNone cells start stop) :
    Glyphs ((cells.take stop).drop start) ↔ ∀ n, start ≤ n → n < stop →
      ¬ SpacerHead cells n ∧ isWideBlank (cellOr cells n) = false := by
  have hlength : ((cells.take stop).drop start).length = stop - start := by
    rw [length_drop, length_take]
    omega
  have hspacer : ∀ n, start + n < stop →
      (SpacerHead ((cells.take stop).drop start) n ↔ SpacerHead cells (start + n)) := by
    intro n hn
    cases n with
    | zero =>
      rw [spacerHead_zero, cellOr_slice hn]
      exact ⟨fun h => ⟨h, fun m hm => cuts m (.inl hm.symm)⟩, fun h => h.1⟩
    | succ n =>
      rw [spacerHead_succ, cellOr_slice hn, cellOr_slice (by omega)]
      exact spacerHead_succ.symm
  rw [glyphs_iff (followed_slice followed hstop cuts)]
  constructor
  · intro h n hle hlt
    obtain ⟨hno, hblank⟩ := h (n - start) (by omega)
    have hn : start + (n - start) = n := by omega
    rw [hspacer _ (by omega), hn] at hno
    rw [cellOr_slice (by omega), hn] at hblank
    exact ⟨hno, hblank⟩
  · intro h n hn
    rw [hspacer n (by omega), cellOr_slice (by omega)]
    exact h (start + n) (by omega) (by omega)

end Lector.Presentation
