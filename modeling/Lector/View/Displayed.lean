import Lector.View.Copying
import Lector.View.Tracking

/-! What is copied, compared with what is displayed: the same, row by row, unless a blank cell stands left
of text in the selection. -/
namespace Lector.Accessibility
open Terminal Option
open List hiding min not_le not_lt

/-! ## The cells of a selection -/

variable (cells : List Cell)

def plainText : List Char := cells.flatMap fun cell => cell.grapheme.toList

def Gapless : Prop :=
  ∀ before blank after, cells = before ++ blank :: after → blank.continuation = false →
    blank.grapheme = "" → ∀ cell ∈ after, cell.continuation = false → cell.grapheme = ""

def Spaced : Prop := ∀ cell ∈ cells, cell.continuation = true → cell.grapheme = ""

/-- The spaces that are displayed for blank cells, of which `pending` wait for text. -/
def gaps : (pending : Nat) → List Cell → Nat
  | _, [] => 0
  | pending, cell :: cells =>
    if cell.continuation then gaps pending cells
    else if cell.grapheme = "" then gaps (pending + 1) cells
    else pending + gaps 0 cells

variable {cells : List Cell}

theorem Spaced.tail {cell : Cell} (h : Spaced (cell :: cells)) : Spaced cells :=
  fun other hother => h other (mem_cons_of_mem cell hother)

theorem toList_eq_nil {cell : Cell} (h : cell.grapheme = "") : cell.grapheme.toList = [] := by
  rw [h]
  rfl

theorem length_appendCell (h : Spaced cells) (output : String) (pending : Nat) :
    (cells.foldl Row.appendCell (output, pending)).1.toList.length =
      output.toList.length + (plainText cells).length + gaps pending cells := by
  induction cells generalizing output pending with
  | nil => rfl
  | cons cell cells ih =>
    rw [foldl_cons, Row.appendCell, gaps, plainText, flatMap_cons, length_append]
    split
    · rename_i hcontinuation
      rw [ih h.tail, toList_eq_nil (h cell mem_cons_self hcontinuation), plainText]
      simp
    · split
      · rename_i hblank
        rw [ih h.tail, toList_eq_nil hblank, plainText]
        simp
      · rw [ih h.tail, String.toList_append, String.toList_append, length_append, length_append,
          spaces, String.toList_ofList, length_replicate, plainText]
        dsimp only
        omega

theorem appendCell_of_gaps (h : Spaced cells) {pending : Nat} (none : gaps pending cells = 0)
    (output : String) :
    (cells.foldl Row.appendCell (output, pending)).1.toList = output.toList ++ plainText cells := by
  induction cells generalizing output pending with
  | nil => exact (append_nil _).symm
  | cons cell cells ih =>
    rw [gaps] at none
    rw [foldl_cons, Row.appendCell, plainText, flatMap_cons, ← plainText]
    split
    · rename_i hcontinuation
      rw [if_pos hcontinuation] at none
      rw [ih h.tail none, toList_eq_nil (h cell mem_cons_self hcontinuation), nil_append]
    · rename_i hcontinuation
      rw [if_neg hcontinuation] at none
      split
      · rename_i hblank
        rw [if_pos hblank] at none
        rw [ih h.tail none, toList_eq_nil hblank, nil_append]
      · rename_i htext
        rw [if_neg htext, Nat.add_eq_zero_iff] at none
        rw [ih h.tail none.2, none.1, String.toList_append, String.toList_append, append_assoc, append_assoc]
        rfl

theorem gaps_eq_zero_iff (pending : Nat) : gaps pending cells = 0 ↔
      Gapless cells ∧ (pending = 0 ∨ ∀ cell ∈ cells, cell.continuation = false → cell.grapheme = "") := by
  induction cells generalizing pending with
  | nil =>
    apply iff_of_true rfl
    refine ⟨?_, .inr (forall_mem_nil _)⟩
    intro before blank after hsplit
    exact absurd hsplit.symm (by simp)
  | cons cell cells ih =>
    have hcons : Gapless (cell :: cells) ↔ Gapless cells ∧ (cell.continuation = false → cell.grapheme = "" →
          ∀ other ∈ cells, other.continuation = false → other.grapheme = "") := by
      constructor
      · intro h
        refine ⟨?_, h [] cell cells rfl⟩
        intro before blank after hsplit
        exact h (cell :: before) blank after (by rw [hsplit, cons_append])
      · rintro ⟨h, hcell⟩ before blank after hsplit
        cases before with
        | nil =>
          rw [nil_append, cons.injEq] at hsplit
          rw [← hsplit.1, ← hsplit.2]
          exact hcell
        | cons first before =>
          rw [cons_append, cons.injEq] at hsplit
          exact h before blank after hsplit.2
    rw [gaps, hcons, forall_mem_cons]
    split
    · rename_i hcontinuation
      rw [ih, hcontinuation]
      simp
    · rename_i hcontinuation
      have hplain : cell.continuation = false := by simpa using hcontinuation
      split
      · rw [ih]
        tauto
      · rename_i htext
        rw [Nat.add_eq_zero_iff, ih, hplain]
        simp only [htext, true_or, IsEmpty.forall_iff, forall_const, false_and, or_false, and_comm]

theorem gapless_iff : gaps 0 cells = 0 ↔ Gapless cells := by
  rw [gaps_eq_zero_iff, and_iff_left (.inl rfl)]

/-! ## Rows -/

variable (row : Row) (start stop : HistoryPosition) (cols absoluteRow : Nat)

def selectedCells : List Cell :=
  (row.cells.drop (startCol start absoluteRow)).take
    (endCol stop cols absoluteRow - startCol start absoluteRow)

/-- The end of a row: a line feed, unless the line goes on or the selection ends. -/
def rowEnd (stop : HistoryPosition) (absoluteRow : Nat) : String :=
  if absoluteRow ≠ stop.row ∧ !row.wrapped then "\n" else ""

def displayedRow : String :=
  row.appendContentsRangeTo "" (startCol start absoluteRow)
    (endCol stop cols absoluteRow - startCol start absoluteRow) ++ rowEnd row stop absoluteRow

variable (rows : List Row)

def displayedText (cols : Nat) (start stop : HistoryPosition) : String :=
  (selectedRows start stop).foldl
    (fun contents absoluteRow =>
      contents ++ (rows[absoluteRow]?.elim "" fun row => displayedRow row start stop cols absoluteRow)) ""

def copiedText (cols : Nat) (start stop : HistoryPosition) (selected : List Nat)
    (contents : String) : String :=
  selected.foldl
    (fun contents absoluteRow =>
      rows[absoluteRow]?.elim contents fun row =>
        pushRow start stop cols absoluteRow (fun col => row.cells[col]?) row.wrapped contents) contents

theorem toList_pushCells (cells : List Cell) (start stop : Nat) (contents : String) :
    (pushCells (fun col => cells[col]?) start stop contents).toList =
      contents.toList ++ plainText ((cells.drop start).take (stop - start)) := by
  unfold pushCells
  generalize stop - start = count
  induction count generalizing start contents with
  | zero => exact (append_nil _).symm
  | succ count ih =>
    rw [range'_succ, foldl_cons, ih, String.toList_append, append_assoc]
    congr 1
    dsimp only
    by_cases hlt : start < cells.length
    · rw [drop_eq_getElem_cons hlt, getElem?_eq_getElem hlt]
      rfl
    · rw [not_lt] at hlt
      rw [drop_eq_nil_of_le hlt, drop_eq_nil_of_le (Nat.le_succ_of_le hlt), getElem?_eq_none hlt, take_nil]
      rfl

theorem toList_pushRow (contents : String) :
    (pushRow start stop cols absoluteRow (fun col => row.cells[col]?) row.wrapped contents).toList =
      contents.toList ++ (plainText (selectedCells row start stop cols absoluteRow) ++
        (rowEnd row stop absoluteRow).toList) := by
  unfold pushRow rowEnd selectedCells
  split
  · rw [String.toList_push, toList_pushCells, append_assoc]
    rfl
  · rw [toList_pushCells]
    exact congrArg _ (append_nil _).symm

theorem appendContentsRangeTo_eq (output : String) (start width : Nat) :
    row.appendContentsRangeTo output start width =
      (((row.cells.drop start).take width).foldl Row.appendCell (output, 0)).1 := by
  unfold Row.appendContentsRangeTo
  dsimp only
  congr 2
  by_cases hle : start ≤ row.cells.length
  · rw [min_eq_left (by omega : start ≤ min (start + width) row.cells.length)]
    rw [take_eq_take_iff, length_drop]
    omega
  · have hnil : row.cells.drop start = [] := drop_eq_nil_of_le (by omega)
    have hnil' : row.cells.drop (min start (min (start + width) row.cells.length)) = [] :=
      drop_eq_nil_of_le (by omega)
    rw [hnil, hnil', take_nil, take_nil]

/-- **A row** is copied as it is displayed if and only if no blank cell stands left of text. -/
theorem displayedRow_eq (h : Spaced (selectedCells row start stop cols absoluteRow)) :
    (displayedRow row start stop cols absoluteRow).toList.length =
        (plainText (selectedCells row start stop cols absoluteRow) ++
          (rowEnd row stop absoluteRow).toList).length +
          gaps 0 (selectedCells row start stop cols absoluteRow) ∧
      (gaps 0 (selectedCells row start stop cols absoluteRow) = 0 →
        (displayedRow row start stop cols absoluteRow).toList =
          plainText (selectedCells row start stop cols absoluteRow) ++
            (rowEnd row stop absoluteRow).toList) := by
  unfold displayedRow
  rw [appendContentsRangeTo_eq, String.toList_append, length_append, length_append]
  constructor
  · rw [← selectedCells, length_appendCell h, show ("" : String).toList.length = 0 from rfl]
    omega
  · intro hnone
    rw [← selectedCells, appendCell_of_gaps h hnone]
    rfl

/-- The cells of all selected rows are spaced. -/
def SpacedRows : Prop := ∀ row ∈ rows, Spaced row.cells

theorem SpacedRows.selected {rows : List Row} (h : SpacedRows rows) {row : Row} (hrow : row ∈ rows)
    (start stop : HistoryPosition) (cols absoluteRow : Nat) :
    Spaced (selectedCells row start stop cols absoluteRow) :=
  fun cell hcell => h row hrow cell (mem_of_mem_drop (mem_of_mem_take hcell))

def GaplessRows (cols : Nat) (start stop : HistoryPosition) (selected : List Nat) : Prop :=
  ∀ absoluteRow ∈ selected, ∀ row, rows[absoluteRow]? = some row →
    Gapless (selectedCells row start stop cols absoluteRow)

theorem copied_eq_displayed_iff {rows : List Row} (h : SpacedRows rows) (cols : Nat)
    (start stop : HistoryPosition) (selected : List Nat) (copied displayed : String)
    (before : copied.toList.length ≤ displayed.toList.length) :
    (copiedText rows cols start stop selected copied = selected.foldl
          (fun contents absoluteRow =>
            contents ++ (rows[absoluteRow]?.elim "" fun row => displayedRow row start stop cols absoluteRow))
          displayed ↔
      copied = displayed ∧ GaplessRows rows cols start stop selected) := by
  unfold copiedText GaplessRows
  induction selected generalizing copied displayed with
  | nil => simp
  | cons absoluteRow selected ih =>
    rw [foldl_cons, foldl_cons, forall_mem_cons]
    cases hrow : rows[absoluteRow]? with
    | none =>
      rw [elim_none, elim_none, String.append_empty, ih copied displayed before]
      simp
    | some row =>
      have hspaced := h.selected (mem_of_getElem? hrow) start stop cols absoluteRow
      obtain ⟨hlength, hsame⟩ := displayedRow_eq row start stop cols absoluteRow hspaced
      have hpush := toList_pushRow row start stop cols absoluteRow copied
      have hlonger : (pushRow start stop cols absoluteRow (fun col => row.cells[col]?) row.wrapped
          copied).toList.length ≤ (displayed ++ displayedRow row start stop cols absoluteRow).toList.length := by
        rw [hpush, String.toList_append]
        simp only [length_append] at hlength ⊢
        omega
      rw [elim_some, elim_some, ih _ _ hlonger, ← and_assoc]
      apply and_congr_left'
      rw [← String.toList_inj, hpush, String.toList_append, ← String.toList_inj]
      simp only [some.injEq, forall_eq']
      rw [← gapless_iff]
      constructor
      · intro heq
        have hcount := congrArg length heq
        simp only [length_append] at hcount hlength
        have hnone : gaps 0 (selectedCells row start stop cols absoluteRow) = 0 := by omega
        rw [hsame hnone] at heq
        exact ⟨append_cancel_right heq, hnone⟩
      · rintro ⟨heq, hnone⟩
        rw [heq, hsame hnone]

/-! ## The loops -/

theorem selectedRows_eq {start stop : HistoryPosition} (h : stop.lt start = false) :
    start.row ≤ stop.row ∧ selectedRows start stop = range' start.row (stop.row - start.row + 1) := by
  rw [HistoryPosition.lt, Bool.or_eq_false_iff] at h
  have hle : start.row ≤ stop.row := not_lt.mp (of_decide_eq_false h.1)
  refine ⟨hle, ?_⟩
  unfold selectedRows
  congr 1
  omega

theorem foldl_zipIdx_slice {α β : Type} (rows : List α) (step : β → α → Nat → β) (start count : Nat)
    (h : start + count ≤ rows.length) (init : β) :
    ((rows.zipIdx.drop start).take count).foldl (fun acc row => step acc row.1 row.2) init =
      (range' start count).foldl
        (fun acc index => rows[index]?.elim acc fun row => step acc row index) init := by
  induction count generalizing start init with
  | zero => rfl
  | succ count ih =>
    have hlt : start < rows.length := by omega
    have hlt' : start < rows.zipIdx.length := by rw [length_zipIdx]; exact hlt
    rw [drop_eq_getElem_cons hlt', take_succ_cons, foldl_cons, range'_succ,
      foldl_cons, ih (start + 1) (by omega), getElem_zipIdx, getElem?_eq_getElem hlt]
    simp only [zero_add, elim_some]

/-- **The frozen loop.** -/
theorem contentsBetweenSnapshotHistory_eq (snapshot : TerminalSnapshot) (start stop : HistoryPosition) :
    contentsBetweenSnapshotHistory snapshot start stop =
      if stop.lt start ∨ (snapshot.scrollback ++ snapshot.rows).length ≤ stop.row then none
      else
        some (copiedText (snapshot.scrollback ++ snapshot.rows) snapshot.size.2 start stop
          (selectedRows start stop) "") := by
  unfold contentsBetweenSnapshotHistory
  dsimp only
  rw [length_append]
  split
  · rfl
  · rename_i hrange
    rw [not_or, Bool.not_eq_true] at hrange
    obtain ⟨hle, hrows⟩ := selectedRows_eq hrange.1
    have hfold := foldl_zipIdx_slice (snapshot.scrollback ++ snapshot.rows)
      (fun contents row index => pushRow start stop snapshot.size.2 index (fun col => row.cells[col]?)
        row.wrapped contents) start.row (stop.row - start.row + 1) (by rw [length_append]; omega) ""
    rw [hfold, hrows]
    rfl

end Lector.Accessibility

namespace Lector.Terminal.GhosttyEngine
open List

variable (engine : GhosttyEngine)

theorem rows_snapshot_scrollback {offset : Nat} (h : offset ≤ engine.terminal.history.length)
    (viewport : engine.viewport = .scrollback offset) : engine.snapshot.rows =
      ((engine.terminal.history ++ engine.terminal.live.rows).drop
        (engine.terminal.history.length - offset)).take engine.terminal.live.rows.length := by
  have hlength : ((engine.terminal.history ++ engine.terminal.live.rows).drop
      (engine.terminal.history.length - offset)).length = offset + engine.terminal.live.rows.length := by
    rw [length_drop, length_append]
    omega
  unfold snapshot
  rw [viewport]
  dsimp only
  rw [length_take, hlength, min_eq_left (Nat.le_add_left _ _), Nat.sub_self, replicate_zero, append_nil]

theorem rows_selectViewport {offset : Nat} (h : offset ≤ engine.terminal.history.length) :
    (engine.selectViewport (.scrollback offset)).snapshot.rows =
      ((engine.terminal.history ++ engine.terminal.live.rows).drop
        (engine.terminal.history.length - offset)).take engine.terminal.live.rows.length := by
  by_cases hzero : offset = 0
  · have hlive : (engine.selectViewport (.scrollback offset)).viewport = .live := by
      subst hzero
      unfold selectViewport
      rw [if_pos rfl]
      dsimp only
      split
      · assumption
      · rfl
    unfold snapshot
    rw [hlive, hzero, Nat.sub_zero, drop_left, take_length, selectViewport_terminal]
  · have hviewport : (engine.selectViewport (.scrollback offset)).viewport = .scrollback offset := by
      have hne : Viewport.scrollback offset ≠ .scrollback 0 := by simpa using hzero
      unfold selectViewport
      rw [if_neg hne]
      dsimp only
      split
      · assumption
      · unfold refreshViewport
        dsimp only
        rw [min_eq_left h, if_neg hzero]
    have hrows := rows_snapshot_scrollback (engine.selectViewport (.scrollback offset))
      (by rw [selectViewport_terminal]; exact h) hviewport
    rw [selectViewport_terminal] at hrows
    exact hrows

end Lector.Terminal.GhosttyEngine

namespace Lector.Accessibility
open Terminal
open List hiding min not_le not_lt

namespace View

variable (view : View)

def reviewRows : List Row :=
  match view.accessibilityReadState with
  | .frozen _ => view.committedSnapshot.scrollback ++ view.committedSnapshot.rows
  | .live => view.engine.terminal.history ++ view.engine.terminal.live.rows

def columns : Nat :=
  match view.accessibilityReadState with
  | .frozen _ => view.committedSnapshot.size.2
  | .live => view.size.2

/-- The extent is known, a screen has between one row and `u16::MAX`, and second halves have no
text. -/
structure Settled : Prop where
  retained : view.accessibilityReadState = .live →
    view.retainedHistoryLen = view.engine.terminal.history.length
  height : 0 < view.engine.terminal.live.rows.length ∧ view.engine.terminal.live.rows.length < 2 ^ 16
  column : view.reviewCursorPosition.2 < 2 ^ 16
  spaced : SpacedRows view.reviewRows

variable {view}

theorem length_snapshot_rows (engine : GhosttyEngine) :
    engine.snapshot.rows.length = engine.terminal.live.rows.length := by
  unfold GhosttyEngine.snapshot
  split
  · rfl
  · rw [length_append, length_replicate, length_take]
    omega

theorem placeOf_eq (retained : view.retainedHistoryLen = view.engine.terminal.history.length)
    (height : 0 < view.engine.terminal.live.rows.length ∧ view.engine.terminal.live.rows.length < 2 ^ 16)
    (engine : GhosttyEngine) (terminal : engine.terminal = view.engine.terminal) (absoluteRow : Nat) :
    (view.placeOf engine absoluteRow = none ∧
        (view.engine.terminal.history ++ view.engine.terminal.live.rows)[absoluteRow]? = none) ∨
      ∃ offset visibleRow row, view.placeOf engine absoluteRow = some (offset, visibleRow) ∧
        (view.engine.terminal.history ++ view.engine.terminal.live.rows)[absoluteRow]? = some row ∧
        (engine.selectViewport (.scrollback offset)).snapshot.rows[visibleRow]? = some row := by
  obtain ⟨hpos, hlt⟩ := height
  unfold placeOf
  rw [retained]
  by_cases hhistory : absoluteRow < view.engine.terminal.history.length
  · right
    have hall : absoluteRow < (view.engine.terminal.history ++ view.engine.terminal.live.rows).length := by
      rw [length_append]
      omega
    rw [if_pos hhistory]
    refine ⟨_, _, _, rfl, getElem?_eq_getElem hall, ?_⟩
    rw [GhosttyEngine.rows_selectViewport _ (by rw [terminal]; omega), terminal,
      getElem?_take_of_lt hpos, getElem?_drop, ← getElem?_eq_getElem hall]
    congr 1
    omega
  · rw [if_neg hhistory]
    have hsize : engine.snapshot.size.1 = view.engine.terminal.live.rows.length := by
      unfold TerminalSnapshot.size clampU16
      rw [length_snapshot_rows, terminal]
      exact min_eq_left (by omega)
    rw [hsize]
    by_cases hscreen : view.engine.terminal.live.rows.length ≤ absoluteRow - view.engine.terminal.history.length
    · left
      rw [if_pos hscreen]
      refine ⟨rfl, getElem?_eq_none ?_⟩
      rw [length_append]
      omega
    · right
      have hrow : absoluteRow - view.engine.terminal.history.length < view.engine.terminal.live.rows.length := by
        omega
      rw [if_neg hscreen]
      refine ⟨_, _, view.engine.terminal.live.rows[absoluteRow - view.engine.terminal.history.length], rfl,
        ?_, ?_⟩
      · rw [getElem?_append_right (not_lt.mp hhistory), getElem?_eq_getElem hrow]
      · rw [GhosttyEngine.rows_selectViewport _ (Nat.zero_le _), terminal, Nat.sub_zero, drop_left,
          take_length, getElem?_eq_getElem hrow]

/-- **The live loop.** -/
theorem pushLiveRows_eq (retained : view.retainedHistoryLen = view.engine.terminal.history.length)
    (height : 0 < view.engine.terminal.live.rows.length ∧ view.engine.terminal.live.rows.length < 2 ^ 16)
    (start stop : HistoryPosition) (cols : Nat) (selected : List Nat) (engine : GhosttyEngine)
    (terminal : engine.terminal = view.engine.terminal) (contents : String) :
    (view.pushLiveRows start stop cols selected engine contents).1 =
      if ∀ absoluteRow ∈ selected,
          absoluteRow < (view.engine.terminal.history ++ view.engine.terminal.live.rows).length then
        some (copiedText (view.engine.terminal.history ++ view.engine.terminal.live.rows) cols start stop
          selected contents)
      else none := by
  induction selected generalizing engine contents with
  | nil => rfl
  | cons absoluteRow selected ih =>
    rw [pushLiveRows]
    rcases placeOf_eq retained height engine terminal absoluteRow with
      ⟨hplace, hrow⟩ | ⟨offset, visibleRow, row, hplace, hrow, hshown⟩
    · rw [hplace, if_neg]
      intro hall
      have hlt := hall absoluteRow mem_cons_self
      rw [getElem?_eq_getElem hlt] at hrow
      cases hrow
    · have hlt := (List.getElem?_eq_some_iff.mp hrow).1
      have hcell : (engine.selectViewport (.scrollback offset)).snapshot.cell visibleRow =
          fun col => row.cells[col]? := by
        funext col
        rw [TerminalSnapshot.cell, hshown, Option.bind_some]
      have hwrapped : (engine.selectViewport (.scrollback offset)).snapshot.rowWrapped visibleRow =
          row.wrapped := by
        rw [TerminalSnapshot.rowWrapped, hshown, Option.any_some]
      rw [hplace]
      rw [ih _ (by rw [GhosttyEngine.selectViewport_terminal, terminal]), hcell, hwrapped]
      simp only [forall_mem_cons, hlt, true_and]
      congr 2
      unfold copiedText
      rw [foldl_cons, hrow, Option.elim_some]

/-- **Both implementations** copy the same text of the same rows. -/
theorem Settled.contentsBetweenHistory_eq (h : view.Settled) (start stop : HistoryPosition) :
    (view.contentsBetweenHistory start stop).1 =
      if stop.lt start ∨ view.reviewRows.length ≤ stop.row then none
      else some (copiedText view.reviewRows view.columns start stop (selectedRows start stop) "") := by
  have hretained := h.retained
  unfold contentsBetweenHistory reviewRows columns
  by_cases hlt : stop.lt start
  · rw [if_pos hlt, if_pos (.inl hlt)]
  · rw [if_neg hlt]
    cases hstate : view.accessibilityReadState with
    | frozen state => exact contentsBetweenSnapshotHistory_eq view.committedSnapshot start stop
    | live =>
      rw [pushLiveRows_eq (hretained hstate) h.height start stop view.size.2 _ view.engine rfl]
      obtain ⟨hle, hrows⟩ := selectedRows_eq (Bool.not_eq_true _ ▸ hlt : stop.lt start = false)
      have hrange : (∀ absoluteRow ∈ selectedRows start stop, absoluteRow <
          (view.engine.terminal.history ++ view.engine.terminal.live.rows).length) ↔
          ¬(stop.lt start = true ∨
            (view.engine.terminal.history ++ view.engine.terminal.live.rows).length ≤ stop.row) := by
        rw [not_or, not_le, and_iff_right hlt, hrows]
        constructor
        · intro hall
          apply hall stop.row
          rw [mem_range'_1]
          omega
        · intro hstop absoluteRow hmem
          rw [mem_range'_1] at hmem
          omega
      by_cases hall : stop.lt start = true ∨
          (view.engine.terminal.history ++ view.engine.terminal.live.rows).length ≤ stop.row
      · rw [if_pos hall, if_neg (fun hbad => hrange.mp hbad hall)]
      · rw [if_neg hall, if_pos (hrange.mpr hall)]

def selectionEnd (view : View) : HistoryPosition :=
  ⟨view.reviewHistoryPosition.row, min (saturatingAdd 16 view.reviewHistoryPosition.col 1) view.size.2⟩

/-- **Copying and the display.** A selection on the rows of a view, live or frozen, is copied. The text is the
displayed one exactly when no selected row has a blank cell left of text. -/
theorem copyReviewSelection_displayed {view : View} (h : view.Settled) :
    (∀ mark : HistoryPosition, view.reviewHistoryPosition.lt mark = false → mark.col ≤ view.size.2 →
      view.reviewHistoryPosition.row < view.reviewRows.length → ((view.copyReviewSelection mark).1).isSome) ∧
    (∀ mark text, (view.copyReviewSelection mark).1 = some text →
      (text = displayedText view.reviewRows view.columns mark view.selectionEnd ↔
        GaplessRows view.reviewRows view.columns mark view.selectionEnd
          (selectedRows mark view.selectionEnd))) ∧
    ∀ other : View, other.Settled → other.reviewRows = view.reviewRows → other.columns = view.columns →
      ∀ start stop, (other.contentsBetweenHistory start stop).1 = (view.contentsBetweenHistory start stop).1 := by
  have hcopy : ∀ mark, (view.copyReviewSelection mark).1 =
      if view.reviewHistoryPosition.lt mark then none
      else (view.contentsBetweenHistory mark view.selectionEnd).1 := by
    intro mark
    unfold copyReviewSelection
    dsimp only
    split <;> rfl
  refine ⟨?_, ?_, ?_⟩
  · intro mark hmark hcol hrow
    have hend : view.selectionEnd.lt mark = false := by
      have hcolumn : view.reviewHistoryPosition.col < 2 ^ 16 := h.column
      rw [HistoryPosition.lt, Bool.or_eq_false_iff, Bool.and_eq_false_iff] at hmark ⊢
      refine ⟨hmark.1, hmark.2.imp id fun hlt => decide_eq_false ?_⟩
      have hle := of_decide_eq_false hlt
      unfold selectionEnd saturatingAdd
      dsimp only
      omega
    rw [hcopy, hmark, if_neg Bool.false_ne_true, h.contentsBetweenHistory_eq, if_neg]
    · rfl
    · rw [hend, not_or]
      exact ⟨Bool.false_ne_true, not_le.mpr hrow⟩
  · intro mark text htext
    rw [hcopy, h.contentsBetweenHistory_eq] at htext
    split at htext
    · cases htext
    · split at htext
      · cases htext
      · have hiff := copied_eq_displayed_iff h.spaced view.columns mark view.selectionEnd
          (selectedRows mark view.selectionEnd) "" "" (le_rfl)
        rw [and_iff_right rfl] at hiff
        rw [Option.some.injEq] at htext
        rw [← htext]
        exact hiff
  · intro other hother hrows hcolumns start stop
    rw [hother.contentsBetweenHistory_eq, h.contentsBetweenHistory_eq, hrows, hcolumns]

end View

/-! ### Two letters, with and without a gap -/

def oneRow (cells : List Cell) : NativeTerminal where
  live :=
    { rows := [⟨cells, false⟩]
      scrollback := []
      cursor := ⟨0, 2, true, .block⟩
      geometry := ⟨1, 3, 0, 0⟩
      screen := .primary
      modes := .default
      title := none
      workingDirectory := none
      historyOrigin := 0
      scrollbackExtent := 0
      viewport := .live }
  history := []
  markPosition := fun _ => none
  extent := rfl
  visible := ⟨rfl, rfl⟩

def letter (grapheme : String) : Cell := ⟨grapheme, 1, false, .default, none⟩

def oneRowView (cells : List Cell) : View := View.new ⟨1⟩ (oneRow cells)

theorem oneRowView_settled {cells : List Cell} (h : Spaced cells) : (oneRowView cells).Settled where
  retained := fun _ => rfl
  height := ⟨zero_lt_one, show 1 < 2 ^ 16 by decide⟩
  column := show 2 < 2 ^ 16 by decide
  spaced := by
    intro row hrow
    rw [show (oneRowView cells).reviewRows = [⟨cells, false⟩] from rfl, mem_singleton] at hrow
    rw [hrow]
    exact h

theorem copyReviewSelection_displayed_word :
    ((oneRowView [letter "a", letter "b", .default]).copyReviewSelection ⟨0, 0⟩).1 = some "ab" ∧
      "ab" = displayedText (oneRowView [letter "a", letter "b", .default]).reviewRows 3 ⟨0, 0⟩ ⟨0, 3⟩ := by
  have hspaced : Spaced [letter "a", letter "b", .default] := by
    unfold Spaced
    decide +kernel
  have hcopied : ((oneRowView [letter "a", letter "b", .default]).copyReviewSelection ⟨0, 0⟩).1 =
      some "ab" := by
    decide +kernel
  refine ⟨hcopied, ?_⟩
  have hiff := (View.copyReviewSelection_displayed (oneRowView_settled hspaced)).2.1 ⟨0, 0⟩ "ab" hcopied
  apply hiff.mpr
  intro absoluteRow hmem row hrow
  have hzero : absoluteRow = 0 := by
    have hselected : absoluteRow ∈ [0] := hmem
    exact mem_singleton.mp hselected
  subst hzero
  cases hrow
  exact gapless_iff.mp (by decide +kernel)

/-- A tab or a cursor movement leaves a blank cell, which is not copied. -/
theorem copied_without_gap :
    ((oneRowView [letter "a", .default, letter "b"]).copyReviewSelection ⟨0, 0⟩).1 = some "ab" ∧
      displayedText (oneRowView [letter "a", .default, letter "b"]).reviewRows 3 ⟨0, 0⟩ ⟨0, 3⟩ = "a b" := by
  decide +kernel

end Lector.Accessibility
