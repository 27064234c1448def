import Lector.Presentation.Semantic

/-! The rows that the semantic path predicts are those that a terminal shows after the commands. -/
namespace Lector.Presentation
open Output Terminal Shifting Screen
open Option hiding any_eq_false map_map mem_map min
open List hiding insert min

/-! ## Cells -/

theorem narrow_shownCell {cell : Cell} (h : Narrow cell) : Narrow (shownCell cell) := h

theorem cellOr_splice_outside {xs ys : List Cell} {first : Nat} (h : first + ys.length ≤ xs.length) {n : Nat}
    (hn : ¬ (first ≤ n ∧ n < first + ys.length)) : cellOr (Shifting.splice xs first ys) n = cellOr xs n := by
  rw [cellOr, cellOr, getElem?_splice_outside h (by omega)]

theorem cellOr_splice_inside {xs ys : List Cell} {first n : Nat} (h : first ≤ xs.length)
    (hn : n < ys.length) : cellOr (Shifting.splice xs first ys) (first + n) = cellOr ys n := by
  rw [cellOr, cellOr, getElem?_splice_inside h hn]

theorem mend_splice_narrow {f xs : List Cell} {first : Nat} (h : first + xs.length ≤ f.length)
    (narrow : ∀ x ∈ xs, Narrow x) :
    mend (Shifting.splice (mend f) first xs) = mend (Shifting.splice f first xs) := by
  have hmend : first + xs.length ≤ (mend f).length := by rwa [length_mend]
  have hinside : ∀ n, first ≤ n ∧ n < first + xs.length → ∀ g : List Cell,
      first + xs.length ≤ g.length → cellOr (Shifting.splice g first xs) n = cellOr xs (n - first) := by
    intro n hn g hg
    have hsplit : n = first + (n - first) := by omega
    conv_lhs => rw [hsplit]
    exact cellOr_splice_inside (by omega) (by omega)
  have hnarrow : ∀ n, first ≤ n ∧ n < first + xs.length → Narrow (cellOr (Shifting.splice f first xs) n) := by
    intro n hn
    have hlt : n - first < xs.length := by omega
    rw [hinside n hn f h, cellOr_of_some (getElem?_eq_getElem hlt)]
    exact narrow _ (getElem_mem hlt)
  have hover : Overwritten (Shifting.splice (mend f) first xs) (Shifting.splice f first xs) f
      fun n => first ≤ n ∧ n < first + xs.length := by
    refine ⟨?_, fun n _ hn => ?_, fun n hlt hn => ⟨?_, ?_⟩, fun n hjoined => ?_⟩
    · rw [length_splice hmend, length_splice h, length_mend]
    · rw [mendCell_narrow (hnarrow n hn), hinside n hn f h, hinside n hn _ hmend]
    · rw [length_splice h] at hlt
      rw [cellOr_splice_outside hmend hn, cellOr_mend hlt]
    · exact cellOr_splice_outside h hn
    · rw [joined, Bool.and_eq_true] at hjoined
      have hleft : ¬ (first ≤ n ∧ n < first + xs.length) := fun hn => by
        rw [(hnarrow n hn).1] at hjoined
        exact Bool.noConfusion hjoined.1
      have hright : ¬ (first ≤ n + 1 ∧ n + 1 < first + xs.length) := fun hn => by
        rw [(hnarrow (n + 1) hn).2] at hjoined
        exact Bool.noConfusion hjoined.2
      exact ⟨fun hn => absurd hn hleft, fun hn => absurd hn hright⟩
  exact hover.mend_eq

theorem mend_splice_glyph {f : List Cell} {first : Nat} {lead cont : Cell}
    (h : first + 2 ≤ f.length) (wide : lead.isWide) (continuation : cont.isWideContinuation) :
    mend (Shifting.splice (mend f) first [lead, trail lead]) =
      mend (Shifting.splice f first [lead, cont]) := by
  have hmend : first + 2 ≤ (mend f).length := by rwa [length_mend]
  have hat : ∀ (g : List Cell) (x y : Cell), first + 2 ≤ g.length →
      cellOr (Shifting.splice g first [x, y]) first = x ∧
        cellOr (Shifting.splice g first [x, y]) (first + 1) = y := by
    intro g x y hg
    have hfirst : first ≤ g.length := by omega
    exact ⟨@cellOr_splice_inside g [x, y] first 0 hfirst (Nat.zero_lt_succ 1),
      @cellOr_splice_inside g [x, y] first 1 hfirst (Nat.lt_succ_self 1)⟩
  have hlength : ∀ (g : List Cell) (x y : Cell), first + 2 ≤ g.length →
      (Shifting.splice g first [x, y]).length = g.length := fun g x y hg =>
    @length_splice _ g [x, y] first hg
  obtain ⟨hlead, hcont⟩ := hat f lead cont h
  obtain ⟨hlead', hcont'⟩ := hat (mend f) lead (trail lead) hmend
  have hjoined : joined (Shifting.splice f first [lead, cont]) first = true := by
    rw [joined, hlead, hcont, wide, continuation, Bool.and_self]
  have hover : Overwritten (Shifting.splice (mend f) first [lead, trail lead])
      (Shifting.splice f first [lead, cont]) f fun n => first ≤ n ∧ n < first + 2 := by
    refine ⟨?_, fun n _ hn => ?_, fun n hlt hn => ⟨?_, ?_⟩, fun n hpair => ?_⟩
    · rw [hlength (mend f) lead (trail lead) hmend, hlength f lead cont h, length_mend]
    · rcases (by omega : n = first ∨ n = first + 1) with rfl | rfl
      · rw [mendCell_lead hjoined, hlead, hlead']
      · rw [mendCell_trail hjoined, hlead, hcont']
    · rw [hlength f lead cont h] at hlt
      rw [@cellOr_splice_outside (mend f) [lead, trail lead] first hmend n hn, cellOr_mend hlt]
    · exact @cellOr_splice_outside f [lead, cont] first h n hn
    · -- the lead begins a glyph and the continuation ends one
      rw [joined, Bool.and_eq_true] at hpair
      have hleft : n + 1 ≠ first := by
        rintro rfl
        rw [hlead, continuation_of_isWide wide] at hpair
        exact Bool.noConfusion hpair.2
      have hright : n ≠ first + 1 := by
        rintro rfl
        rw [hcont, isWide_of_continuation continuation] at hpair
        exact Bool.noConfusion hpair.1
      omega
  exact hover.mend_eq

variable {cells : List Cell}

theorem mend_narrow (narrow : ∀ cell ∈ cells, Narrow cell) : mend cells = cells := by
  refine ext_getElem (length_mend cells) fun n hn hn' => ?_
  have hcell := cellOr_of_some (getElem?_eq_getElem hn')
  simp only [mend, getElem_mapIdx]
  rw [mendCell_narrow (hcell ▸ narrow _ (getElem_mem hn')), hcell]

theorem visibleRow_blankRow (geometry : TerminalGeometry) :
    visibleRow (blankRow geometry) = erasedRow geometry.cols.toNat := by
  have hmend : mend (replicate geometry.cols.toNat blankCell) = replicate geometry.cols.toNat blankCell :=
    mend_narrow fun cell hmem => eq_of_mem_replicate hmem ▸ narrow_blankCell
  rw [visibleRow, blankRow, visibleCells, map_replicate]
  exact congrArg (Row.mk · false) hmend

theorem visibleCells_splice_narrow {first : Nat} (xs : List Cell)
    (h : first + xs.length ≤ cells.length) (narrow : ∀ x ∈ xs, Narrow x) :
    mend (Shifting.splice (visibleCells cells) first (xs.map shownCell)) =
      visibleCells (Shifting.splice cells first xs) := by
  rw [visibleCells, mend_splice_narrow, visibleCells, map_splice]
  · rwa [length_map, length_map]
  · intro x hmem
    obtain ⟨y, hy, rfl⟩ := mem_map.mp hmem
    exact narrow_shownCell (narrow y hy)

/-! ## Lines -/

theorem visibleRows_set (rows : List Row) (n : Nat) (row : Row) :
    visibleRows (rows.set n row) = (visibleRows rows).set n (visibleRow row) := map_set

theorem visibleRows_getElem? {rows : List Row} {n : Nat} {row : Row} (h : rows[n]? = some row) :
    (visibleRows rows)[n]? = some (visibleRow row) := by
  rw [visibleRows, getElem?_map, h, map_some]

namespace Screen

variable {s : Screen} {rows : List Row} {row : Row}

theorem changeLine_visible (hrows : s.rows = visibleRows rows) (hrow : rows[s.row]? = some row)
    {f : List Cell → List Cell} {cells : List Cell}
    (hcells : mend (f (visibleCells row.cells)) = visibleCells cells) :
    s.changeLine f = { s with rows := visibleRows (rows.set s.row { row with cells := cells }) } := by
  rw [changeLine, hrows, Shifting.modify_eq_set (visibleRows_getElem? hrow), visibleRows_set]
  exact congrArg (fun cells => { s with rows := (visibleRows rows).set s.row ⟨cells, row.wrapped⟩ }) hcells

inductive Whole : List Cell → Prop
  | nil : Whole []
  | narrow {cell : Cell} {rest : List Cell} : Narrow cell → Whole rest → Whole (cell :: rest)
  | glyph {lead cont : Cell} {rest : List Cell} : lead.isWide → lead.grapheme ≠ "" →
      cont.isWideContinuation → Whole rest → Whole (lead :: cont :: rest)

theorem splice_nil (cells : List Cell) (first : Nat) : Shifting.splice cells first [] = cells := by
  rw [Shifting.splice, append_nil, length_nil, add_zero, take_append_drop]

variable {cell : Cell}

theorem printedColumns_narrow (h : Narrow cell) : printedColumns cell = 1 := by
  rw [printedColumns, h.1]
  split <;> rfl

theorem printedColumns_lead (wide : cell.isWide) (text : cell.grapheme ≠ "") : printedColumns cell = 2 := by
  rw [printedColumns, wide, if_neg (fun hempty => text (String.isEmpty_iff.mp hempty)), if_pos rfl]

theorem printCell_visible (hrows : s.rows = visibleRows rows) (hrow : rows[s.row]? = some row)
    (glyph : List Cell) (columns : printedColumns cell = glyph.length)
    (room : s.col + glyph.length ≤ s.cols)
    (hcells : mend (Shifting.splice (visibleCells row.cells) s.col (printed cell)) =
      visibleCells (Shifting.splice row.cells s.col glyph)) :
    s.printCell cell =
      { s with
        rows := visibleRows
          (rows.set s.row { row with cells := Shifting.splice row.cells s.col glyph })
        col := s.col + glyph.length } := by
  have hroom : ¬ s.cols < s.col + printedColumns cell := by omega
  have hchange := changeLine_visible (f := fun cells => Shifting.splice cells s.col (printed cell))
    hrows hrow hcells
  rw [printCell]
  simp only [if_neg hroom]
  rw [hchange, columns]

theorem printCells_kept (h : cell.isWideContinuation = false) (rest : List Cell) :
    s.printCells (cell :: rest) = (s.printCell cell).printCells rest := by
  have hkept : (!cell.continuation) = true := congrArg not h
  rw [printCells, printCells, filter_cons, if_pos hkept, foldl_cons]

theorem printCells_dropped (h : cell.isWideContinuation = true) (rest : List Cell) :
    s.printCells (cell :: rest) = s.printCells rest := by
  have hdropped : (!cell.continuation) = false := congrArg not h
  rw [printCells, printCells, filter_cons, if_neg (by rw [hdropped]; decide)]

theorem printCells_glyph (glyph : List Cell) {rest : List Cell}
    (ih : ∀ {s : Screen} {rows : List Row} {row : Row}, s.rows = visibleRows rows →
      rows[s.row]? = some row → row.cells.length = s.cols → s.col + rest.length ≤ s.cols →
      s.printCells rest =
        { s with
          rows := visibleRows
            (rows.set s.row { row with cells := Shifting.splice row.cells s.col rest })
          col := s.col + rest.length })
    (hrow : rows[s.row]? = some row) (width : row.cells.length = s.cols)
    (room : s.col + (glyph ++ rest).length ≤ s.cols) :
    ({ s with
      rows := visibleRows (rows.set s.row { row with cells := Shifting.splice row.cells s.col glyph })
      col := s.col + glyph.length } : Screen).printCells rest =
      { s with
        rows := visibleRows
          (rows.set s.row { row with cells := Shifting.splice row.cells s.col (glyph ++ rest) })
        col := s.col + (glyph ++ rest).length } := by
  rw [length_append] at room
  have hfits : s.col + glyph.length ≤ row.cells.length := by omega
  have hrest := ih (s := { s with
      rows := visibleRows (rows.set s.row { row with cells := Shifting.splice row.cells s.col glyph })
      col := s.col + glyph.length }) rfl
    (getElem?_set_self (List.getElem?_eq_some_iff.mp hrow).1)
    ((length_splice hfits).trans width)
    (by show s.col + glyph.length + rest.length ≤ s.cols; omega)
  refine hrest.trans ?_
  simp only [set_set, splice_splice hfits, length_append, add_assoc]

/-- **Whole glyphs are printed on one line.** -/
theorem printCells_visible {cells : List Cell} (whole : Whole cells) {s : Screen} {rows : List Row}
    {row : Row} (hrows : s.rows = visibleRows rows) (hrow : rows[s.row]? = some row)
    (width : row.cells.length = s.cols) (room : s.col + cells.length ≤ s.cols) : s.printCells cells =
      { s with
        rows := visibleRows
          (rows.set s.row { row with cells := Shifting.splice row.cells s.col cells })
        col := s.col + cells.length } := by
  induction whole generalizing s rows row with
  | nil =>
    have hsame : rows.set s.row { row with cells := row.cells } = rows := by
      obtain ⟨hlt, rfl⟩ := List.getElem?_eq_some_iff.mp hrow
      exact set_getElem_self hlt
    rw [splice_nil, hsame, ← hrows]
    rfl
  | @narrow cell rest hnarrow _ ih =>
    have hfits : s.col + [cell].length ≤ row.cells.length := by
      rw [length_cons] at room
      rw [length_singleton]
      omega
    have hprint := printCell_visible hrows hrow [cell] (printedColumns_narrow hnarrow) (width ▸ hfits) (by
        rw [printed, printedColumns_narrow hnarrow]
        exact visibleCells_splice_narrow [cell] hfits fun x hx => mem_singleton.mp hx ▸ hnarrow)
    rw [printCells_kept hnarrow.2, hprint]
    exact printCells_glyph [cell] ih hrow width room
  | @glyph lead cont rest hwide htext hcont _ ih =>
    have hfits : s.col + [lead, cont].length ≤ row.cells.length := by
      rw [length_cons, length_cons] at room
      show s.col + 2 ≤ _
      omega
    have hprint := printCell_visible hrows hrow [lead, cont] (printedColumns_lead hwide htext)
      (width ▸ hfits) (by
        rw [printed, printedColumns_lead hwide htext, visibleCells, visibleCells, map_splice]
        exact mend_splice_glyph (by rwa [length_map]) hwide hcont)
    rw [printCells_kept (continuation_of_isWide hwide), printCells_dropped hcont, hprint]
    exact printCells_glyph [lead, cont] ih hrow width room

/-! ## Commands -/

structure Shows (s : Screen) (geometry : TerminalGeometry) (rows : List Row) : Prop where
  cols : s.cols = geometry.cols.toNat
  shown : s.rows = visibleRows rows
  sized : Sized geometry rows
  top : s.top = 0
  bottom : s.bottom = geometry.rows.toNat

variable {geometry : TerminalGeometry}

theorem Shows.length (h : Shows s geometry rows) : s.rows.length = geometry.rows.toNat := by
  rw [h.shown, visibleRows, length_map, h.sized.1]

theorem cursorTo_eq (length : s.rows.length = geometry.rows.toNat) (cols : s.cols = geometry.cols.toNat)
    {row col : Nat} (hrow : row < geometry.rows.toNat) (hcol : col < geometry.cols.toNat) :
    s.cursorTo row col = { s with row := row, col := col } := by
  rw [cursorTo, Nat.min_eq_left (by omega), Nat.min_eq_left (by omega)]

theorem Shows.set (h : Shows s geometry rows) {index : Nat} {row' : Row}
    (width : row'.cells.length = geometry.cols.toNat) {s' : Screen} (cols : s'.cols = s.cols)
    (hrows : s'.rows = visibleRows (rows.set index row')) (top : s'.top = s.top)
    (bottom : s'.bottom = s.bottom) : Shows s' geometry (rows.set index row') := by
  refine ⟨cols.trans h.cols, hrows, ⟨length_set.trans h.sized.1, fun row hmem => ?_⟩,
    top.trans h.top, bottom.trans h.bottom⟩
  rcases mem_or_eq_of_mem_set hmem with hmem | rfl
  · exact h.sized.2 row hmem
  · exact width

end Screen

/-! ## Shifts of a line -/

section Shift

variable {cells : List Cell} {left count : Nat}

end Shift

namespace Screen

variable {s : Screen} {geometry : TerminalGeometry} {state state' : SemanticState}

theorem replay_append (s : Screen) (commands more : List VtCommand) :
    s.replay (commands ++ more) = (s.replay commands).replay more := foldl_append

variable {rows rows' intended : List Row}

theorem setMargins_spec (h : Shows s geometry rows) {top bottom : Nat} (hbottom : top < bottom)
    (hrows : bottom ≤ geometry.rows.toNat) : ∃ row col first last, s.setMargins (top + 1) bottom =
        { s with row := row, col := col, top := first, bottom := last } ∧
      ((first = top ∧ last = bottom) ∨ (bottom = top + 1 ∧ first = 0 ∧ last = geometry.rows.toNat)) := by
  have hlength := h.length
  rw [setMargins]
  split
  · exact ⟨0, 0, top, bottom, rfl, .inl ⟨rfl, rfl⟩⟩
  · refine ⟨s.row, s.col, s.top, s.bottom, rfl, .inr ⟨?_, h.top, h.bottom⟩⟩
    omega

def shifted (geometry : TerminalGeometry) (rows : List Row) (top bottom count : Nat) (upward : Bool) :
    List Row :=
  if upward then Shifting.up rows top bottom count (blankRow geometry)
  else Shifting.down rows top bottom count (blankRow geometry)

theorem sized_shifted (sized : Sized geometry rows) {top bottom count : Nat}
    (hcount : top + count ≤ bottom) (hbottom : bottom ≤ geometry.rows.toNat) (upward : Bool) :
    Sized geometry (shifted geometry rows top bottom count upward) := by
  have hlast : bottom ≤ rows.length := sized.1 ▸ hbottom
  have hwidth : ∀ row, row ∈ rows ∨ row = blankRow geometry → row.cells.length = geometry.cols.toNat := by
    rintro row (hmem | rfl)
    · exact sized.2 row hmem
    · exact length_replicate
  rw [shifted]
  split
  · exact ⟨(length_up hcount hlast _).trans sized.1, fun row hmem => hwidth row (mem_up hmem)⟩
  · exact ⟨(length_down hcount hlast _).trans sized.1, fun row hmem => hwidth row (mem_down hmem)⟩

theorem visibleRows_up (geometry : TerminalGeometry) (rows : List Row) (top bottom count : Nat) :
    Shifting.up (visibleRows rows) top bottom count (erasedRow geometry.cols.toNat) =
      visibleRows (Shifting.up rows top bottom count (blankRow geometry)) := by
  rw [visibleRows, visibleRows, map_up, visibleRow_blankRow]

theorem visibleRows_down (geometry : TerminalGeometry) (rows : List Row) (top bottom count : Nat) :
    Shifting.down (visibleRows rows) top bottom count (erasedRow geometry.cols.toNat) =
      visibleRows (Shifting.down rows top bottom count (blankRow geometry)) := by
  rw [visibleRows, visibleRows, map_down, visibleRow_blankRow]

theorem shifted_fresh (sized : Sized geometry rows) {top bottom count n : Nat} (hcount : top + count ≤ bottom)
    (hbottom : bottom ≤ geometry.rows.toNat) (hn : n < count) (upward : Bool) :
    (shifted geometry rows top bottom count upward)[(if upward then bottom - count else top) + n]? =
      some (blankRow geometry) := by
  have hlast : bottom ≤ rows.length := sized.1 ▸ hbottom
  rw [shifted]
  split
  · exact getElem?_up_fill hcount hlast _ hn
  · exact getElem?_down_fill hcount hlast _ hn

theorem Shows.eraseLines (h : Shows s geometry rows) (hcols : 0 < geometry.cols.toNat) (lines : List Nat)
    (blank : ∀ n ∈ lines, rows[n]? = some (blankRow geometry)) :
    Shows (s.replay (lines.flatMap fun row => [.cursorTo row 0, .eraseLine])) geometry rows := by
  induction lines generalizing s with
  | nil => exact h
  | cons row rest ih =>
    have hrow := blank row mem_cons_self
    have hlt : row < geometry.rows.toNat := by
      rw [← h.sized.1]
      exact (List.getElem?_eq_some_iff.mp hrow).1
    have hset : (visibleRows rows).set row (erasedRow s.cols) = visibleRows rows := by
      obtain ⟨hbound, hget⟩ := List.getElem?_eq_some_iff.mp (visibleRows_getElem? hrow)
      rw [visibleRow_blankRow, ← h.cols] at hget
      rw [← hget]
      exact set_getElem_self hbound
    refine ih ?_ fun n hn => blank n (mem_cons_of_mem _ hn)
    show Shows ((s.cursorTo row 0).eraseLine) geometry rows
    rw [cursorTo_eq h.length h.cols hlt hcols, eraseLine]
    refine ⟨h.cols, ?_, h.sized, h.top, h.bottom⟩
    rw [h.shown, hset]

theorem Shows.shift (h : Shows s geometry rows) {top bottom count : Nat} {upward lines : Bool}
    (hcount : top + count ≤ bottom) (htop : top < bottom) (hbottom : bottom ≤ geometry.rows.toNat)
    (hcols : 0 < geometry.cols.toNat)
    (scrolls : top + 2 ≤ bottom ∨ if lines then top + 1 = geometry.rows.toNat else geometry.rows.toNat = 1) :
    Shows (s.replay (verticalCommands top bottom count upward lines)) geometry
      (shifted geometry rows top bottom count upward) := by
  have hsized := sized_shifted h.sized hcount hbottom upward
  obtain ⟨row, col, first, last, hmargins, hcases⟩ := setMargins_spec h htop hbottom
  have hamount : min count (bottom - top) = count := by omega
  have hlength := h.length
  show Shows ((s.setMargins (top + 1) bottom).replay _) _ _
  rw [hmargins]
  cases lines with
  | true =>
    have hlast : last = bottom ∧ first ≤ top := by
      simp only [if_true] at scrolls
      omega
    show Shows (replay (cursorTo _ top 0) _) _ _
    rw [@cursorTo_eq ⟨s.cols, s.rows, row, col, first, last⟩ geometry hlength h.cols top 0 (by omega) hcols]
    have hinside : first ≤ top ∧ top < bottom := ⟨hlast.2, htop⟩
    cases upward with
    | true =>
      show Shows (step (deleteLines _ count) .resetMargins) _ _
      simp only [deleteLines, hlast.1, if_pos hinside, hamount, h.cols, h.shown, visibleRows_up]
      exact ⟨rfl, rfl, hsized, rfl, (length_map _).trans hsized.1⟩
    | false =>
      show Shows (step (insertLines _ count) .resetMargins) _ _
      simp only [insertLines, hlast.1, if_pos hinside, hamount, h.cols, h.shown, visibleRows_down]
      exact ⟨rfl, rfl, hsized, rfl, (length_map _).trans hsized.1⟩
  | false =>
    have hlast : last = bottom ∧ first = top := by
      simp only [Bool.false_eq_true, if_false] at scrolls
      omega
    have herase : ∀ s' : Screen, Shows s' geometry (shifted geometry rows top bottom count upward) →
        Shows (s'.replay ((range count).flatMap fun row =>
          [.cursorTo ((if upward then bottom - count else top) + row) 0, .eraseLine])) geometry
          (shifted geometry rows top bottom count upward) := by
      intro s' hs'
      have hmap := hs'.eraseLines hcols
        ((range count).map fun row => (if upward then bottom - count else top) + row)
        (fun n hn => by
          obtain ⟨i, hi, rfl⟩ := mem_map.mp hn
          exact shifted_fresh h.sized hcount hbottom (mem_range.mp hi) upward)
      rwa [flatMap_map] at hmap
    refine herase _ ?_
    cases upward with
    | true =>
      show Shows (step (scrollUp _ count) .resetMargins) _ _
      simp only [scrollUp, hlast.1, hlast.2, hamount, h.cols, h.shown, visibleRows_up]
      exact ⟨rfl, rfl, hsized, rfl, (length_map _).trans hsized.1⟩
    | false =>
      show Shows (step (scrollDown _ count) .resetMargins) _ _
      simp only [scrollDown, hlast.1, hlast.2, hamount, h.cols, h.shown, visibleRows_down]
      exact ⟨rfl, rfl, hsized, rfl, (length_map _).trans hsized.1⟩

/-- An operation that was applied: its commands make the terminal show the predicted rows. -/
def Follows (s : Screen) (geometry : TerminalGeometry) (state state' : SemanticState) : Prop :=
  ∃ commands, state'.commands = state.commands ++ commands ∧ Shows (s.replay commands) geometry state'.rows

theorem Shows.change (h : Shows s geometry rows) {top left : Nat} (htop : top < geometry.rows.toNat)
    (hleft : left < geometry.cols.toNat) {row : Row} (hrow : rows[top]? = some row) {command : VtCommand}
    (change : List Cell → List Cell) (cells : List Cell) (width : cells.length = row.cells.length)
    (hstep : ∀ s' : Screen, s'.cols = geometry.cols.toNat → s'.col = left → s'.step command = s'.changeLine change)
    (hcells : mend (change (visibleCells row.cells)) = visibleCells cells) :
    Shows (s.replay [.cursorTo top left, command]) geometry
      (rows.set top { row with cells := cells }) := by
  show Shows ((s.cursorTo top left).step command) geometry _
  rw [cursorTo_eq h.length h.cols htop hleft, hstep ⟨s.cols, s.rows, top, left, s.top, s.bottom⟩ h.cols rfl,
    @changeLine_visible ⟨s.cols, s.rows, top, left, s.top, s.bottom⟩ rows row h.shown hrow change cells
      hcells]
  exact h.set (width.trans (h.sized.2 row (mem_of_getElem? hrow))) rfl rfl rfl rfl

theorem Shows.print (h : Shows s geometry rows) {top left : Nat} (htop : top < geometry.rows.toNat)
    (hleft : left < geometry.cols.toNat) {row : Row} (hrow : rows[top]? = some row) {cells : List Cell}
    (whole : Whole cells) (room : left + cells.length ≤ geometry.cols.toNat) :
    Shows ((s.cursorTo top left).printCells cells) geometry
      (rows.set top { row with cells := Shifting.splice row.cells left cells }) := by
  have hwidth := h.sized.2 row (mem_of_getElem? hrow)
  rw [cursorTo_eq h.length h.cols htop hleft,
    @printCells_visible cells whole ⟨s.cols, s.rows, top, left, s.top, s.bottom⟩ rows row h.shown hrow
      (hwidth.trans h.cols.symm) (h.cols ▸ room)]
  refine h.set ?_ rfl rfl rfl rfl
  exact (length_splice (by omega)).trans hwidth

/-- What a terminal can print: no wide cell is blank. -/
def Glyphs (row : Row) : Prop := WellFormed row ∧ ∀ cell ∈ row.cells, isWideBlank cell = false

/-- **A part of a row between glyphs is made of whole glyphs**, by induction on its length. -/
theorem whole_of_glyphs {row : Row} (h : Glyphs row) {stop : Nat} (hstop : stop ≤ row.cells.length)
    (hend : Between row stop) (length : Nat) {start : Nat} (hlength : start + length = stop)
    (hbegin : Between row start) : Whole ((row.cells.take stop).drop start) := by
  induction length using Nat.strong_induction_on generalizing start with
  | _ length ih =>
    have htake : (row.cells.take stop).length = stop := by rw [length_take, min_eq_left hstop]
    have hdrop : ∀ n, n < stop → (row.cells.take stop).drop n =
        cellOr row.cells n :: (row.cells.take stop).drop (n + 1) := by
      intro n hn
      rw [drop_eq_getElem_cons (htake.symm ▸ hn), getElem_take,
        cellOr_of_some (getElem?_eq_getElem (hn.trans_le hstop))]
    have hpairs := ((wellFormed_iff row).mp h.1).2
    rcases eq_zero_or_pos length with rfl | hpos
    · rw [drop_eq_nil_of_le (by omega)]
      exact .nil
    · have hlt : start < stop := by omega
      rw [hdrop start hlt]
      cases hwide : (cellOr row.cells start).isWide with
      | false =>
        have hnext : Between row (start + 1) := (hpairs start).symm.trans hwide
        exact .narrow ⟨hwide, hbegin⟩ (ih (length - 1) (by omega) (by omega) hnext)
      | true =>
        have hcont := (hpairs start).symm.trans hwide
        have hlt' : start + 1 < stop := by
          by_contra hge
          have heq : start + 1 = stop := by omega
          rw [heq, hend] at hcont
          cases hcont
        have hnext : Between row (start + 2) := (hpairs (start + 1)).symm.trans (isWide_of_continuation hcont)
        have hmem : cellOr row.cells start ∈ row.cells := by
          rw [cellOr_of_some (getElem?_eq_getElem (hlt.trans_le hstop))]
          exact getElem_mem _
        have htext : (cellOr row.cells start).grapheme ≠ "" := fun hempty => by
          have hblank := h.2 _ hmem
          rw [isWideBlank, hwide, hempty] at hblank
          cases hblank
        rw [hdrop (start + 1) hlt']
        exact .glyph hwide htext hcont (ih (length - 2) (by omega) (by omega) hnext)

def Prints (intended : Row) (run : Nat × Nat) : Prop :=
  run.1 < run.2 ∧ run.2 ≤ intended.cells.length ∧ Between intended run.1 ∧ Between intended run.2

theorem Shows.runs (h : Shows s geometry rows) {index : Nat} {row intended : Row}
    (hrow : rows[index]? = some row) (glyphs : Glyphs intended)
    (width : intended.cells.length = geometry.cols.toNat) {runs : List (Nat × Nat)}
    (prints : ∀ run ∈ runs, Prints intended run) :
    Shows (s.replay (runs.map fun run => .run index run.1 run.2 intended)) geometry
      (rows.set index (runs.foldl (copyRun · intended) row)) := by
  have hindex := (List.getElem?_eq_some_iff.mp hrow).1
  induction runs generalizing s rows row with
  | nil =>
    have hset : rows.set index row = rows := by
      obtain ⟨hlt, rfl⟩ := List.getElem?_eq_some_iff.mp hrow
      exact set_getElem_self hlt
    show Shows s geometry (rows.set index row)
    rwa [hset]
  | cons run rest ih =>
    obtain ⟨hproper, hbound, hbegin, hend⟩ := prints run mem_cons_self
    have hlength : ((intended.cells.take run.2).drop run.1).length = run.2 - run.1 := by
      rw [length_drop, length_take, min_eq_left hbound]
    have hwhole := whole_of_glyphs glyphs hbound hend (run.2 - run.1) (by omega) hbegin
    have hprint := h.print (h.sized.1 ▸ hindex) (by omega : run.1 < geometry.cols.toNat) hrow hwhole (by omega)
    have hrest := ih hprint (getElem?_set_self hindex)
      (fun other hmem => prints other (mem_cons_of_mem _ hmem))
      (by rwa [length_set])
    rw [set_set] at hrest
    exact hrest

variable {commands commands' : List VtCommand}

variable (texts : List String)

end Screen

end Lector.Presentation
