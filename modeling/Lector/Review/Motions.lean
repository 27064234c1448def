import Lector.Review.Positions

/-! The motions of the review cursor (`motion_target` and `move_to` in `src/views/review.rs`): from an
addressable position every motion comes to an addressable position. -/
namespace Lector.Review
open Scanning Terminal
open Option hiding mem_map min
open List hiding min

/-! ## The cursor -/

structure LastFind where
  direction : FindDirection
  till : Bool
  target : Char
  matched : HistoryPosition
deriving DecidableEq

structure ReviewCursor where
  cursor : HistoryPosition
  lastFind : Option LastFind
deriving DecidableEq

namespace ReviewCursor

variable (isAlphanumeric : Char → Bool) (document : ReviewDocument) (self : ReviewCursor)

def findTarget (start : HistoryPosition) (target : Char) (forward till : Bool) (count : Nat) :
    Option (HistoryPosition × HistoryPosition) := do
  let matched ← document.findCharacter start target forward false count
  let destination ← document.destination matched forward till
  if destination = self.cursor then none else some (matched, destination)

def motionTarget (motion : Motion) (count : Nat) : Option (HistoryPosition × Option LastFind) :=
  let position := self.cursor
  let place := fun (target : Option HistoryPosition) => target.map fun target => (target, self.lastFind)
  let other := ReviewDocument.moved position
  match motion with
  | .left => place (document.moveHorizontal position false count)
  | .right => place (document.moveHorizontal position true count)
  | .up => place (document.moveVertical position false count)
  | .down => place (document.moveVertical position true count)
  | .lineStart => place (other { position with col := 0 })
  | .firstNonblank => place (other { position with col := document.lineFirstNonblank position.row })
  | .lineEnd => place (other { position with col := document.lineLastCol position.row })
  | .word movement style => place (document.moveWord isAlphanumeric style position movement count)
  | .documentStart =>
    let row := min (count - 1) (document.rowCount - 1)
    place (other ⟨row, document.lineFirstNonblank row⟩)
  | .documentEnd =>
    let row := if count = 1 then document.rowCount - 1 else min (count - 1) (document.rowCount - 1)
    place (other ⟨row, document.lineFirstNonblank row⟩)
  | .matchingBrace =>
    place (((List.range count).foldlM (fun position _ => document.matchingBrace position) position).bind other)
  | .find direction till target =>
    (self.findTarget document position target (direction == .forward) till count).map fun found =>
      (found.2, some ⟨direction, till, target, found.1⟩)
  | .repeatFind reverse => do
    let find ← self.lastFind
    let forward := (find.direction == .forward) != reverse
    let start := if reverse then position else find.matched
    let found ← self.findTarget document start find.target forward find.till count
    some (found.2, some { find with matched := found.1 })
  | .prompt forward => place (document.prompt position forward count)

def move (motion : Motion) (count : Nat) : ReviewCursor :=
  match self.motionTarget isAlphanumeric document motion count with
  | none => self
  | some (target, lastFind) => ⟨document.clamp target, lastFind⟩

def moves (commands : List (Motion × Nat)) : ReviewCursor :=
  commands.foldl (fun self command => self.move isAlphanumeric document command.1 command.2) self

end ReviewCursor

/-! ## Addressable positions -/

/-- A continuation has no text, and comes after a wide cell or fills the last of several columns. -/
def Spaced (row : Terminal.Row) : Prop :=
  ∀ col cell, row.cells[col]? = some cell → cell.isWideContinuation = true → cell.contents = "" ∧
      ((∃ before wide, col = before + 1 ∧ row.cells[before]? = some wide ∧ wide.isWide = true) ∨
        col + 1 = row.cells.length ∧ 1 < row.cells.length)

namespace ReviewDocument

/-- Continuations have no text and are not at the start of a row. -/
structure WellSpaced (document : ReviewDocument) : Prop where
  lead : ∀ row, document.continuation row 0 = false
  text : ∀ row col, document.continuation row col = true → document.cellText ⟨row, col⟩ = ""

variable {self : ReviewDocument}

variable {captureCols count row firstCol : Nat}

theorem continuation_captureRow {source : Terminal.Row} {col : Nat} {cell : Cell}
    (h : (captureRow captureCols source).cells[col]? = some cell) (hcell : cell.wideContinuation = true) :
    ∃ original, source.cells[col]? = some original ∧ original.isWideContinuation = true ∧
      cell.text = original.contents := by
  simp only [captureRow, getElem?_map, map_eq_some_iff] at h
  obtain ⟨k, hk, hcopy⟩ := h
  obtain ⟨hlt, hrange⟩ := List.getElem?_eq_some_iff.mp hk
  obtain rfl : col = k := by rwa [getElem_range] at hrange
  subst hcopy
  cases hsource : source.cells[col]? with
  | none =>
    rw [hsource] at hcell
    cases hcell
  | some original =>
    rw [hsource] at hcell
    exact ⟨original, rfl, hcell, rfl⟩

theorem wellSpaced_fromSnapshot {snapshot : TerminalSnapshot} (marks : List SemanticMark)
    (cols_pos : 0 < captureCols) (h : ∀ row ∈ snapshot.scrollback ++ snapshot.rows, Spaced row) :
    (fromSnapshot snapshot marks captureCols cols_pos).WellSpaced := by
  have hsource : ∀ row col cell, (fromSnapshot snapshot marks captureCols cols_pos).cell row col = some cell →
      cell.wideContinuation = true → cell.text = "" ∧ col ≠ 0 := by
    intro row col cell hcell hcontinuation
    obtain ⟨copy, hcopy, hcol⟩ := bind_eq_some_iff.mp hcell
    obtain ⟨source, hsource, rfl⟩ := mem_map.mp (mem_of_getElem? hcopy)
    obtain ⟨original, horiginal, hspacer, htext⟩ := continuation_captureRow hcol hcontinuation
    obtain ⟨hempty, ⟨before, -, hafter, -⟩ | ⟨hlast, hlong⟩⟩ := h source hsource col original horiginal hspacer
    · exact ⟨htext.trans hempty, by omega⟩
    · exact ⟨htext.trans hempty, by omega⟩
  constructor
  · intro row
    by_contra hlead
    rw [Bool.not_eq_false, continuation, Option.any_eq_true] at hlead
    obtain ⟨cell, hcell, hcontinuation⟩ := hlead
    exact (hsource row 0 cell hcell hcontinuation).2 rfl
  · intro row col hspacer
    rw [continuation, Option.any_eq_true] at hspacer
    obtain ⟨cell, hcell, hcontinuation⟩ := hspacer
    rw [cellText, hcell]
    exact (hsource row col cell hcell hcontinuation).1

/-! ### Rows -/

theorem clampCol_le (row col : Nat) : self.clampCol row col ≤ self.lineLastCol row :=
  scanDown_le.trans (min_le_right _ _)

theorem scanDown_glyph (h : self.WellSpaced) (row col : Nat) :
    self.continuation row (scanDown (self.continuation row) col) = false := by
  obtain hzero | hpos := eq_zero_or_pos (scanDown (self.continuation row) col)
  · rw [hzero]
    exact h.lead row
  · exact scanDown_stops hpos

/-- **Clamping makes a position of a document with rows addressable.** -/
theorem addressable_clamp (h : self.WellSpaced) (hrows : 0 < self.rowCount) (position : HistoryPosition) :
    self.Addressable (self.clamp position) where
  row := by
    show min position.row (self.rowCount - 1) < self.rowCount
    omega
  col := clampCol_le _ _
  glyph := scanDown_glyph h _ _

/-! ## One motion -/

variable {position target : HistoryPosition}

theorem addressable_stepRight (start : self.Addressable position) (h : self.stepRight position = some target) :
    self.Addressable target := by
  unfold stepRight at h
  dsimp only at h
  split at h
  · cases h
  · split at h
    · cases h
    · next hcol hnext =>
      cases h
      refine ⟨start.row, Nat.le_of_not_lt hnext, ?_⟩
      apply scanUp_stops
      omega

theorem addressable_stepLeft (spaced : self.WellSpaced) (start : self.Addressable position)
    (h : self.stepLeft position = some target) : self.Addressable target := by
  unfold stepLeft at h
  split at h
  · cases h
  · cases h
    refine ⟨start.row, ?_, scanDown_glyph spaced _ _⟩
    have hcol := start.col
    have hle := @scanDown_le (self.continuation position.row) (position.col - 1)
    show scanDown _ _ ≤ self.lineLastCol position.row
    omega

variable {forward till : Bool}

section

variable (spaced : self.WellSpaced)
include spaced

theorem addressable_moveHorizontal (start : self.Addressable position)
    (h : self.moveHorizontal position forward count = some target) : self.Addressable target := by
  obtain ⟨-, rfl⟩ := moved_eq_some.mp h
  apply steps_rule _ count start
  intro before after hbefore hstep
  cases forward with
  | true => exact addressable_stepRight hbefore hstep
  | false => exact addressable_stepLeft spaced hbefore hstep

theorem addressable_moveVertical (start : self.Addressable position) {down : Bool}
    (h : self.moveVertical position down count = some target) : self.Addressable target := by
  have hrow : ∀ row, row < self.rowCount → self.Addressable ⟨row, self.clampCol row position.col⟩ :=
    fun row hrow => ⟨hrow, clampCol_le _ _, scanDown_glyph spaced _ _⟩
  have hstart := start.row
  unfold moveVertical at h
  simp only [ite_none_right_eq_some, some.injEq] at h
  obtain ⟨-, rfl⟩ := h
  apply hrow
  split <;> omega

theorem addressable_zero (h : row < self.rowCount) :
    self.Addressable ⟨row, 0⟩ := ⟨h, Nat.zero_le _, spaced.lead row⟩

theorem addressable_lineFirstNonblank (h : row < self.rowCount) :
    self.Addressable ⟨row, self.lineFirstNonblank row⟩ := by
  have hrow := getElem?_eq_getElem h
  unfold lineFirstNonblank
  rw [hrow, elim_some]
  cases hfound : findIdx? (fun cell : Cell => !cell.text.toList.all Tmux.isWhitespace && cell.text ≠ "")
      ((self.rows[row].cells).take self.rows[row].stop) with
  | none => exact addressable_zero spaced h
  | some col =>
    obtain ⟨hcol, hnonblank, -⟩ := findIdx?_eq_some_iff_getElem.mp hfound
    rw [length_take] at hcol
    refine ⟨h, ?_, ?_⟩
    · simp only [lineLastCol, stop, hrow, elim_some, getD_some]
      omega
    · by_contra hspacer
      rw [Bool.not_eq_false] at hspacer
      have hempty := spaced.text row col hspacer
      have hcell : self.cell row col = some self.rows[row].cells[col] := by
        rw [cell, hrow]
        exact getElem?_eq_getElem (by omega)
      rw [cellText, hcell, elim_some] at hempty
      simp [hempty] at hnonblank

end

/-! ### Words, characters and braces -/

theorem addressable_wordStep (isAlphanumeric : Char → Bool) {style : WordStyle} {movement : WordMove}
    (h : self.wordStep isAlphanumeric style movement position = some target) : self.Addressable target := by
  cases movement with
  | forwardStart =>
    obtain ⟨index, -, hindex⟩ := bind_eq_some_iff.mp h
    exact addressable_of_getElem? hindex
  | backwardStart =>
    obtain ⟨index, hfound, hindex⟩ := bind_eq_some_iff.mp h
    split at hindex
    · cases hindex
    · cases hindex
      apply addressable_positionAt
      have hlt := lt_of_idxOf? hfound
      have hblank := @scanDown_le (fun i => self.classAt isAlphanumeric style i == .blank) (index - 1)
      refine lt_of_le_of_lt (scanDown_le.trans hblank) ?_
      omega
  | forwardEnd =>
    obtain ⟨index, -, hindex⟩ := bind_eq_some_iff.mp h
    dsimp only at hindex
    split at hindex
    · cases hindex
    · exact addressable_of_getElem? hindex

theorem addressable_moveWord (start : self.Addressable position) {isAlphanumeric : Char → Bool}
    {style : WordStyle} {movement : WordMove}
    (h : self.moveWord isAlphanumeric style position movement count = some target) : self.Addressable target := by
  obtain ⟨reached, hreached, hmoved⟩ := bind_eq_some_iff.mp h
  obtain ⟨-, rfl⟩ := moved_eq_some.mp hmoved
  exact foldlM_rule (fun _ _ hstep => addressable_wordStep isAlphanumeric hstep) count start hreached

theorem addressable_adjacent (h : self.adjacent position forward = some target) : self.Addressable target := by
  obtain ⟨index, -, hindex⟩ := bind_eq_some_iff.mp h
  split at hindex
  · exact addressable_of_getElem? hindex
  · split at hindex
    · cases hindex
    · exact addressable_of_getElem? hindex

theorem addressable_destination (start : self.Addressable position)
    (h : self.destination position forward till = some target) : self.Addressable target := by
  unfold destination at h
  split at h
  · exact addressable_adjacent h
  · exact some.inj h ▸ start

theorem addressable_column (spaced : self.WellSpaced)
    (h : position ∈ self.columns row firstCol) (htext : self.cellText position ≠ "") :
    self.Addressable position := by
  obtain ⟨col, hcol, rfl⟩ := mem_map.mp h
  rw [mem_range'_1] at hcol
  have hstop : 0 < self.stop row := by omega
  refine ⟨?_, ?_, ?_⟩
  · by_contra hrow
    have hnone : self.rows[row]? = none := getElem?_eq_none (Nat.le_of_not_lt hrow)
    rw [stop, hnone] at hstop
    cases hstop
  · dsimp only [lineLastCol]
    omega
  · by_contra hspacer
    exact htext (spaced.text row col (Bool.not_eq_false _ ▸ hspacer))

theorem addressable_findCharacter (spaced : self.WellSpaced) {ch : Char}
    (h : self.findCharacter position ch forward till count = some target) : self.Addressable target := by
  obtain ⟨found, hfound, hrest⟩ := bind_eq_some_iff.mp h
  obtain ⟨destination, hdestination, hmoved⟩ := bind_eq_some_iff.mp hrest
  obtain ⟨-, rfl⟩ := moved_eq_some.mp hmoved
  refine addressable_destination ?_ hdestination
  have hmem : found ∈ ((self.lineRows position.row).flatMap fun row => self.columns row 0).filter
      fun candidate => self.cellChar candidate == some ch &&
        if forward then position.lt candidate else candidate.lt position := by
    have hlist := mem_of_getElem? hfound
    cases forward with
    | true => exact hlist
    | false => exact mem_reverse.mp hlist
  obtain ⟨hcandidate, hmatch⟩ := mem_filter.mp hmem
  obtain ⟨row, -, hcolumn⟩ := mem_flatMap.mp hcandidate
  apply addressable_column spaced hcolumn
  intro hempty
  simp [cellChar, hempty] at hmatch

theorem addressable_matchingBrace (h : self.matchingBrace position = some target) : self.Addressable target := by
  obtain ⟨start, -, hstart⟩ := bind_eq_some_iff.mp h
  obtain ⟨ch, -, hch⟩ := bind_eq_some_iff.mp hstart
  obtain ⟨⟨mate, forward⟩, -, hmate⟩ := bind_eq_some_iff.mp hch
  obtain ⟨index, -, hindex⟩ := bind_eq_some_iff.mp hmate
  have hmem := Nesting.mem_of_findMate hindex
  apply mem_positions.mp
  split at hmem
  · exact mem_of_mem_drop hmem
  · exact mem_of_mem_take (mem_reverse.mp hmem)

theorem addressable_prompt (spaced : self.WellSpaced) (hrows : 0 < self.rowCount)
    (h : self.prompt position forward count = some target) : self.Addressable target := by
  obtain ⟨mark, -, rfl⟩ := map_eq_some_iff.mp h
  exact addressable_clamp spaced hrows mark

end ReviewDocument

/-! ## Every motion -/

namespace ReviewCursor
open ReviewDocument

variable {isAlphanumeric : Char → Bool} {document : ReviewDocument} {self : ReviewCursor}

section

variable (spaced : document.WellSpaced)
include spaced

theorem addressable_findTarget {start matched destination : HistoryPosition} {ch : Char} {forward till : Bool}
    {count : Nat} (h : self.findTarget document start ch forward till count = some (matched, destination)) :
    document.Addressable destination := by
  obtain ⟨found, hfound, hrest⟩ := bind_eq_some_iff.mp h
  obtain ⟨place, hplace, hmoved⟩ := bind_eq_some_iff.mp hrest
  split at hmoved
  · cases hmoved
  · obtain ⟨-, rfl⟩ := Prod.mk.inj (some.inj hmoved)
    exact addressable_destination (addressable_findCharacter spaced hfound) hplace

section

variable (start : document.Addressable self.cursor)
include start

theorem addressable_motionTarget
    {motion : Motion} {count : Nat} {target : HistoryPosition} {lastFind : Option LastFind}
    (h : self.motionTarget isAlphanumeric document motion count = some (target, lastFind))
    (hmotion : motion ≠ .lineEnd) : document.Addressable target := by
  have hrows : 0 < document.rowCount := Nat.zero_lt_of_lt start.row
  -- a motion that is no find leaves the find as it is
  have hplace : ∀ found : Option HistoryPosition,
      found.map (fun target => (target, self.lastFind)) = some (target, lastFind) → found = some target := by
    intro found hfound
    obtain ⟨place, rfl, hpair⟩ := map_eq_some_iff.mp hfound
    rw [(Prod.mk.inj hpair).1]
  have hother : ∀ place : HistoryPosition, (moved self.cursor place).map (fun target => (target, self.lastFind)) =
      some (target, lastFind) → place = target := fun place hfound => (moved_eq_some.mp (hplace _ hfound)).2
  cases motion with
  | left => exact addressable_moveHorizontal spaced start (hplace _ h)
  | right => exact addressable_moveHorizontal spaced start (hplace _ h)
  | up => exact addressable_moveVertical spaced start (hplace _ h)
  | down => exact addressable_moveVertical spaced start (hplace _ h)
  | lineStart =>
    obtain rfl := hother _ h
    exact addressable_zero spaced start.row
  | firstNonblank =>
    obtain rfl := hother _ h
    exact addressable_lineFirstNonblank spaced start.row
  | lineEnd => exact absurd rfl hmotion
  | word movement style => exact addressable_moveWord start (hplace _ h)
  | documentStart =>
    obtain rfl := hother _ h
    exact addressable_lineFirstNonblank spaced (by omega)
  | documentEnd =>
    obtain rfl := hother _ h
    apply addressable_lineFirstNonblank spaced
    split <;> omega
  | matchingBrace =>
    obtain ⟨reached, hreached, hmoved⟩ := bind_eq_some_iff.mp (hplace _ h)
    obtain ⟨-, rfl⟩ := moved_eq_some.mp hmoved
    exact foldlM_rule (fun _ _ hstep => addressable_matchingBrace hstep) count start hreached
  | find direction till ch =>
    obtain ⟨⟨matched, destination⟩, hfound, hpair⟩ := map_eq_some_iff.mp h
    obtain ⟨rfl, -⟩ := Prod.mk.inj hpair
    exact addressable_findTarget spaced hfound
  | repeatFind reverse =>
    obtain ⟨find, -, hrest⟩ := bind_eq_some_iff.mp h
    obtain ⟨⟨matched, destination⟩, hfound, hpair⟩ := bind_eq_some_iff.mp hrest
    obtain ⟨rfl, -⟩ := Prod.mk.inj (some.inj hpair)
    exact addressable_findTarget spaced hfound
  | prompt forward => exact addressable_prompt spaced hrows (hplace _ h)

theorem addressable_move (motion : Motion) (count : Nat) :
    document.Addressable (self.move isAlphanumeric document motion count).cursor := by
  unfold move
  split
  · exact start
  · exact addressable_clamp spaced (Nat.zero_lt_of_lt start.row) _

theorem addressable_moves
    (commands : List (Motion × Nat)) : document.Addressable (self.moves isAlphanumeric document commands).cursor := by
  induction commands generalizing self with
  | nil => exact start
  | cons command commands ih => exact ih (addressable_move spaced start command.1 command.2)

end

end

/-- **Any motions from an addressable position come to an addressable position**, and the target of the next
one is addressable before it is clamped, the end of a line apart. -/
theorem motions_addressable (isAlphanumeric : Char → Bool) {snapshot : TerminalSnapshot}
    (engine : ∀ row ∈ snapshot.scrollback ++ snapshot.rows, Spaced row) (marks : List SemanticMark)
    {captureCols : Nat} (cols_pos : 0 < captureCols) (self : ReviewCursor)
    (start : (fromSnapshot snapshot marks captureCols cols_pos).Addressable self.cursor)
    (commands : List (Motion × Nat)) :
    let document := fromSnapshot snapshot marks captureCols cols_pos
    let reached := self.moves isAlphanumeric document commands
    document.Addressable reached.cursor ∧ ∀ motion count target lastFind, motion ≠ .lineEnd →
        reached.motionTarget isAlphanumeric document motion count = some (target, lastFind) →
          document.Addressable target := by
  intro document reached
  have hspaced := wellSpaced_fromSnapshot marks cols_pos engine
  have hreached := @addressable_moves isAlphanumeric document self hspaced start commands
  exact ⟨hreached, fun motion count target lastFind hmotion htarget =>
    addressable_motionTarget hspaced hreached htarget hmotion⟩

/-! ### The end of a line with a wide glyph -/

def wideRow : Terminal.Row where
  cells := [⟨"a", 1, false, .default, none⟩, ⟨"b", 2, false, .default, none⟩, ⟨"", 0, true, .default, none⟩]
  wrapped := false

theorem spaced_wideRow : Spaced wideRow := by
  intro col cell hcell hspacer
  obtain _ | _ | _ | col := col <;> simp only [wideRow, getElem?_cons_succ, getElem?_cons_zero,
    getElem?_nil, some.injEq, reduceCtorEq] at hcell <;> subst hcell
  · cases hspacer
  · cases hspacer
  · exact ⟨rfl, .inl ⟨1, _, rfl, rfl, rfl⟩⟩

theorem motions_addressable_lineEnd :
    let document := fromSnapshot (screenOf [wideRow]) [] 3 (by decide)
    document.Addressable (moves Char.isAlphanum document ⟨⟨0, 0⟩, none⟩ [(.lineEnd, 1), (.left, 1)]).cursor :=
  (motions_addressable Char.isAlphanum (by simpa [screenOf] using spaced_wideRow) [] (by decide) ⟨⟨0, 0⟩, none⟩
    ⟨by decide, by decide, by decide⟩ [(.lineEnd, 1), (.left, 1)]).1

end ReviewCursor
end Lector.Review
