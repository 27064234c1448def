import Lector.Review.Positions

/-! The bracket that belongs to another one. The code starts from the first bracket of the rows
above in the logical line. -/
namespace Lector.Review
open Terminal Nesting List
open Option hiding mem_map

namespace ReviewDocument

section Spec

variable (self : ReviewDocument)

/-- An opening and a closing bracket of one kind with text between them that is balanced in this kind. -/
def Mates (opening closing : HistoryPosition) : Prop :=
  ∃ pair ∈ brackets, self.cellChar opening = some pair.1 ∧ self.cellChar closing = some pair.2 ∧
    ∃ before between after, self.positions = before ++ opening :: (between ++ closing :: after) ∧
      Balanced (self.hasChar pair.1) (self.hasChar pair.2) between

def Paired (position other : HistoryPosition) : Prop := self.Mates position other ∨ self.Mates other position

def OnBracket (position : HistoryPosition) : Prop := (self.cellChar position).any isBracket = true

instance (position : HistoryPosition) : Decidable (self.OnBracket position) :=
  inferInstanceAs (Decidable (_ = true))

/-- No bracket stands in the rows above of the logical line. -/
def Clear (position : HistoryPosition) : Prop :=
  ∀ row col, (self.logicalLineRange position.row).1 ≤ row → row < position.row → col < self.stop row →
    ¬ self.OnBracket ⟨row, col⟩

end Spec

variable {self : ReviewDocument} {position other : HistoryPosition}

/-! ## Kinds of brackets -/

theorem mateOf_opening {pair : Char × Char} (h : pair ∈ brackets) : mateOf pair.1 = some (pair.2, true) := by
  simp only [brackets, mem_cons, not_mem_nil, or_false] at h
  obtain rfl | rfl | rfl := h <;> decide

theorem mateOf_closing {pair : Char × Char} (h : pair ∈ brackets) : mateOf pair.2 = some (pair.1, false) := by
  simp only [brackets, mem_cons, not_mem_nil, or_false] at h
  obtain rfl | rfl | rfl := h <;> decide

theorem ne_of_mem_brackets {pair : Char × Char} (h : pair ∈ brackets) : pair.1 ≠ pair.2 := by
  simp only [brackets, mem_cons, not_mem_nil, or_false] at h
  obtain rfl | rfl | rfl := h <;> decide

theorem mateOf_eq_some {ch mate : Char} {forward : Bool} (h : mateOf ch = some (mate, forward)) :
    (if forward then (ch, mate) else (mate, ch)) ∈ brackets := by
  unfold mateOf at h
  split at h
  · next pair hfound =>
    obtain ⟨rfl, rfl⟩ := Prod.mk.inj (some.inj h)
    have hch := find?_some hfound
    rw [beq_iff_eq] at hch
    rw [hch]
    exact mem_of_find?_eq_some hfound
  · obtain ⟨pair, hfound, hpair⟩ := map_eq_some_iff.mp h
    obtain ⟨rfl, rfl⟩ := Prod.mk.inj hpair
    have hch := find?_some hfound
    rw [beq_iff_eq] at hch
    rw [hch]
    exact mem_of_find?_eq_some hfound

theorem hasChar_disjoint {ch mate : Char} (h : ch ≠ mate) (position : HistoryPosition)
    (hch : self.hasChar ch position = true) : self.hasChar mate position = false := by
  rw [hasChar, beq_iff_eq] at hch
  simp [hasChar, hch, h]

/-! ## From a bracket to its mate -/

theorem mateFrom_of_split {before after : List HistoryPosition} {ch mate : Char} {forward : Bool}
    (hsplit : self.positions = before ++ position :: after) (hch : self.cellChar position = some ch)
    (hmate : mateOf ch = some (mate, forward)) : self.mateFrom position =
      findMate (self.hasChar ch) (self.hasChar mate) 0 (if forward then after else before.reverse) := by
  have hindex : self.positions.idxOf? position = some before.length := by
    rw [idxOf?_eq_some_iff, hsplit]
    simp
  have hafter : self.positions.drop (before.length + 1) = after := by
    rw [hsplit]
    simp
  have hbefore : self.positions.take before.length = before := by
    rw [hsplit, take_left]
  rw [mateFrom, hch, bind_eq_bind, bind_some, hmate, hindex]
  show findMate _ _ 0 _ = _
  rw [hafter, hbefore]

/-- **The bracket that the scan finds is the one that is paired with the first one.** -/
theorem mateFrom_eq_some_iff : self.mateFrom position = some other ↔ self.Paired position other := by
  constructor
  · intro h
    obtain ⟨ch, hch, hrest⟩ := bind_eq_some_iff.mp h
    obtain ⟨⟨mate, forward⟩, hmate, hrest⟩ := bind_eq_some_iff.mp hrest
    obtain ⟨index, hindex, -⟩ := bind_eq_some_iff.mp hrest
    obtain ⟨before, after, hsplit⟩ := append_of_mem (mem_of_getElem? (idxOf?_eq_some_iff.mp hindex))
    have hkind := mateOf_eq_some hmate
    rw [mateFrom_of_split hsplit hch hmate] at h
    cases forward with
    | true =>
      have hdisjoint := @hasChar_disjoint self _ _ (ne_of_mem_brackets hkind)
      obtain ⟨hclose, between, rest, hafter, hbalanced⟩ := (findMate_eq_some_iff hdisjoint).mp h
      rw [if_pos rfl] at hafter
      rw [hafter] at hsplit
      exact .inl ⟨(ch, mate), hkind, hch, beq_iff_eq.mp hclose, before, between, rest, hsplit, hbalanced⟩
    | false =>
      have hdisjoint := @hasChar_disjoint self _ _ (ne_of_mem_brackets hkind).symm
      obtain ⟨hclose, between, rest, hbefore, hbalanced⟩ := (findMate_eq_some_iff hdisjoint).mp h
      rw [if_neg Bool.false_ne_true, reverse_eq_iff] at hbefore
      refine .inr ⟨(mate, ch), hkind, beq_iff_eq.mp hclose, hch, rest.reverse, between.reverse, after, ?_,
        Balanced.reverse hbalanced⟩
      rw [hsplit, hbefore]
      simp
  · rintro (⟨pair, hkind, hopening, hclosing, before, between, after, hsplit, hbalanced⟩ |
      ⟨pair, hkind, hopening, hclosing, before, between, after, hsplit, hbalanced⟩)
    · rw [mateFrom_of_split hsplit hopening (mateOf_opening hkind)]
      apply (findMate_eq_some_iff (hasChar_disjoint (ne_of_mem_brackets hkind))).mpr
      exact ⟨beq_iff_eq.mpr hclosing, between, after, rfl, hbalanced⟩
    · have hsplit' : self.positions = (before ++ other :: between) ++ position :: after := by
        rw [hsplit, append_assoc]
        rfl
      rw [mateFrom_of_split hsplit' hclosing (mateOf_closing hkind)]
      apply (findMate_eq_some_iff (hasChar_disjoint (ne_of_mem_brackets hkind).symm)).mpr
      exact ⟨beq_iff_eq.mpr hopening, between.reverse, before.reverse, by simp, hbalanced.reverse⟩

theorem Paired.symm (h : self.Paired position other) : self.Paired other position := Or.symm h

theorem Paired.unique {another : HistoryPosition} (h : self.Paired position other)
    (h' : self.Paired position another) : other = another :=
  some.inj ((mateFrom_eq_some_iff.mpr h).symm.trans (mateFrom_eq_some_iff.mpr h'))

/-! ## The bracket to start from -/

theorem bracket_inside (h : self.OnBracket position) :
    position.row < self.rowCount ∧ position.col < self.stop position.row := by
  rw [OnBracket, Option.any_eq_true] at h
  obtain ⟨ch, hch, -⟩ := h
  have htext : self.cellText position ≠ "" := by
    intro hempty
    simp [cellChar, hempty] at hch
  cases hrow : self.rows[position.row]? with
  | none => simp [cellText, cell, hrow] at htext
  | some row =>
    refine ⟨(List.getElem?_eq_some_iff.mp hrow).1, ?_⟩
    rw [stop, hrow]
    cases hcell : row.cells[position.col]? with
    | none => simp [cellText, cell, hrow, hcell] at htext
    | some cell =>
      apply lt_stop hcell
      simpa [cellText, ReviewDocument.cell, hrow, hcell] using htext

theorem lineRows_split {row : Nat} (h : row < self.rowCount) :
    self.lineRows row = range' (self.logicalLineRange row).1 (row - (self.logicalLineRange row).1) ++
      row :: range' (row + 1) ((self.logicalLineRange row).2 - (row + 1)) := by
  obtain ⟨hlow, hhigh⟩ := line_contains h
  have hcount : (self.logicalLineRange row).2 - (self.logicalLineRange row).1 =
      (row - (self.logicalLineRange row).1) + ((self.logicalLineRange row).2 - (row + 1) + 1) := by omega
  have hstart : (self.logicalLineRange row).1 + (row - (self.logicalLineRange row).1) = row := by omega
  rw [lineRows, hcount, ← range'_append_1, hstart, range'_succ]

theorem columns_eq_cons {row col : Nat} (h : col < self.stop row) :
    self.columns row col = ⟨row, col⟩ :: self.columns row (col + 1) := by
  have hcount : self.stop row - col = self.stop row - (col + 1) + 1 := by omega
  rw [columns, hcount]
  rfl

def above (self : ReviewDocument) (position : HistoryPosition) : List HistoryPosition :=
  (List.range' (self.logicalLineRange position.row).1
    (position.row - (self.logicalLineRange position.row).1)).flatMap fun row =>
      self.columns row (if row = position.row then position.col else 0)

theorem mem_above {candidate : HistoryPosition} : candidate ∈ self.above position ↔
    (self.logicalLineRange position.row).1 ≤ candidate.row ∧ candidate.row < position.row ∧
      candidate.col < self.stop candidate.row := by
  simp only [above, mem_flatMap, columns, mem_map, mem_range'_1]
  constructor
  · rintro ⟨row, hin, col, hcol, rfl⟩
    dsimp only
    split at hcol <;> omega
  · intro hin
    refine ⟨candidate.row, by omega, candidate.col, ?_, rfl⟩
    split <;> omega

theorem startBracket_eq (h : self.OnBracket position) : self.startBracket position =
      ((self.above position).find? fun candidate => (self.cellChar candidate).any isBracket).or (some position) := by
  obtain ⟨hrow, hcol⟩ := bracket_inside h
  unfold startBracket
  rw [lineRows_split hrow, flatMap_append, flatMap_cons, if_pos rfl, columns_eq_cons hcol,
    find?_append, cons_append,
    @find?_cons_of_pos _ (fun candidate => (self.cellChar candidate).any isBracket) position _ h]
  rfl

/-- **The search starts from the bracket itself exactly when** the rows above have none. -/
theorem startBracket_self_iff (h : self.OnBracket position) :
    self.startBracket position = some position ↔ self.Clear position := by
  rw [startBracket_eq h]
  constructor
  · intro hstart row col hlow hhigh hstop hbracket
    have habove := (@mem_above self position ⟨row, col⟩).mpr ⟨hlow, hhigh, hstop⟩
    cases hfound : (self.above position).find? fun candidate => (self.cellChar candidate).any isBracket with
    | none => exact find?_eq_none.mp hfound ⟨row, col⟩ habove hbracket
    | some first =>
      rw [hfound] at hstart
      cases hstart
      have hrows := mem_above.mp (mem_of_find?_eq_some hfound)
      omega
  · intro hclear
    rw [find?_eq_none.mpr, none_or]
    intro candidate hcandidate
    obtain ⟨hlow, hhigh, hstop⟩ := mem_above.mp hcandidate
    exact hclear candidate.row candidate.col hlow hhigh hstop

/-! ## There and back -/

theorem Paired.onBracket (h : self.Paired position other) : self.OnBracket position := by
  have hany : ∀ pair ∈ brackets, isBracket pair.1 = true ∧ isBracket pair.2 = true := by decide
  obtain ⟨pair, hkind, hchar, -⟩ | ⟨pair, hkind, -, hchar, -⟩ := h
  · rw [OnBracket, hchar]
    exact (hany pair hkind).1
  · rw [OnBracket, hchar]
    exact (hany pair hkind).2

/-- **From a bracket to its mate and back, exactly when** no bracket stands in the rows above in the logical line
of either of them. -/
theorem matchingBrace_iff (hbracket : self.OnBracket position) (h : self.matchingBrace position = some other) :
    (self.matchingBrace other = some position ∧ self.Paired position other) ↔
      self.Clear position ∧ ∀ mate, self.Paired position mate → self.Clear mate := by
  obtain ⟨start, hstart, hmate⟩ := bind_eq_some_iff.mp h
  have hpaired := mateFrom_eq_some_iff.mp hmate
  constructor
  · rintro ⟨hback, hpair⟩
    obtain rfl : start = position := hpaired.symm.unique hpair.symm
    refine ⟨(startBracket_self_iff hbracket).mp hstart, ?_⟩
    intro mate hmate
    obtain rfl := hmate.unique hpair
    obtain ⟨start', hstart', hmate'⟩ := bind_eq_some_iff.mp hback
    obtain rfl : start' = mate := (mateFrom_eq_some_iff.mp hmate').symm.unique hpair
    exact (startBracket_self_iff hpair.symm.onBracket).mp hstart'
  · rintro ⟨hclear, hmates⟩
    rw [(startBracket_self_iff hbracket).mpr hclear] at hstart
    cases hstart
    refine ⟨?_, hpaired⟩
    have hother := (startBracket_self_iff hpaired.symm.onBracket).mpr (hmates other hpaired)
    rw [matchingBrace, hother]
    exact mateFrom_eq_some_iff.mpr hpaired.symm

/-! ### A bracket in the row above -/

def wrappedBrackets : ReviewDocument :=
  fromSnapshot (screenOf [printedRow "()" true, printedRow "[]" false]) [] 2 Nat.two_pos

theorem matchingBrace_iff_first_row :
    (wrappedBrackets.matchingBrace ⟨0, 1⟩ = some ⟨0, 0⟩ ∧ wrappedBrackets.Paired ⟨0, 0⟩ ⟨0, 1⟩) ↔
      wrappedBrackets.Clear ⟨0, 0⟩ ∧ ∀ mate, wrappedBrackets.Paired ⟨0, 0⟩ mate → wrappedBrackets.Clear mate :=
  @matchingBrace_iff wrappedBrackets ⟨0, 0⟩ ⟨0, 1⟩ (by decide) (by decide)

/-- From the `[` in the second row the code goes to the `)` in the first one, and from there to the `(`. -/
theorem matchingBrace_not_involution :
    wrappedBrackets.OnBracket ⟨1, 0⟩ ∧ wrappedBrackets.matchingBrace ⟨1, 0⟩ = some ⟨0, 1⟩ ∧
      wrappedBrackets.matchingBrace ⟨0, 1⟩ = some ⟨0, 0⟩ :=
  ⟨by decide, by decide, by decide⟩

end ReviewDocument
end Lector.Review
