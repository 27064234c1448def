import Lector.Foundations.Ranges
import Lector.Table.Cells

/-! Coming into a table (`src/table.rs`, `src/commands/table.rs`): the row that is nearest to the review cursor. -/
namespace Lector.Table
open Accessibility Terminal Nearest List
open Option hiding min

/-! ## Rows and columns -/

def nearestMatchingColumn (columnCount preferred : Nat) (matched : Nat → Bool) : Nat :=
  if columnCount = 0 then 0
  else
    let preferred := min preferred (columnCount - 1)
    if matched preferred then preferred
    else ((List.range' 1 (columnCount - 1)).findSome? fun offset =>
      if offset ≤ preferred ∧ matched (preferred - offset) then some (preferred - offset)
      else if preferred + offset < columnCount ∧ matched (preferred + offset) then some (preferred + offset)
      else none).getD preferred

namespace TableModel
variable (self : TableModel) (view : TerminalSnapshot)

def columnForCol (col : Nat) : Nat :=
  (self.columns.findIdx? fun column => column.start ≤ col ∧ col ≤ column.stop).getD 0

def clampRow (row : Nat) : Nat := if row < self.top then self.top else if self.bottom < row then self.bottom else row

def nearestNonEmptyCol (row preferred : Nat) : Nat :=
  nearestMatchingColumn self.columns.length preferred fun col =>
    if self.delimiter = some '|' then (pipeDelimitedCellText (line view row) col).any fun text => !text.isEmpty
    else !(self.cellText view row col).isEmpty

/-- The row so far above, where that is not above the table. The sums are those of 16 bits. -/
def upHit (row offset : Nat) : Bool :=
  min (self.top + offset) 65535 ≤ row ∧ self.top ≤ row - offset ∧ !self.isSkippableRow view (row - offset)

def downHit (row offset : Nat) : Bool :=
  min (row + offset) 65535 ≤ self.bottom ∧ !self.isSkippableRow view (min (row + offset) 65535)

/-- The loop goes over the offsets and ends early where no row is left on either side. -/
def nearestDataRow (row : Nat) : Option Nat :=
  if self.top ≤ row ∧ row ≤ self.bottom ∧ !self.isSkippableRow view row then some row
  else ((List.range' 1 65535).find? fun offset => self.upHit view row offset || self.downHit view row offset).map
    fun offset => if self.upHit view row offset then row - offset else min (row + offset) 65535

end TableModel

structure TableState where
  model : TableModel
  currentCol : Nat
deriving DecidableEq

def TableState.currentColumn (self : TableState) : Option Column := self.model.columns[self.currentCol]?

/-- The navigation state and the review cursor of `enter_mode_with_model`. Without a current column it fails. -/
def enterModeWithModel (view : TerminalSnapshot) (model : TableModel) (cursor : Nat × Nat) :
    Option (TableState × (Nat × Nat)) :=
  let entryRow := (model.nearestDataRow view cursor.1).getD cursor.1
  let state : TableState := ⟨model, model.nearestNonEmptyCol view entryRow (model.columnForCol cursor.2)⟩
  state.currentColumn.map fun column => (state, (entryRow, column.start))

def moveToCell (view : TerminalSnapshot) (state : TableState) (row : Nat) (cursor : Nat × Nat) : Nat × Nat :=
  let row := state.model.clampRow row
  match state.currentColumn with
  | some column => (row, ((rowsBetween column.start column.stop).find? (cellHasText view row)).getD column.start)
  | none => cursor

/-- The first half of `ensure_state`: a table that the cursor has left is detected anew. -/
def refresh (detect : Nat → Option TableModel) (navigation : Option TableState) (cursor : Nat × Nat) :
    Option TableState :=
  (navigation.filter fun state => state.model.top ≤ cursor.1 ∧ cursor.1 ≤ state.model.bottom).or
    ((detect cursor.1).map fun model => ⟨model, model.columnForCol cursor.2⟩)

def ensureState (detect : Nat → Option TableModel) (view : TerminalSnapshot) (navigation : Option TableState)
    (cursor : Nat × Nat) : Option (TableState × (Nat × Nat)) :=
  (refresh detect navigation cursor).map fun state =>
    let cursor :=
      if state.model.isSkippableRow view cursor.1 then
        match state.model.nearestDataRow view cursor.1 with
        | some targetRow => moveToCell view state targetRow cursor
        | none => cursor
      else cursor
    let currentCol := state.model.columnForCol cursor.2
    ({ state with currentCol := if currentCol < state.model.columns.length then currentCol else 0 }, cursor)

/-! ## The nearest row -/

namespace TableModel
variable (self : TableModel) (view : TerminalSnapshot)

/-- The rows of the table that are not skipped. -/
def dataRows : Set Nat := {row | self.top ≤ row ∧ row ≤ self.bottom ∧ self.isSkippableRow view row = false}

variable (row : Nat)

/-- The rows that the search from a row comes to. -/
def searched : Set Nat :=
  {k | self.isSkippableRow view k = false ∧
    (self.top ≤ k ∧ k < row ∨ row < k ∧ k ≤ self.bottom ∨ k = row ∧ self.top ≤ row ∧ row ≤ self.bottom)}

/-- Every row that stands between a row and the table is skipped. -/
def Adjoins : Prop :=
  ∀ k, self.bottom < k ∧ k < row ∨ row < k ∧ k < self.top → self.isSkippableRow view k = true

/-- A result is the nearest row of the table that is not skipped, where there is one. -/
def Lands (result : Option Nat) : Prop :=
  (self.dataRows view).Nonempty → ∃ m, result = some m ∧ IsNearest (self.dataRows view) row m

/-- Unless the table has no such row, nothing stands in the way to it. -/
def Reaches : Prop := (self.dataRows view).Nonempty → self.Adjoins view row

/-- Where the cursor is when `ensure_state` is done. -/
def settled : Nat :=
  if self.isSkippableRow view row then ((self.nearestDataRow view row).map self.clampRow).getD row else row

/-- The row is in the table, or the cursor is moved from it to a row of the table that is not skipped. -/
def Settles : Prop :=
  (self.dataRows view).Nonempty → self.top ≤ row ∧ row ≤ self.bottom ∨
    isSeparatorRow view row = true ∧ (self.Adjoins view row ∨ self.clampRow row ∈ self.dataRows view)

variable {self} {view} {row offset k m : Nat}

theorem upHit_iff (hrow : row ≤ 65535) (hoffset : offset ≤ 65535) :
    self.upHit view row offset = true ↔ self.top + offset ≤ row ∧ self.isSkippableRow view (row - offset) = false := by
  rw [upHit, decide_eq_true_iff, Bool.not_eq_true', ← and_assoc]
  refine and_congr ⟨fun h => ?_, fun h => ?_⟩ Iff.rfl
  · omega
  · omega

theorem downHit_iff (hbottom : self.bottom < 65535) :
    self.downHit view row offset = true ↔
      row + offset ≤ self.bottom ∧ self.isSkippableRow view (row + offset) = false := by
  rw [downHit, decide_eq_true_iff, Bool.not_eq_true']
  constructor
  · rintro ⟨hle, hskip⟩
    rw [min_eq_left (by omega)] at hle hskip
    exact ⟨hle, hskip⟩
  · rintro ⟨hle, hskip⟩
    rw [min_eq_left (by omega)]
    exact ⟨hle, hskip⟩

theorem hit_of_searched (hrow : row ≤ 65535) (hbottom : self.bottom < 65535) (hk : k ∈ self.searched view row)
    (hne : k ≠ row) : (self.upHit view row (Nat.dist row k) || self.downHit view row (Nat.dist row k)) = true := by
  obtain ⟨hskip, ⟨htop, hlt⟩ | ⟨hlt, hle⟩ | ⟨rfl, -⟩⟩ := hk
  · rw [Bool.or_eq_true, Nat.dist_comm, Nat.dist_eq_sub_of_le hlt.le, upHit_iff hrow (by omega),
      Nat.sub_sub_self hlt.le]
    exact .inl ⟨by omega, hskip⟩
  · rw [Bool.or_eq_true, Nat.dist_eq_sub_of_le hlt.le, downHit_iff hbottom, Nat.add_sub_cancel' hlt.le]
    exact .inr ⟨hle, hskip⟩
  · exact absurd rfl hne

/-- A row that is hit at some distance, and no other one before, is the nearest. -/
theorem nearest_of_hit (hrow : row ≤ 65535) (hbottom : self.bottom < 65535) (hrange : 1 ≤ offset ∧ offset ≤ 65535)
    (hhit : (self.upHit view row offset || self.downHit view row offset) = true)
    (hle : ∀ k ∈ self.searched view row, offset ≤ Nat.dist row k) :
    IsNearest (self.searched view row) row
      (if self.upHit view row offset then row - offset else min (row + offset) 65535) := by
  split
  · next hup =>
    obtain ⟨htop, hskip⟩ := (upHit_iff hrow hrange.2).mp hup
    have hdist : Nat.dist row (row - offset) = offset := by
      simp only [Nat.dist]
      omega
    exact ⟨⟨hskip, .inl ⟨by omega, by omega⟩⟩, fun k hk => hdist.trans_le (hle k hk)⟩
  · next hnotUp =>
    rw [Bool.eq_false_iff.mpr hnotUp] at hhit
    obtain ⟨hbelow, hskip⟩ := (downHit_iff hbottom).mp hhit
    have hdist : Nat.dist row (row + offset) = offset := by
      simp only [Nat.dist]
      omega
    rw [min_eq_left (by omega)]
    exact ⟨⟨hskip, .inr (.inl ⟨by omega, hbelow⟩)⟩, fun k hk => hdist.trans_le (hle k hk)⟩

/-- The search finds the nearest of the rows that it comes to. -/
theorem nearestDataRow_spec (hrow : row ≤ 65535) (hbottom : self.bottom < 65535) :
    match self.nearestDataRow view row with
    | some m => IsNearest (self.searched view row) row m
    | none => self.searched view row = ∅ := by
  by_cases hhere : self.top ≤ row ∧ row ≤ self.bottom ∧ !self.isSkippableRow view row
  · rw [nearestDataRow, if_pos hhere]
    obtain ⟨htop, hle, hskip⟩ := hhere
    refine ⟨⟨by simpa using hskip, .inr (.inr ⟨rfl, htop, hle⟩)⟩, fun k _ => ?_⟩
    rw [Nat.dist_self]
    exact Nat.zero_le _
  · rw [nearestDataRow, if_neg hhere]
    have hother : ∀ k ∈ self.searched view row, k ≠ row := by
      rintro k ⟨hskip, ⟨-, hlt⟩ | ⟨hlt, -⟩ | ⟨rfl, htop, hle⟩⟩
      · exact hlt.ne
      · exact hlt.ne'
      · exact absurd ⟨htop, hle, by simpa using hskip⟩ hhere
    have hhit := fun k hk => @hit_of_searched self view row k hrow hbottom hk (hother k hk)
    have hdist : ∀ k ∈ self.searched view row, 1 ≤ Nat.dist row k ∧ Nat.dist row k < 1 + 65535 := by
      intro k hk
      have hpos := Nat.dist_pos_of_ne (hother k hk).symm
      obtain ⟨-, hplace⟩ := hk
      simp only [Nat.dist] at hpos ⊢
      omega
    cases hfind : (range' 1 65535).find? fun offset =>
      self.upHit view row offset || self.downHit view row offset with
    | none =>
      rw [find?_range'_eq_none] at hfind
      refine Set.eq_empty_iff_forall_notMem.mpr fun k hk => ?_
      have hmissed := hfind _ (hdist k hk).1 (hdist k hk).2
      rw [hhit k hk] at hmissed
      cases hmissed
    | some offset =>
      obtain ⟨hfound, hrange, hfirst⟩ := find?_range'_eq_some.mp hfind
      have hbounds := mem_range'_1.mp hrange
      refine nearest_of_hit hrow hbottom ⟨hbounds.1, by omega⟩ hfound fun k hk => ?_
      by_contra hlt
      have hmissed := hfirst _ (hdist k hk).1 (Nat.lt_of_not_le hlt)
      rw [hhit k hk] at hmissed
      cases hmissed

theorem dataRows_subset : self.dataRows view ⊆ self.searched view row := by
  rintro k ⟨htop, hle, hskip⟩
  refine ⟨hskip, ?_⟩
  obtain hlt | rfl | hgt := lt_trichotomy k row
  · exact .inl ⟨htop, hlt⟩
  · exact .inr (.inr ⟨rfl, htop, hle⟩)
  · exact .inr (.inl ⟨hgt, hle⟩)

theorem searched_eq (h : self.Adjoins view row) : self.searched view row = self.dataRows view := by
  refine Set.Subset.antisymm ?_ dataRows_subset
  rintro k ⟨hskip, hplace⟩
  by_contra houtside
  have hbetween : self.bottom < k ∧ k < row ∨ row < k ∧ k < self.top := by
    by_contra hno
    exact houtside ⟨by omega, by omega, hskip⟩
  rw [h k hbetween] at hskip
  cases hskip

/-- What stands between a row and the table is nearer than any row of the table. -/
theorem adjoins_of_nearest (hm : m ∈ self.dataRows view) (hnear : IsNearest (self.searched view row) row m) :
    self.Adjoins view row := by
  obtain ⟨htop, hle, -⟩ := hm
  intro k hbetween
  by_contra hskip
  have hdist := hnear.2 k ⟨Bool.eq_false_iff.mpr hskip, by omega⟩
  simp only [Nat.dist] at hdist
  omega

theorem found_of_data (hrow : row ≤ 65535) (hbottom : self.bottom < 65535) (hdata : (self.dataRows view).Nonempty) :
    ∃ m, self.nearestDataRow view row = some m ∧ IsNearest (self.searched view row) row m := by
  have hspec := @nearestDataRow_spec self view row hrow hbottom
  cases hfound : self.nearestDataRow view row with
  | none =>
    rw [hfound] at hspec
    exact absurd (hdata.mono dataRows_subset) (Set.not_nonempty_iff_eq_empty.mpr hspec)
  | some m =>
    rw [hfound] at hspec
    exact ⟨m, rfl, hspec⟩

theorem nearest_iff (hnear : IsNearest (self.searched view row) row m) :
    IsNearest (self.dataRows view) row m ↔ self.Adjoins view row :=
  ⟨fun h => adjoins_of_nearest h.1 hnear, fun h => searched_eq h ▸ hnear⟩

theorem lands_nearestDataRow (hrow : row ≤ 65535) (hbottom : self.bottom < 65535) :
    self.Lands view row (self.nearestDataRow view row) ↔ self.Reaches view row := by
  refine forall_congr' fun hdata => ?_
  obtain ⟨m, hfound, hnear⟩ := found_of_data hrow hbottom hdata
  rw [hfound, ← nearest_iff hnear]
  simp

theorem lands_entryRow (hrow : row ≤ 65535) (hbottom : self.bottom < 65535) :
    self.Lands view row (some ((self.nearestDataRow view row).getD row)) ↔ self.Reaches view row := by
  refine Iff.trans (forall_congr' fun hdata => ?_) (lands_nearestDataRow hrow hbottom)
  obtain ⟨m, hfound, -⟩ := found_of_data hrow hbottom hdata
  rw [hfound, getD_some]

/-! ## The cursor -/

theorem nearestMatchingColumn_lt {count preferred : Nat} {matched : Nat → Bool} (h : 0 < count) :
    nearestMatchingColumn count preferred matched < count := by
  rw [nearestMatchingColumn, if_neg (ne_of_gt h)]
  dsimp only
  split
  · omega
  · cases hfound : (range' 1 (count - 1)).findSome? _ with
    | none =>
      rw [getD_none]
      omega
    | some col =>
      obtain ⟨offset, -, hcol⟩ := exists_of_findSome?_eq_some hfound
      rw [getD_some]
      split at hcol
      · cases hcol
        omega
      · split at hcol
        · next hdown =>
          cases hcol
          exact hdown.1
        · cases hcol

theorem enterModeWithModel_row (hcolumns : self.columns ≠ []) (cursor : Nat × Nat) :
    (enterModeWithModel view self cursor).map (·.2.1) = some ((self.nearestDataRow view cursor.1).getD cursor.1) := by
  have hlt := fun row preferred => @nearestMatchingColumn_lt _ preferred
    (fun col =>
      if self.delimiter = some '|' then (pipeDelimitedCellText (line view row) col).any fun text => !text.isEmpty
      else !(self.cellText view row col).isEmpty) (length_pos_of_ne_nil hcolumns)
  simp [enterModeWithModel, TableState.currentColumn, nearestNonEmptyCol, getElem?_eq_getElem (hlt _ _)]

theorem clampRow_of_mem (hm : m ∈ self.dataRows view) : self.clampRow m = m := by
  obtain ⟨htop, hle, -⟩ := hm
  rw [clampRow, if_neg (Nat.not_lt_of_le htop), if_neg (Nat.not_lt_of_le hle)]

theorem nearest_clampRow (h : self.clampRow row ∈ self.dataRows view) :
    IsNearest (self.dataRows view) row (self.clampRow row) := by
  refine ⟨h, fun k hk => ?_⟩
  obtain ⟨htop, hle, -⟩ := hk
  unfold clampRow Nat.dist
  split
  · omega
  · split <;> omega

/-- A row that the search finds outside of the table is on the side on which it began. -/
theorem clampRow_of_searched (hm : m ∈ self.searched view row) (hout : m ∉ self.dataRows view) :
    self.clampRow m = self.clampRow row ∧ ¬ (self.top ≤ row ∧ row ≤ self.bottom) := by
  have hplace : ¬ (self.top ≤ m ∧ m ≤ self.bottom) := fun h => hout ⟨h.1, h.2, hm.1⟩
  obtain ⟨-, hm⟩ := hm
  refine ⟨?_, by omega⟩
  unfold clampRow
  split_ifs <;> omega

theorem separator_of_skippable (hskip : self.isSkippableRow view row = true)
    (hout : ¬ (self.top ≤ row ∧ row ≤ self.bottom)) : isSeparatorRow view row = true := by
  rw [isSkippableRow, Bool.or_eq_true] at hskip
  refine hskip.resolve_right fun hbanner => ?_
  rw [isBannerRow, if_pos] at hbanner
  · cases hbanner
  · simp only [Bool.or_eq_true, decide_eq_true_eq]
    omega

theorem lands_settled (hrow : row ≤ 65535) (hbottom : self.bottom < 65535) :
    self.Lands view row (some (self.settled view row)) ↔ self.Settles view row := by
  refine forall_congr' fun hdata => ?_
  simp only [some.injEq, exists_eq_left']
  obtain ⟨m, hfound, hnear⟩ := found_of_data hrow hbottom hdata
  unfold settled
  split
  · next hskip =>
    rw [hfound, map_some]
    by_cases hm : m ∈ self.dataRows view
    · have hadjoins := adjoins_of_nearest hm hnear
      rw [clampRow_of_mem hm]
      refine iff_of_true ((nearest_iff hnear).mpr hadjoins) ?_
      by_cases hin : self.top ≤ row ∧ row ≤ self.bottom
      · exact .inl hin
      · exact .inr ⟨separator_of_skippable hskip hin, .inl hadjoins⟩
    · obtain ⟨heq, hout⟩ := clampRow_of_searched hnear.1 hm
      rw [heq]
      constructor
      · intro h
        exact .inr ⟨separator_of_skippable hskip hout, .inr h.1⟩
      · rintro (hin | ⟨-, hadjoins | hedge⟩)
        · exact absurd hin hout
        · exact absurd ((nearest_iff hnear).mpr hadjoins).1 hm
        · exact nearest_clampRow hedge
  · next hskip =>
    have hdist : ∀ k ∈ self.dataRows view, Nat.dist row row ≤ Nat.dist row k := fun k _ => by
      rw [Nat.dist_self]
      exact Nat.zero_le _
    constructor
    · intro h
      exact .inl ⟨h.1.1, h.1.2.1⟩
    · rintro (⟨htop, hle⟩ | ⟨hsep, -⟩)
      · exact ⟨⟨htop, hle, Bool.eq_false_iff.mpr hskip⟩, hdist⟩
      · simp [isSkippableRow, hsep] at hskip

theorem ensureState_row {detect : Nat → Option TableModel} {navigation : Option TableState} {cursor : Nat × Nat}
    {state : TableState} (hfound : refresh detect navigation cursor = some state)
    (hcol : state.currentColumn.isSome) :
    (ensureState detect view navigation cursor).map (fun after => (after.1.model, after.2.1)) =
      some (state.model, state.model.settled view cursor.1) := by
  obtain ⟨column, hcol⟩ := isSome_iff_exists.mp hcol
  rw [ensureState, hfound, settled]
  simp only [map_some]
  split
  · cases state.model.nearestDataRow view cursor.1 with
    | none => rfl
    | some m => simp [moveToCell, hcol]
  · rfl

/-- **Coming into a table ends on its nearest row exactly when nothing but skipped rows stands between the cursor
and the table.** A state that is re-established is settled as well where the cursor is in the table. -/
theorem entering_lands (view : TerminalSnapshot) (cursor : Nat × Nat) (hrow : cursor.1 ≤ 65535) :
    (∀ model : TableModel, model.bottom < 65535 → model.columns ≠ [] →
      (model.Lands view cursor.1 (model.nearestDataRow view cursor.1) ↔ model.Reaches view cursor.1) ∧
      (model.Lands view cursor.1 ((enterModeWithModel view model cursor).map (·.2.1)) ↔
        model.Reaches view cursor.1)) ∧
    ∀ detect navigation state, refresh detect navigation cursor = some state → state.currentColumn.isSome →
      state.model.bottom < 65535 → ∃ after, ensureState detect view navigation cursor = some after ∧
        after.1.model = state.model ∧
        (state.model.Lands view cursor.1 (some after.2.1) ↔ state.model.Settles view cursor.1) := by
  refine ⟨fun model hbottom hcolumns => ⟨lands_nearestDataRow hrow hbottom, ?_⟩,
    fun detect navigation state hfound hcol hbottom => ?_⟩
  · rw [enterModeWithModel_row hcolumns]
    exact lands_entryRow hrow hbottom
  · obtain ⟨after, hafter, heq⟩ := map_eq_some_iff.mp (@ensureState_row view _ _ _ _ hfound hcol)
    obtain ⟨hmodel, hsettled⟩ := Prod.mk.inj heq
    exact ⟨after, hafter, hmodel, hsettled ▸ lands_settled hrow hbottom⟩

/-- A table under two lines of text. -/
def underText : TerminalSnapshot := tableView ["text", "note", "|a|b|", "|1|2|"]

def pipes : TableModel := ⟨2, 3, [⟨1, 1⟩, ⟨3, 3⟩], some 2, some '|'⟩

/-- The line of text next to the table is as good as the table, and a state is detected in the table. -/
theorem entering_lands_underText : pipes.Lands underText 1 (pipes.nearestDataRow underText 1) ∧
    ∃ after, ensureState (detectPipeTable Char.isAlpha underText) underText none (2, 0) = some after ∧
      pipes.Lands underText 2 (some after.2.1) := by
  refine ⟨((entering_lands underText (1, 0) (by decide)).1 pipes (by decide) (by decide)).1.mpr fun _ k hk => ?_, ?_⟩
  · simp only [pipes] at hk
    omega
  · obtain ⟨after, hafter, -, hlands⟩ := (entering_lands underText (2, 0) (by decide)).2
      (detectPipeTable Char.isAlpha underText) none ⟨pipes, 0⟩ (by decide) rfl (by decide)
    exact ⟨after, hafter, hlands.mpr fun _ => .inl ⟨by decide, by decide⟩⟩

/-- From the first line the table is detected, and the cursor stops on the second one, above the table. -/
theorem entering_stops_outside : detectPipeTable Char.isAlpha underText 0 = some pipes ∧
    pipes.top = 2 ∧ 2 ∈ pipes.dataRows underText ∧ pipes.nearestDataRow underText 0 = some 1 ∧
    (enterModeWithModel underText pipes (0, 0)).map (·.2.1) = some 1 :=
  ⟨by decide, rfl, ⟨by decide, by decide, by decide⟩, by decide, by decide⟩

end TableModel
end Lector.Table
