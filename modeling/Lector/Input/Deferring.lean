import Lector.Input.PendingDeletes

/-! Which texts a row of deletions notes, key after key with nothing presented in between. -/
namespace Lector.PendingDeletes
open ScreenReader Option
open List hiding min

/-! ## Deletions -/

inductive Deletion
  | backspace
  | delete

namespace Deletion
variable {τ : Type}

def defer (deletion : Deletion) (self : ScreenReader τ) (tag : τ) (view : Tracked) : ScreenReader τ :=
  match deletion with
  | .backspace => self.deferBackspace tag view
  | .delete => self.deferDelete tag view

def offset (deletion : Deletion) (self : ScreenReader τ) (view : Tracked) : Nat := match deletion with
  | .backspace => self.backspaceOffset view
  | .delete => self.deleteOffset view

/-- The texts of the cells that the deletions come to: to the left of the cursor, or from the cursor on. -/
def cells (deletion : Deletion) (view : Tracked) : List String :=
  let row := view.cursorPosition.1
  let col := view.cursorPosition.2
  match deletion with
  | .backspace => (List.range col).map fun k => view.textAt row (col - k - 1)
  | .delete => (List.range (view.rows[row]?.elim 0 (·.cells.length) - col)).map fun k => view.textAt row (col + k)

/-- A wide glyph has its text in the first of its cells. -/
def glyphs (deletion : Deletion) (view : Tracked) : List String := (deletion.cells view).filter (· ≠ "")

def presses (deletion : Deletion) (view : Tracked) (self : ScreenReader (Option Nat)) :
    Nat → ScreenReader (Option Nat) × List String
  | 0 => (self, [])
  | n + 1 =>
    let (self, noted) := presses deletion view self n
    let self := deletion.defer self.recordLastKey (some n) view
    (self, noted ++ ((self.pendingDeletes.getLast?.filter (·.tag = some n)).map (·.kind.text)).toList)

/-- Whatever the number of presses so far, the intents have the texts of the first glyphs. -/
def NamesGlyphs (deletion : Deletion) (view : Tracked) (self : ScreenReader (Option Nat)) (presses : Nat) : Prop :=
  ∀ n ≤ presses, (deletion.glyphs view).take n <+: (deletion.presses view self n).2

end Deletion

open Deletion

def ScreenReader.untagged (self : ScreenReader Unit) : ScreenReader (Option Nat) where
  pendingDeletes := self.pendingDeletes.map fun intent => { intent with tag := none }
  inputSequence := self.inputSequence

/-! ## One press -/

section
variable {τ : Type} {self : ScreenReader τ} {tag : τ} {view : Tracked}
  {deletion : Deletion}

theorem textAt_missing {row col : Nat} (h : view.rows[row]?.elim 0 (·.cells.length) ≤ col) : view.textAt row col = "" := by
  rw [Tracked.textAt]
  cases hrow : view.rows[row]? with
  | none => rfl
  | some cells =>
    rw [hrow] at h
    rw [bind_some, getElem?_eq_none h]
    rfl

theorem getD_map_range (f : Nat → String) (n k : Nat) :
    ((range n).map f)[k]?.getD "" = if k < n then f k else "" := by
  rw [getElem?_map]
  split
  · next hlt => rw [getElem?_range hlt, map_some, getD_some]
  · next hge =>
    rw [getElem?_eq_none (by simpa using hge)]
    rfl

def Deletion.text (deletion : Deletion) (self : ScreenReader τ) (view : Tracked) : String :=
  (deletion.cells view)[deletion.offset self view]?.getD ""

theorem backspace_text : backspace.text self view =
    if 0 < view.cursorPosition.2 - self.backspaceOffset view
    then view.textAt view.cursorPosition.1 (view.cursorPosition.2 - self.backspaceOffset view - 1) else "" :=
  (getD_map_range _ _ _).trans (if_congr Nat.sub_pos_iff_lt.symm rfl rfl)

theorem delete_text : delete.text self view =
    view.textAt view.cursorPosition.1 (view.cursorPosition.2 + self.deleteOffset view) := by
  refine (getD_map_range _ _ _).trans ?_
  split
  · rfl
  · next hend => exact (textAt_missing (by dsimp only [offset] at hend; omega)).symm

theorem defer_spec (deletion : Deletion) (self : ScreenReader τ) (tag : τ) (view : Tracked) :
    ∃ kind, deletion.defer self tag view = self.pushIntent tag view (deletion.text self view) kind ∧
      (∀ row, (kind row).text = deletion.text self view) ∧
      (deletion.text self view ≠ "" → ∀ (next : ScreenReader τ) row,
        next.previousIntent view = some (kind row) → deletion.offset next view = deletion.offset self view + 1) := by
  cases deletion with
  | backspace =>
    refine ⟨.backspace (view.cursorPosition.1, view.cursorPosition.2 - self.backspaceOffset view)
      (backspace.text self view), ?_, fun row => rfl, fun hsome next row hprevious => ?_⟩
    · rw [backspace_text]
      rfl
    · rw [backspace_text] at hsome
      have hleft : 0 < view.cursorPosition.2 - self.backspaceOffset view := by
        by_contra hend
        exact hsome (if_neg hend)
      dsimp only [offset]
      rw [backspaceOffset, hprevious]
      dsimp only
      rw [if_pos ⟨rfl, Nat.sub_le _ _⟩]
      omega
  | delete =>
    refine ⟨.delete view.cursorPosition (view.cursorPosition.2 + self.deleteOffset view)
      (delete.text self view), ?_, fun row => rfl, fun _ next row hprevious => ?_⟩
    · rw [delete_text]
      rfl
    · dsimp only [offset]
      rw [deleteOffset, hprevious]
      dsimp only
      rw [if_pos ⟨rfl, Nat.le_add_right _ _⟩]
      omega

theorem row_of_text (h : deletion.text self view ≠ "") : ∃ row, view.rows[view.cursorPosition.1]? = some row := by
  cases hrow : view.rows[view.cursorPosition.1]? with
  | some row => exact ⟨row, rfl⟩
  | none =>
    have hmissing : ∀ col, view.textAt view.cursorPosition.1 col = "" := fun col => textAt_missing (by simp [hrow])
    cases deletion with
    | backspace =>
      rw [backspace_text, hmissing, ite_self] at h
      exact absurd rfl h
    | delete =>
      rw [delete_text, hmissing] at h
      exact absurd rfl h

end

/-! ## Rows of presses -/

section
variable {view : Tracked} {deletion : Deletion} {self : ScreenReader (Option Nat)} {n : Nat}

def Earlier (n : Nat) (self : ScreenReader (Option Nat)) : Prop :=
  ∀ intent ∈ self.pendingDeletes, ∀ m, intent.tag = some m → m < n

theorem press_spec (h : Earlier n self) :
    let next := deletion.defer self.recordLastKey (some n) view
    Earlier (n + 1) next ∧
      ((next.pendingDeletes.getLast?.filter (·.tag = some n)).map (·.kind.text)).toList =
        (if deletion.text self.recordLastKey view = "" then [] else [deletion.text self.recordLastKey view]) ∧
      (deletion.text self.recordLastKey view ≠ "" →
        deletion.offset next.recordLastKey view = deletion.offset self.recordLastKey view + 1) := by
  obtain ⟨kind, hdefer, htext, hnext⟩ := defer_spec deletion self.recordLastKey (some n) view
  have hold : Earlier (n + 1) self.recordLastKey := fun intent hin m hm => Nat.lt_succ_of_lt (h intent hin m hm)
  rw [hdefer, ScreenReader.pushIntent]
  split
  · next hnone =>
    refine ⟨hold, ?_, fun hsome => absurd hnone hsome⟩
    cases hlast : self.recordLastKey.pendingDeletes.getLast? with
    | none => rfl
    | some last =>
      have hother : ¬ last.tag = some n := fun htag => lt_irrefl n (h last (mem_of_getLast? hlast) n htag)
      rw [filter_some_neg (by simpa using hother)]
      rfl
  · next hsome =>
    obtain ⟨row, hrow⟩ := row_of_text hsome
    rw [hrow]
    refine ⟨fun intent hin m hm => ?_, ?_, fun _ => hnext hsome _ row ?_⟩
    · obtain hkept | hnew := mem_append.mp hin
      · split at hkept
        · exact hold intent (mem_of_mem_tail hkept) m hm
        · exact hold intent hkept m hm
      · obtain rfl := mem_singleton.mp hnew
        exact some.inj hm ▸ Nat.lt_succ_self n
    · simp [pushPendingDelete, htext]
    · simp [previousIntent, pushPendingDelete, recordLastKey]

theorem presses_earlier (h : Earlier 0 self) : Earlier n (deletion.presses view self n).1 := by
  induction n with
  | zero => exact h
  | succ n ih => exact (press_spec ih).1

theorem presses_prefix (n more : Nat) :
    (deletion.presses view self n).2 <+: (deletion.presses view self (n + more)).2 := by
  induction more with
  | zero => exact prefix_refl _
  | succ more ih => exact ih.trans (prefix_append _ _)

theorem presses_texts (h : Earlier 0 self) (hfresh : deletion.offset self.recordLastKey view = 0)
    (hfull : "" ∉ (deletion.cells view).take n) (hle : n ≤ (deletion.cells view).length) :
    (deletion.presses view self n).2 = (deletion.cells view).take n ∧
      deletion.offset (deletion.presses view self n).1.recordLastKey view = n := by
  induction n with
  | zero => exact ⟨rfl, hfresh⟩
  | succ n ih =>
    rw [take_add_one, getElem?_eq_getElem hle] at hfull
    obtain ⟨htexts, hoffset⟩ := ih (fun hin => hfull (mem_append_left _ hin)) (Nat.le_of_succ_le hle)
    obtain ⟨-, hnoted, hnext⟩ := @press_spec view deletion _ _ (presses_earlier (n := n) h)
    have htext : deletion.text (deletion.presses view self n).1.recordLastKey view = (deletion.cells view)[n] := by
      rw [text, hoffset, getElem?_eq_getElem hle, getD_some]
    have hsome : (deletion.cells view)[n] ≠ "" := fun hempty => hfull (by simp [hempty])
    rw [htext, if_neg hsome] at hnoted
    rw [htext, hoffset] at hnext
    refine ⟨?_, hnext hsome⟩
    rw [take_add_one, getElem?_eq_getElem hle, ← htexts]
    exact congrArg _ hnoted

end

/-! ## Glyphs -/

theorem take_filter_of_full {texts : List String} {n : Nat} (hfull : "" ∉ texts.take n) :
    texts.filter (· ≠ "") = texts.take n ++ (texts.drop n).filter (· ≠ "") := by
  conv_lhs => rw [← take_append_drop n texts, filter_append]
  congr 1
  exact filter_eq_self.mpr fun text hin => decide_eq_true fun hempty : text = "" => hfull (hempty ▸ hin)

theorem exists_gap {texts : List String} {n : Nat} (hgap : "" ∈ texts.take n) :
    ∃ first, first < n ∧ first < texts.length ∧ "" ∉ texts.take first ∧ "" ∈ texts.take (first + 1) := by
  induction n with
  | zero => cases hgap
  | succ n ih =>
    by_cases hbefore : "" ∈ texts.take n
    · obtain ⟨first, hlt, hrest⟩ := ih hbefore
      exact ⟨first, Nat.lt_succ_of_lt hlt, hrest⟩
    · refine ⟨n, Nat.lt_succ_self n, ?_, hbefore, hgap⟩
      by_contra hend
      rw [take_of_length_le (by omega)] at hgap hbefore
      exact hbefore hgap

section
variable {view : Tracked} {deletion : Deletion} {self : ScreenReader (Option Nat)} {n : Nat}

theorem earlier_untagged (self : ScreenReader Unit) : Earlier 0 self.untagged := by
  intro intent hin m hm
  obtain ⟨old, -, rfl⟩ := mem_map.mp hin
  cases hm

theorem namesGlyphs_of_full (h : Earlier 0 self) (hfresh : deletion.offset self.recordLastKey view = 0)
    (hfull : "" ∉ (deletion.cells view).take (min n (deletion.glyphs view).length)) :
    deletion.NamesGlyphs view self n := by
  intro m hm
  have hcells : (deletion.glyphs view).length ≤ (deletion.cells view).length := length_filter_le _ _
  obtain hfew | hmany := le_total m (deletion.glyphs view).length
  · have hfull' : "" ∉ (deletion.cells view).take m := fun hin =>
      hfull (take_subset_take_left _ (Nat.le_min.mpr ⟨hm, hfew⟩) hin)
    rw [(presses_texts h hfresh hfull' (hfew.trans hcells)).1, glyphs, take_filter_of_full hfull']
    rw [take_append_of_le_length (by rw [length_take]; omega), take_take]
    exact (min_self m).symm ▸ prefix_refl _
  · rw [min_eq_right (hmany.trans hm)] at hfull
    have hglyphs : (deletion.cells view).take (deletion.glyphs view).length = deletion.glyphs view :=
      IsPrefix.eq_of_length ⟨_, (take_filter_of_full hfull).symm⟩ (length_take_of_le hcells)
    have hnoted := (presses_texts h hfresh hfull hcells).1
    have hmore : (deletion.presses view self (deletion.glyphs view).length).2 <+: _ :=
      presses_prefix (deletion.glyphs view).length (m - (deletion.glyphs view).length)
    rwa [hnoted, hglyphs, Nat.add_sub_cancel' hmany, ← take_of_length_le hmany] at hmore

theorem full_of_namesGlyphs (h : Earlier 0 self) (hfresh : deletion.offset self.recordLastKey view = 0)
    (hnames : deletion.NamesGlyphs view self n) :
    "" ∉ (deletion.cells view).take (min n (deletion.glyphs view).length) := by
  intro hgap
  obtain ⟨first, hfirst, hlength, hfull, hempty⟩ := exists_gap hgap
  obtain ⟨htexts, hoffset⟩ := presses_texts h hfresh hfull (le_of_lt hlength)
  obtain ⟨-, hnoted, -⟩ := @press_spec view deletion _ _ (presses_earlier (n := first) h)
  have hnone : deletion.text (deletion.presses view self first).1.recordLastKey view = "" := by
    rw [take_add_one, getElem?_eq_getElem hlength] at hempty
    rw [text, hoffset, getElem?_eq_getElem hlength]
    obtain hbefore | hhere := mem_append.mp hempty
    · exact absurd hbefore hfull
    · exact (mem_singleton.mp hhere).symm
  rw [if_pos hnone] at hnoted
  have hstill : (deletion.presses view self (first + 1)).2 = (deletion.cells view).take first := by
    rw [← htexts]
    exact (congrArg _ hnoted).trans (append_nil _)
  have hlong := (hnames (first + 1) (hfirst.trans_le (min_le_left _ _))).length_le
  rw [hstill, length_take, length_take] at hlong
  omega

/-- **Deletions name the right glyphs exactly when no cell without text comes before the last of
them**: the press that comes to such a cell notes nothing, and the next one starts at the cursor
again. -/
theorem namesGlyphs_iff (deletion : Deletion) (view : Tracked) (self : ScreenReader Unit)
    (hfresh : deletion.offset self.untagged.recordLastKey view = 0) (n : Nat) :
    deletion.NamesGlyphs view self.untagged n ↔
      "" ∉ (deletion.cells view).take (min n (deletion.glyphs view).length) :=
  ⟨full_of_namesGlyphs (earlier_untagged self) hfresh, namesGlyphs_of_full (earlier_untagged self) hfresh⟩

def typing (texts : List String) (col : Nat) : Tracked where
  viewId := ⟨0⟩
  rows := [⟨texts.map fun grapheme =>
    ⟨grapheme, if grapheme = "漢" then 2 else 1, grapheme = "", .default, none⟩, false⟩]
  cursorPosition := (0, col)
  screen := .primary
  prevScreen := .primary
  accessibilityScreenTransitionPending := false
  presentationTracking := true
  liveRevision := 0
  presentedRevision := 0

theorem namesGlyphs_two_letters : backspace.NamesGlyphs (typing ["a", "b"] 2) (untagged ⟨[], 0⟩) 2 :=
  (namesGlyphs_iff .backspace (typing ["a", "b"] 2) ⟨[], 0⟩ rfl 2).mpr (by decide)

/-- Behind a wide glyph nothing is noted, although it is the first glyph to the left. -/
theorem wide_glyph_unnamed :
    ¬ backspace.NamesGlyphs (typing ["a", "漢", ""] 3) (untagged ⟨[], 0⟩) 1 := fun h =>
  absurd (h 1 (le_refl 1)) (by decide)

end
end Lector.PendingDeletes
