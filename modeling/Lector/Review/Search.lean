import Lector.Review.Positions
import Mathlib.Algebra.Order.BigOperators.Group.List

/-! Search in a review document. The code takes a match at the end of a line whose last glyph is not
in the first column for one in the first column. -/
namespace Lector.Review
open Scanning Terminal
open Option hiding map_map mem_map min
open List hiding min

namespace ReviewDocument

/-! ## Where a match starts -/

inductive TextPlace
  | glyph (position : HistoryPosition)
  | lineEnd (row : Nat)
deriving DecidableEq

section Spec

variable (self : ReviewDocument)

def rowPlaces (index : Nat) (row : Row) : List TextPlace :=
  ((rowGlyphs index row).flatMap fun glyph => List.replicate glyph.1.utf8ByteSize (.glyph glyph.2)) ++
    if row.wrapped then [] else [.lineEnd index]

def textPlaces : List TextPlace := self.rows.zipIdx.flatMap fun row => rowPlaces row.2 row.1

/-- Where an offset is. Behind all of the text it is at the end of the last line. -/
def placeAt (offset : Nat) : Option TextPlace :=
  (self.textPlaces[offset]?).or (if self.rows.isEmpty then none else some (.lineEnd (self.rowCount - 1)))

def lastGlyphCol (row : Nat) : Nat := self.clampCol row (self.lineLastCol row)

def TextPlace.position : TextPlace → HistoryPosition
  | .glyph position => position
  | .lineEnd row => ⟨row, self.lastGlyphCol row⟩

def matchPositions (offsets : List Nat) : List HistoryPosition :=
  (offsets.filterMap self.placeAt).map (TextPlace.position self)

end Spec

/-- First the matches behind a position (before it, when the search goes back), then the others. -/
inductive Wrapped (position : HistoryPosition) : SearchDirection → List HistoryPosition → List HistoryPosition → Prop
  | forward {before after : List HistoryPosition} (hbefore : ∀ found ∈ before, position.lt found = false)
      (hafter : ∀ found ∈ after, position.lt found = true) :
      Wrapped position .forward (before ++ after) (after ++ before)
  | backward {before after : List HistoryPosition} (hbefore : ∀ found ∈ before, found.lt position = true)
      (hafter : ∀ found ∈ after, found.lt position = false) :
      Wrapped position .backward (before ++ after) (before.reverse ++ after.reverse)

def counted (position : HistoryPosition) (found : List HistoryPosition) (count : Nat) : Option HistoryPosition :=
  (found[(count - 1) % found.length]?).bind (moved position)

variable {self : ReviewDocument} {position : HistoryPosition} {found ordered : List HistoryPosition}

/-! ## Order -/

abbrev NotAfter (a b : HistoryPosition) : Prop := b.lt a = false

theorem notAfter_refl (a : HistoryPosition) : NotAfter a a := not_lt_iff.mpr (.inr ⟨rfl, le_refl _⟩)

theorem perm_searchOrder (direction : SearchDirection) (position : HistoryPosition) (found : List HistoryPosition) :
    (searchOrder direction position found).Perm found := by
  cases direction with
  | forward => exact filter_append_perm _ _
  | backward => exact (filter_append_perm _ _).trans (reverse_perm _)

theorem filter_sorted {p : HistoryPosition → Bool} (sorted : found.Pairwise NotAfter)
    (hp : ∀ a b, NotAfter a b → p a = true → p b = true) :
    (found.filter fun place => !p place) ++ found.filter p = found := by
  induction found with
  | nil => rfl
  | cons place rest ih =>
    obtain ⟨hplace, hrest⟩ := pairwise_cons.mp sorted
    cases hkeep : p place with
    | false => simp [hkeep, ih hrest]
    | true =>
      have hall : ∀ other ∈ rest, p other = true := fun other hother => hp _ _ (hplace other hother) hkeep
      have hnone : rest.filter (fun place => !p place) = [] := by
        apply filter_eq_nil_iff.mpr
        simpa using hall
      simp [hkeep, hnone, filter_eq_self.mpr hall]

theorem wrapped_searchOrder (sorted : found.Pairwise NotAfter) (direction : SearchDirection)
    (position : HistoryPosition) : Wrapped position direction found (searchOrder direction position found) := by
  cases direction with
  | forward =>
    have hcut := filter_sorted (p := fun place => position.lt place) sorted (by
      simp only [not_lt_iff, lt_iff] at *
      omega)
    have hwrapped := @Wrapped.forward position (found.filter fun place => !position.lt place)
      (found.filter fun place => position.lt place) (by simp) (by simp)
    rwa [hcut] at hwrapped
  | backward =>
    have hcut := filter_sorted (p := fun place => !place.lt position) sorted (by
      simp only [Bool.not_eq_true', not_lt_iff] at *
      omega)
    have hwrapped := @Wrapped.backward position (found.filter fun place => place.lt position)
      (found.filter fun place => !place.lt position) (by simp) (by simp)
    simp only [Bool.not_not] at hcut
    rw [hcut] at hwrapped
    rw [searchOrder, filter_reverse, filter_reverse]
    exact hwrapped

theorem perm_of_wrapped {direction : SearchDirection} (h : Wrapped position direction found ordered) :
    ordered.Perm found := by
  cases h with
  | forward hbefore hafter => exact perm_append_comm
  | backward hbefore hafter => exact (reverse_perm _).append (reverse_perm _)

/-! ## Positions of matches -/

def TextPlace.coded : TextPlace → HistoryPosition
  | .glyph position => position
  | .lineEnd row => ⟨row, 0⟩

theorem coded_textPlaces : self.textPlaces.map TextPlace.coded = self.flatPositions := by
  unfold textPlaces flatPositions text
  rw [map_flatMap, flatMap_assoc]
  apply flatMap_congr
  intro row _
  unfold rowPlaces rowText
  rw [map_append, map_flatMap, flatMap_append]
  congr 1
  · simp [TextPlace.coded]
  · split <;> rfl

theorem positionForOffset_eq (offset : Nat) :
    self.positionForOffset offset = (self.placeAt offset).map TextPlace.coded := by
  have hzero : self.clamp ⟨self.rowCount - 1, 0⟩ = ⟨self.rowCount - 1, 0⟩ := by
    simp [clamp, clampCol, scanDown]
  unfold positionForOffset placeAt
  rw [← coded_textPlaces, getElem?_map, hzero]
  cases self.textPlaces[offset]? with
  | some place => rfl
  | none => split <;> rfl

theorem coded_matches (offsets : List Nat) :
    offsets.filterMap self.positionForOffset = (offsets.filterMap self.placeAt).map TextPlace.coded := by
  rw [map_filterMap]
  exact congrArg (filterMap · offsets) (funext positionForOffset_eq)

theorem coded_col_le (place : TextPlace) : place.coded.col ≤ (place.position self).col := by
  cases place with
  | glyph position => exact le_rfl
  | lineEnd row => exact Nat.zero_le _

theorem coded_eq_iff (place : TextPlace) :
    place.coded = place.position self ↔ ∀ row, place = .lineEnd row → self.lastGlyphCol row = 0 := by
  cases place with
  | glyph position => simp [TextPlace.coded, TextPlace.position]
  | lineEnd row => simp [TextPlace.coded, TextPlace.position, eq_comm]

/-! ### Places in the order of the text -/

theorem position_row {index : Nat} {row : Row} {place : TextPlace} (h : place ∈ rowPlaces index row) :
    (place.position self).row = index := by
  obtain h | h := mem_append.mp h
  · obtain ⟨glyph, hglyph, hplace⟩ := mem_flatMap.mp h
    obtain ⟨cell, -, rfl⟩ := mem_map.mp hglyph
    rw [eq_of_mem_replicate hplace]
    rfl
  · split at h
    · cases h
    · rw [mem_singleton.mp h]
      rfl

theorem rowGlyphs_sorted (index : Nat) (row : Row) : (rowGlyphs index row).Pairwise fun a b => NotAfter a.2 b.2 := by
  apply pairwise_map.mpr
  apply ((zipIdx_sorted _).filter _).imp
  intro a b hab
  exact not_lt_iff.mpr (.inr ⟨rfl, le_of_lt hab⟩)

theorem le_lastGlyphCol {row col : Nat} (hglyph : self.continuation row col = false)
    (hcol : col ≤ self.lineLastCol row) : col ≤ self.lastGlyphCol row := by
  by_contra hlater
  have hspacer := @of_scanDown_lt (self.continuation row) (min (self.lineLastCol row) (self.lineLastCol row)) col
    (Nat.lt_of_not_le hlater) (by omega)
  rw [hglyph] at hspacer
  cases hspacer

theorem notAfter_lineEnd {index : Nat} {row : Row} (hrow : self.rows[index]? = some row) {place : TextPlace}
    (h : place ∈ rowPlaces index row) : NotAfter (place.position self) ⟨index, self.lastGlyphCol index⟩ := by
  have hindex := @position_row self index row place h
  refine not_lt_iff.mpr (.inr ⟨hindex, ?_⟩)
  obtain h | h := mem_append.mp h
  · obtain ⟨glyph, hglyph, hplace⟩ := mem_flatMap.mp h
    obtain ⟨cell, hcell, rfl⟩ := mem_map.mp hglyph
    obtain ⟨hmem, hspacer⟩ := mem_filter.mp hcell
    have hlt := snd_lt_of_mem_zipIdx hmem
    have hget := mem_zipIdx_iff_getElem?.mp hmem
    rw [length_take] at hlt
    rw [eq_of_mem_replicate hplace]
    show cell.2 ≤ self.lastGlyphCol index
    apply le_lastGlyphCol
    · rw [getElem?_take_of_lt (by omega)] at hget
      rw [continuation, ReviewDocument.cell, hrow, bind_some, hget]
      simpa using hspacer
    · simp only [lineLastCol, stop, hrow, elim_some]
      omega
  · split at h
    · cases h
    · rw [mem_singleton.mp h]
      exact le_rfl

theorem rowPlaces_sorted {index : Nat} {row : Row} (hrow : self.rows[index]? = some row) :
    (rowPlaces index row).Pairwise fun a b => NotAfter (a.position self) (b.position self) := by
  have hends : ∀ place ∈ rowPlaces index row, NotAfter (place.position self) ⟨index, self.lastGlyphCol index⟩ :=
    fun place => notAfter_lineEnd hrow
  refine pairwise_append.mpr ⟨?_, ?_, ?_⟩
  · apply pairwise_flatMap.mpr
    constructor
    · intro glyph _
      apply pairwise_replicate.mpr
      exact .inr (notAfter_refl _)
    · apply (rowGlyphs_sorted index row).imp
      intro a b hab place hplace other hother
      rw [eq_of_mem_replicate hplace, eq_of_mem_replicate hother]
      exact hab
  · split
    · exact .nil
    · exact pairwise_singleton _ _
  · intro place hplace last hlast
    split at hlast
    · cases hlast
    · rw [mem_singleton.mp hlast]
      exact hends place (mem_append_left _ hplace)

theorem textPlaces_sorted :
    self.textPlaces.Pairwise fun a b => NotAfter (a.position self) (b.position self) := by
  apply pairwise_flatMap.mpr
  constructor
  · intro row hrow
    exact rowPlaces_sorted (mem_zipIdx_iff_getElem?.mp hrow)
  · apply (zipIdx_sorted self.rows).imp
    intro a b hab place hplace other hother
    simp only [not_lt_iff, position_row hplace, position_row hother]
    exact .inl hab

theorem notAfter_end {place : TextPlace} (h : place ∈ self.textPlaces) :
    NotAfter (place.position self) ⟨self.rowCount - 1, self.lastGlyphCol (self.rowCount - 1)⟩ := by
  obtain ⟨row, hrow, hplace⟩ := mem_flatMap.mp h
  have hsource := mem_zipIdx_iff_getElem?.mp hrow
  have hlt := (List.getElem?_eq_some_iff.mp hsource).1
  by_cases hlast : row.2 = self.rowCount - 1
  · rw [← hlast]
    exact notAfter_lineEnd hsource hplace
  · simp only [not_lt_iff, position_row hplace]
    unfold rowCount at *
    omega

theorem placeAt_sorted {offset later : Nat} (h : offset ≤ later) {place other : TextPlace}
    (hplace : self.placeAt offset = some place) (hother : self.placeAt later = some other) :
    NotAfter (place.position self) (other.position self) := by
  unfold placeAt at hplace hother
  cases hearly : self.textPlaces[offset]? with
  | none =>
    have hlate : self.textPlaces[later]? = none := by
      rw [getElem?_eq_none_iff] at *
      omega
    rw [hearly] at hplace
    rw [hlate, hplace] at hother
    cases hother
    exact notAfter_refl _
  | some early =>
    rw [hearly] at hplace
    cases hplace
    cases hlate : self.textPlaces[later]? with
    | none =>
      rw [hlate, none_or, ite_none_left_eq_some] at hother
      obtain rfl := some.inj hother.2
      exact notAfter_end (mem_of_getElem? hearly)
    | some late =>
      rw [hlate] at hother
      cases hother
      obtain ⟨hlater, rfl⟩ := List.getElem?_eq_some_iff.mp hlate
      obtain ⟨hoffset, rfl⟩ := List.getElem?_eq_some_iff.mp hearly
      obtain rfl | hlt := eq_or_lt_of_le h
      · exact notAfter_refl _
      · exact pairwise_iff_getElem.mp textPlaces_sorted offset later hoffset hlater hlt

/-- **Places of matches that come one after the other in the text do so in the document.** -/
theorem matchPositions_sorted {offsets : List Nat} (h : offsets.Pairwise (· < ·)) :
    (self.matchPositions offsets).Pairwise NotAfter := by
  apply pairwise_map.mpr
  apply pairwise_filterMap.mpr
  apply h.imp
  intro offset later hlt place hplace other hother
  exact placeAt_sorted (le_of_lt hlt) hplace hother

/-! ## Counting -/

theorem moved_inj {a b : HistoryPosition} (h : moved position a = moved position b) : a = b := by
  unfold moved at h
  split at h <;> simp_all

theorem counted_inj {other : List HistoryPosition} (hlength : ordered.length = other.length)
    (h : ∀ count, counted position ordered count = counted position other count) : ordered = other := by
  apply ext_getElem hlength
  intro i hi hi'
  have hcount := h (i + 1)
  unfold counted at hcount
  rw [Nat.add_sub_cancel, Nat.mod_eq_of_lt hi, Nat.mod_eq_of_lt hi', getElem?_eq_getElem hi,
    getElem?_eq_getElem hi'] at hcount
  exact moved_inj hcount

theorem search_eq_counted {engine : RegexEngine} {query : String} {findIter : String → List Nat}
    (h : engine query = some findIter) (position : HistoryPosition) (direction : SearchDirection) (count : Nat) :
    self.search engine query position direction count = counted position (searchOrder direction position
        (((findIter self.flatText).filterMap self.placeAt).map TextPlace.coded)) count := by
  rw [← coded_matches]
  unfold search
  rw [h, bind_eq_bind, bind_some]
  dsimp only
  split
  · next hempty =>
    have hnone := length_eq_zero_iff.mpr (isEmpty_iff.mp hempty)
    rw [← (perm_searchOrder direction position _).length_eq] at hnone
    simp [counted, length_eq_zero_iff.mp hnone]
  · rfl

theorem eq_of_sum_eq {α : Type} {f g : α → Nat} {items : List α} (hle : ∀ item ∈ items, f item ≤ g item)
    (hsum : (items.map f).sum = (items.map g).sum) : ∀ item ∈ items, f item = g item := by
  induction items with
  | nil => simp
  | cons item items ih =>
    rw [map_cons, map_cons, sum_cons, sum_cons] at hsum
    obtain ⟨hitem, hrest⟩ := forall_mem_cons.mp hle
    have htotal := sum_le_sum hrest
    exact forall_mem_cons.mpr ⟨by omega, ih hrest (by omega)⟩

/-- **A search counts the matches in the order of the document, round its end, exactly when** none starts at the
end of a line whose last glyph is not in the first column. -/
theorem search_iff {engine : RegexEngine} {query : String} {findIter : String → List Nat}
    (hengine : engine query = some findIter) (hfound : (findIter self.flatText).Pairwise (· < ·))
    (position : HistoryPosition) (direction : SearchDirection) :
    (∃ ordered, Wrapped position direction (self.matchPositions (findIter self.flatText)) ordered ∧
        ∀ count, self.search engine query position direction count = counted position ordered count) ↔
      ∀ offset ∈ findIter self.flatText, ∀ row, self.placeAt offset = some (.lineEnd row) →
        self.lastGlyphCol row = 0 := by
  simp only [search_eq_counted hengine]
  generalize findIter self.flatText = offsets at *
  have hall : (∀ offset ∈ offsets, ∀ row, self.placeAt offset = some (.lineEnd row) → self.lastGlyphCol row = 0) ↔
      ∀ place ∈ offsets.filterMap self.placeAt, place.coded = place.position self := by
    simp only [mem_filterMap, coded_eq_iff]
    constructor
    · rintro h place ⟨offset, hoffset, hplace⟩ row rfl
      exact h offset hoffset row hplace
    · intro h offset hoffset row hplace
      exact h _ ⟨offset, hoffset, hplace⟩ row rfl
  rw [hall]
  constructor
  · rintro ⟨ordered, hwrapped, hcounted⟩
    have hperm := perm_of_wrapped hwrapped
    have hcoded := perm_searchOrder direction position ((offsets.filterMap self.placeAt).map TextPlace.coded)
    have hlength : (searchOrder direction position
        ((offsets.filterMap self.placeAt).map TextPlace.coded)).length = ordered.length := by
      rw [hcoded.length_eq, hperm.length_eq, matchPositions, length_map, length_map]
    have hsame := counted_inj hlength hcounted
    rw [hsame] at hcoded
    -- the columns of both lists of positions add up to the same
    have hsum := ((hcoded.symm.trans hperm).map HistoryPosition.col).sum_eq
    rw [matchPositions, map_map, map_map] at hsum
    have hcols := eq_of_sum_eq (fun place _ => @coded_col_le self place) hsum
    intro place hplace
    apply (coded_eq_iff place).mpr
    rintro row rfl
    exact (hcols _ hplace).symm
  · intro h
    have hsame := map_congr_left h
    rw [hsame]
    exact ⟨_, wrapped_searchOrder (matchPositions_sorted hfound) direction position, fun count => rfl⟩

/-! ### Newlines -/

def newlineOffsets : List Char → Nat → List Nat
  | [], _ => []
  | ch :: rest, offset => (if ch = '\n' then [offset] else []) ++ newlineOffsets rest (offset + ch.utf8Size)

/-- The engine for the pattern `\n`. -/
def newlineEngine : RegexEngine := fun query =>
  if query = "\n" then some fun text => newlineOffsets text.toList 0 else none

def twoLines : ReviewDocument :=
  fromSnapshot (screenOf [printedRow "ab" false, printedRow "cd" false]) [] 2 Nat.two_pos

def oneLetterLines : ReviewDocument :=
  fromSnapshot (screenOf [printedRow "a" false, printedRow "b" false]) [] 2 Nat.two_pos

theorem search_iff_letters :
    (∃ ordered, Wrapped ⟨0, 0⟩ .forward (oneLetterLines.matchPositions [1, 3]) ordered ∧
        ∀ count, oneLetterLines.search newlineEngine "\n" ⟨0, 0⟩ .forward count = counted ⟨0, 0⟩ ordered count) ↔
      ∀ offset ∈ [1, 3], ∀ row, oneLetterLines.placeAt offset = some (.lineEnd row) →
        oneLetterLines.lastGlyphCol row = 0 :=
  @search_iff oneLetterLines newlineEngine "\n" _ rfl (by decide) ⟨0, 0⟩ .forward

/-- The search back from the `b` finds a newline behind it. -/
theorem search_back_finds_later_newline :
    ¬ ∃ ordered, Wrapped ⟨0, 1⟩ .backward (twoLines.matchPositions [2, 5]) ordered ∧
      ∀ count, twoLines.search newlineEngine "\n" ⟨0, 1⟩ .backward count = counted ⟨0, 1⟩ ordered count := by
  rintro ⟨ordered, hwrapped, hcounted⟩
  have hcode : twoLines.search newlineEngine "\n" ⟨0, 1⟩ .backward 1 = some ⟨0, 0⟩ := by decide
  obtain ⟨target, htarget, hmoved⟩ := bind_eq_some_iff.mp ((hcounted 1).symm.trans hcode)
  have hmem := (perm_of_wrapped hwrapped).subset (mem_of_getElem? htarget)
  rw [(moved_eq_some.mp hmoved).2] at hmem
  exact absurd hmem (by decide)

end ReviewDocument
end Lector.Review
