import Lector.Review.Positions

/-! The word text objects. Which positions belong to one depends on the cursor where blanks are
taken only from the last character. -/
namespace Lector.Review
open Scanning Runs
open List hiding min

namespace ReviewDocument

/-- A run of characters of one class on one logical line that are not blank. -/
structure IsWord (document : ReviewDocument) (isAlphanumeric : Char → Bool) (style : WordStyle)
    (first last : Nat) : Prop where
  run : IsRun (document.classAt isAlphanumeric style) document.joined document.positions.length first last
  class_ne : document.classAt isAlphanumeric style first ≠ .blank

section Spec

variable (self : ReviewDocument) (isAlphanumeric : Char → Bool) (style : WordStyle)

/-- The text object has the word in it, and begins and ends where a run does. -/
def DependsOnWord (first last : Nat) (around : Bool) (count : Nat) : Prop :=
  ∃ start stop, start ≤ first ∧ last ≤ stop ∧ stop < self.positions.length ∧
    StartsRun (self.classAt isAlphanumeric style) self.joined start ∧
    EndsRun (self.classAt isAlphanumeric style) self.joined self.positions.length stop ∧
    ∀ index, first ≤ index → index ≤ last →
      self.innerWordRange isAlphanumeric style (self.positionAt index) around count =
        some (self.positionAt start, self.positionAt stop)

variable (wordClass : WordClass)

/-- Not blank, and the next position is not one of the class on the same logical line. -/
def isStop (index : Nat) : Bool :=
  self.classAt isAlphanumeric style index != .blank &&
    !(index + 1 < self.positions.length && self.classAt isAlphanumeric style (index + 1) == wordClass &&
      self.joined (index + 1))

def stopsFrom (index : Nat) : List Nat :=
  places (self.isStop isAlphanumeric style wordClass) self.positions.length index

def countedStop (count index : Nat) : Option Nat :=
  let stops := self.stopsFrom isAlphanumeric style wordClass index
  stops[min (count - 1) (stops.length - 1)]?

end Spec

/-- The words for which the text object depends on the word. -/
structure Regular (document : ReviewDocument) (isAlphanumeric : Char → Bool) (style : WordStyle)
    (first last : Nat) (around : Bool) (count : Nat) : Prop where
  counted : count = 0 → first = last
  ends : ∀ stop,
    document.countedStop isAlphanumeric style (document.classAt isAlphanumeric style first) count first = some stop →
      EndsRun (document.classAt isAlphanumeric style) document.joined document.positions.length stop
  leading : around = true → first < last → 0 < first →
    document.classAt isAlphanumeric style (first - 1) = .blank →
      last + 1 < document.positions.length ∧ (count = 1 → document.classAt isAlphanumeric style (last + 1) = .blank)

variable {self : ReviewDocument} {isAlphanumeric : Char → Bool} {style : WordStyle}
  {wordClass : WordClass} {first last index stop count : Nat} {around : Bool}

/-! ## Blanks -/

section Blanks

variable (self isAlphanumeric style)

def nextNonblank (index : Nat) : Nat :=
  scanUp (fun i => self.classAt isAlphanumeric style i == .blank) self.positions.length index

def leadingStart (index : Nat) : Nat :=
  scanDown (fun i => self.classAt isAlphanumeric style (i - 1) == .blank) index

end Blanks

theorem nextNonblank_ne (h : self.nextNonblank isAlphanumeric style index < self.positions.length) :
    self.classAt isAlphanumeric style (self.nextNonblank isAlphanumeric style index) ≠ .blank :=
  beq_eq_false_iff_ne.mp (scanUp_stops h)

theorem blank_of_lt_nextNonblank {k : Nat} (h : index ≤ k) (hk : k < self.nextNonblank isAlphanumeric style index) :
    self.classAt isAlphanumeric style k = .blank :=
  beq_iff_eq.mp (of_lt_scanUp h hk)

theorem nextNonblank_eq_self_iff (h : index ≤ self.positions.length) :
    self.nextNonblank isAlphanumeric style index = index ↔
      (index < self.positions.length → self.classAt isAlphanumeric style index ≠ .blank) := by
  rw [nextNonblank, scanUp_eq_self_iff h, beq_eq_false_iff_ne]

theorem leadingStart_le : self.leadingStart isAlphanumeric style index ≤ index := scanDown_le

theorem leadingStart_eq_self_iff : self.leadingStart isAlphanumeric style index = index ↔
      (0 < index → self.classAt isAlphanumeric style (index - 1) ≠ .blank) := by
  rw [leadingStart, scanDown_eq_self_iff, beq_eq_false_iff_ne]

theorem trailingEnd_eq (stop : Nat) :
    self.trailingEnd isAlphanumeric style stop = self.nextNonblank isAlphanumeric style (stop + 1) - 1 := rfl

section

variable (h : stop < self.positions.length)
include h

theorem nextNonblank_bounds : stop < self.nextNonblank isAlphanumeric style (stop + 1) ∧
      self.nextNonblank isAlphanumeric style (stop + 1) ≤ self.positions.length :=
  ⟨le_scanUp, scanUp_le h⟩

theorem trailingEnd_bounds : stop ≤ self.trailingEnd isAlphanumeric style stop ∧
      self.trailingEnd isAlphanumeric style stop < self.positions.length := by
  obtain ⟨hle, hbound⟩ := @nextNonblank_bounds self isAlphanumeric style stop h
  rw [trailingEnd_eq]
  omega

theorem trailingEnd_eq_self_iff : self.trailingEnd isAlphanumeric style stop = stop ↔
      (stop + 1 < self.positions.length → self.classAt isAlphanumeric style (stop + 1) ≠ .blank) := by
  obtain ⟨hle, -⟩ := @nextNonblank_bounds self isAlphanumeric style stop h
  rw [trailingEnd_eq, ← @nextNonblank_eq_self_iff self isAlphanumeric style (stop + 1) h]
  omega

theorem endsRun_trailingEnd_iff (hstop : self.classAt isAlphanumeric style stop ≠ .blank) :
    EndsRun (self.classAt isAlphanumeric style) self.joined self.positions.length
        (self.trailingEnd isAlphanumeric style stop) ↔
      EndsRun (self.classAt isAlphanumeric style) self.joined self.positions.length stop := by
  obtain ⟨hle, -⟩ := @trailingEnd_bounds self isAlphanumeric style stop h
  obtain heq | hgt := eq_or_lt_of_le hle
  · rw [← heq]
  · rw [trailingEnd_eq] at hgt ⊢
    have hblank : self.classAt isAlphanumeric style (stop + 1) = .blank :=
      blank_of_lt_nextNonblank (le_rfl) (by omega)
    have hlast : self.classAt isAlphanumeric style (self.nextNonblank isAlphanumeric style (stop + 1) - 1) = .blank :=
      @blank_of_lt_nextNonblank self isAlphanumeric style (stop + 1) _ (by omega) (by omega)
    constructor
    · rintro - - ⟨hsame, -⟩
      rw [hblank] at hsame
      exact hstop hsame.symm
    · rintro - hmore ⟨hsame, -⟩
      rw [Nat.sub_add_cancel (by omega)] at hmore hsame
      exact nextNonblank_ne hmore (hsame.trans hlast)

end

theorem startsRun_leadingStart (h : StartsRun (self.classAt isAlphanumeric style) self.joined first) :
    StartsRun (self.classAt isAlphanumeric style) self.joined (self.leadingStart isAlphanumeric style first) := by
  obtain heq | hlt := eq_or_lt_of_le (@leadingStart_le self isAlphanumeric style first)
  · rw [heq]
    exact h
  · rintro hpos ⟨hsame, -⟩
    have hstops := scanDown_stops hpos
    have hblank := of_scanDown_lt (Nat.lt_succ_self _) hlt
    rw [beq_iff_eq] at hblank
    rw [beq_eq_false_iff_ne] at hstops
    exact hstops (hsame.trans hblank)

/-! ## Stops -/

theorem runEnd_bounds (h : index < self.positions.length) :
    index ≤ self.runEnd isAlphanumeric style wordClass index ∧
      self.runEnd isAlphanumeric style wordClass index < self.positions.length := by
  have hle : self.runEnd isAlphanumeric style wordClass index ≤ self.positions.length - 1 :=
    scanUp_le (by omega)
  exact ⟨le_scanUp, by omega⟩

theorem isStop_iff : self.isStop isAlphanumeric style wordClass index = true ↔
    self.classAt isAlphanumeric style index ≠ .blank ∧ (index + 1 < self.positions.length →
      (self.classAt isAlphanumeric style (index + 1) == wordClass && self.joined (index + 1)) = false) := by
  rw [isStop, Bool.and_eq_true, Bool.not_eq_true']
  by_cases hmore : index + 1 < self.positions.length <;> simp

theorem passed_of_lt_runEnd {k : Nat} (h : index ≤ k) (hk : k < self.runEnd isAlphanumeric style wordClass index) :
    (self.classAt isAlphanumeric style (k + 1) == wordClass && self.joined (k + 1)) = true := of_lt_scanUp h hk

theorem not_isStop_of_lt_runEnd {k : Nat} (hlt : index < self.positions.length) (h : index ≤ k)
    (hk : k < self.runEnd isAlphanumeric style wordClass index) :
    self.isStop isAlphanumeric style wordClass k = false := by
  obtain ⟨-, hend⟩ := @runEnd_bounds self isAlphanumeric style wordClass index hlt
  rw [← Bool.not_eq_true, isStop_iff]
  rintro ⟨-, hstops⟩
  rw [passed_of_lt_runEnd h hk] at hstops
  cases hstops (by omega)

theorem isStop_runEnd (hindex : self.classAt isAlphanumeric style index ≠ .blank) (hclass : wordClass ≠ .blank) :
    self.isStop isAlphanumeric style wordClass (self.runEnd isAlphanumeric style wordClass index) = true := by
  apply isStop_iff.mpr
  constructor
  · obtain heq | hgt := eq_or_lt_of_le
      (show index ≤ self.runEnd isAlphanumeric style wordClass index from le_scanUp)
    · rw [← heq]
      exact hindex
    · have hpassed := @passed_of_lt_runEnd self isAlphanumeric style wordClass index
        (self.runEnd isAlphanumeric style wordClass index - 1) (by omega) (by omega)
      rw [Nat.sub_add_cancel (by omega), Bool.and_eq_true, beq_iff_eq] at hpassed
      rw [hpassed.1]
      exact hclass
  · intro hmore
    exact @scanUp_stops (fun i => self.classAt isAlphanumeric style (i + 1) == wordClass && self.joined (i + 1))
      index (self.positions.length - 1) (Nat.lt_sub_of_add_lt hmore)

theorem stopsFrom_eq_cons (hlt : index < self.positions.length)
    (hindex : self.classAt isAlphanumeric style index ≠ .blank) (hclass : wordClass ≠ .blank) :
    self.stopsFrom isAlphanumeric style wordClass index = self.runEnd isAlphanumeric style wordClass index ::
        self.stopsFrom isAlphanumeric style wordClass (self.runEnd isAlphanumeric style wordClass index + 1) := by
  obtain ⟨hle, hend⟩ := @runEnd_bounds self isAlphanumeric style wordClass index hlt
  have hskip := fun k => @not_isStop_of_lt_runEnd self isAlphanumeric style wordClass index k hlt
  rw [stopsFrom, places_skip hle hend.le hskip, places_cons hend (isStop_runEnd hindex hclass)]
  rfl

theorem stopsFrom_nextNonblank (h : index ≤ self.positions.length) :
    self.stopsFrom isAlphanumeric style wordClass index =
      self.stopsFrom isAlphanumeric style wordClass (self.nextNonblank isAlphanumeric style index) := by
  apply places_skip le_scanUp (scanUp_le h)
  intro k hk hlast
  simp [isStop, blank_of_lt_nextNonblank hk hlast]

theorem countedEnd_succ (n index : Nat) : self.countedEnd isAlphanumeric style wordClass (n + 2) index =
      let stop := self.runEnd isAlphanumeric style wordClass index
      let next := self.nextNonblank isAlphanumeric style (stop + 1)
      if self.positions.length ≤ next then stop
      else self.countedEnd isAlphanumeric style wordClass (n + 1) next := by
  rfl

/-- **The loop over the count comes to the stop with this number**, whichever classes the words on its way have. -/
theorem countedEnd_eq (hclass : wordClass ≠ .blank) (n : Nat) (hlt : index < self.positions.length)
    (hindex : self.classAt isAlphanumeric style index ≠ .blank) :
    self.countedStop isAlphanumeric style wordClass (n + 1) index =
      some (self.countedEnd isAlphanumeric style wordClass (n + 1) index) := by
  induction n generalizing index with
  | zero =>
    rw [countedStop, stopsFrom_eq_cons hlt hindex hclass]
    simp [countedEnd]
  | succ n ih =>
    obtain ⟨-, hend⟩ := @runEnd_bounds self isAlphanumeric style wordClass index hlt
    rw [countedStop, stopsFrom_eq_cons hlt hindex hclass, stopsFrom_nextNonblank hend, countedEnd_succ]
    dsimp only
    split
    · next hnone =>
      -- only blanks follow
      have hempty : self.stopsFrom isAlphanumeric style wordClass (self.nextNonblank isAlphanumeric style
          (self.runEnd isAlphanumeric style wordClass index + 1)) = [] := by
        rw [stopsFrom, places, Nat.sub_eq_zero_of_le hnone]
        rfl
      rw [hempty]
      simp
    · next hsome =>
      have hnext := nextNonblank_ne (not_le.mp hsome)
      rw [← ih (not_le.mp hsome) hnext, countedStop, stopsFrom_eq_cons (not_le.mp hsome) hnext hclass]
      simp only [length_cons, Nat.add_sub_cancel]
      rw [Nat.succ_min_succ, getElem?_cons_succ]

/-! ## From a cursor in a word -/

section

variable (h : self.IsWord isAlphanumeric style first last)
include h

theorem IsWord.stopsFrom_eq (hfirst : first ≤ index) (hlast : index ≤ last) :
    self.stopsFrom isAlphanumeric style (self.classAt isAlphanumeric style first) index =
      last :: self.stopsFrom isAlphanumeric style (self.classAt isAlphanumeric style first) (last + 1) := by
  have hlt := h.run.lt
  have hrun : self.runEnd isAlphanumeric style (self.classAt isAlphanumeric style first) index = last :=
    h.run.scanUp_eq hfirst hlast
  have hindex := h.run.label_eq hfirst hlast
  rw [stopsFrom_eq_cons (hlast.trans_lt hlt) (hindex ▸ h.class_ne) h.class_ne, hrun]

theorem IsWord.countedEnd_eq (hcount : count = 0 → first = last)
    (hfirst : first ≤ index) (hlast : index ≤ last) :
    self.countedStop isAlphanumeric style (self.classAt isAlphanumeric style first) count first =
      some (self.countedEnd isAlphanumeric style (self.classAt isAlphanumeric style first) count index) := by
  have hstops : self.countedStop isAlphanumeric style (self.classAt isAlphanumeric style first) count first =
      self.countedStop isAlphanumeric style (self.classAt isAlphanumeric style first) count index := by
    rw [countedStop, countedStop, h.stopsFrom_eq (le_refl first) h.run.le, h.stopsFrom_eq hfirst hlast]
  cases count with
  | zero =>
    obtain rfl := hcount rfl
    obtain rfl : index = first := le_antisymm hlast hfirst
    rw [countedStop, h.stopsFrom_eq hfirst hlast]
    simp [countedEnd]
  | succ n =>
    rw [hstops]
    have hindex := h.run.label_eq hfirst hlast
    exact ReviewDocument.countedEnd_eq h.class_ne n (hlast.trans_lt h.run.lt) (hindex ▸ h.class_ne)

theorem IsWord.countedStop_bounds
    (hstop : self.countedStop isAlphanumeric style (self.classAt isAlphanumeric style first) count first = some stop) :
    last ≤ stop ∧ stop < self.positions.length ∧ self.classAt isAlphanumeric style stop ≠ .blank := by
  have hmem := mem_of_getElem? hstop
  have hplace := mem_places.mp hmem
  refine ⟨?_, hplace.2.1, (isStop_iff.mp hplace.2.2).1⟩
  rw [h.stopsFrom_eq (le_refl first) h.run.le, mem_cons] at hmem
  obtain rfl | hlater := hmem
  · exact le_rfl
  · have hplace := mem_places.mp hlater
    omega

theorem IsWord.innerWordIndices_eq (hfirst : first ≤ index) (hlast : index ≤ last)
    (hstop : self.countedEnd isAlphanumeric style (self.classAt isAlphanumeric style first) count index = stop) :
    self.innerWordIndices isAlphanumeric style index around count =
      some (if around = true ∧ self.trailingEnd isAlphanumeric style stop = index then
          self.leadingStart isAlphanumeric style first
        else first, if around = true then self.trailingEnd isAlphanumeric style stop else stop) := by
  have hlt := hlast.trans_lt h.run.lt
  have hindex := h.run.label_eq hfirst hlast
  have hblank := beq_eq_false_iff_ne.mpr h.class_ne
  have hhere : scanUp (fun i => self.classAt isAlphanumeric style i == .blank) self.positions.length index = index :=
    (nextNonblank_eq_self_iff hlt.le).mpr fun _ => hindex ▸ h.class_ne
  have hstart : self.runStart isAlphanumeric style (self.classAt isAlphanumeric style first) index = first :=
    h.run.scanDown_eq hfirst hlast
  have hinside := not_le.mpr hlt
  unfold innerWordIndices
  simp only [hhere, hblank, hindex, hstart, hstop, hinside, decide_false, Bool.or_self, Bool.false_eq_true, if_false]
  cases around with
  | false => simp
  | true =>
    simp only [if_true, true_and]
    split <;> rfl

theorem IsWord.trailingEnd_eq_last_iff
    (hstop : self.countedStop isAlphanumeric style (self.classAt isAlphanumeric style first) count first = some stop) :
    self.trailingEnd isAlphanumeric style stop = last ↔
      (last + 1 < self.positions.length → count ≤ 1 ∧ self.classAt isAlphanumeric style (last + 1) ≠ .blank) := by
  obtain ⟨hle, hlt, -⟩ := h.countedStop_bounds hstop
  have hbounds := @trailingEnd_bounds self isAlphanumeric style stop hlt
  rw [countedStop, h.stopsFrom_eq (le_refl first) h.run.le] at hstop
  constructor
  · intro hlast hmore
    obtain rfl : stop = last := by omega
    have hnext := (trailingEnd_eq_self_iff hlt).mp hlast hmore
    refine ⟨?_, hnext⟩
    by_contra hcount
    -- another stop comes after the word
    have hothers : 0 < (self.stopsFrom isAlphanumeric style (self.classAt isAlphanumeric style first)
        (stop + 1)).length := by
      rw [stopsFrom_eq_cons hmore hnext h.class_ne]
      exact Nat.succ_pos _
    obtain ⟨earlier, hearlier⟩ := Nat.exists_eq_add_of_lt
      (Nat.lt_min.mpr ⟨Nat.sub_pos_of_lt (not_le.mp hcount), hothers⟩)
    rw [length_cons, Nat.add_sub_cancel, hearlier] at hstop
    have hplace := mem_places.mp (mem_of_getElem? hstop)
    omega
  · intro hlast
    by_cases hmore : last + 1 < self.positions.length
    · obtain ⟨hcount, hnext⟩ := hlast hmore
      rw [show count - 1 = 0 by omega] at hstop
      cases hstop
      exact (trailingEnd_eq_self_iff hlt).mpr fun _ => hnext
    · omega

end

/-! ## Ranges of positions -/

theorem innerWordRange_positionAt (h : index < self.positions.length) :
    self.innerWordRange isAlphanumeric style (self.positionAt index) around count =
      (self.innerWordIndices isAlphanumeric style index around count).map fun range =>
        (self.positionAt range.1, self.positionAt range.2) := by
  rw [innerWordRange, idxOf?_eq_some_iff.mpr (getElem?_positionAt h)]
  exact Option.map_eq_bind.symm

/-! ## The text object of a word -/

section

variable (h : self.IsWord isAlphanumeric style first last)
include h

theorem IsWord.exists_countedStop (hcount : count = 0 → first = last) : ∃ stop,
      self.countedStop isAlphanumeric style (self.classAt isAlphanumeric style first) count first = some stop ∧
        ∀ index, first ≤ index → index ≤ last →
          self.countedEnd isAlphanumeric style (self.classAt isAlphanumeric style first) count index = stop := by
  have hstop := h.countedEnd_eq hcount (le_refl first) h.run.le
  refine ⟨_, hstop, ?_⟩
  intro index hfirst hlast
  exact Option.some.inj ((h.countedEnd_eq hcount hfirst hlast).symm.trans hstop)

theorem IsWord.leading_eq
    (hregular : self.Regular isAlphanumeric style first last true count) (hlong : first < last)
    (hstop : self.countedStop isAlphanumeric style (self.classAt isAlphanumeric style first) count first = some stop)
    (hlast : self.trailingEnd isAlphanumeric style stop = last) :
    self.leadingStart isAlphanumeric style first = first := by
  apply leadingStart_eq_self_iff.mpr
  intro hpos hblank
  obtain ⟨hmore, hone⟩ := hregular.leading rfl hlong hpos hblank
  obtain ⟨hcount, hnext⟩ := (h.trailingEnd_eq_last_iff hstop).mp hlast hmore
  have hcounted := hregular.counted
  exact hnext (hone (by omega))

theorem IsWord.dependsOnWord (hregular : self.Regular isAlphanumeric style first last around count) :
    self.DependsOnWord isAlphanumeric style first last around count := by
  obtain ⟨stop, hstop, hend⟩ := h.exists_countedStop hregular.counted
  obtain ⟨hle, hlt, hnonblank⟩ := h.countedStop_bounds hstop
  obtain ⟨htrail, htrail'⟩ := @trailingEnd_bounds self isAlphanumeric style stop hlt
  have hends := hregular.ends stop hstop
  cases around with
  | false =>
    refine ⟨first, stop, le_refl first, hle, hlt, h.run.starts, hends, ?_⟩
    intro index hfirst hlast
    rw [innerWordRange_positionAt (hlast.trans_lt h.run.lt),
      h.innerWordIndices_eq hfirst hlast (hend index hfirst hlast)]
    simp
  | true =>
    have hends' := (endsRun_trailingEnd_iff hlt hnonblank).mpr hends
    by_cases hlast : self.trailingEnd isAlphanumeric style stop = last
    · refine ⟨_, _, leadingStart_le, hle.trans htrail, htrail', startsRun_leadingStart h.run.starts, hends', ?_⟩
      intro index hfirst hindex
      rw [innerWordRange_positionAt (hindex.trans_lt h.run.lt),
        h.innerWordIndices_eq hfirst hindex (hend index hfirst hindex)]
      obtain rfl | hbefore := eq_or_lt_of_le hindex
      · rw [if_pos ⟨rfl, hlast⟩]
        rfl
      · rw [h.leading_eq hregular (hfirst.trans_lt hbefore) hstop hlast, ite_self]
        rfl
    · refine ⟨first, _, le_refl first, hle.trans htrail, htrail', h.run.starts, hends', ?_⟩
      intro index hfirst hindex
      rw [innerWordRange_positionAt (hindex.trans_lt h.run.lt),
        h.innerWordIndices_eq hfirst hindex (hend index hfirst hindex), if_neg (by omega)]
      rfl

theorem IsWord.indices_of_range {start stop' : Nat}
    (hfirst : first ≤ index) (hlast : index ≤ last) (hlt : stop < self.positions.length)
    (hend : self.countedEnd isAlphanumeric style (self.classAt isAlphanumeric style first) count index = stop)
    (hstart : start ≤ first) (hstop : stop' < self.positions.length)
    (hrange : self.innerWordRange isAlphanumeric style (self.positionAt index) around count =
      some (self.positionAt start, self.positionAt stop')) :
    (if around = true ∧ self.trailingEnd isAlphanumeric style stop = index then
        self.leadingStart isAlphanumeric style first
      else first) = start ∧
      (if around = true then self.trailingEnd isAlphanumeric style stop else stop) = stop' := by
  have hinside := h.run.lt
  have hleading := @leadingStart_le self isAlphanumeric style first
  obtain ⟨-, htrail⟩ := @trailingEnd_bounds self isAlphanumeric style stop hlt
  rw [innerWordRange_positionAt (hlast.trans_lt hinside), h.innerWordIndices_eq hfirst hlast hend] at hrange
  obtain ⟨hone, htwo⟩ := Prod.mk.inj (Option.some.inj hrange)
  exact ⟨positionAt_inj (by split <;> omega) (by omega) hone, positionAt_inj (by split <;> omega) hstop htwo⟩

theorem IsWord.regular (hdepends : self.DependsOnWord isAlphanumeric style first last around count) :
    self.Regular isAlphanumeric style first last around count := by
  obtain ⟨start, stop', hstart, hstop', hlt', -, hends, hrange⟩ := hdepends
  have hle := h.run.le
  have hinside := h.run.lt
  have hcounted : count = 0 → first = last := by
    rintro rfl
    by_contra hne
    have hnext : self.classAt isAlphanumeric style (first + 1) ≠ .blank := by
      rw [h.run.label_eq (Nat.le_succ first) (by omega)]
      exact h.class_ne
    have hstays := (@trailingEnd_eq_self_iff self isAlphanumeric style first (by omega)).mpr fun _ => hnext
    -- a count of zero ends at the cursor
    obtain ⟨-, hsecond⟩ := h.indices_of_range (le_refl first) hle (hle.trans_lt hinside) rfl hstart hlt'
      (hrange first (le_refl first) hle)
    rw [hstays, ite_self] at hsecond
    omega
  obtain ⟨stop, hstop, hend⟩ := h.exists_countedStop hcounted
  obtain ⟨-, hlt, hnonblank⟩ := h.countedStop_bounds hstop
  have hindices := fun index hfirst hlast => h.indices_of_range hfirst hlast hlt (hend index hfirst hlast) hstart hlt'
    (hrange index hfirst hlast)
  refine ⟨hcounted, ?_, ?_⟩
  · intro other hother
    obtain rfl := Option.some.inj (hstop.symm.trans hother)
    obtain ⟨-, hsecond⟩ := hindices first (le_refl first) hle
    rw [← hsecond] at hends
    cases around with
    | false => exact hends
    | true => exact (endsRun_trailingEnd_iff hlt hnonblank).mp hends
  · rintro rfl hlong hpos hblank
    have hnot : self.trailingEnd isAlphanumeric style stop ≠ last := by
      intro hlast
      obtain ⟨hfromFirst, -⟩ := hindices first (le_refl first) hle
      obtain ⟨hfromLast, -⟩ := hindices last hle (le_refl last)
      rw [if_neg (by omega)] at hfromFirst
      rw [if_pos ⟨rfl, hlast⟩, ← hfromFirst] at hfromLast
      exact leadingStart_eq_self_iff.mp hfromLast hpos hblank
    rw [Ne, h.trailingEnd_eq_last_iff hstop, Classical.not_imp] at hnot
    refine ⟨hnot.1, ?_⟩
    intro hone
    by_contra hnext
    exact hnot.2 ⟨hone.le, hnext⟩

end

/-- **The text object of a word is the same from every cursor in it, and begins and ends where runs do, exactly
when** the count does not end inside a run of another class and no blanks in front are taken from the last
character alone. -/
theorem innerWordRange_iff (h : self.IsWord isAlphanumeric style first last) (around : Bool) (count : Nat) :
    self.DependsOnWord isAlphanumeric style first last around count ↔
      self.Regular isAlphanumeric style first last around count :=
  ⟨h.regular, h.dependsOnWord⟩

/-! ### A blank in front of a word -/

def lastWord : ReviewDocument := fromSnapshot (screenOf [printedRow " ab" false]) [] 3 three_cols

theorem lastWord_isWord : lastWord.IsWord Char.isAlphanum .word 1 2 where
  run :=
    { le := by decide
      lt := by decide
      inside := by
        intro i hfirst hlast
        obtain rfl : i = 2 := by omega
        decide
      starts := by unfold StartsRun; decide
      ends := by unfold EndsRun; decide }
  class_ne := by decide

theorem innerWordRange_iff_two_letters :
    lastWord.DependsOnWord Char.isAlphanum .word 1 2 false 1 ↔ lastWord.Regular Char.isAlphanum .word 1 2 false 1 :=
  innerWordRange_iff lastWord_isWord false 1

/-- From the first letter the range is the word, from the second one it has the blank as well. -/
theorem innerWordRange_leading_blank : lastWord.IsWord Char.isAlphanum .word 1 2 ∧
      lastWord.innerWordRange Char.isAlphanum .word ⟨0, 1⟩ true 1 = some (⟨0, 1⟩, ⟨0, 2⟩) ∧
      lastWord.innerWordRange Char.isAlphanum .word ⟨0, 2⟩ true 1 = some (⟨0, 0⟩, ⟨0, 2⟩) :=
  ⟨lastWord_isWord, by decide, by decide⟩

/-- A count of two ends after the first of two dashes. -/
example : (fromSnapshot (screenOf [printedRow "ab--" false]) [] 4 (by decide)).innerWordRange
    Char.isAlphanum .word ⟨0, 0⟩ false 2 = some (⟨0, 0⟩, ⟨0, 2⟩) := by decide

end ReviewDocument
end Lector.Review
