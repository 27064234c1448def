import Mathlib.Data.List.Pairwise
import Lector.Foundations.Ranges
import Lector.Terminal.Update

/-! What merging lists of rows computes (`merge_row_ranges` in `src/terminal.rs`): the one separated list of
the rows of both. -/
namespace Lector.Terminal
open Ranges
open List hiding max not_le

/-! ## Rows of a range -/

namespace RowRange

structure Valid (range : RowRange) : Prop where
  ordered : range.start ≤ range.stop
  bounded : range.stop ≤ u16Max

def span (range : RowRange) : Nat × Nat := (range.start, range.stop + 1)

end RowRange

def spans (ranges : List RowRange) : List (Nat × Nat) := ranges.map RowRange.span

def ValidRanges (ranges : List RowRange) : Prop := ∀ range ∈ ranges, range.Valid

theorem spans_concat (ranges : List RowRange) (range : RowRange) :
    spans (ranges ++ [range]) = spans ranges ++ [range.span] := by
  unfold spans
  rw [map_append, map_singleton]

theorem spans_append (ranges more : List RowRange) : spans (ranges ++ more) = spans ranges ++ spans more :=
  map_append

variable {ranges : List RowRange}

theorem ValidRanges.proper (valid : ValidRanges ranges) : Proper (spans ranges) := by
  intro span hspan
  obtain ⟨range, hrange, rfl⟩ := mem_map.mp hspan
  exact Nat.lt_succ_of_le (valid range hrange).ordered

theorem ValidRanges.append {ranges more : List RowRange} (valid : ValidRanges ranges)
    (valid' : ValidRanges more) : ValidRanges (ranges ++ more) := by
  intro range hrange
  rcases mem_append.mp hrange with hold | hnew
  · exact valid range hold
  · exact valid' range hnew

variable {previous range : RowRange}

theorem touches_iff (valid : range.Valid) :
    range.start ≤ saturatingAdd 16 previous.stop 1 ↔ range.start ≤ previous.stop + 1 := by
  have hstart := valid.ordered.trans valid.bounded
  unfold u16Max at hstart
  unfold saturatingAdd
  omega

/-! ## Putting a range behind others -/

theorem appendSortedRowRange_concat (init : List RowRange) (last range : RowRange) :
    appendSortedRowRange (init ++ [last]) range =
      if range.start ≤ saturatingAdd 16 last.stop 1 then init ++ [⟨last.start, max last.stop range.stop⟩]
      else init ++ [last] ++ [range] := by
  unfold appendSortedRowRange
  rw [getLast?_concat, dropLast_concat]

theorem spans_appendSortedRowRange {target : List RowRange} (valid : range.Valid) :
    spans (appendSortedRowRange target range) = push (spans target) range.span := by
  rcases target.eq_nil_or_concat' with rfl | ⟨init, last, rfl⟩
  · rfl
  · rw [appendSortedRowRange_concat, spans_concat, push_concat]
    have hiff : range.span.1 ≤ last.span.2 ↔ range.start ≤ saturatingAdd 16 last.stop 1 :=
      (touches_iff valid).symm
    by_cases htouches : range.start ≤ saturatingAdd 16 last.stop 1
    · rw [if_pos htouches, if_pos (hiff.mpr htouches), spans_concat]
      congr 2
      exact Prod.ext rfl (Nat.add_max_add_right _ _ _).symm
    · rw [if_neg htouches, if_neg (fun h => htouches (hiff.mp h)), spans_concat, spans_concat]

theorem valid_appendSortedRowRange {target : List RowRange} (valid : ValidRanges target)
    (hrange : range.Valid) : ValidRanges (appendSortedRowRange target range) := by
  have hsingle : ValidRanges [range] := by
    intro other hother
    rw [mem_singleton.mp hother]
    exact hrange
  rcases target.eq_nil_or_concat' with rfl | ⟨init, last, rfl⟩
  · exact hsingle
  · rw [appendSortedRowRange_concat]
    split
    · have hlast := valid last (mem_append_right _ (mem_singleton_self _))
      refine ValidRanges.append (fun other hother => valid other (mem_append_left _ hother)) ?_
      intro other hother
      rw [mem_singleton.mp hother]
      exact ⟨hlast.ordered.trans (le_max_left _ _), max_le hlast.bounded hrange.bounded⟩
    · exact valid.append hsingle

theorem spans_foldl_append {source : List RowRange} (valid : ValidRanges source) (target : List RowRange) :
    spans (source.foldl appendSortedRowRange target) = (spans source).foldl push (spans target) := by
  induction source generalizing target with
  | nil => rfl
  | cons range source ih =>
    have hrange := valid range mem_cons_self
    rw [foldl_cons, ih (fun other hother => valid other (mem_cons_of_mem _ hother)),
      spans_appendSortedRowRange hrange]
    rfl

theorem valid_foldl_append {source target : List RowRange} (valid : ValidRanges source)
    (htarget : ValidRanges target) : ValidRanges (source.foldl appendSortedRowRange target) := by
  induction source generalizing target with
  | nil => exact htarget
  | cons range source ih =>
    exact ih (fun other hother => valid other (mem_cons_of_mem _ hother))
      (valid_appendSortedRowRange htarget (valid range mem_cons_self))

/-! ## Normal lists -/

/-- The ranges of the rows of `ranges`, in order and apart from one another. -/
structure Normal (ranges normal : List RowRange) : Prop where
  valid : ValidRanges normal
  merged : Merged (spans ranges) (spans normal)

theorem Normal.separated {ranges normal : List RowRange} (h : Normal ranges normal) :
    Separated (spans normal) := h.merged.separated

theorem rowRangesAreNormalized_iff (valid : ValidRanges ranges) :
    rowRangesAreNormalized ranges = true ↔ Separated (spans ranges) := by
  induction ranges with
  | nil => exact iff_of_true rfl Pairwise.nil
  | cons first rest ih =>
    have hrest : ValidRanges rest := fun other hother => valid other (mem_cons_of_mem _ hother)
    cases rest with
    | nil => exact iff_of_true rfl (pairwise_singleton _ _)
    | cons second rest =>
      have hsecond := valid second (mem_cons_of_mem _ mem_cons_self)
      have htouches : saturatingAdd 16 first.stop 1 < second.start ↔ first.span.2 < second.span.1 := by
        rw [← not_le, ← not_le, touches_iff hsecond]
        rfl
      rw [rowRangesAreNormalized, Bool.and_eq_true, decide_eq_true_eq, ih hrest, htouches]
      constructor
      · rintro ⟨hgap, hseparated⟩
        refine pairwise_cons.mpr ⟨fun other hother => ?_, hseparated⟩
        rcases mem_cons.mp hother with rfl | hother
        · exact hgap
        · have hfar := (pairwise_cons.mp hseparated).1 other hother
          have hproper := hrest.proper second.span mem_cons_self
          omega
      · intro hseparated
        exact ⟨(pairwise_cons.mp hseparated).1 second.span mem_cons_self, Pairwise.of_cons hseparated⟩

theorem normal_self (valid : ValidRanges ranges)
    (separated : Separated (spans ranges)) : Normal ranges ranges :=
  ⟨valid, merged_self separated valid.proper⟩

theorem Normal.extend {ranges normal more : List RowRange} (h : Normal ranges normal)
    (valid : ValidRanges more) (sorted : (ranges ++ more).Pairwise fun a b => a.start ≤ b.start) :
    Normal (ranges ++ more) (more.foldl appendSortedRowRange normal) where
  valid := valid_foldl_append valid h.valid
  merged := by
    rw [spans_foldl_append valid, spans_append]
    refine h.merged.foldl valid.proper ?_
    rw [← spans_append]
    exact Pairwise.map _ (fun _ _ hle => hle) sorted

theorem Normal.congr {a b normal : List RowRange} (h : Normal a normal) (hperm : a.Perm b) : Normal b normal :=
  ⟨h.valid, h.merged.congr (hperm.map _)⟩

theorem normal_coalesce (valid : ValidRanges ranges) (sorted : ranges.Pairwise fun a b => a.start ≤ b.start) :
    Normal ranges (coalesceSortedRowRanges ranges) :=
  have hnil : Normal [] [] := ⟨forall_mem_nil _, merged_nil⟩
  hnil.extend valid sorted

theorem normal_normalize (valid : ValidRanges ranges) : Normal ranges (normalizeRowRanges ranges) := by
  have hperm := mergeSort_perm ranges fun a b => a.start ≤ b.start
  have htrans : ∀ a b c : RowRange, decide (a.start ≤ b.start) → decide (b.start ≤ c.start) →
      decide (a.start ≤ c.start) := by
    simp only [decide_eq_true_eq]
    exact fun a b c => le_trans
  have htotal : ∀ a b : RowRange, decide (a.start ≤ b.start) || decide (b.start ≤ a.start) := by
    simp only [Bool.or_eq_true, decide_eq_true_eq]
    exact fun a b => le_total a.start b.start
  have hsorted := (pairwise_mergeSort htrans htotal ranges).imp of_decide_eq_true
  exact (normal_coalesce (fun range hrange => valid range (hperm.mem_iff.mp hrange)) hsorted).congr hperm

theorem normal_prepare (valid : ValidRanges ranges) :
    Normal ranges (if rowRangesAreNormalized ranges then ranges else normalizeRowRanges ranges) := by
  split
  · rename_i hnormal
    exact normal_self valid ((rowRangesAreNormalized_iff valid).mp hnormal)
  · exact normal_normalize valid

/-! ## The merge in place -/

abbrev Sorted (ranges : List RowRange) : Prop := ranges.Pairwise fun a b => a.start ≤ b.start

theorem Normal.sorted {ranges normal : List RowRange} (h : Normal ranges normal) : Sorted normal :=
  (pairwise_map (f := RowRange.span) (R := fun a b : Nat × Nat => a.1 ≤ b.1)).mp
    (sorted_of_separated h.separated h.valid.proper)

theorem take_succ_getD {n : Nat} (h : n < ranges.length) :
    ranges.take (n + 1) = ranges.take n ++ [ranges.getD n ⟨0, 0⟩] := by
  rw [take_succ_eq_append_getElem h, getD_eq_getElem?_getD, getElem?_eq_getElem h, Option.getD_some]

theorem start_le_of_mem_take {other : RowRange} {n : Nat} (sorted : Sorted (ranges.take n))
    (hn : n ≤ ranges.length) (h : other ∈ ranges.take n) : other.start ≤ (ranges.getD (n - 1) ⟨0, 0⟩).start := by
  cases n with
  | zero => cases h
  | succ n =>
    rw [take_succ_getD hn] at h sorted
    obtain ⟨-, -, hbound⟩ := pairwise_append.mp sorted
    obtain h | h := mem_append.mp h
    · exact hbound other h _ (mem_singleton_self _)
    · rw [mem_singleton.mp h]
      exact le_rfl

theorem sorted_concat {merged parts : List RowRange} (sorted : Sorted merged) (hperm : merged.Perm parts)
    (hle : ∀ other ∈ parts, other.start ≤ range.start) : Sorted (merged ++ [range]) := by
  refine pairwise_append.mpr ⟨sorted, pairwise_singleton _ _, fun other hother last hlast => ?_⟩
  rw [mem_singleton.mp hlast]
  exact hle other (hperm.mem_iff.mp hother)

theorem set_drop (target : List RowRange) (write : Nat) (range : RowRange) (h : write < target.length) :
    (target.set write range).drop write = range :: target.drop (write + 1) := by
  rw [drop_eq_getElem_cons (by rw [length_set]; exact h), getElem_set_self,
    drop_set_of_lt (Nat.lt_succ_self write)]

/-- **The merge from the back** writes the ranges of both sides in order, and nothing behind them. -/
theorem mergeFromBack_spec {source : List RowRange} {write left right : Nat} {target : List RowRange}
    (hwrite : write = left + right) (htarget : write ≤ target.length) (hsource : right ≤ source.length)
    (hleft : Sorted (target.take left)) (hright : Sorted (source.take right)) :
    ∃ merged, mergeFromBack source write left right target = merged ++ target.drop write ∧
      merged.Perm (target.take left ++ source.take right) ∧ Sorted merged := by
  induction write generalizing left right target with
  | zero =>
    obtain ⟨rfl, rfl⟩ : left = 0 ∧ right = 0 := by omega
    exact ⟨[], rfl, Perm.refl _, Pairwise.nil⟩
  | succ write ih =>
    rw [mergeFromBack, if_neg (by omega)]
    dsimp only
    split
    · rename_i hkept
      -- The last range of `target` comes last.
      obtain ⟨left, rfl⟩ : ∃ n, left = n + 1 := ⟨left - 1, by omega⟩
      have hlength : left < target.length := by omega
      have htake := take_succ_getD hlength
      rw [htake] at hleft
      obtain ⟨hinit, -, hlast⟩ := pairwise_append.mp hleft
      have hsame : (target.set write (target.getD left ⟨0, 0⟩)).take left = target.take left :=
        take_set_of_le (by omega)
      rw [Nat.add_sub_cancel]
      obtain ⟨merged, hmerged, hperm, hsorted⟩ := @ih left right _ (by omega)
        (show write ≤ (target.set write (target.getD left ⟨0, 0⟩)).length by
          rw [length_set]; omega) hsource (by rw [hsame]; exact hinit) hright
      rw [hsame] at hperm
      refine ⟨merged ++ [target.getD left ⟨0, 0⟩], ?_, ?_, ?_⟩
      · rw [hmerged, set_drop _ _ _ (by omega), append_assoc, singleton_append]
      · rw [htake]
        refine (hperm.append_right _).trans ?_
        rw [append_assoc, append_assoc]
        exact perm_append_comm.append_left _
      · refine sorted_concat hsorted hperm fun other hother => ?_
        rcases mem_append.mp hother with hother | hother
        · exact hlast other hother _ (mem_singleton_self _)
        · rcases hkept with rfl | ⟨-, hlt⟩
          · cases hother
          · exact (start_le_of_mem_take hright hsource hother).trans hlt.le
    · rename_i hincoming
      -- The last range of `source` comes last.
      obtain ⟨right, rfl⟩ : ∃ n, right = n + 1 := ⟨right - 1, by omega⟩
      have hlength : right < source.length := by omega
      have htake := take_succ_getD hlength
      rw [htake] at hright
      obtain ⟨hinit, -, hlast⟩ := pairwise_append.mp hright
      have hsame : (target.set write (source.getD right ⟨0, 0⟩)).take left = target.take left :=
        take_set_of_le (by omega)
      rw [Nat.add_sub_cancel]
      obtain ⟨merged, hmerged, hperm, hsorted⟩ := @ih left right _ (by omega)
        (show write ≤ (target.set write (source.getD right ⟨0, 0⟩)).length by
          rw [length_set]; omega) (by omega) (by rw [hsame]; exact hleft) hinit
      rw [hsame] at hperm
      refine ⟨merged ++ [source.getD right ⟨0, 0⟩], ?_, ?_, ?_⟩
      · rw [hmerged, set_drop _ _ _ (by omega), append_assoc, singleton_append]
      · rw [htake, ← append_assoc]
        exact hperm.append_right _
      · refine sorted_concat hsorted hperm fun other hother => ?_
        rcases mem_append.mp hother with hother | hother
        · have hbound := start_le_of_mem_take hleft (by omega) hother
          have hpos : 0 < left := by
            by_contra hnone
            rw [Nat.eq_zero_of_not_pos hnone] at hother
            cases hother
          rw [Nat.add_sub_cancel] at hincoming
          omega
        · exact hlast other hother _ (mem_singleton_self _)

theorem mergeFromBack_storage {left right : List RowRange} (hleft : Sorted left) (hright : Sorted right) :
    ∃ merged, mergeFromBack right (left.length + right.length) left.length right.length
        (left ++ replicate right.length ⟨0, 0⟩) = merged ∧
      merged.Perm (left ++ right) ∧ Sorted merged := by
  have hlength : (left ++ replicate right.length (⟨0, 0⟩ : RowRange)).length =
      left.length + right.length := by
    rw [length_append, length_replicate]
  have htake : (left ++ replicate right.length (⟨0, 0⟩ : RowRange)).take left.length = left := take_left' rfl
  obtain ⟨merged, hmerged, hperm, hsorted⟩ :=
    @mergeFromBack_spec right (left.length + right.length) left.length right.length
      (left ++ replicate right.length ⟨0, 0⟩) rfl hlength.ge (le_rfl)
      (by rw [htake]; exact hleft) (by rw [take_length]; exact hright)
  rw [htake, take_length] at hperm
  rw [drop_of_length_le hlength.le, append_nil] at hmerged
  exact ⟨merged, hmerged, hperm, hsorted⟩

/-- **Merging gives the rows of both lists**, in order and apart from one another. -/
theorem normal_mergeRowRanges {target source : List RowRange} (htarget : ValidRanges target)
    (hsource : ValidRanges source) : Normal (target ++ source) (mergeRowRanges target source) := by
  have hleft := normal_prepare htarget
  have hright := normal_prepare hsource
  unfold mergeRowRanges
  generalize (if rowRangesAreNormalized target then target else normalizeRowRanges target) = left at hleft ⊢
  generalize (if rowRangesAreNormalized source then source else normalizeRowRanges source) = right at hright ⊢
  have hself := normal_self hleft.valid hleft.separated
  -- It is enough to merge the prepared lists.
  suffices hboth : ∀ normal, Normal (left ++ right) normal → Normal (target ++ source) normal by
    apply hboth
    rcases left.eq_nil_or_concat' with rfl | ⟨init, last, rfl⟩
    · cases right with
      | nil => exact hself
      | cons first rest => exact normal_self hright.valid hright.separated
    · cases right with
      | nil =>
        rw [append_nil]
        exact hself
      | cons first rest =>
        dsimp only
        rw [getLast?_concat]
        dsimp only
        split
        · rename_i hbehind
          refine hself.extend hright.valid ?_
          refine pairwise_append.mpr ⟨hleft.sorted, hright.sorted, fun a ha b hb => ?_⟩
          have hlast : a.start ≤ last.start := by
            rcases mem_append.mp ha with ha | ha
            · exact (pairwise_append.mp hleft.sorted).2.2 a ha last (mem_singleton_self _)
            · rw [mem_singleton.mp ha]
          have hfirst : first.start ≤ b.start := by
            rcases mem_cons.mp hb with rfl | hb
            · exact le_rfl
            · exact (pairwise_cons.mp hright.sorted).1 b hb
          exact hlast.trans (hbehind.trans hfirst)
        · obtain ⟨merged, hmerged, hperm, hsorted⟩ := mergeFromBack_storage hleft.sorted hright.sorted
          rw [hmerged]
          refine (normal_coalesce (fun range hrange => ?_) hsorted).congr hperm
          exact hleft.valid.append hright.valid range (hperm.mem_iff.mp hrange)
  intro normal hnormal
  refine ⟨hnormal.valid, ?_⟩
  have hmerged := hnormal.merged
  rw [spans_append] at hmerged ⊢
  exact hleft.merged.join hright.merged hmerged

/-! ## Rows of both lists -/

def HasRow (ranges : List RowRange) (row : Nat) : Prop := ∃ range ∈ ranges, range.start ≤ row ∧ row ≤ range.stop

structure Ordered (ranges : List RowRange) : Prop where
  valid : ValidRanges ranges
  disjoint : ranges.Pairwise fun a b => a.stop < b.start

def Apart (ranges : List RowRange) : Prop := ranges.Pairwise fun a b => a.stop + 1 < b.start

theorem Ordered.sorted (h : Ordered ranges) : Sorted ranges := by
  refine Pairwise.imp_of_mem (fun {a b} ha _ hab => ?_) h.disjoint
  have := (h.valid a ha).ordered
  omega

theorem covers_spans {row : Nat} : Covers (spans ranges) row ↔ HasRow ranges row := by
  simp only [Covers, spans, HasRow, RowRange.span, mem_map, exists_exists_and_eq_and, Nat.lt_succ_iff]

theorem apart_of_separated (h : Separated (spans ranges)) : Apart ranges := pairwise_map.mp h

theorem hasRow_append {a b : List RowRange} {row : Nat} : HasRow (a ++ b) row ↔ HasRow a row ∨ HasRow b row := by
  simp only [HasRow, mem_append, or_and_right, exists_or]

theorem Apart.eq_of_touches (h : Apart ranges) {a b : RowRange} (ha : a ∈ ranges)
    (hb : b ∈ ranges) (hab : a.start ≤ b.stop + 1) (hba : b.start ≤ a.stop + 1) : a = b := by
  by_contra hne
  let far : RowRange → RowRange → Prop := fun a b => a.stop + 1 < b.start ∨ b.stop + 1 < a.start
  have : Std.Symm far := ⟨fun _ _ => Or.symm⟩
  have hfar : ranges.Pairwise far := h.imp .inl
  have := hfar.forall ha hb hne
  omega

theorem Apart.contains (h : Apart ranges) (hordered : range.start ≤ range.stop)
    (hrows : ∀ row, range.start ≤ row → row ≤ range.stop → HasRow ranges row) :
    ∃ kept ∈ ranges, kept.start ≤ range.start ∧ range.stop ≤ kept.stop := by
  obtain ⟨kept, hkept, hstart, hle⟩ := hrows range.start (le_rfl) hordered
  refine ⟨kept, hkept, hstart, ?_⟩
  by_contra hshort
  -- The first row behind `kept` would be covered by a range next to it.
  obtain ⟨next, hnext, hfirst, hlast⟩ := hrows (kept.stop + 1) (by omega) (by omega)
  have heq := h.eq_of_touches hkept hnext (by omega) (by omega)
  subst heq
  omega

/-- **Merging two ordered lists gives exactly their rows**, in ranges in order and apart, and every
range of either list lies in one of them. -/
theorem mergeRowRanges_exact {target source : List RowRange} (htarget : Ordered target)
    (hsource : Ordered source) :
    ValidRanges (mergeRowRanges target source) ∧ Apart (mergeRowRanges target source) ∧
      (∀ row, HasRow (mergeRowRanges target source) row ↔ HasRow target row ∨ HasRow source row) ∧
      (∀ range ∈ target ++ source, ∃ kept ∈ mergeRowRanges target source,
        kept.start ≤ range.start ∧ range.stop ≤ kept.stop) ∧
      (mergeFromBack source (target.length + source.length) target.length source.length
        (target ++ replicate source.length ⟨0, 0⟩)).Perm (target ++ source) := by
  have hnormal := normal_mergeRowRanges htarget.valid hsource.valid
  have hapart := apart_of_separated hnormal.separated
  have hrows : ∀ row, HasRow (mergeRowRanges target source) row ↔ HasRow (target ++ source) row := by
    intro row
    rw [← covers_spans, ← covers_spans]
    exact hnormal.merged.covers row
  refine ⟨hnormal.valid, hapart, fun row => (hrows row).trans hasRow_append, fun range hrange => ?_, ?_⟩
  · refine hapart.contains (htarget.valid.append hsource.valid range hrange).ordered ?_
    intro row hle hge
    exact (hrows row).mpr ⟨range, hrange, hle, hge⟩
  · obtain ⟨merged, hmerged, hperm, -⟩ := mergeFromBack_storage htarget.sorted hsource.sorted
    rw [hmerged]
    exact hperm

theorem mergeRowRanges_exact_bridge : let target : List RowRange := [⟨0, 1⟩, ⟨3, 4⟩, ⟨7, 8⟩]
    let source : List RowRange := [⟨2, 6⟩]
    ValidRanges (mergeRowRanges target source) ∧ Apart (mergeRowRanges target source) ∧
      (∀ row, HasRow (mergeRowRanges target source) row ↔ HasRow target row ∨ HasRow source row) ∧
      (∀ range ∈ target ++ source, ∃ kept ∈ mergeRowRanges target source,
        kept.start ≤ range.start ∧ range.stop ≤ kept.stop) ∧
      (mergeFromBack source (target.length + source.length) target.length source.length
        (target ++ replicate source.length ⟨0, 0⟩)).Perm (target ++ source) := by
  have hvalid : ∀ {ranges : List RowRange}, (∀ range ∈ ranges, range.start ≤ range.stop ∧ range.stop ≤ u16Max) →
      ValidRanges ranges := fun h range hrange => ⟨(h range hrange).1, (h range hrange).2⟩
  exact mergeRowRanges_exact ⟨hvalid (by decide), by decide⟩ ⟨hvalid (by decide), by decide⟩

end Lector.Terminal
