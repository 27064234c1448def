import Mathlib.Data.List.Sort
import Mathlib.Data.Nat.Dist
import Mathlib.Order.Interval.Set.Basic

/-! Half-open ranges of numbers: what a list of them covers, and merging those that touch. -/
namespace Lector.Ranges
open List hiding max

section

variable (ranges : List (Nat × Nat))

def Covers (n : Nat) : Prop := ∃ range ∈ ranges, range.1 ≤ n ∧ n < range.2

def Separated : Prop := ranges.Pairwise fun a b => a.2 < b.1

def Proper : Prop := ∀ range ∈ ranges, range.1 < range.2

end

theorem covers_nil (n : Nat) : ¬ Covers [] n := by
  rintro ⟨range, hmem, -⟩
  cases hmem

variable {a b ranges merged more left right : List (Nat × Nat)}

theorem covers_append {n : Nat} : Covers (a ++ b) n ↔ Covers a n ∨ Covers b n := by
  simp only [Covers, mem_append, or_and_right, exists_or]

theorem covers_singleton {range : Nat × Nat} {n : Nat} : Covers [range] n ↔ range.1 ≤ n ∧ n < range.2 := by
  simp only [Covers, mem_singleton, exists_eq_left]

theorem covers_cons {range : Nat × Nat} {rest : List (Nat × Nat)} {n : Nat} :
    Covers (range :: rest) n ↔ (range.1 ≤ n ∧ n < range.2) ∨ Covers rest n := by
  rw [← singleton_append, covers_append, covers_singleton]

instance (ranges : List (Nat × Nat)) (n : Nat) : Decidable (Covers ranges n) :=
  inferInstanceAs (Decidable (∃ range ∈ ranges, range.1 ≤ n ∧ n < range.2))

/-! ## Merging -/

/-- The last range takes `range` in, or `range` follows it. -/
def push (merged : List (Nat × Nat)) (range : Nat × Nat) : List (Nat × Nat) :=
  match merged.getLast? with
  | some previous =>
    if range.1 ≤ previous.2 then merged.dropLast ++ [(previous.1, max previous.2 range.2)]
    else merged ++ [range]
  | none => [range]

def merge (ranges : List (Nat × Nat)) : List (Nat × Nat) :=
  (ranges.mergeSort fun a b => a.1 ≤ b.1).foldl push []

structure Merged (ranges merged : List (Nat × Nat)) : Prop where
  separated : Separated merged
  proper : Proper merged
  covers : ∀ n, Covers merged n ↔ Covers ranges n
  starts : ∀ range ∈ merged, ∃ a ∈ ranges, range.1 = a.1
  stops : ∀ range ∈ merged, ∃ b ∈ ranges, range.2 = b.2

theorem merged_nil : Merged [] [] where
  separated := Pairwise.nil
  proper _ hmem := absurd hmem not_mem_nil
  covers _ := Iff.rfl
  starts _ hmem := absurd hmem not_mem_nil
  stops _ hmem := absurd hmem not_mem_nil

theorem push_concat (init : List (Nat × Nat)) (last range : Nat × Nat) : push (init ++ [last]) range =
      if range.1 ≤ last.2 then init ++ [(last.1, max last.2 range.2)]
      else init ++ [last] ++ [range] := by
  rw [push, getLast?_concat, dropLast_concat]

theorem Merged.push (h : Merged ranges merged) {range : Nat × Nat} (proper : range.1 < range.2)
    (behind : ∀ a ∈ ranges, a.1 ≤ range.1) : Merged (ranges ++ [range]) (push merged range) := by
  rcases merged.eq_nil_or_concat' with rfl | ⟨init, last, rfl⟩
  · refine ⟨pairwise_singleton _ _, fun r hr => ?_, fun n => ?_, fun r hr => ?_, fun r hr => ?_⟩
    · rw [mem_singleton.mp hr]
      exact proper
    · rw [covers_append, ← h.covers, or_iff_right (covers_nil n)]
      rfl
    · exact ⟨range, mem_append_right _ (mem_singleton_self _), by rw [mem_singleton.mp hr]⟩
    · exact ⟨range, mem_append_right _ (mem_singleton_self _), by rw [mem_singleton.mp hr]⟩
  · have hlast : last ∈ init ++ [last] := mem_append_right _ (mem_singleton_self _)
    have hinit : ∀ r ∈ init, r ∈ init ++ [last] := fun r hr => mem_append_left _ hr
    have hself : range ∈ ranges ++ [range] := mem_append_right _ (mem_singleton_self _)
    obtain ⟨first, hfirst, hstart⟩ := h.starts last hlast
    have hle : last.1 ≤ range.1 := hstart ▸ behind first hfirst
    have hproper := h.proper last hlast
    obtain ⟨hsep, -, hgap⟩ := pairwise_append.mp h.separated
    rw [push_concat]
    split
    · refine ⟨?_, fun r hr => ?_, fun n => ?_, fun r hr => ?_, fun r hr => ?_⟩
      · refine pairwise_append.mpr ⟨hsep, pairwise_singleton _ _, fun a ha b hb => ?_⟩
        rw [mem_singleton.mp hb]
        exact hgap a ha last (mem_singleton_self _)
      · rcases mem_append.mp hr with hr | hr
        · exact h.proper r (hinit r hr)
        · rw [mem_singleton.mp hr]
          exact hproper.trans_le (le_max_left _ _)
      · rw [covers_append (a := ranges), ← h.covers, covers_append, covers_append, covers_singleton,
          covers_singleton, covers_singleton, or_assoc]
        refine or_congr_right ?_
        omega
      · rcases mem_append.mp hr with hr | hr
        · obtain ⟨a, ha, heq⟩ := h.starts r (hinit r hr)
          exact ⟨a, mem_append_left _ ha, heq⟩
        · rw [mem_singleton.mp hr]
          exact ⟨first, mem_append_left _ hfirst, hstart⟩
      · rcases mem_append.mp hr with hr | hr
        · obtain ⟨b, hb, heq⟩ := h.stops r (hinit r hr)
          exact ⟨b, mem_append_left _ hb, heq⟩
        · rw [mem_singleton.mp hr]
          rcases le_total last.2 range.2 with hmax | hmax
          · exact ⟨range, hself, max_eq_right hmax⟩
          · obtain ⟨b, hb, heq⟩ := h.stops last hlast
            exact ⟨b, mem_append_left _ hb, (max_eq_left hmax).trans heq⟩
    · refine ⟨?_, fun r hr => ?_, fun n => ?_, fun r hr => ?_, fun r hr => ?_⟩
      · refine pairwise_append.mpr ⟨h.separated, pairwise_singleton _ _, fun a ha b hb => ?_⟩
        rw [mem_singleton.mp hb]
        rcases mem_append.mp ha with ha | ha
        · have hbefore := hgap a ha last (mem_singleton_self _)
          omega
        · rw [mem_singleton.mp ha]
          omega
      · rcases mem_append.mp hr with hr | hr
        · exact h.proper r hr
        · rw [mem_singleton.mp hr]
          exact proper
      · rw [covers_append, covers_append (a := ranges), h.covers]
      · rcases mem_append.mp hr with hr | hr
        · obtain ⟨a, ha, heq⟩ := h.starts r hr
          exact ⟨a, mem_append_left _ ha, heq⟩
        · exact ⟨range, hself, by rw [mem_singleton.mp hr]⟩
      · rcases mem_append.mp hr with hr | hr
        · obtain ⟨b, hb, heq⟩ := h.stops r hr
          exact ⟨b, mem_append_left _ hb, heq⟩
        · exact ⟨range, hself, by rw [mem_singleton.mp hr]⟩

theorem Merged.foldl (h : Merged ranges merged)
    (proper : Proper more) (sorted : (ranges ++ more).Pairwise fun a b => a.1 ≤ b.1) :
    Merged (ranges ++ more) (more.foldl Ranges.push merged) := by
  induction more generalizing ranges merged with
  | nil => rwa [append_nil]
  | cons range rest ih =>
    have hbehind : ∀ a ∈ ranges, a.1 ≤ range.1 := fun a ha =>
      (pairwise_append.mp sorted).2.2 a ha range mem_cons_self
    have hpush := h.push (proper range mem_cons_self) hbehind
    rw [append_cons] at sorted ⊢
    exact ih hpush (fun r hr => proper r (mem_cons_of_mem _ hr)) sorted

/-- **Merging keeps what ranges cover**, and their boundaries. -/
theorem merge_spec (proper : Proper ranges) : Merged ranges (merge ranges) := by
  have hperm := mergeSort_perm ranges fun a b => a.1 ≤ b.1
  have hsorted : (ranges.mergeSort fun a b => a.1 ≤ b.1).Pairwise fun a b => a.1 ≤ b.1 := by
    have htrans : ∀ a b c : Nat × Nat, decide (a.1 ≤ b.1) → decide (b.1 ≤ c.1) → decide (a.1 ≤ c.1) := by
      simp only [decide_eq_true_eq]
      exact fun a b c => le_trans
    have htotal : ∀ a b : Nat × Nat, decide (a.1 ≤ b.1) || decide (b.1 ≤ a.1) := by
      simp only [Bool.or_eq_true, decide_eq_true_eq]
      exact fun a b => le_total a.1 b.1
    exact (pairwise_mergeSort htrans htotal ranges).imp of_decide_eq_true
  have hmerged := merged_nil.foldl (fun r hr => proper r (hperm.mem_iff.mp hr)) hsorted
  refine ⟨hmerged.separated, hmerged.proper, fun n => (hmerged.covers n).trans ?_, fun r hr => ?_,
    fun r hr => ?_⟩
  · simp only [Covers, nil_append, hperm.mem_iff]
  · obtain ⟨a, ha, heq⟩ := hmerged.starts r hr
    exact ⟨a, hperm.mem_iff.mp ha, heq⟩
  · obtain ⟨b, hb, heq⟩ := hmerged.stops r hr
    exact ⟨b, hperm.mem_iff.mp hb, heq⟩

/-! ## One list for each set -/

theorem merged_self (separated : Separated ranges) (proper : Proper ranges) : Merged ranges ranges where
  separated := separated
  proper := proper
  covers _ := Iff.rfl
  starts range hmem := ⟨range, hmem, rfl⟩
  stops range hmem := ⟨range, hmem, rfl⟩

theorem sorted_of_separated (separated : Separated ranges)
    (proper : Proper ranges) : ranges.Pairwise fun a b => a.1 ≤ b.1 := by
  refine Pairwise.imp_of_mem (fun {a b} ha _ hab => ?_) separated
  have := proper a ha
  omega

theorem Merged.congr (h : Merged a merged) (hperm : a.Perm b) : Merged b merged where
  separated := h.separated
  proper := h.proper
  covers n := (h.covers n).trans (by simp only [Covers, hperm.mem_iff])
  starts range hmem := by
    obtain ⟨r, hr, heq⟩ := h.starts range hmem
    exact ⟨r, hperm.mem_iff.mp hr, heq⟩
  stops range hmem := by
    obtain ⟨r, hr, heq⟩ := h.stops range hmem
    exact ⟨r, hperm.mem_iff.mp hr, heq⟩

theorem Merged.join (ha : Merged a left) (hb : Merged b right)
    (h : Merged (left ++ right) merged) : Merged (a ++ b) merged where
  separated := h.separated
  proper := h.proper
  covers n := by rw [h.covers, covers_append, covers_append, ha.covers, hb.covers]
  starts range hmem := by
    obtain ⟨r, hr, heq⟩ := h.starts range hmem
    rcases mem_append.mp hr with hr | hr
    · obtain ⟨first, hfirst, hstart⟩ := ha.starts r hr
      exact ⟨first, mem_append_left _ hfirst, heq.trans hstart⟩
    · obtain ⟨first, hfirst, hstart⟩ := hb.starts r hr
      exact ⟨first, mem_append_right _ hfirst, heq.trans hstart⟩
  stops range hmem := by
    obtain ⟨r, hr, heq⟩ := h.stops range hmem
    rcases mem_append.mp hr with hr | hr
    · obtain ⟨last, hlast, hstop⟩ := ha.stops r hr
      exact ⟨last, mem_append_left _ hlast, heq.trans hstop⟩
    · obtain ⟨last, hlast, hstop⟩ := hb.stops r hr
      exact ⟨last, mem_append_right _ hlast, heq.trans hstop⟩

end Lector.Ranges

/-! The place nearest to a number in a set, and clamping as the way to find it in an interval. -/
namespace Lector.Nearest

/-- `m` is in `places`, and no place is closer to `n`. -/
def IsNearest (places : Set Nat) (n m : Nat) : Prop := m ∈ places ∧ ∀ k ∈ places, Nat.dist n m ≤ Nat.dist n k

variable {n : Nat}

theorem isNearest_clamp {low high : Nat} (h : low ≤ high) (n : Nat) :
    IsNearest (Set.Icc low high) n (min (max n low) high) := by
  constructor
  · exact ⟨by omega, by omega⟩
  · intro k hk
    obtain ⟨hlow, hhigh⟩ := hk
    simp only [Nat.dist]
    omega

end Lector.Nearest
