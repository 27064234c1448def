import Mathlib.Data.List.Basic

/-! A text read as clusters. Whether a cluster ends before a letter is decided by the letter and by what
stands before it, as for grapheme clusters. -/
namespace Lector.Clusters
open List

variable {α : Type} (isBreak : List α → α → Bool)

/-- The clusters from the open one on, behind all that has been read. -/
def scan : (before current : List α) → List α → List (List α)
  | _, current, [] => [current]
  | before, current, next :: rest =>
    if isBreak before next then current :: scan (before ++ [next]) [next] rest
    else scan (before ++ [next]) (current ++ [next]) rest

def clusters : List α → List (List α)
  | [] => []
  | first :: rest => scan isBreak [first] [first] rest

variable (before current text : List α)

theorem flatten_scan : (scan isBreak before current text).flatten = current ++ text := by
  induction text generalizing before current with
  | nil => simp [scan]
  | cons next rest ih =>
    rw [scan]
    split
    · rw [flatten_cons, ih, singleton_append]
    · rw [ih, append_assoc, singleton_append]

@[simp]
theorem flatten_clusters (text : List α) : (clusters isBreak text).flatten = text := by
  cases text with
  | nil => rfl
  | cons first rest => exact flatten_scan isBreak _ _ rest

theorem take_drop_clusters (text : List α) (i : Nat) :
    ((clusters isBreak text).take i).flatten ++ ((clusters isBreak text).drop i).flatten = text := by
  rw [← flatten_append, take_append_drop, flatten_clusters]

theorem scan_pos : 0 < (scan isBreak before current text).length := by
  induction text generalizing before current with
  | nil => exact Nat.zero_lt_one
  | cons next rest ih =>
    rw [scan]
    split
    · exact Nat.succ_pos _
    · exact ih _ _

theorem scan_front {i : Nat} (h : i < (scan isBreak before current text).length) :
    ∃ more, ((scan isBreak before current text).take (i + 1)).flatten = current ++ more ∧
      ∀ other, i < (scan isBreak before current (more ++ other)).length := by
  induction text generalizing before current i with
  | nil =>
    obtain rfl : i = 0 := Nat.lt_one_iff.mp h
    exact ⟨[], by simp [scan], fun other => scan_pos isBreak _ _ _⟩
  | cons next rest ih =>
    rw [scan] at h ⊢
    split at h
    · rename_i hbreak
      rw [if_pos hbreak]
      cases i with
      | zero => exact ⟨[], by simp, fun other => scan_pos isBreak _ _ _⟩
      | succ i =>
        obtain ⟨more, hfront, hlong⟩ := ih _ _ (Nat.lt_of_succ_lt_succ h)
        refine ⟨next :: more, by rw [take_succ_cons, flatten_cons, hfront, singleton_append], ?_⟩
        intro other
        rw [cons_append, scan, if_pos hbreak]
        exact Nat.succ_lt_succ (hlong other)
    · rename_i hjoin
      rw [if_neg hjoin]
      obtain ⟨more, hfront, hlong⟩ := ih _ _ h
      refine ⟨next :: more, by rw [hfront, append_assoc, singleton_append], fun other => ?_⟩
      rw [cons_append, scan, if_neg hjoin]
      exact hlong other

/-- **The first clusters of a text stay apart, whatever follows them.** -/
theorem le_length_clusters {text : List α} {i : Nat} (h : i ≤ (clusters isBreak text).length) (other : List α) :
    i ≤ (clusters isBreak (((clusters isBreak text).take i).flatten ++ other)).length := by
  cases i with
  | zero => exact Nat.zero_le _
  | succ i =>
    cases text with
    | nil => cases h
    | cons first rest =>
      obtain ⟨more, hfront, hlong⟩ := scan_front isBreak [first] [first] rest h
      rw [clusters, hfront]
      exact hlong other

end Lector.Clusters
