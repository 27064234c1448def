import Mathlib.Data.List.Basic

/-! Parts of a list that move: a window whose items are shifted up or down while others fill the gap, and a
window that is written over. -/
namespace Lector.Shifting
open List

variable {α β : Type}

def up (xs : List α) (first last count : Nat) (fill : α) : List α :=
  xs.take first ++ (xs.take last).drop (first + count) ++ List.replicate count fill ++ xs.drop last

def down (xs : List α) (first last count : Nat) (fill : α) : List α :=
  xs.take first ++ List.replicate count fill ++ (xs.take (last - count)).drop first ++ xs.drop last

def splice (xs : List α) (first : Nat) (ys : List α) : List α :=
  xs.take first ++ ys ++ xs.drop (first + ys.length)

theorem map_up (f : α → β) (xs : List α) (first last count : Nat) (fill : α) :
    (up xs first last count fill).map f = up (xs.map f) first last count (f fill) := by
  simp only [up, map_append, map_take, map_drop, map_replicate]

theorem map_down (f : α → β) (xs : List α) (first last count : Nat) (fill : α) :
    (down xs first last count fill).map f = down (xs.map f) first last count (f fill) := by
  simp only [down, map_append, map_take, map_drop, map_replicate]

theorem map_splice (f : α → β) (xs : List α) (first : Nat) (ys : List α) :
    (splice xs first ys).map f = splice (xs.map f) first (ys.map f) := by
  simp only [splice, map_append, map_take, map_drop, length_map]

variable {xs ys zs : List α} {first last count n : Nat}

theorem length_up (hcount : first + count ≤ last)
    (hlast : last ≤ xs.length) (fill : α) : (up xs first last count fill).length = xs.length := by
  simp only [up, length_append, length_take, length_drop, length_replicate]
  omega

theorem length_down (hcount : first + count ≤ last)
    (hlast : last ≤ xs.length) (fill : α) : (down xs first last count fill).length = xs.length := by
  simp only [down, length_append, length_take, length_drop, length_replicate]
  omega

theorem length_splice (h : first + ys.length ≤ xs.length) : (splice xs first ys).length = xs.length := by
  simp only [splice, length_append, length_take, length_drop]
  omega

theorem getElem?_up_fill (hcount : first + count ≤ last) (hlast : last ≤ xs.length) (fill : α)
    (hn : n < count) : (up xs first last count fill)[last - count + n]? = some fill := by
  have hfirst : (xs.take first).length = first := by
    rw [length_take]
    omega
  have hmiddle : ((xs.take last).drop (first + count)).length = last - (first + count) := by
    rw [length_drop, length_take]
    omega
  have hbefore : (xs.take first ++ (xs.take last).drop (first + count)).length = last - count := by
    rw [length_append]
    omega
  rw [up, append_assoc, getElem?_append_right (by omega), hbefore, Nat.add_sub_cancel_left,
    getElem?_append_left (by rwa [length_replicate]), getElem?_replicate, if_pos hn]

theorem getElem?_down_fill (hcount : first + count ≤ last) (hlast : last ≤ xs.length) (fill : α)
    (hn : n < count) : (down xs first last count fill)[first + n]? = some fill := by
  have hfirst : (xs.take first).length = first := by
    rw [length_take]
    omega
  rw [down, append_assoc, append_assoc, getElem?_append_right (by omega), hfirst,
    Nat.add_sub_cancel_left, getElem?_append_left (by rwa [length_replicate]),
    getElem?_replicate, if_pos hn]

theorem mem_up {fill x : α} (h : x ∈ up xs first last count fill) : x ∈ xs ∨ x = fill := by
  simp only [up, mem_append] at h
  rcases h with ((h | h) | h) | h
  · exact .inl (mem_of_mem_take h)
  · exact .inl (mem_of_mem_take (mem_of_mem_drop h))
  · exact .inr (eq_of_mem_replicate h)
  · exact .inl (mem_of_mem_drop h)

theorem mem_down {fill x : α} (h : x ∈ down xs first last count fill) : x ∈ xs ∨ x = fill := by
  simp only [down, mem_append] at h
  rcases h with ((h | h) | h) | h
  · exact .inl (mem_of_mem_take h)
  · exact .inr (eq_of_mem_replicate h)
  · exact .inl (mem_of_mem_take (mem_of_mem_drop h))
  · exact .inl (mem_of_mem_drop h)

theorem getElem?_splice_outside (h : first + ys.length ≤ xs.length)
    (hn : n < first ∨ first + ys.length ≤ n) : (splice xs first ys)[n]? = xs[n]? := by
  have hfirst : (xs.take first).length = first := by
    rw [length_take]
    omega
  rw [splice]
  rcases hn with hn | hn
  · rw [append_assoc, getElem?_append_left (by omega), getElem?_take_of_lt hn]
  · rw [getElem?_append_right (by rw [length_append]; omega), length_append, getElem?_drop]
    congr 1
    omega

theorem getElem?_splice_inside (h : first ≤ xs.length)
    (hn : n < ys.length) : (splice xs first ys)[first + n]? = ys[n]? := by
  have hfirst : (xs.take first).length = first := by
    rw [length_take]
    omega
  rw [splice, append_assoc, getElem?_append_right (by omega), hfirst,
    Nat.add_sub_cancel_left, getElem?_append_left hn]

theorem splice_splice (h : first + ys.length ≤ xs.length) :
    splice (splice xs first ys) (first + ys.length) zs = splice xs first (ys ++ zs) := by
  have hfirst : (xs.take first).length = first := by
    rw [length_take]
    omega
  have hlength : (xs.take first ++ ys).length = first + ys.length := by
    rw [length_append, hfirst]
  have htake : (splice xs first ys).take (first + ys.length) = xs.take first ++ ys := by
    rw [splice, take_append_of_le_length (by omega), take_of_length_le (Nat.le_of_eq hlength)]
  have hdrop : (splice xs first ys).drop (first + ys.length + zs.length) =
      xs.drop (first + (ys ++ zs).length) := by
    have hdrop' : (splice xs first ys).drop (first + ys.length) = xs.drop (first + ys.length) := by
      rw [splice, drop_append_of_le_length (by omega), drop_of_length_le (Nat.le_of_eq hlength), nil_append]
    rw [← drop_drop, hdrop', drop_drop, length_append, Nat.add_assoc]
  rw [splice, htake, hdrop, splice]
  simp only [append_assoc]

theorem splice_append (before rest ys : List α) :
    splice (before ++ rest) before.length ys = before ++ ys ++ rest.drop ys.length := by
  rw [splice, take_left, drop_append, drop_eq_nil_of_le (by omega), nil_append, Nat.add_sub_cancel_left]

theorem modify_eq_set {x : α} (h : xs[n]? = some x) (f : α → α) : xs.modify n f = xs.set n (f x) := by
  refine ext_getElem? fun i => ?_
  obtain ⟨hlt, rfl⟩ := List.getElem?_eq_some_iff.mp h
  by_cases hi : n = i
  · subst hi
    simp [hlt]
  · simp [hi]

end Lector.Shifting
