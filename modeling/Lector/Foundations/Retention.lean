import Mathlib.Algebra.BigOperators.Group.List.Basic
import Mathlib.Algebra.GroupWithZero.Nat

/-! Queues that keep their items in order of a key, count the sizes of what they hold, and give up the
oldest items where a limit is exceeded. -/
namespace Lector.Retention
open List

structure Limits where
  items : Nat
  bytes : Nat

/-- A queue and its running count of the sizes. -/
structure Queue (α : Type) where
  items : List α
  bytes : Nat

variable {α : Type} (size key : α → Nat)

/-- The oldest items go while a limit is exceeded. -/
def evict (limits : Limits) : List α → Nat → Queue α
  | [], bytes => ⟨[], bytes⟩
  | item :: rest, bytes =>
    if limits.items < (item :: rest).length ∨ limits.bytes < bytes then
      evict limits rest (bytes - size item)
    else ⟨item :: rest, bytes⟩

/-- The items up to the key `last` go, from the front. -/
def dropThrough (last : Nat) : List α → Nat → Queue α
  | [], bytes => ⟨[], bytes⟩
  | item :: rest, bytes =>
    if key item ≤ last then dropThrough last rest (bytes - size item) else ⟨item :: rest, bytes⟩

def Queue.Counted (q : Queue α) : Prop := q.bytes = (q.items.map size).sum

def Increasing (items : List α) : Prop := (items.map key).Pairwise (· < ·)

variable {size key}

theorem Increasing.suffix {items rest : List α} (h : Increasing key items) (hrest : rest <:+ items) :
    Increasing key rest := Pairwise.sublist (hrest.sublist.map key) h

theorem Increasing.concat {items : List α} {item : α} (h : Increasing key items)
    (hlast : ∀ earlier ∈ items, key earlier < key item) : Increasing key (items ++ [item]) := by
  rw [Increasing, map_append, pairwise_append]
  refine ⟨h, pairwise_singleton _ _, ?_⟩
  simpa using hlast

theorem counted_tail {item : α} {rest : List α} {bytes : Nat} (h : bytes = ((item :: rest).map size).sum) :
    bytes - size item = (rest.map size).sum := by
  rw [map_cons, sum_cons] at h
  omega

section Evict

variable {limits : Limits} {items : List α} {bytes : Nat}

theorem evict_suffix : (evict size limits items bytes).items <:+ items := by
  induction items generalizing bytes with
  | nil => exact suffix_refl _
  | cons item rest ih =>
    rw [evict]
    split
    · exact ih.trans (suffix_cons _ _)
    · exact suffix_refl _

theorem evict_counted (h : bytes = (items.map size).sum) : (evict size limits items bytes).Counted size := by
  induction items generalizing bytes with
  | nil => exact h
  | cons item rest ih =>
    rw [evict]
    split
    · exact ih (counted_tail h)
    · exact h

theorem evict_within (h : bytes = (items.map size).sum) :
    (evict size limits items bytes).items.length ≤ limits.items ∧
      (evict size limits items bytes).bytes ≤ limits.bytes := by
  induction items generalizing bytes with
  | nil =>
    subst h
    exact ⟨Nat.zero_le _, Nat.zero_le _⟩
  | cons item rest ih =>
    rw [evict]
    split
    · exact ih (counted_tail h)
    · rename_i hwithin
      rw [not_or, Nat.not_lt, Nat.not_lt] at hwithin
      exact hwithin

end Evict

section DropThrough

variable {last : Nat} {items : List α} {bytes : Nat}

theorem dropThrough_suffix : (dropThrough size key last items bytes).items <:+ items := by
  induction items generalizing bytes with
  | nil => exact suffix_refl _
  | cons item rest ih =>
    rw [dropThrough]
    split
    · exact ih.trans (suffix_cons _ _)
    · exact suffix_refl _

theorem dropThrough_counted (h : bytes = (items.map size).sum) :
    (dropThrough size key last items bytes).Counted size := by
  induction items generalizing bytes with
  | nil => exact h
  | cons item rest ih =>
    rw [dropThrough]
    split
    · exact ih (counted_tail h)
    · exact h

theorem dropThrough_items (h : Increasing key items) :
    (dropThrough size key last items bytes).items = items.filter fun item => decide (last < key item) := by
  induction items generalizing bytes with
  | nil => rfl
  | cons item rest ih =>
    have hrest := h.suffix (suffix_cons item rest)
    rw [dropThrough]
    split
    · rename_i hgone
      rw [ih hrest, filter_cons_of_neg (by simpa using hgone)]
    · rename_i hstays
      have hbehind : ∀ later ∈ item :: rest, last < key later := by
        intro later hlater
        have hitem : last < key item := Nat.not_le.mp hstays
        rw [Increasing, map_cons, pairwise_cons] at h
        cases mem_cons.mp hlater with
        | inl hsame => exact hsame ▸ hitem
        | inr hmem => exact Nat.lt_trans hitem (h.1 _ (mem_map_of_mem hmem))
      exact (filter_eq_self.mpr fun later hlater => decide_eq_true (hbehind later hlater)).symm

end DropThrough

/-- What such a queue keeps: its limits, its count, its order, and no key behind `last`. -/
structure Sound (size key : α → Nat) (limits : Limits) (last : Nat) (q : Queue α) : Prop where
  items : q.items.length ≤ limits.items
  bytes : q.bytes ≤ limits.bytes
  counted : q.Counted size
  increasing : Increasing key q.items
  reached : ∀ item ∈ q.items, key item ≤ last

namespace Sound

variable {limits : Limits} {last : Nat} {q : Queue α}

theorem empty : Sound size key limits last ⟨[], 0⟩ :=
  ⟨Nat.zero_le _, Nat.zero_le _, rfl, Pairwise.nil, fun _ h => nomatch h⟩

section

variable (h : Sound size key limits last q)
include h

theorem later {last' : Nat} (hlast : last ≤ last') : Sound size key limits last' q :=
  { h with reached := fun item hitem => Nat.le_trans (h.reached item hitem) hlast }

theorem push (item : α) (hlast : last < key item) : Sound size key limits (key item)
      (evict size limits (q.items ++ [item]) (q.bytes + size item)) := by
  have hcount : q.bytes + size item = ((q.items ++ [item]).map size).sum := by
    rw [map_append, sum_append, map_singleton, sum_singleton, ← h.counted]
  have hbefore : ∀ earlier ∈ q.items, key earlier < key item := fun earlier hearlier =>
    Nat.lt_of_le_of_lt (h.reached earlier hearlier) hlast
  refine ⟨(evict_within hcount).1, (evict_within hcount).2, evict_counted hcount,
    (h.increasing.concat hbefore).suffix evict_suffix, fun kept hkept => ?_⟩
  cases mem_append.mp (evict_suffix.subset hkept) with
  | inl hold => exact Nat.le_of_lt (hbefore kept hold)
  | inr hnew => exact Nat.le_of_eq (congrArg key (mem_singleton.mp hnew))

theorem dropThrough (through : Nat) :
    Sound size key limits last (dropThrough size key through q.items q.bytes) := by
  have hsuffix : (Retention.dropThrough size key through q.items q.bytes).items <:+ q.items :=
    dropThrough_suffix
  have hcounted : (Retention.dropThrough size key through q.items q.bytes).Counted size :=
    dropThrough_counted h.counted
  refine ⟨Nat.le_trans hsuffix.length_le h.items, ?_, hcounted, h.increasing.suffix hsuffix,
    fun item hitem => h.reached item (hsuffix.subset hitem)⟩
  obtain ⟨front, hfront⟩ := hsuffix
  have hsum := congrArg (fun items => (items.map size).sum) hfront
  have hcount := h.counted
  have hbytes := h.bytes
  rw [Queue.Counted] at hcounted hcount
  simp only [map_append, sum_append] at hsum
  omega

end

end Sound

end Lector.Retention
