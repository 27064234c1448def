import Mathlib.Data.List.Basic

/-! A value that is announced in two ways, told and shown. Where all that is shown is honest, a
listener to both hears what a listener to the told hears. -/
namespace Lector.Announcements
open List

variable {α : Type}

inductive Entry (α : Type)
  | told (a : α)
  | shown (a : α)

open Entry

def tolds (l : List (Entry α)) : List α :=
  l.filterMap fun
    | told a => some a
    | shown _ => none

def showns (l : List (Entry α)) : List α :=
  l.filterMap fun
    | told _ => none
    | shown a => some a

/-- What was told last, after `b`. -/
def lastTold (b : α) (l : List (Entry α)) : α := (tolds l).getLast?.getD b

/-- Everything that is shown is what was told last. -/
def Honest (b : α) : List (Entry α) → Prop
  | [] => True
  | told a :: l => Honest a l
  | shown a :: l => a = b ∧ Honest b l

section Lists

variable (a b : α) (p q : List (Entry α))

@[simp] theorem tolds_nil : tolds ([] : List (Entry α)) = [] := rfl

@[simp] theorem tolds_told : tolds (told a :: p) = a :: tolds p := rfl

@[simp] theorem tolds_shown : tolds (shown a :: p) = tolds p := rfl

@[simp] theorem tolds_append : tolds (p ++ q) = tolds p ++ tolds q := filterMap_append

@[simp] theorem showns_nil : showns ([] : List (Entry α)) = [] := rfl

@[simp] theorem showns_told : showns (told a :: p) = showns p := rfl

@[simp] theorem showns_shown : showns (shown a :: p) = a :: showns p := rfl

@[simp] theorem showns_append : showns (p ++ q) = showns p ++ showns q := filterMap_append

@[simp] theorem tolds_map_told (as : List α) : tolds (as.map told) = as := by
  induction as with
  | nil => rfl
  | cons a as ih => rw [map_cons, tolds_told, ih]

@[simp] theorem lastTold_nil : lastTold b [] = b := rfl

@[simp] theorem lastTold_shown : lastTold b (shown a :: p) = lastTold b p := rfl

@[simp] theorem lastTold_told : lastTold b (told a :: p) = lastTold a p := by
  simp only [lastTold, tolds_told, getLast?_cons, Option.getD_some]

theorem lastTold_append : lastTold b (p ++ q) = lastTold (lastTold b p) q := by
  induction p generalizing b with
  | nil => rfl
  | cons entry p ih =>
    cases entry with
    | told a => rw [cons_append, lastTold_told, lastTold_told, ih]
    | shown a => rw [cons_append, lastTold_shown, lastTold_shown, ih]

theorem honest_append : Honest b (p ++ q) ↔ Honest b p ∧ Honest (lastTold b p) q := by
  induction p generalizing b with
  | nil => simp [Honest]
  | cons entry p ih =>
    cases entry with
    | told a =>
      rw [lastTold_told]
      exact ih a
    | shown a =>
      rw [cons_append, lastTold_shown]
      simp only [Honest, ih b, and_assoc]

theorem honest_told (as : List α) : Honest b (as.map told) := by
  induction as generalizing b with
  | nil => trivial
  | cons a as ih => exact ih a

end Lists

variable {b v : α} {l started : List (Entry α)} {waiting : List α}

/-- **A listener to both hears what was told last**, whichever way it looks first. -/
theorem Honest.heard (h : Honest b l) : (tolds l).getLast?.getD ((showns l).getLast?.getD b) = lastTold b l := by
  induction l generalizing b with
  | nil => rfl
  | cons entry l ih =>
    cases entry with
    | told a => rfl
    | shown a =>
      obtain ⟨rfl, h⟩ := h
      rw [lastTold_shown, showns_shown, ← ih h, getLast?_cons]
      rfl

theorem Honest.shows (h : Honest b l) (hstarted : started <+: l) (htolds : tolds l = tolds started ++ waiting)
    (hv : v = lastTold b l) : Honest b (started ++ waiting.map told ++ [shown v]) ∧
      lastTold b (started ++ waiting.map told ++ [shown v]) = v := by
  obtain ⟨rest, rfl⟩ := hstarted
  have hlast : lastTold b (started ++ waiting.map told) = v := by
    rw [hv]
    unfold lastTold
    rw [htolds, tolds_append, tolds_map_told]
  have hhonest := ((honest_append b started rest).mp h).1
  refine ⟨?_, ?_⟩
  · rw [honest_append, honest_append, hlast]
    exact ⟨⟨hhonest, honest_told _ waiting⟩, rfl, trivial⟩
  · rw [lastTold_append, hlast]
    rfl

theorem Honest.tells (h : Honest b l) (hstarted : started <+: l) :
    Honest b (started ++ [v].map told ++ [shown v]) ∧ lastTold b (started ++ [v].map told ++ [shown v]) = v := by
  obtain ⟨rest, rfl⟩ := hstarted
  have hhonest := ((honest_append b started rest).mp h).1
  have hlast : lastTold b (started ++ [v].map told) = v := by
    rw [lastTold_append]
    rfl
  refine ⟨?_, ?_⟩
  · rw [honest_append, honest_append, hlast]
    exact ⟨⟨hhonest, trivial⟩, rfl, trivial⟩
  · rw [lastTold_append, hlast]
    rfl

end Lector.Announcements
