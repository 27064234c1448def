import Mathlib.Data.List.Basic

/-! Cutting a stream into the sequences that a reader of prefixes recognises, and the machines that
do so one item at a time while they hold the sequence that has not ended yet. -/
namespace Lector.Cutting
open List

variable {α : Type}

/-- `len items = some n`: the first `n` items are one sequence, whatever follows them. -/
structure Cutter (α : Type) where
  len : List α → Option Nat
  pos : ∀ {items n}, len items = some n → 0 < n
  le : ∀ {items n}, len items = some n → n ≤ items.length
  stable : ∀ {items n} (more : List α), len items = some n → len (items ++ more) = some n

variable (c : Cutter α)

def cut (items : List α) : List (List α) × List α :=
  match _h : c.len items with
  | none => ([], items)
  | some n => (items.take n :: (cut (items.drop n)).1, (cut (items.drop n)).2)
termination_by items.length
decreasing_by
  all_goals
    have := c.pos _h
    have := c.le _h
    rw [length_drop]
    omega

variable {c} {items more tail : List α} {n : Nat}

theorem cut_unfinished (h : c.len items = none) : cut c items = ([], items) := by
  rw [cut]
  split
  · rfl
  · rename_i h'
    rw [h] at h'
    cases h'

theorem cut_cons (h : c.len items = some n) :
    cut c items = (items.take n :: (cut c (items.drop n)).1, (cut c (items.drop n)).2) := by
  rw [cut]
  split
  · rename_i h'
    rw [h] at h'
    cases h'
  · rename_i m h'
    obtain rfl : n = m := Option.some.inj (h.symm.trans h')
    rfl

@[simp] theorem cut_nil : cut c [] = ([], []) := by
  cases h : c.len [] with
  | none => exact cut_unfinished h
  | some n =>
    have hpos := c.pos h
    have hle := c.le h
    simp only [length_nil] at hle
    omega

theorem cut_induction {P : List α → Prop} (unfinished : ∀ items, c.len items = none → P items)
    (sequence : ∀ items n, c.len items = some n → P (items.drop n) → P items) (items : List α) : P items := by
  induction hlen : items.length using Nat.strongRecOn generalizing items with
  | ind length ih =>
    cases h : c.len items with
    | none => exact unfinished items h
    | some n =>
      have hpos := c.pos h
      have hle := c.le h
      refine sequence items n h (ih _ ?_ _ rfl)
      rw [length_drop]
      omega

theorem flatten_cut (items : List α) : (cut c items).1.flatten ++ (cut c items).2 = items := by
  induction items using cut_induction (c := c) with
  | unfinished items h => rw [cut_unfinished h]; rfl
  | sequence items n h ih => rw [cut_cons h, flatten_cons, append_assoc, ih, take_append_drop]

theorem len_cut (items : List α) : c.len (cut c items).2 = none := by
  induction items using cut_induction (c := c) with
  | unfinished items h => rwa [cut_unfinished h]
  | sequence items n h ih => rwa [cut_cons h]

/-- **A stream may be cut in two parts: the second starts with what the first leaves unfinished.** -/
theorem cut_append (items more : List α) :
    cut c (items ++ more) = ((cut c items).1 ++ (cut c ((cut c items).2 ++ more)).1,
      (cut c ((cut c items).2 ++ more)).2) := by
  induction items using cut_induction (c := c) with
  | unfinished items h => rw [cut_unfinished h]; rfl
  | sequence items n h ih =>
    have hle := c.le h
    rw [cut_cons h, cut_cons (c.stable more h), drop_append_of_le_length hle, take_append_of_le_length hle, ih]
    rfl

theorem cut_whole (h : c.len items = some items.length) (more : List α) :
    cut c (items ++ more) = (items :: (cut c more).1, (cut c more).2) := by
  rw [cut_cons (c.stable more h), take_left', drop_left']
  · rfl
  · rfl

theorem cut_unique {sequences : List (List α)} (hwhole : ∀ s ∈ sequences, c.len s = some s.length)
    (htail : c.len tail = none) : cut c (sequences.flatten ++ tail) = (sequences, tail) := by
  induction sequences with
  | nil => exact cut_unfinished htail
  | cons s rest ih =>
    rw [flatten_cons, append_assoc, cut_whole (hwhole s mem_cons_self),
      ih fun t ht => hwhole t (mem_cons_of_mem _ ht)]

/-! ## Readers that need no item after the end of a sequence -/

/-- Each sequence is recognised by its own items. -/
def Prompt (c : Cutter α) : Prop := ∀ items n, c.len items = some n → c.len (items.take n) = some n

theorem Prompt.ends (hc : Prompt c) (htail : c.len tail = none) {item : α}
    (h : c.len (tail ++ [item]) = some n) : n = (tail ++ [item]).length := by
  have hle := c.le h
  by_contra hne
  have hshort : n ≤ tail.length := by
    simp only [length_append, length_singleton] at hle hne
    omega
  have htake := hc _ n h
  rw [take_append_of_le_length hshort] at htake
  have hstable := c.stable (tail.drop n) htake
  rw [take_append_drop, htail] at hstable
  cases hstable

theorem Prompt.whole (hc : Prompt c) (items : List α) : ∀ s ∈ (cut c items).1, c.len s = some s.length := by
  induction items using cut_induction (c := c) with
  | unfinished items h => rw [cut_unfinished h]; simp
  | sequence items n h ih =>
    rw [cut_cons h]
    have hlength : (items.take n).length = n := length_take_of_le (c.le h)
    intro s hs
    rcases mem_cons.mp hs with rfl | hs
    · rw [hlength]
      exact hc items n h
    · exact ih s hs

theorem cut_ends (hc : Prompt c) (htail : c.len tail = none) {item : α}
    (h : c.len (tail ++ [item]) = some n) : cut c (tail ++ [item]) = ([tail ++ [item]], []) := by
  rw [hc.ends htail h] at h
  have hcut := cut_whole h []
  rwa [append_nil, cut_nil] at hcut

/-! ## Readers of a grammar -/

/-- The reader of a grammar whose sequences are not empty. It needs no item after their ends. -/
def Cutter.ofGrammar (len : List α → Option Nat) (Sequence : List α → Prop)
    (hne : ∀ s, Sequence s → s ≠ [])
    (hlen : ∀ items n, len items = some n ↔ ∃ s rest, Sequence s ∧ items = s ++ rest ∧ n = s.length) :
    Cutter α where
  len := len
  pos := fun h => by
    obtain ⟨s, rest, hs, -, rfl⟩ := (hlen _ _).mp h
    exact length_pos_of_ne_nil (hne s hs)
  le := fun h => by
    obtain ⟨s, rest, -, rfl, rfl⟩ := (hlen _ _).mp h
    rw [length_append]
    exact Nat.le_add_right _ _
  stable := fun more h => by
    obtain ⟨s, rest, hs, rfl, rfl⟩ := (hlen _ _).mp h
    exact (hlen _ _).mpr ⟨s, rest ++ more, hs, append_assoc _ _ _, rfl⟩

variable {len : List α → Option Nat} {Sequence : List α → Prop} {hne : ∀ s, Sequence s → s ≠ []}
  {hlen : ∀ items n, len items = some n ↔ ∃ s rest, Sequence s ∧ items = s ++ rest ∧ n = s.length}

theorem prompt_ofGrammar : Prompt (Cutter.ofGrammar len Sequence hne hlen) := by
  intro items n h
  obtain ⟨s, -, hs, rfl, rfl⟩ := (hlen _ _).mp h
  exact (hlen _ _).mpr ⟨s, [], hs, by rw [take_left', append_nil]; rfl, rfl⟩

theorem whole_ofGrammar {s : List α} :
    (Cutter.ofGrammar len Sequence hne hlen).len s = some s.length ↔ Sequence s := by
  constructor
  · intro h
    obtain ⟨t, rest, ht, rfl, hlength⟩ := (hlen _ _).mp h
    rw [length_append] at hlength
    obtain rfl : rest = [] := eq_nil_of_length_eq_zero (by omega)
    rwa [append_nil]
  · exact fun h => (hlen _ _).mpr ⟨s, [], h, (append_nil s).symm, rfl⟩

theorem unfinished_ofGrammar :
    (Cutter.ofGrammar len Sequence hne hlen).len items = none ↔ ∀ s, Sequence s → ¬ s <+: items := by
  constructor
  · rintro h s hs ⟨rest, rfl⟩
    have hsome := (hlen _ _).mpr ⟨s, rest, hs, rfl, rfl⟩
    rw [show len (s ++ rest) = none from h] at hsome
    cases hsome
  · intro h
    by_contra hne
    obtain ⟨n, hn⟩ := Option.ne_none_iff_exists'.mp hne
    obtain ⟨s, rest, hs, heq, -⟩ := (hlen _ _).mp hn
    exact h s hs ⟨rest, heq.symm⟩

/-! ## Machines -/

variable {σ τ : Type} {step : σ → α → σ} {note : τ → List α → τ} {Follows : σ → τ → List α → Prop}

/-- **A machine that follows the cut of each item follows the cut of the whole stream.** -/
theorem run_follows (hstep : ∀ s acc tail item, c.len tail = none → Follows s acc tail →
      Follows (step s item) ((cut c (tail ++ [item])).1.foldl note acc) (cut c (tail ++ [item])).2)
    {s : σ} {acc : τ} (htail : c.len tail = none) (hs : Follows s acc tail) (items : List α) :
    Follows (items.foldl step s) ((cut c (tail ++ items)).1.foldl note acc)
      (cut c (tail ++ items)).2 := by
  induction items generalizing s acc tail with
  | nil =>
    rw [append_nil, cut_unfinished htail]
    exact hs
  | cons item rest ih =>
    have h := ih (len_cut (tail ++ [item])) (hstep s acc tail item htail hs)
    have hcut := cut_append (c := c) (tail ++ [item]) rest
    rw [append_assoc, singleton_append] at hcut
    rw [hcut, foldl_append]
    exact h

end Lector.Cutting
