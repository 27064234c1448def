import Mathlib.Algebra.Order.Ring.Nat
import Mathlib.Data.List.Count
import Mathlib.Data.List.Infix

/-! The loops that move an index while a condition holds, up to a bound or down to zero. -/
namespace Lector.Scanning
open List

variable (p : Nat → Bool)

/-- At most `n` steps up. -/
def climb : Nat → Nat → Nat
  | 0, i => i
  | n + 1, i => if p i then climb n (i + 1) else i

def scanUp (stop i : Nat) : Nat := climb p (stop - i) i

def scanDown : Nat → Nat
  | 0 => 0
  | i + 1 => if p (i + 1) then scanDown i else i + 1

/-- The places from `i` up to `stop` where the condition holds. -/
def places (stop i : Nat) : List Nat := (List.range' i (stop - i)).filter p

/-- `for _ in 0..count`, left early where `step` finds nowhere to go. -/
def steps {α : Type} (step : α → Option α) : Nat → α → α
  | 0, a => a
  | n + 1, a => match step a with
    | none => a
    | some b => steps step n b

variable {p} {n i j stop : Nat}

theorem le_climb : i ≤ climb p n i := by
  induction n generalizing i with
  | zero => exact le_rfl
  | succ n ih =>
    rw [climb]
    split
    · exact (Nat.le_succ i).trans ih
    · exact le_rfl

theorem climb_le : climb p n i ≤ i + n := by
  induction n generalizing i with
  | zero => exact le_rfl
  | succ n ih =>
    rw [climb]
    split
    · have hrest := @ih (i + 1)
      omega
    · omega

theorem of_lt_climb (hi : i ≤ j) (hj : j < climb p n i) : p j = true := by
  induction n generalizing i with
  | zero =>
    rw [climb] at hj
    omega
  | succ n ih =>
    rw [climb] at hj
    split at hj
    · next hp =>
      obtain rfl | hlt := eq_or_lt_of_le hi
      · exact hp
      · exact ih hlt hj
    · omega

theorem climb_stops (h : climb p n i < i + n) : p (climb p n i) = false := by
  induction n generalizing i with
  | zero =>
    rw [climb] at h
    omega
  | succ n ih =>
    rw [climb] at h ⊢
    split at h
    · next hp =>
      rw [if_pos hp]
      exact ih (by omega)
    · next hp =>
      rw [if_neg hp]
      simpa using hp

theorem le_scanUp : i ≤ scanUp p stop i := le_climb

theorem scanUp_le (h : i ≤ stop) : scanUp p stop i ≤ stop := by
  have hbound := @climb_le p (stop - i) i
  unfold scanUp
  omega

theorem of_lt_scanUp (hi : i ≤ j) (hj : j < scanUp p stop i) : p j = true := of_lt_climb hi hj

theorem scanUp_stops (h : scanUp p stop i < stop) : p (scanUp p stop i) = false := by
  apply climb_stops
  unfold scanUp at *
  omega

theorem scanUp_eq (hi : i ≤ j) (hj : j ≤ stop) (hpassed : ∀ k, i ≤ k → k < j → p k = true)
    (hstops : j < stop → p j = false) : scanUp p stop i = j := by
  have hle := @le_scanUp p i stop
  have hbound := @scanUp_le p i stop (hi.trans hj)
  obtain hlt | heq | hgt := lt_trichotomy (scanUp p stop i) j
  · have hstopped := @scanUp_stops p i stop (hlt.trans_le hj)
    rw [hpassed _ hle hlt] at hstopped
    cases hstopped
  · exact heq
  · have hpass := of_lt_scanUp hi hgt
    rw [hstops (hgt.trans_le hbound)] at hpass
    cases hpass

theorem scanUp_eq_self_iff (h : i ≤ stop) : scanUp p stop i = i ↔ (i < stop → p i = false) := by
  constructor
  · intro hstays hlt
    have hstops := @scanUp_stops p i stop
    rw [hstays] at hstops
    exact hstops hlt
  · intro hstops
    apply scanUp_eq (le_refl i) h
    · omega
    · exact hstops

theorem scanDown_le : scanDown p i ≤ i := by
  induction i with
  | zero => exact le_rfl
  | succ i ih =>
    rw [scanDown]
    split
    · omega
    · exact le_rfl

theorem of_scanDown_lt (hj : scanDown p i < j) (hi : j ≤ i) : p j = true := by
  induction i with
  | zero => omega
  | succ i ih =>
    rw [scanDown] at hj
    split at hj
    · next hp =>
      obtain rfl | hlt := eq_or_lt_of_le hi
      · exact hp
      · exact ih hj (by omega)
    · omega

theorem scanDown_stops (h : 0 < scanDown p i) : p (scanDown p i) = false := by
  induction i with
  | zero => cases h
  | succ i ih =>
    rw [scanDown] at h ⊢
    split at h
    · next hp =>
      rw [if_pos hp]
      exact ih h
    · next hp =>
      rw [if_neg hp]
      simpa using hp

theorem scanDown_eq (hi : j ≤ i) (hpassed : ∀ k, j < k → k ≤ i → p k = true)
    (hstops : 0 < j → p j = false) : scanDown p i = j := by
  obtain hlt | heq | hgt := lt_trichotomy (scanDown p i) j
  · have hpass := of_scanDown_lt hlt hi
    rw [hstops (by omega)] at hpass
    cases hpass
  · exact heq
  · have hstopped := @scanDown_stops p i (by omega)
    rw [hpassed _ hgt scanDown_le] at hstopped
    cases hstopped

theorem scanDown_eq_self_iff : scanDown p i = i ↔ (0 < i → p i = false) := by
  constructor
  · intro hstays hpos
    have hstops := @scanDown_stops p i
    rw [hstays] at hstops
    exact hstops hpos
  · intro hstops
    apply scanDown_eq (le_refl i)
    · omega
    · exact hstops

theorem mem_places : j ∈ places p stop i ↔ i ≤ j ∧ j < stop ∧ p j = true := by
  rw [places, mem_filter, mem_range'_1]
  constructor
  · rintro ⟨⟨hi, hj⟩, hp⟩
    exact ⟨hi, by omega, hp⟩
  · rintro ⟨hi, hj, hp⟩
    exact ⟨⟨hi, by omega⟩, hp⟩

theorem places_cons (hi : i < stop) (h : p i = true) : places p stop i = i :: places p stop (i + 1) := by
  have hcount : stop - i = stop - (i + 1) + 1 := by omega
  rw [places, hcount, range'_succ, filter_cons_of_pos h]
  rfl

theorem places_skip (hi : i ≤ j) (hj : j ≤ stop) (h : ∀ k, i ≤ k → k < j → p k = false) :
    places p stop i = places p stop j := by
  have hcount : stop - i = (j - i) + (stop - j) := by omega
  have hjoin : i + (j - i) = j := by omega
  rw [places, hcount, ← range'_append_1, filter_append, hjoin, filter_eq_nil_iff.mpr]
  · rfl
  · intro k hk
    rw [mem_range'_1] at hk
    rw [h k hk.1 (by omega)]
    exact Bool.false_ne_true

theorem steps_rule {α : Type} {step : α → Option α} {P : α → Prop}
    (hstep : ∀ a b, P a → step a = some b → P b) (n : Nat) {a : α} (ha : P a) : P (steps step n a) := by
  induction n generalizing a with
  | zero => exact ha
  | succ n ih =>
    rw [steps]
    split
    · exact ha
    · next b hb => exact ih (hstep a b ha hb)

theorem foldlM_rule {α : Type} {step : α → Option α} {P : α → Prop} (hstep : ∀ a b, step a = some b → P b)
    (count : Nat) {a b : α} (ha : P a) (h : (range count).foldlM (fun a _ => step a) a = some b) : P b := by
  generalize range count = rounds at h
  induction rounds generalizing a with
  | nil =>
    cases h
    exact ha
  | cons round rounds ih =>
    obtain ⟨next, hnext, hrest⟩ := Option.bind_eq_some_iff.mp h
    exact ih (hstep a next hnext) hrest

end Lector.Scanning

/-! Rows of items that have a label each and are linked to the one before or not: the longest runs of one label. -/
namespace Lector.Runs
open Scanning

variable {κ : Type} (label : Nat → κ) (linked : Nat → Bool) (size : Nat)

/-- The run of an item does not go on before it. -/
def StartsRun (i : Nat) : Prop := 0 < i → ¬ (label (i - 1) = label i ∧ linked i = true)

/-- The run of an item does not go on after it. -/
def EndsRun (i : Nat) : Prop := i + 1 < size → ¬ (label (i + 1) = label i ∧ linked (i + 1) = true)

structure IsRun (first last : Nat) : Prop where
  le : first ≤ last
  lt : last < size
  inside : ∀ i, first < i → i ≤ last → label i = label first ∧ linked i = true
  starts : StartsRun label linked first
  ends : EndsRun label linked size last

variable {label linked size} {first last i : Nat}

theorem IsRun.label_eq (h : IsRun label linked size first last) (hfirst : first ≤ i) (hlast : i ≤ last) :
    label i = label first := by
  obtain rfl | hlt := eq_or_lt_of_le hfirst
  · rfl
  · exact (h.inside i hlt hlast).1

variable [DecidableEq κ]

theorem IsRun.scanDown_eq (h : IsRun label linked size first last) (hfirst : first ≤ i) (hlast : i ≤ last) :
    scanDown (fun k => label (k - 1) == label first && linked k) i = first := by
  apply Scanning.scanDown_eq hfirst
  · intro k hk hki
    obtain ⟨-, hlinked⟩ := h.inside k hk (hki.trans hlast)
    have hlabel := @IsRun.label_eq _ _ _ _ _ _ (k - 1) h (by omega) (by omega)
    simp [hlabel, hlinked]
  · intro hpos
    have hstarts := h.starts hpos
    simpa using hstarts

theorem IsRun.scanUp_eq (h : IsRun label linked size first last) (hfirst : first ≤ i) (hlast : i ≤ last) :
    scanUp (fun k => label (k + 1) == label first && linked (k + 1)) (size - 1) i = last := by
  have hlt := h.lt
  apply Scanning.scanUp_eq hlast (by omega)
  · intro k hik hk
    obtain ⟨hlabel, hlinked⟩ := h.inside (k + 1) (by omega) (by omega)
    simp [hlabel, hlinked]
  · intro hmore
    have hends := h.ends (by omega)
    rw [h.label_eq h.le (le_refl last)] at hends
    simpa using hends

end Lector.Runs

/-! The scan for the mate of a bracket, which counts what is open, and the balance of what it passes. -/
namespace Lector.Nesting
open List

variable {α : Type} (opens closes : α → Bool)

/-- The first item that closes what is not open among the items before it; `depth` are open at the start. -/
def findMate : Nat → List α → Option α
  | _, [] => none
  | depth, item :: rest =>
    if opens item then findMate (depth + 1) rest
    else if closes item then if depth = 0 then some item else findMate (depth - 1) rest
    else findMate depth rest

/-- Nothing closes what is not open, and all that is open is closed, when `depth` are open at the start. -/
structure BalancedFrom (depth : Nat) (items : List α) : Prop where
  never : ∀ before, before <+: items → before.countP closes ≤ depth + before.countP opens
  even : items.countP closes = depth + items.countP opens

abbrev Balanced (items : List α) : Prop := BalancedFrom opens closes 0 items

variable {opens closes} {depth : Nat} {item mate : α} {items : List α}

theorem mem_of_findMate (h : findMate opens closes depth items = some mate) : mate ∈ items := by
  induction items generalizing depth with
  | nil => cases h
  | cons item rest ih =>
    rw [findMate] at h
    split at h
    · exact mem_cons_of_mem _ (ih h)
    · split at h
      · split at h
        · cases h
          exact mem_cons_self
        · exact mem_cons_of_mem _ (ih h)
      · exact mem_cons_of_mem _ (ih h)

theorem balancedFrom_cons {next : Nat}
    (hitem : next + (if closes item then 1 else 0) = depth + if opens item then 1 else 0) :
    BalancedFrom opens closes depth (item :: items) ↔ BalancedFrom opens closes next items := by
  constructor
  · intro h
    constructor
    · intro before hbefore
      have hall := h.never (item :: before) (prefix_cons_inj item |>.mpr hbefore)
      rw [countP_cons, countP_cons] at hall
      omega
    · have hall := h.even
      rw [countP_cons, countP_cons] at hall
      omega
  · intro h
    constructor
    · intro before hbefore
      obtain rfl | ⟨rest, rfl, hrest⟩ := prefix_cons_iff.mp hbefore
      · simp
      · have hall := h.never rest hrest
        rw [countP_cons, countP_cons]
        omega
    · have hall := h.even
      rw [countP_cons, countP_cons]
      omega

/-- The item closes what is open after balanced items. -/
def IsMate (opens closes : α → Bool) (depth : Nat) (items : List α) (mate : α) : Prop :=
  closes mate = true ∧ ∃ between after, items = between ++ mate :: after ∧ BalancedFrom opens closes depth between

theorem isMate_cons (next : Nat)
    (hitem : next + (if closes item then 1 else 0) = depth + if opens item then 1 else 0)
    (hpassed : closes item = true → depth ≠ 0) :
    IsMate opens closes depth (item :: items) mate ↔ IsMate opens closes next items mate := by
  constructor
  · rintro ⟨hmate, between, after, hsplit, hbalanced⟩
    cases between with
    | nil =>
      obtain ⟨rfl, -⟩ := cons.inj hsplit
      have heven := hbalanced.even
      exact absurd heven.symm (hpassed hmate)
    | cons first between =>
      obtain ⟨rfl, hrest⟩ := cons.inj hsplit
      exact ⟨hmate, between, after, hrest, (balancedFrom_cons hitem).mp hbalanced⟩
  · rintro ⟨hmate, between, after, rfl, hbalanced⟩
    exact ⟨hmate, item :: between, after, rfl, (balancedFrom_cons hitem).mpr hbalanced⟩

/-- **The scan finds the item that closes what is open after balanced items.** -/
theorem findMate_eq_some_iff (disjoint : ∀ item, opens item = true → closes item = false) :
    findMate opens closes depth items = some mate ↔ IsMate opens closes depth items mate := by
  induction items generalizing depth with
  | nil => simp [findMate, IsMate]
  | cons item rest ih =>
    rw [findMate]
    split
    · next hopens =>
      have hcloses := disjoint item hopens
      rw [ih, isMate_cons (depth + 1) (by simp [hopens, hcloses]) (by simp [hcloses])]
    · next hopens =>
      split
      · next hcloses =>
        split
        · next hzero =>
          subst hzero
          constructor
          · rintro ⟨⟩
            exact ⟨hcloses, [], rest, rfl, ⟨by simp, rfl⟩⟩
          · rintro ⟨-, between, after, hsplit, hbalanced⟩
            cases between with
            | nil => rw [(cons.inj hsplit).1]
            | cons first between =>
              obtain ⟨rfl, -⟩ := cons.inj hsplit
              have hnever := hbalanced.never [item] ⟨between, rfl⟩
              simp [hopens, hcloses] at hnever
        · next hpos =>
          have hnext : depth - 1 + 1 = depth := by omega
          rw [ih, isMate_cons (depth - 1) (by simp [hopens, hcloses, hnext]) fun _ => hpos]
      · next hcloses => rw [ih, isMate_cons depth (by simp [hopens, hcloses]) (by simp [hcloses])]

/-- **Backwards, what opens closes and what closes opens.** -/
theorem Balanced.reverse (h : Balanced opens closes items) : Balanced closes opens items.reverse := by
  constructor
  · intro before hbefore
    obtain ⟨after, hsplit⟩ := hbefore
    have hitems : items = after.reverse ++ before.reverse := by
      rw [← reverse_append, hsplit, reverse_reverse]
    have hnever := h.never after.reverse ⟨before.reverse, hitems.symm⟩
    have heven := h.even
    rw [hitems, countP_append, countP_append] at heven
    simp only [countP_reverse] at *
    omega
  · have heven := h.even
    rw [countP_reverse, countP_reverse]
    omega

end Lector.Nesting
