import Mathlib.Data.List.Perm.Subperm

/-! Windows on a growing sequence. Items keep their absolute index while older ones leave at the front
and newer ones arrive at the back. -/
namespace Lector
open List Option

/-- The items of a sequence from index `origin` on. -/
structure Window (α : Type) where
  origin : Nat
  items : List α

namespace Window

variable {α : Type} (w : Window α)

def stop : Nat := w.origin + w.items.length

def get? (i : Nat) : Option α := if w.origin ≤ i then w.items[i - w.origin]? else none

/-- The window moves on to `origin`, and `added` arrives at its back. -/
def slide (origin : Nat) (added : List α) : Window α := ⟨origin, w.items.drop (origin - w.origin) ++ added⟩

/-- Where both windows have an item, it is the same. -/
def Agrees (w w' : Window α) : Prop := ∀ i a b, w.get? i = some a → w'.get? i = some b → a = b

variable {i origin : Nat}

theorem get?_of_lt (h : i < w.origin) : w.get? i = none := if_neg (by omega)

theorem get?_of_le (h : w.origin ≤ i) : w.get? i = w.items[i - w.origin]? := if_pos h

theorem get?_isSome : (w.get? i).isSome ↔ w.origin ≤ i ∧ i < w.stop := by
  rw [get?, stop]
  split
  · have hlt : (w.items[i - w.origin]?).isSome ↔ i - w.origin < w.items.length := by simp
    rw [hlt]
    omega
  · constructor
    · intro h
      cases h
    · omega

theorem get?_slide_kept {added : List α} (hfrom : w.origin ≤ origin)
    (hi : origin ≤ i) (hstop : i < w.stop) : (w.slide origin added).get? i = w.get? i := by
  have hlength : i - origin < (w.items.drop (origin - w.origin)).length := by
    rw [length_drop]
    rw [stop] at hstop
    omega
  have hindex : origin - w.origin + (i - origin) = i - w.origin := by omega
  rw [get?_of_le _ hi, get?_of_le _ (by omega), slide, getElem?_append_left hlength, getElem?_drop, hindex]

theorem get?_slide_added {added : List α} (hfrom : w.origin ≤ origin)
    (hto : origin ≤ w.stop) (hi : w.stop ≤ i) : (w.slide origin added).get? i = added[i - w.stop]? := by
  have hlength : (w.items.drop (origin - w.origin)).length = w.stop - origin := by
    rw [length_drop, stop]
    omega
  have hindex : i - origin - (w.stop - origin) = i - w.stop := by omega
  have hle : (w.items.drop (origin - w.origin)).length ≤ i - origin := by omega
  rw [get?_of_le _ (Nat.le_trans hto hi), slide, getElem?_append_right hle, hlength, hindex]

theorem stop_slide (added : List α) (hfrom : w.origin ≤ origin)
    (hto : origin ≤ w.stop) : (w.slide origin added).stop = w.stop + added.length := by
  simp only [stop, slide, length_append, length_drop] at hto ⊢
  omega

variable {w}

theorem ext_get? {w' : Window α} (horigin : w.origin = w'.origin)
    (hitems : ∀ i, w.get? i = w'.get? i) : w = w' := by
  obtain ⟨origin, items⟩ := w
  obtain ⟨origin', items'⟩ := w'
  subst horigin
  have hsame : items = items' := by
    apply ext_getElem?
    intro i
    have hi := hitems (origin + i)
    rwa [get?_of_le _ (Nat.le_add_right _ _), get?_of_le _ (Nat.le_add_right _ _),
      Nat.add_sub_cancel_left] at hi
  rw [hsame]

theorem Agrees.refl : w.Agrees w := fun _ _ _ h h' => some.inj (h.symm.trans h')

theorem Agrees.of_nil {w' : Window α} (h : w.items = [] ∨ w'.items = []) : w.Agrees w' := by
  intro i a b ha hb
  rcases h with h | h
  · have hinside := w.get?_isSome.mp (isSome_iff_exists.mpr ⟨a, ha⟩)
    simp only [stop, h, length_nil] at hinside
    omega
  · have hinside := w'.get?_isSome.mp (isSome_iff_exists.mpr ⟨b, hb⟩)
    simp only [stop, h, length_nil] at hinside
    omega

/-- **A window that agrees with a later one slides onto it** with the items that are new there. -/
theorem slide_of_agrees {w' : Window α} (h : w.Agrees w') (hfrom : w.origin ≤ w'.origin)
    (hto : w'.origin ≤ w.stop) (hstop : w.stop ≤ w'.stop) :
    w.slide w'.origin (w'.items.drop (w.stop - w'.origin)) = w' := by
  refine ext_get? rfl fun i => ?_
  by_cases hbelow : i < w'.origin
  · rw [get?_of_lt (w.slide w'.origin _) hbelow, get?_of_lt w' hbelow]
  · by_cases hkept : i < w.stop
    · rw [get?_slide_kept w hfrom (by omega) hkept]
      obtain ⟨a, ha⟩ := isSome_iff_exists.mp (w.get?_isSome.mpr ⟨by omega, hkept⟩)
      obtain ⟨b, hb⟩ := isSome_iff_exists.mp (w'.get?_isSome (i := i).mpr ⟨by omega, by omega⟩)
      rw [ha, hb, h i a b ha hb]
    · have hindex : w.stop - w'.origin + (i - w.stop) = i - w'.origin := by omega
      rw [get?_slide_added w hfrom hto (by omega), get?_of_le w' (by omega), getElem?_drop, hindex]

end Window

end Lector

/-! Spans of a sequence with strictly increasing numbers: the items numbered after `a` and up to `b`. -/
namespace Lector
open List hiding max

variable {α : Type} (number : α → Nat)

def Increasing (items : List α) : Prop := items.Pairwise fun x y => number x < number y

/-- The items numbered after `a` and up to `b`. -/
def spanOf (a b : Nat) (items : List α) : List α := items.filter fun x => decide (a < number x ∧ number x ≤ b)

variable {number}

variable {a b c : Nat} {items kept : List α}

theorem mem_spanOf {x : α} : x ∈ spanOf number a b items ↔ x ∈ items ∧ a < number x ∧ number x ≤ b := by
  rw [spanOf, mem_filter, decide_eq_true_eq]

theorem spanOf_eq_nil (h : b ≤ a) (items : List α) : spanOf number a b items = [] := by
  rw [spanOf, filter_eq_nil_iff]
  intro x _ hx
  rw [decide_eq_true_eq] at hx
  omega

theorem spanOf_append (items more : List α) :
    spanOf number a b (items ++ more) = spanOf number a b items ++ spanOf number a b more :=
  filter_append ..

theorem spanOf_eq_nil_of_lt (h : ∀ x ∈ items, b < number x) : spanOf number a b items = [] := by
  rw [spanOf, filter_eq_nil_iff]
  intro x hx hspan
  have := h x hx
  rw [decide_eq_true_eq] at hspan
  omega

section

variable (h : Increasing number items)
include h

theorem Increasing.nodup : items.Nodup :=
  h.imp fun hlt heq => by
    subst heq
    exact absurd hlt (Nat.lt_irrefl _)

theorem Increasing.eq_of_number {x y : α}
    (hx : x ∈ items) (hy : y ∈ items) (hsame : number x = number y) : x = y := by
  induction items with
  | nil => exact nomatch hx
  | cons head rest ih =>
    rw [Increasing, pairwise_cons] at h
    rcases mem_cons.mp hx with rfl | hx'
    · rcases mem_cons.mp hy with rfl | hy'
      · rfl
      · have := h.1 y hy'
        omega
    · rcases mem_cons.mp hy with rfl | hy'
      · have := h.1 x hx'
        omega
      · exact ih h.2 hx' hy'

theorem Increasing.takeWhile_eq (b : Nat) : (items.takeWhile fun x => decide (number x ≤ b)) =
      items.filter fun x => decide (number x ≤ b) := by
  induction items with
  | nil => rfl
  | cons x rest ih =>
    rw [Increasing, pairwise_cons] at h
    by_cases hx : number x ≤ b
    · rw [takeWhile_cons_of_pos (by simpa using hx), filter_cons_of_pos (by simpa using hx), ih h.2]
    · have hrest : rest.filter (fun y => decide (number y ≤ b)) = [] := by
        rw [filter_eq_nil_iff]
        intro y hy
        have := h.1 y hy
        rw [decide_eq_true_eq]
        omega
      rw [takeWhile_cons_of_neg (by simpa using hx), filter_cons_of_neg (by simpa using hx), hrest]

theorem Increasing.dropWhile_eq (b : Nat) : (items.dropWhile fun x => decide (number x ≤ b)) =
      items.filter fun x => decide (b < number x) := by
  induction items with
  | nil => rfl
  | cons x rest ih =>
    rw [Increasing, pairwise_cons] at h
    by_cases hx : number x ≤ b
    · rw [dropWhile_cons_of_pos (by simpa using hx), ih h.2, filter_cons_of_neg (by simpa using hx)]
    · have hall : (x :: rest).filter (fun y => decide (b < number y)) = x :: rest := by
        rw [filter_eq_self]
        intro y hy
        rw [decide_eq_true_eq]
        rcases mem_cons.mp hy with rfl | hy'
        · omega
        · have := h.1 y hy'
          omega
      rw [dropWhile_cons_of_neg (by simpa using hx), hall]

/-- **Two spans with nothing between them** are one. -/
theorem spanOf_split (hbc : b ≤ c) :
    spanOf number a c items = spanOf number a b items ++ spanOf number (max a b) c items := by
  induction items with
  | nil => rfl
  | cons x rest ih =>
    rw [Increasing, pairwise_cons] at h
    have hrest := ih h.2
    by_cases hx : number x ≤ b
    · have hout : decide (max a b < number x ∧ number x ≤ c) = false := by
        rw [decide_eq_false_iff_not]
        omega
      have hsame : decide (a < number x ∧ number x ≤ c) = decide (a < number x ∧ number x ≤ b) := by
        rw [decide_eq_decide]
        omega
      simp only [spanOf, filter_cons, hout, hsame] at hrest ⊢
      rw [hrest]
      split
      · rfl
      · rfl
    · have hout : ∀ y ∈ x :: rest, b < number y := by
        intro y hy
        rcases mem_cons.mp hy with rfl | hy'
        · omega
        · have := h.1 y hy'
          omega
      rw [spanOf_eq_nil_of_lt hout]
      apply filter_congr
      intro y hy
      have := hout y hy
      rw [decide_eq_decide]
      omega

/-- **A sublist that has every item of a span** has the same span. -/
theorem spanOf_sublist (hsub : kept.Sublist items)
    (hall : ∀ x ∈ items, a < number x → number x ≤ b → x ∈ kept) :
    spanOf number a b kept = spanOf number a b items := by
  have hspan : (spanOf number a b kept).Sublist (spanOf number a b items) := hsub.filter _
  have hnodup : (spanOf number a b items).Nodup := h.nodup.filter _
  have hsubset : spanOf number a b items ⊆ spanOf number a b kept := by
    intro x hx
    obtain ⟨hmem, ha, hb⟩ := mem_spanOf.mp hx
    exact mem_spanOf.mpr ⟨hall x hmem ha hb, ha, hb⟩
  exact hspan.eq_of_length_le (hnodup.subperm hsubset).length_le

end

end Lector
