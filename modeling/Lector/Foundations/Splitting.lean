import Mathlib.Data.List.DropRight
import Mathlib.Algebra.Order.Ring.Nat

/-! Lists split at separators: the pieces of a trimmed list, pieces by the positions of the separators, and two
ways to number the pieces. -/
namespace Lector.Splitting
open List Option

/-! ## Trimmed pieces -/

section Pieces

variable {α : Type} (separator blank : α → Bool)

def trim (items : List α) : List α := (items.dropWhile blank).rdropWhile blank

/-- A piece between separators, nothing where there are not as many. -/
def piece (items : List α) (n : Nat) : List α := ((items.splitOnP separator)[n]?).getD []

variable {separator blank} {items before after : List α} {n : Nat}

theorem trim_eq_nil : trim blank items = [] ↔ ∀ x ∈ items, blank x = true := by
  rw [trim, rdropWhile_eq_nil_iff]
  constructor
  · intro h
    have hnil : items.dropWhile blank = [] := by
      by_contra hne
      have hhead := head_dropWhile_not blank hne
      rw [h _ (head_mem hne)] at hhead
      cases hhead
    exact dropWhile_eq_nil_iff.mp hnil
  · intro h
    rw [dropWhile_eq_nil_iff.mpr h]
    simp

theorem trim_append (h : ∀ x ∈ after, blank x = true) : trim blank (items ++ after) = trim blank items := by
  rw [trim, trim, dropWhile_append]
  split
  · next hnil => rw [dropWhile_eq_nil_iff.mpr h, isEmpty_iff.mp hnil]
  · induction after using reverseRecOn with
    | nil => rw [append_nil]
    | append_singleton after x ih =>
      rw [← append_assoc, rdropWhile_concat_pos _ _ _ (h x (by simp))]
      exact ih fun y hy => h y (mem_append_left _ hy)

theorem trim_prepend (h : ∀ x ∈ before, blank x = true) : trim blank (before ++ items) = trim blank items := by
  rw [trim, trim, dropWhile_append_of_pos h]

theorem exists_trimmed (blank : α → Bool) (items : List α) : ∃ before after : List α,
    (∀ x ∈ before, blank x = true) ∧ (∀ x ∈ after, blank x = true) ∧ items = before ++ trim blank items ++ after := by
  refine ⟨items.takeWhile blank, (items.dropWhile blank).rtakeWhile blank, ?_, ?_, ?_⟩
  · intro x hx
    exact mem_takeWhile_imp hx
  · intro x hx
    exact mem_rtakeWhile_imp hx
  · rw [trim, append_assoc, rdropWhile_append_rtakeWhile, takeWhile_append_dropWhile]

theorem splitOnP_prepend (h : ∀ x ∈ before, separator x = false) :
    (before ++ items).splitOnP separator = (items.splitOnP separator).modifyHead (before ++ ·) := by
  induction before with
  | nil => cases hpieces : items.splitOnP separator <;> simp [hpieces]
  | cons x before ih =>
    obtain ⟨hx, hbefore⟩ := forall_mem_cons.mp h
    rw [cons_append, splitOnP_cons_eq_if_modifyHead, if_neg (by simp [hx]), ih hbefore, modifyHead_modifyHead]
    rfl

theorem splitOnP_append (h : ∀ x ∈ after, separator x = false) : ∃ init last,
    items.splitOnP separator = init ++ [last] ∧ (items ++ after).splitOnP separator = init ++ [last ++ after] := by
  induction items with
  | nil => exact ⟨[], [], by simp, by simpa using splitOnP_eq_singleton h⟩
  | cons x items ih =>
    obtain ⟨init, last, hpieces, hlonger⟩ := ih
    rw [cons_append, splitOnP_cons_eq_if_modifyHead, splitOnP_cons_eq_if_modifyHead, hpieces, hlonger]
    split
    · exact ⟨[] :: init, last, rfl, rfl⟩
    · cases init with
      | nil => exact ⟨[], x :: last, rfl, rfl⟩
      | cons first init => exact ⟨(x :: first) :: init, last, rfl, rfl⟩

theorem trim_piece_prepend (hblank : ∀ x ∈ before, blank x = true) (h : ∀ x ∈ before, separator x = false) :
    trim blank (piece separator (before ++ items) n) = trim blank (piece separator items n) := by
  rw [piece, piece, splitOnP_prepend h]
  obtain ⟨first, rest, hpieces⟩ := exists_cons_of_ne_nil (splitOnP_ne_nil separator items)
  rw [hpieces]
  cases n with
  | zero => exact trim_prepend hblank
  | succ n => rfl

theorem trim_piece_append (hblank : ∀ x ∈ after, blank x = true) (h : ∀ x ∈ after, separator x = false) :
    trim blank (piece separator (items ++ after) n) = trim blank (piece separator items n) := by
  obtain ⟨init, last, hpieces, hlonger⟩ := @splitOnP_append α separator items after h
  rw [piece, piece, hpieces, hlonger]
  obtain hlt | heq | hgt := lt_trichotomy n init.length
  · rw [getElem?_append_left hlt, getElem?_append_left hlt]
  · subst heq
    simpa using trim_append hblank
  · rw [getElem?_eq_none (by simp; omega), getElem?_eq_none (by simp; omega)]

section

variable (h : ∀ x, separator x = true → blank x = false)
include h

/-- **Trimming a list trims its pieces only.** -/
theorem trim_piece_trim :
    trim blank (piece separator (trim blank items) n) = trim blank (piece separator items n) := by
  have hsolid : ∀ {l : List α}, (∀ x ∈ l, blank x = true) → ∀ x ∈ l, separator x = false := by
    intro l hl x hx
    by_contra hsep
    have hnot := h x (Bool.not_eq_false _ ▸ hsep)
    rw [hl x hx] at hnot
    cases hnot
  obtain ⟨before, after, hbefore, hafter, hitems⟩ := exists_trimmed blank items
  conv_rhs => rw [hitems]
  rw [trim_piece_append hafter (hsolid hafter), trim_piece_prepend hbefore (hsolid hbefore)]

theorem exists_mem_trim : (∃ x ∈ trim blank items, separator x = true) ↔ ∃ x ∈ items, separator x = true := by
  obtain ⟨before, after, hbefore, hafter, hitems⟩ := exists_trimmed blank items
  constructor
  · rintro ⟨x, hx, hsep⟩
    refine ⟨x, ?_, hsep⟩
    rw [hitems]
    simp [hx]
  · rintro ⟨x, hx, hsep⟩
    refine ⟨x, ?_, hsep⟩
    have hsolid := h x hsep
    rw [hitems, mem_append, mem_append] at hx
    obtain (hx | hx) | hx := hx
    · rw [hbefore x hx] at hsolid
      cases hsolid
    · exact hx
    · rw [hafter x hx] at hsolid
      cases hsolid

theorem head_trim : (trim blank items).head?.any separator = true ↔
      (∃ x ∈ items, separator x = true) ∧ trim blank (piece separator items 0) = [] := by
  rw [← trim_piece_trim h]
  have hfirst : ∀ x ∈ (trim blank items).head?, blank x = false := by
    intro x hx
    by_contra hblank
    rw [Bool.not_eq_false] at hblank
    have hprefix := rdropWhile_prefix blank (items.dropWhile blank)
    cases hdrop : items.dropWhile blank with
    | nil =>
      rw [trim, hdrop] at hx
      simp at hx
    | cons y rest =>
      have hy := head_dropWhile_not blank (l := items) (by simp [hdrop])
      simp only [hdrop, head_cons] at hy
      cases htrim : trim blank items with
      | nil =>
        rw [htrim] at hx
        cases hx
      | cons z more =>
        rw [htrim] at hx
        cases hx
        rw [trim] at htrim
        rw [htrim, hdrop] at hprefix
        obtain rfl := (cons_prefix_cons.mp hprefix).1
        rw [hblank] at hy
        cases hy
  rw [← exists_mem_trim h]
  generalize trim blank items = trimmed at hfirst ⊢
  cases trimmed with
  | nil => simp
  | cons x rest =>
    have hx := hfirst x rfl
    cases hsep : separator x with
    | true => simp [piece, splitOnP_cons_eq_if_modifyHead, hsep, trim]
    | false =>
      obtain ⟨first, more, hpieces⟩ := exists_cons_of_ne_nil (splitOnP_ne_nil separator rest)
      have hne : trim blank (piece separator (x :: rest) 0) ≠ [] := by
        rw [piece, splitOnP_cons_eq_if_modifyHead, if_neg (by simp [hsep]), hpieces]
        intro hnil
        have hall := trim_eq_nil.mp hnil x (by simp)
        rw [hx] at hall
        cases hall
      simp [hsep, hne]

end

theorem splitOnP_flatMap {β : Type} {p : β → Bool} {write : β → List α} {pieces : List β}
    (hseparator : ∀ y ∈ pieces, p y = true → ∃ x, write y = [x] ∧ separator x = true)
    (hother : ∀ y ∈ pieces, p y = false → ∀ x ∈ write y, separator x = false) :
    (pieces.flatMap write).splitOnP separator = (pieces.splitOnP p).map (·.flatMap write) := by
  induction pieces with
  | nil => rfl
  | cons y pieces ih =>
    obtain ⟨hy, hseparator⟩ := forall_mem_cons.mp hseparator
    obtain ⟨hy', hother⟩ := forall_mem_cons.mp hother
    have hrest := ih hseparator hother
    rw [flatMap_cons, splitOnP_cons_eq_if_modifyHead]
    cases hp : p y with
    | true =>
      obtain ⟨x, hwrite, hx⟩ := hy hp
      rw [hwrite, singleton_append, splitOnP_cons_eq_if_modifyHead, if_pos hx, hrest]
      rfl
    | false =>
      rw [splitOnP_prepend (hy' hp), hrest]
      cases pieces.splitOnP p <;> rfl

end Pieces

/-! ## Pieces by positions -/

section Spans

variable {α : Type} {p : α → Bool}

/-- The spans between separators that are not empty, each with the number of separators before it.
-/
def spans (last : Nat) : Nat → Nat → List Nat → List (Nat × Nat × Nat)
  | start, number, [] => if start ≤ last then [(number, start, last)] else []
  | start, number, position :: rest =>
    (if start < position then [(number, start, position - 1)] else []) ++ spans last (position + 1) (number + 1) rest

variable (p) in
/-- The positions of the separators among the items from `start` on. -/
inductive Cut : Nat → List Nat → List α → Prop
  | nil (start : Nat) : Cut start [] []
  | separator {start : Nat} {positions : List Nat} {x : α} {items : List α} (hx : p x = true)
      (rest : Cut (start + 1) positions items) : Cut start (start :: positions) (x :: items)
  | other {start : Nat} {positions : List Nat} {x : α} {items : List α} (hx : p x = false)
      (rest : Cut (start + 1) positions items) : Cut start positions (x :: items)

variable {start number last width : Nat} {positions : List Nat} {items current : List α}

theorem cut_filter (h : items.length ≤ width) :
    Cut p start ((range' start width).filter fun place => (items[place - start]?).any p) items := by
  induction items generalizing start width with
  | nil =>
    simp
    exact .nil start
  | cons x items ih =>
    obtain ⟨width, rfl⟩ : ∃ rest, width = rest + 1 := ⟨width - 1, by simp at h; omega⟩
    have hrest : ((range' (start + 1) width).filter fun place => ((x :: items)[place - start]?).any p) =
        (range' (start + 1) width).filter fun place => (items[place - (start + 1)]?).any p := by
      apply filter_congr
      intro place hplace
      obtain ⟨hlow, -⟩ := mem_range'_1.mp hplace
      obtain ⟨k, rfl⟩ : ∃ k, place = start + 1 + k := ⟨place - (start + 1), by omega⟩
      rw [show start + 1 + k - start = k + 1 by omega, show start + 1 + k - (start + 1) = k by omega,
        getElem?_cons_succ]
    have hcut := @ih (start + 1) width (by simpa using h)
    rw [range'_succ, filter_cons, hrest]
    cases hx : p x with
    | true =>
      simp only [Nat.sub_self, getElem?_cons_zero, any_some, hx]
      exact .separator hx hcut
    | false =>
      simp only [Nat.sub_self, getElem?_cons_zero, any_some, hx]
      exact .other hx hcut

theorem Cut.le (h : Cut p start positions items) : ∀ position ∈ positions, start ≤ position := by
  induction h with
  | nil => simp
  | separator _ _ ih =>
    intro position hposition
    obtain rfl | hmem := mem_cons.mp hposition
    · exact le_rfl
    · exact (Nat.le_succ _).trans (ih position hmem)
  | other _ _ ih => exact fun position hposition => (Nat.le_succ _).trans (ih position hposition)

def slice (items : List α) (start : Nat) (span : Nat × Nat × Nat) : List α :=
  (items.drop (span.2.1 - start)).take (span.2.2 + 1 - span.2.1)

theorem slice_tail {x : α} {first : Nat} {span : Nat × Nat × Nat} (hstart : start + current.length = first)
    (h : first + 1 ≤ span.2.1) : slice (current ++ x :: items) start span = slice items (first + 1) span := by
  have hdrop : span.2.1 - start = current.length + (span.2.1 - (first + 1) + 1) := by omega
  rw [slice, slice, hdrop, drop_length_add_append, drop_succ_cons]

/-- **A span has the items of the piece of its number**, which is that of the separators before it. The items of
the piece that the span begins with may have been read already. -/
theorem Cut.span (h : Cut p start positions items) : ∀ {begin number : Nat} {current : List α},
    (∀ x ∈ current, p x = false) → begin + current.length = start → start + items.length ≤ last + 1 →
    ∀ span ∈ spans last begin number positions, ∃ m, span.1 = number + m ∧ begin ≤ span.2.1 ∧
      ((current ++ items).splitOnP p)[m]? = some (slice (current ++ items) begin span) ∧
      (positions.filter (· < span.2.1)).length = m := by
  induction h with
  | nil start =>
    intro begin number current hcurrent hbegin hlast span hspan
    rw [spans] at hspan
    split at hspan
    · obtain rfl := mem_singleton.mp hspan
      refine ⟨0, rfl, le_rfl, ?_, rfl⟩
      rw [append_nil, splitOnP_eq_singleton hcurrent, getElem?_cons_zero, slice]
      dsimp only
      rw [Nat.sub_self, drop_zero, take_of_length_le (by simp at hlast; omega)]
    · cases hspan
  | @other start positions x items hx rest ih =>
    intro begin number current hcurrent hbegin hlast span hspan
    have hnext := @ih begin number (current ++ [x])
      (by simpa [or_imp, forall_and] using ⟨hcurrent, hx⟩) (by simp; omega) (by simp at hlast; omega) span hspan
    rwa [append_assoc, singleton_append] at hnext
  | @separator start positions x items hx rest ih =>
    intro begin number current hcurrent hbegin hlast span hspan
    have hpieces := splitOnP_append_cons_of_forall_mem hcurrent x hx items
    rw [spans, mem_append] at hspan
    obtain hspan | hspan := hspan
    · split at hspan
      · obtain rfl := mem_singleton.mp hspan
        refine ⟨0, rfl, le_rfl, ?_, ?_⟩
        · rw [hpieces, getElem?_cons_zero, slice]
          rw [Nat.sub_self, drop_zero, show start - 1 + 1 - begin = current.length by omega, take_left]
        · rw [length_eq_zero_iff, filter_eq_nil_iff]
          intro position hposition
          have hle := (Cut.separator hx rest).le position hposition
          simp
          omega
      · cases hspan
    · obtain ⟨m, hnumber, hbegins, hpiece, hcount⟩ :=
        @ih (start + 1) (number + 1) [] (by simp) rfl (by simp at hlast; omega) span hspan
      refine ⟨m + 1, by omega, by omega, ?_, ?_⟩
      · rw [hpieces, slice_tail hbegin hbegins]
        exact hpiece
      · rw [filter_cons, if_pos (by simp; omega), length_cons, hcount]

theorem Cut.exists_span (h : Cut p start positions items) : ∀ {begin number : Nat} {current : List α},
    (∀ x ∈ current, p x = false) → begin + current.length = start → start + items.length ≤ last + 1 →
    ∀ m piece, ((current ++ items).splitOnP p)[m]? = some piece → piece ≠ [] →
      ∃ span ∈ spans last begin number positions, span.1 = number + m := by
  induction h with
  | nil start =>
    intro begin number current hcurrent hbegin hlast m piece hpiece hne
    rw [append_nil, splitOnP_eq_singleton hcurrent] at hpiece
    obtain ⟨rfl, rfl⟩ : m = 0 ∧ piece = current := by
      cases m with
      | zero => exact ⟨rfl, (some.inj hpiece).symm⟩
      | succ m => cases hpiece
    have hlen := length_pos_iff.mpr hne
    refine ⟨(number, begin, last), ?_, rfl⟩
    rw [spans, if_pos (by omega)]
    exact mem_singleton_self _
  | @other start positions x items hx rest ih =>
    intro begin number current hcurrent hbegin hlast m piece hpiece hne
    refine @ih begin number (current ++ [x]) (by simpa [or_imp, forall_and] using ⟨hcurrent, hx⟩)
      (by simp; omega) (by simp at hlast; omega) m piece ?_ hne
    rwa [append_assoc, singleton_append]
  | @separator start positions x items hx rest ih =>
    intro begin number current hcurrent hbegin hlast m piece hpiece hne
    rw [splitOnP_append_cons_of_forall_mem hcurrent x hx items] at hpiece
    cases m with
    | zero =>
      cases hpiece
      have hlen := length_pos_iff.mpr hne
      refine ⟨(number, begin, start - 1), mem_append_left _ ?_, rfl⟩
      rw [if_pos (by omega)]
      exact mem_singleton_self _
    | succ m =>
      obtain ⟨span, hspan, hnumber⟩ :=
        @ih (start + 1) (number + 1) [] (by simp) rfl (by simp at hlast; omega) m piece hpiece hne
      exact ⟨span, mem_append_right _ hspan, by omega⟩

theorem spans_bounds {last : Nat} (positions : List Nat) (h : ∀ position ∈ positions, position ≤ last) :
    ∀ begin number : Nat, ∀ span ∈ spans last begin number positions,
      span.2.1 ≤ span.2.2 ∧ span.2.2 ≤ last := by
  induction positions with
  | nil =>
    intro begin number span hspan
    rw [spans] at hspan
    split at hspan
    · obtain rfl := mem_singleton.mp hspan
      exact ⟨‹begin ≤ last›, le_rfl⟩
    · cases hspan
  | cons position rest ih =>
    intro begin number span hspan
    obtain ⟨hposition, hrest⟩ := forall_mem_cons.mp h
    rw [spans, mem_append] at hspan
    obtain hspan | hspan := hspan
    · split at hspan
      · obtain rfl := mem_singleton.mp hspan
        dsimp only
        omega
      · cases hspan
    · exact ih hrest _ _ span hspan

theorem spans_sorted (last : Nat) (positions : List Nat) : ∀ begin number : Nat,
    (spans last begin number positions).Pairwise (fun a b => a.1 < b.1) ∧
      ∀ span ∈ spans last begin number positions, number ≤ span.1 := by
  induction positions with
  | nil =>
    intro begin number
    rw [spans]
    split <;> simp
  | cons position rest ih =>
    intro begin number
    obtain ⟨hsorted, hlow⟩ := ih (position + 1) (number + 1)
    rw [spans]
    split
    · rw [singleton_append, pairwise_cons]
      refine ⟨⟨fun span hspan => hlow span hspan, hsorted⟩, ?_⟩
      intro span hspan
      obtain rfl | hmem := mem_cons.mp hspan
      · exact le_rfl
      · exact (Nat.le_succ _).trans (hlow span hmem)
    · exact ⟨hsorted, fun span hspan => (Nat.le_succ _).trans (hlow span hspan)⟩

end Spans

/-! ## Two ways to number -/

section Numbers

variable {β : Type} {text : Nat → β} {empty : β} {numbers : List Nat} {lead : Nat}

theorem sorted_gap (sorted : numbers.Pairwise (· < ·)) {k i a b : Nat} (hk : k ≤ i) (ha : numbers[k]? = some a)
    (hb : numbers[i]? = some b) : a + (i - k) ≤ b := by
  induction i generalizing b with
  | zero =>
    obtain rfl : k = 0 := by omega
    obtain rfl := some.inj (ha.symm.trans hb)
    exact le_rfl
  | succ i ih =>
    obtain rfl | hlt := eq_or_lt_of_le hk
    · obtain rfl := some.inj (ha.symm.trans hb)
      omega
    · obtain ⟨hi, rfl⟩ := List.getElem?_eq_some_iff.mp hb
      have hprevious := ih (by omega) (getElem?_eq_getElem (by omega))
      have hless := pairwise_iff_getElem.mp sorted i (i + 1) (by omega) hi (by omega)
      omega

/-- **Counting some of the pieces agrees with counting all of them**, from the first or the second on, exactly
where a piece that is counted differently is empty. The pieces that are not among the some are empty. -/
theorem counts_agree (sorted : numbers.Pairwise (· < ·)) (hlead : lead ≤ 1) (hfirst : lead = 1 → text 0 = empty)
    (covered : ∀ n, text n ≠ empty → n ∈ numbers) :
    (∀ i n : Nat, numbers[i]? = some n → text (i + lead) = text n) ↔
      ∀ i n : Nat, numbers[i]? = some n → n = i + lead ∨ text n = empty := by
  have horder : ∀ {i j a b : Nat}, numbers[i]? = some a → numbers[j]? = some b → a < b → i < j := by
    intro i j a b hi hj hab
    obtain ⟨hilt, rfl⟩ := List.getElem?_eq_some_iff.mp hi
    obtain ⟨hjlt, rfl⟩ := List.getElem?_eq_some_iff.mp hj
    by_contra hle
    obtain heq | hlt := eq_or_lt_of_le (Nat.le_of_not_lt hle)
    · subst heq
      exact lt_irrefl _ hab
    · exact lt_asymm hab (pairwise_iff_getElem.mp sorted j i hjlt hilt hlt)
  have hgap : ∀ {k i n : Nat}, k ≤ i → numbers[i]? = some n →
      ∃ m : Nat, numbers[k]? = some m ∧ k ≤ m ∧ m + (i - k) ≤ n := by
    intro k i n hk hn
    obtain ⟨hi, -⟩ := List.getElem?_eq_some_iff.mp hn
    have hm : numbers[k]? = some numbers[k] := getElem?_eq_getElem (by omega)
    have hzero := sorted_gap sorted (Nat.zero_le k) (getElem?_eq_getElem (by omega)) hm
    exact ⟨_, hm, by omega, sorted_gap sorted hk hm hn⟩
  constructor
  · intro h i n hn
    by_contra hboth
    obtain ⟨hne, htext⟩ := not_or.mp hboth
    obtain hlow | hhigh := lt_or_gt_of_ne hne
    · -- the piece is counted as the next one, and so are those before it, down to the first, which is empty
      obtain ⟨m, hm, hin, -⟩ := hgap (le_refl i) hn
      obtain rfl := some.inj (hm.symm.trans hn)
      have hone : lead = 1 := by omega
      have hempty : ∀ k, k ≤ i → text k = empty := by
        intro k
        induction k with
        | zero => exact fun _ => hfirst hone
        | succ k ih =>
          intro hk
          obtain ⟨m, hm, hlow, hhigh⟩ := hgap (show k ≤ i by omega) hn
          obtain rfl : m = k := by omega
          have hstep := h m m hm
          rw [hone] at hstep
          exact hstep.trans (ih (by omega))
      exact htext ((show m = i by omega) ▸ hempty i (le_rfl))
    · -- the piece at the place of an earlier one would have to have its text
      have hearlier : ∀ k i n : Nat, i ≤ k → numbers[i]? = some n → i + lead < n → text (i + lead) = empty := by
        intro k
        induction k with
        | zero =>
          intro i n hi hn hlt
          by_contra hne
          obtain ⟨j, hj⟩ := mem_iff_getElem?.mp (covered _ hne)
          have hji := horder hj hn hlt
          omega
        | succ k ih =>
          intro i n hi hn hlt
          by_contra hne
          obtain ⟨j, hj⟩ := mem_iff_getElem?.mp (covered _ hne)
          have hji := horder hj hn hlt
          have hprevious := ih j (i + lead) (by omega) hj (by omega)
          exact hne ((h j _ hj).symm.trans hprevious)
      exact htext ((h i n hn).symm.trans (hearlier i i n (le_rfl) hn hhigh))
  · intro h i n hn
    obtain rfl | hempty := h i n hn
    · rfl
    · rw [hempty]
      by_contra hne
      obtain ⟨j, hj⟩ := mem_iff_getElem?.mp (covered _ hne)
      obtain heq | hblank := h j _ hj
      · obtain rfl : i = j := by omega
        rw [hj] at hn
        cases hn
        exact hne hempty
      · exact hne hblank

end Numbers

end Lector.Splitting
