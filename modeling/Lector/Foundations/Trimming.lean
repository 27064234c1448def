import Mathlib.Algebra.Order.Ring.Nat
import Mathlib.Data.List.DropRight

/-! Joining pieces with the end trimmed after every piece, and when that trims no more than it should. -/
namespace Lector.Trimming
open List

variable {α : Type} (p : α → Bool)

/-- What is joined so far, trimmed after every piece. -/
def joinTrimmed (pieces : List (List α)) : List α :=
  pieces.foldl (fun text piece => (text ++ piece).rdropWhile p) []

def EndsIn (text : List α) : Prop := ∃ x ∈ text.getLast?, p x = true

variable {p} {pieces : List (List α)} {piece text : List α}

theorem joinTrimmed_concat :
    joinTrimmed p (pieces ++ [piece]) = (joinTrimmed p pieces ++ piece).rdropWhile p := by
  rw [joinTrimmed, foldl_concat]
  rfl

theorem rdropWhile_eq_self : text.rdropWhile p = text ↔ ¬ EndsIn p text := by
  induction text using reverseRecOn with
  | nil => simp [EndsIn]
  | append_singleton text x _ => simp [EndsIn]

theorem rdropWhile_dropWhile {q : α → Bool} :
    ((text.rdropWhile p).dropWhile q).rdropWhile p = (text.rdropWhile p).dropWhile q := by
  refine rdropWhile_eq_self.mpr fun ⟨x, hx, hpx⟩ =>
    rdropWhile_eq_self.mp (rdropWhile_idempotent p text) ⟨x, ?_, hpx⟩
  obtain ⟨before, hbefore⟩ := dropWhile_suffix (l := text.rdropWhile p) q
  rw [← hbefore]
  exact mem_getLast?_append_of_mem_getLast? hx

theorem rdropWhile_append_all (h : ∀ x ∈ piece, p x = true) :
    (text ++ piece).rdropWhile p = text.rdropWhile p := by
  induction piece using reverseRecOn with
  | nil => rw [append_nil]
  | append_singleton piece x ih =>
    rw [← append_assoc, rdropWhile_concat_pos _ _ _ (h x (by simp))]
    exact ih fun y hy => h y (mem_append_left _ hy)

theorem rdropWhile_append_some (h : ∃ x ∈ piece, p x = false) :
    (text ++ piece).rdropWhile p = text ++ piece.rdropWhile p := by
  induction piece using reverseRecOn with
  | nil =>
    obtain ⟨x, hx, -⟩ := h
    cases hx
  | append_singleton piece x ih =>
    rw [← append_assoc, rdropWhile_concat, rdropWhile_concat]
    split
    · next hx =>
      apply ih
      obtain ⟨y, hy, hpy⟩ := h
      obtain hy | rfl := mem_append.mp hy |>.imp_right mem_singleton.mp
      · exact ⟨y, hy, hpy⟩
      · rw [hx] at hpy
        cases hpy
    · exact append_assoc ..

theorem length_joinTrimmed_le : (joinTrimmed p pieces).length ≤ pieces.flatten.length := by
  induction pieces using reverseRecOn with
  | nil => exact le_rfl
  | append_singleton pieces piece ih =>
    rw [joinTrimmed_concat, flatten_concat, length_append]
    have hshort := ( rdropWhile_prefix p (joinTrimmed p pieces ++ piece)).length_le
    rw [length_append] at hshort
    omega

theorem joinTrimmed_not_endsIn : ¬ EndsIn p (joinTrimmed p pieces) := by
  induction pieces using reverseRecOn with
  | nil => simp [joinTrimmed, EndsIn]
  | append_singleton pieces piece _ =>
    rw [joinTrimmed_concat]
    exact rdropWhile_eq_self.mp (rdropWhile_idempotent p _)

/-- **Nothing is lost exactly when** at no cut the text up to it ends with something to trim. -/
theorem joinTrimmed_eq_flatten :
    joinTrimmed p pieces = pieces.flatten ↔ ∀ before, before <+: pieces → ¬ EndsIn p before.flatten := by
  constructor
  · intro h before hbefore
    induction pieces using reverseRecOn with
    | nil =>
      rw [prefix_nil.mp hbefore]
      exact @joinTrimmed_not_endsIn _ p []
    | append_singleton pieces piece ih =>
      rw [joinTrimmed_concat, flatten_concat] at h
      have hshort := ( rdropWhile_prefix p (joinTrimmed p pieces ++ piece)).length_le
      have hle := @length_joinTrimmed_le _ p pieces
      have hlength := congrArg length h
      rw [length_append] at hshort hlength
      have hkept := ( rdropWhile_prefix p (joinTrimmed p pieces ++ piece)).eq_of_length
        (by rw [length_append]; omega)
      rw [hkept] at h
      obtain ⟨hearlier, -⟩ := append_inj' h rfl
      obtain rfl | hbefore := prefix_concat_iff.mp hbefore
      · rw [flatten_concat, ← hearlier]
        exact rdropWhile_eq_self.mp hkept
      · exact ih hearlier hbefore
  · intro h
    induction pieces using reverseRecOn with
    | nil => rfl
    | append_singleton pieces piece ih =>
      rw [joinTrimmed_concat, ih fun before hbefore => h before (hbefore.trans (prefix_append _ _))]
      rw [rdropWhile_eq_self.mpr] <;> rw [← flatten_concat]
      exact h _ (prefix_refl _)

theorem cut_concat {before after : List (List α)} (h : before ++ after = pieces ++ [piece]) :
    (∃ more, after = more ++ [piece] ∧ before ++ more = pieces) ∨ after = [] := by
  induction after using reverseRecOn with
  | nil => exact .inr rfl
  | append_singleton more last _ =>
    rw [← append_assoc] at h
    obtain ⟨hbefore, hlast⟩ := append_inj' h rfl
    exact .inl ⟨more, by rw [singleton_inj.mp hlast], hbefore⟩

/-- **Trimming after every piece is trimming once exactly when** whatever a cut leaves to trim is followed by
nothing but the like. -/
theorem joinTrimmed_eq_rdropWhile : joinTrimmed p pieces = pieces.flatten.rdropWhile p ↔
      ∀ before after, before ++ after = pieces →
        ¬ EndsIn p before.flatten ∨ ∀ x ∈ after.flatten, p x = true := by
  induction pieces using reverseRecOn with
  | nil =>
    refine iff_of_true rfl ?_
    intro before after h
    obtain ⟨-, rfl⟩ := append_eq_nil_iff.mp h
    exact .inr (by simp)
  | append_singleton pieces piece ih =>
    rw [joinTrimmed_concat, flatten_concat]
    by_cases hall : ∀ x ∈ piece, p x = true
    · rw [rdropWhile_append_all hall, rdropWhile_append_all hall,
        rdropWhile_eq_self.mpr joinTrimmed_not_endsIn, ih]
      constructor
      · intro h before after hcut
        obtain ⟨more, rfl, hmore⟩ | rfl := cut_concat hcut
        · refine (h before more hmore).imp_right fun hblank x hx => ?_
          rw [flatten_concat] at hx
          exact (mem_append.mp hx).elim (hblank x) (hall x)
        · exact .inr (by simp)
      · intro h before after hcut
        refine (h before (after ++ [piece]) (by rw [← hcut, append_assoc])).imp_right ?_
        intro hafter x hx
        exact hafter x (by rw [flatten_concat]; exact mem_append_left _ hx)
    · have hsome : ∃ x ∈ piece, p x = false := by simpa using hall
      rw [rdropWhile_append_some hsome, rdropWhile_append_some hsome, append_left_inj, joinTrimmed_eq_flatten]
      constructor
      · intro h before after hcut
        obtain ⟨more, -, rfl⟩ | rfl := cut_concat hcut
        · exact .inl (h before (prefix_append _ _))
        · exact .inr (by simp)
      · rintro h before ⟨more, rfl⟩
        refine (h before (more ++ [piece]) (append_assoc ..).symm).resolve_right fun hblank => hall ?_
        intro x hx
        exact hblank x (by rw [flatten_concat]; exact mem_append_right _ hx)

end Lector.Trimming
