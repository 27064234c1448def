import Mathlib.Data.List.Nodup
import Mathlib.Data.List.Perm.Basic
import Mathlib.Data.List.Range

/-! Things that are made one after the other and held by containers. A container that only grows drops
none of them, and what it gains has just been made. -/
namespace Lector.Ownership
open List

variable {α : Type} {nth : Nat → α} {issued issued' issued'' : Nat} {held held' held'' more : List α}

def made (nth : Nat → α) (issued issued' : Nat) : List α := (List.range' issued (issued' - issued)).map nth

theorem made_succ : made nth issued (issued + 1) = [nth issued] := by simp [made]

theorem made_append (h : issued ≤ issued') (h' : issued' ≤ issued'') :
    made nth issued issued' ++ made nth issued' issued'' = made nth issued issued'' := by
  have hmiddle : issued + 1 * (issued' - issued) = issued' := by omega
  have htotal : issued' - issued + (issued'' - issued') = issued'' - issued := by omega
  have hrange := @range'_append issued (issued' - issued) (issued'' - issued') 1
  rw [hmiddle, htotal] at hrange
  rw [made, made, made, ← map_append, hrange]

theorem mem_made {x : α} (h : x ∈ made nth issued issued') : ∃ k, issued ≤ k ∧ k < issued' ∧ nth k = x := by
  obtain ⟨k, hk, hx⟩ := mem_map.mp h
  rw [mem_range'_1] at hk
  exact ⟨k, hk.1, by omega, hx⟩

/-! ## Growing -/

/-- Nothing is dropped, and what is gained was made in the meantime. -/
structure Extends (nth : Nat → α) (issued : Nat) (held : List α) (issued' : Nat) (held' : List α) : Prop where
  later : issued ≤ issued'
  gained : ∃ fresh : List α, fresh.Sublist (made nth issued issued') ∧ held'.Perm (held ++ fresh)

namespace Extends

theorem of_perm (h : held'.Perm held) : Extends nth issued held issued held' where
  later := le_refl issued
  gained := ⟨[], nil_sublist _, by rw [append_nil]; exact h⟩

theorem refl : Extends nth issued held issued held := of_perm (.refl held)

theorem make : Extends nth issued held (issued + 1) (nth issued :: held) where
  later := Nat.le_succ issued
  gained := by
    refine ⟨[nth issued], ?_, (perm_append_singleton (nth issued) held).symm⟩
    rw [made_succ]

theorem lose (h : issued ≤ issued') : Extends nth issued held issued' held where
  later := h
  gained := ⟨[], nil_sublist _, by rw [append_nil]⟩

section

variable (h : Extends nth issued held issued' held')
include h

theorem trans (h' : Extends nth issued' held' issued'' held'') : Extends nth issued held issued'' held'' where
  later := le_trans h.later h'.later
  gained := by
    obtain ⟨fresh, hfresh, hperm⟩ := h.gained
    obtain ⟨fresh', hfresh', hperm'⟩ := h'.gained
    refine ⟨fresh ++ fresh', ?_, ?_⟩
    · rw [← made_append h.later h'.later]
      exact hfresh.append hfresh'
    · rw [← append_assoc]
      exact hperm'.trans (hperm.append_right fresh')

theorem append_left (more : List α) : Extends nth issued (more ++ held) issued' (more ++ held') where
  later := h.later
  gained := by
    obtain ⟨fresh, hfresh, hperm⟩ := h.gained
    refine ⟨fresh, hfresh, ?_⟩
    rw [append_assoc]
    exact hperm.append_left more

theorem append_right (more : List α) : Extends nth issued (held ++ more) issued' (held' ++ more) :=
  (of_perm perm_append_comm).trans ((h.append_left more).trans (of_perm perm_append_comm))

theorem mem {x : α} (hx : x ∈ held) : x ∈ held' := by
  obtain ⟨fresh, -, hperm⟩ := h.gained
  exact hperm.mem_iff.mpr (mem_append_left _ hx)

end

end Extends

/-! ## Issued -/

structure Issued (nth : Nat → α) (issued : Nat) (held : List α) : Prop where
  nodup : held.Nodup
  made : ∀ x ∈ held, ∃ k < issued, nth k = x

namespace Issued

theorem sublist (h : Issued nth issued held) (hsub : held'.Sublist held) : Issued nth issued held' where
  nodup := h.nodup.sublist hsub
  made := fun x hx => h.made x (hsub.subset hx)

theorem extend (h : Issued nth issued held) (hnth : Function.Injective nth)
    (hext : Extends nth issued held issued' held') : Issued nth issued' held' := by
  obtain ⟨fresh, hfresh, hperm⟩ := hext.gained
  have hmade : (Ownership.made nth issued issued').Nodup := Nodup.map hnth (nodup_range' 1)
  have hnodup : (held ++ fresh).Nodup := by
    refine Nodup.append h.nodup (hmade.sublist hfresh) ?_
    intro x hheld hx
    obtain ⟨k, hk, rfl⟩ := h.made x hheld
    obtain ⟨k', hlow, -, hsame⟩ := mem_made (hfresh.subset hx)
    have hkk := hnth hsame
    omega
  refine ⟨hperm.nodup_iff.mpr hnodup, ?_⟩
  intro x hx
  rcases mem_append.mp (hperm.mem_iff.mp hx) with hheld | hnew
  · obtain ⟨k, hk, hx⟩ := h.made x hheld
    exact ⟨k, lt_of_lt_of_le hk hext.later, hx⟩
  · obtain ⟨k, -, hk, hx⟩ := mem_made (hfresh.subset hnew)
    exact ⟨k, hk, hx⟩

end Issued

end Lector.Ownership
