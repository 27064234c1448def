import Mathlib.Algebra.BigOperators.Group.List.Basic
import Mathlib.Algebra.GroupWithZero.Nat
import Std.Data.ExtTreeMap
import Std.Data.ExtTreeSet

/-! Updates of sorted maps that the standard library composes from smaller ones, and what holds of
an entry after an update. -/
namespace Lector.SortedMap
open Std Option ExtTreeMap

variable {κ α : Type} [Ord κ] [TransOrd κ] (m : ExtTreeMap κ α)

def upsert (k : κ) (fresh : α) (f : α → α) : ExtTreeMap κ α :=
  m.alter k fun old => some (f (old.getD fresh))

def retain (keep : α → Bool) : ExtTreeMap κ α := m.filter fun _ => keep

/-- The entry of `k` exists and satisfies `P`. -/
def Holds (k : κ) (P : α → Prop) : Prop := ∃ x, m[k]? = some x ∧ P x

variable {m : ExtTreeMap κ α}

theorem holds_of_some {k : κ} {x : α} (h : m[k]? = some x) (P : α → Prop) : Holds m k P ↔ P x := by
  constructor
  · rintro ⟨y, hy, hP⟩
    rw [h] at hy
    exact some.inj hy ▸ hP
  · exact fun hP => ⟨x, h, hP⟩

theorem not_holds_of_none {k : κ} (h : m[k]? = none) (P : α → Prop) : ¬ Holds m k P := by
  rintro ⟨x, hx, -⟩
  rw [h] at hx
  cases hx

theorem holds_congr {k : κ} {P Q : α → Prop} (h : ∀ x, P x ↔ Q x) :
    Holds m k P ↔ Holds m k Q := exists_congr fun x => and_congr Iff.rfl (h x)

theorem holds_and {k : κ} {P : α → Prop} {c : Prop} : Holds m k (fun x => P x ∧ c) ↔ Holds m k P ∧ c := by
  constructor
  · rintro ⟨x, hx, hP, hc⟩
    exact ⟨⟨x, hx, hP⟩, hc⟩
  · rintro ⟨⟨x, hx, hP⟩, hc⟩
    exact ⟨x, hx, hP, hc⟩

theorem contains_iff {k : κ} : m.contains k = true ↔ ∃ x, m[k]? = some x := by
  rw [contains_eq_isSome_getElem?, isSome_iff_exists]

section Lawful

variable [LawfulEqOrd κ] {m : ExtTreeMap κ α} {k a : κ} {P : α → Prop}

variable {x y : α}

theorem holds_insert : Holds (m.insert k x) a P ↔ a = k ∧ P x ∨ a ≠ k ∧ Holds m a P := by
  unfold Holds
  by_cases h : a = k
  · subst h
    simp
  · simp [getElem?_insert, h, Ne.symm h]

theorem holds_erase : Holds (m.erase k) a P ↔ Holds m a P ∧ a ≠ k := by
  unfold Holds
  by_cases h : a = k
  · subst h
    simp
  · simp [getElem?_erase, h, Ne.symm h]

omit [LawfulEqOrd κ] in
theorem exists_map_eq_some {f : α → α} :
    (∃ y, (m[a]?).map f = some y ∧ P y) ↔ Holds m a (fun x => P (f x)) := by
  constructor
  · rintro ⟨y, hy, hP⟩
    obtain ⟨x, hx, rfl⟩ := map_eq_some_iff.mp hy
    exact ⟨x, hx, hP⟩
  · rintro ⟨x, hx, hP⟩
    exact ⟨f x, by rw [hx]; rfl, hP⟩

theorem holds_modify {f : α → α} :
    Holds (m.modify k f) a P ↔ a = k ∧ Holds m a (fun x => P (f x)) ∨ a ≠ k ∧ Holds m a P := by
  by_cases h : a = k
  · subst h
    have hentry : Holds (m.modify a f) a P ↔ Holds m a (fun x => P (f x)) := by
      rw [Holds, getElem?_modify_self]
      exact exists_map_eq_some
    simp [hentry]
  · simp [Holds, getElem?_modify, h, Ne.symm h]

theorem holds_map {f : α → α} : Holds (m.map fun _ => f) a P ↔ Holds m a (fun x => P (f x)) := by
  rw [Holds, getElem?_map]
  exact exists_map_eq_some

theorem holds_filter {keep : κ → α → Bool} :
    Holds (m.filter keep) a P ↔ Holds m a (fun x => P x ∧ keep a x = true) := by
  unfold Holds
  simp only [getElem?_filter', filter_eq_some_iff]
  exact exists_congr fun x => ⟨fun ⟨⟨hx, hk⟩, hP⟩ => ⟨hx, hP, hk⟩, fun ⟨hx, hP, hk⟩ => ⟨⟨hx, hk⟩, hP⟩⟩

theorem holds_retain {keep : α → Bool} :
    Holds (retain m keep) a P ↔ Holds m a (fun x => P x ∧ keep x = true) := holds_filter

theorem of_getElem?_modify {f : α → α} (h : (m.modify k f)[a]? = some y) :
    (a = k ∧ ∃ x, m[k]? = some x ∧ y = f x) ∨ (a ≠ k ∧ m[a]? = some y) := by
  by_cases ha : a = k
  · subst ha
    rw [getElem?_modify_self, map_eq_some_iff] at h
    obtain ⟨x, hx, rfl⟩ := h
    exact .inl ⟨rfl, x, hx, rfl⟩
  · rw [getElem?_modify, if_neg] at h
    · exact .inr ⟨ha, h⟩
    · exact fun hsame => ha (LawfulEqOrd.eq_of_compare hsame).symm

theorem of_getElem?_insert (h : (m.insert k x)[a]? = some y) : (a = k ∧ y = x) ∨ (a ≠ k ∧ m[a]? = some y) := by
  by_cases ha : a = k
  · subst ha
    rw [getElem?_insert_self, some.injEq] at h
    exact .inl ⟨rfl, h.symm⟩
  · rw [getElem?_insert, if_neg] at h
    · exact .inr ⟨ha, h⟩
    · exact fun hsame => ha (LawfulEqOrd.eq_of_compare hsame).symm

theorem upsert_of_some (h : m[k]? = some x) (fresh : α) (f : α → α) :
    upsert m k fresh f = m.insert k (f x) := by
  apply ext_getElem?
  intro a
  rw [upsert, getElem?_alter, getElem?_insert]
  split <;> simp [h]

theorem modify_of_some (h : m[k]? = some x) (f : α → α) : m.modify k f = m.insert k (f x) := by
  apply ext_getElem?
  intro a
  rw [getElem?_modify, getElem?_insert]
  split <;> simp [h]

theorem insert_insert (m : ExtTreeMap κ α) (k : κ) (x y : α) : (m.insert k x).insert k y = m.insert k y := by
  apply ext_getElem?
  intro a
  simp only [getElem?_insert]
  split <;> rfl

theorem upsert_upsert (m : ExtTreeMap κ α) (k : κ) (fresh : α) (f g : α → α) :
    upsert (upsert m k fresh f) k fresh g = upsert m k fresh (g ∘ f) := by
  apply ext_getElem?
  intro a
  simp only [upsert, getElem?_alter]
  split <;> simp

theorem insert_same (h : m[k]? = some x) : m.insert k x = m := by
  apply ext_getElem?
  intro a
  rw [getElem?_insert]
  split
  · rename_i ha
    rw [← LawfulEqOrd.eq_of_compare ha, h]
  · rfl

theorem holds_insert_same (h : m[k]? = some x) (hP : P y ↔ P x) : Holds (m.insert k y) a P ↔ Holds m a P := by
  rw [holds_insert]
  by_cases ha : a = k
  · subst ha
    rw [holds_of_some h, hP]
    simp
  · simp [ha]

end Lawful

end Lector.SortedMap

/-! The total of a weight over the entries of a sorted map, and how each update of the map changes it. -/
namespace Lector.SortedMap
open Std List

variable {κ α : Type} [Ord κ] [TransOrd κ] (weigh : α → Nat)

def total (m : ExtTreeMap κ α) : Nat := (m.toList.map fun entry => weigh entry.2).sum

theorem total_empty : total weigh (∅ : ExtTreeMap κ α) = 0 := rfl

theorem total_map {f : κ → α → α} (h : ∀ k x, weigh (f k x) = weigh x) (m : ExtTreeMap κ α) :
    total weigh (m.map f) = total weigh m := by
  simp only [total, ExtTreeMap.toList_map, map_map]
  exact congrArg sum (map_congr_left fun entry _ => h entry.1 entry.2)

section Lawful

variable [LawfulEqOrd κ] (weigh : α → Nat) {m : ExtTreeMap κ α} {k : κ} {x : α}

theorem nodup_toList (m : ExtTreeMap κ α) : m.toList.Nodup := by
  apply m.distinct_keys_toList.imp
  intro entry other hkeys hsame
  exact hkeys (hsame ▸ ReflCmp.compare_self)

theorem toList_perm_erase (h : m[k]? = some x) : m.toList.Perm ((k, x) :: (m.erase k).toList) := by
  have hfresh : (k, x) ∉ (m.erase k).toList := by
    simp
  apply (perm_ext_iff_of_nodup (nodup_toList m) (nodup_cons.mpr ⟨hfresh, nodup_toList _⟩)).mpr
  intro entry
  obtain ⟨a, -⟩ := entry
  simp only [mem_cons, ExtTreeMap.mem_toList_iff_getElem?_eq_some, ExtTreeMap.getElem?_erase]
  by_cases ha : k = a
  · subst ha
    simp [h, eq_comm]
  · simp [ha, Ne.symm ha]

theorem total_of_some (h : m[k]? = some x) : total weigh m = weigh x + total weigh (m.erase k) := by
  unfold total
  rw [((toList_perm_erase h).map _).sum_eq]
  rfl

theorem total_insert (m : ExtTreeMap κ α) (k : κ) (x : α) :
    total weigh (m.insert k x) = weigh x + total weigh (m.erase k) := by
  have hentry : (m.insert k x)[k]? = some x := ExtTreeMap.getElem?_insert_self
  have hrest : (m.insert k x).erase k = m.erase k := by
    apply ExtTreeMap.ext_getElem?
    intro a
    simp only [ExtTreeMap.getElem?_erase, ExtTreeMap.getElem?_insert]
    split <;> rfl
  rw [total_of_some weigh hentry, hrest]

theorem erase_of_none (h : m[k]? = none) : m.erase k = m := by
  apply ExtTreeMap.ext_getElem?
  intro a
  rw [ExtTreeMap.getElem?_erase]
  split
  · next hsame => rw [← LawfulEqOrd.eq_of_compare hsame, h]
  · rfl

theorem total_erase (m : ExtTreeMap κ α) (k : κ) :
    total weigh m = (m[k]?).elim 0 weigh + total weigh (m.erase k) := by
  cases h : m[k]? with
  | none => rw [erase_of_none h, Option.elim_none, zero_add]
  | some x => exact total_of_some weigh h

theorem total_insert_add (m : ExtTreeMap κ α) (k : κ) (x : α) :
    total weigh (m.insert k x) + (m[k]?).elim 0 weigh = total weigh m + weigh x := by
  have hinsert := total_insert weigh m k x
  have herase := total_erase weigh m k
  omega

theorem weight_le_total (h : m[k]? = some x) : weigh x ≤ total weigh m :=
  total_of_some weigh h ▸ Nat.le_add_right _ _

end Lawful
end Lector.SortedMap
