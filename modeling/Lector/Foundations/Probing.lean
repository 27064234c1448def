import Mathlib.Data.List.Nodup
import Mathlib.Data.List.Perm.Subperm
import Mathlib.Logic.Function.Iterate

/-! Distinct identifiers from wished ones: whoever finds his wish taken tries the next one, and so on. The
result `none` is a search that does not end. -/
namespace Lector.Probing
open List
open Option

variable {κ α : Type} [DecidableEq α] {next : α → α} {used : List α} {wish : α}

/-- The first of `count` identifiers from `wish` on that is not used. -/
def probe (next : α → α) (used : List α) : (count : Nat) → (wish : α) → Option α
  | 0, _ => none
  | count + 1, wish => if wish ∈ used then probe next used count (next wish) else some wish

/-- A search that has met more used identifiers than there are goes in a circle. -/
def allocate (next : α → α) (used : List α) (wish : α) : Option α := probe next used (used.length + 1) wish

def allocateAll (next : α → α) : (used : List α) → List (κ × α) → Option (List (κ × α))
  | _, [] => some []
  | used, (key, wish) :: rest => do
    let id ← allocate next used wish
    let others ← allocateAll next (id :: used) rest
    some ((key, id) :: others)

/-! ## One search -/

theorem probe_eq_some {count : Nat} {id : α} (h : probe next used count wish = some id) : id ∉ used := by
  induction count generalizing wish with
  | zero => cases h
  | succ count ih =>
    rw [probe] at h
    split at h
    · exact ih h
    · rename_i hfree
      exact some.inj h ▸ hfree

theorem probe_eq_none {count : Nat} :
    probe next used count wish = none ↔ ∀ n < count, next^[n] wish ∈ used := by
  induction count generalizing wish with
  | zero => exact ⟨fun _ n hn => absurd hn (Nat.not_lt_zero n), fun _ => rfl⟩
  | succ count ih =>
    rw [probe]
    split
    · rename_i hused
      rw [ih]
      constructor
      · intro h n hn
        cases n with
        | zero => exact hused
        | succ n => exact h n (Nat.lt_of_succ_lt_succ hn)
      · intro h n hn
        exact h (n + 1) (Nat.succ_lt_succ hn)
    · rename_i hfree
      constructor
      · intro h
        cases h
      · intro h
        exact absurd (h 0 (Nat.succ_pos count)) hfree

omit [DecidableEq α] in
theorem exists_repeat (h : ∀ n < used.length + 1, next^[n] wish ∈ used) :
    ∃ m n, m < n ∧ n < used.length + 1 ∧ next^[m] wish = next^[n] wish := by
  by_contra hdistinct
  have hnodup : ((range (used.length + 1)).map fun n => next^[n] wish).Nodup := by
    refine Nodup.map_on (fun m hm n hn heq => ?_) nodup_range
    rw [mem_range] at hm hn
    rcases Nat.lt_trichotomy m n with hlt | rfl | hlt
    · exact absurd ⟨m, n, hlt, hn, heq⟩ hdistinct
    · rfl
    · exact absurd ⟨n, m, hlt, hm, heq.symm⟩ hdistinct
  have hsubset : ((range (used.length + 1)).map fun n => next^[n] wish) ⊆ used := by
    intro id hid
    obtain ⟨n, hn, rfl⟩ := mem_map.mp hid
    exact h n (mem_range.mp hn)
  have hlength := (hnodup.subperm hsubset).length_le
  rw [length_map, length_range] at hlength
  omega

/-- **Where no identifier is found there is none**, however long the search goes on. -/
theorem allocate_eq_none : allocate next used wish = none ↔ ∀ n, next^[n] wish ∈ used := by
  rw [allocate, probe_eq_none]
  refine ⟨fun h => ?_, fun h n _ => h n⟩
  obtain ⟨m, n, hmn, hn, hrepeat⟩ := exists_repeat h
  intro k
  induction k using Nat.strongRecOn with
  | ind k ih =>
    by_cases hk : k < used.length + 1
    · exact h k hk
    · have hback : next^[k] wish = next^[k - n + m] wish := by
        calc next^[k] wish = next^[k - n + n] wish := by rw [Nat.sub_add_cancel (by omega)]
          _ = next^[k - n] (next^[n] wish) := Function.iterate_add_apply next _ _ wish
          _ = next^[k - n] (next^[m] wish) := by rw [hrepeat]
          _ = next^[k - n + m] wish := (Function.iterate_add_apply next _ _ wish).symm
      rw [hback]
      exact ih (k - n + m) (by omega)

theorem allocate_free {id : α} (h : allocate next used wish = some id) : id ∉ used := probe_eq_some h

theorem allocate_isSome (size : Nat) (room : used.length < size)
    (distinct : ∀ m n, m < n → n < size → next^[m] wish ≠ next^[n] wish) :
    ∃ id, allocate next used wish = some id := by
  refine ne_none_iff_exists'.mp fun hnone => ?_
  obtain ⟨m, n, hmn, hn, hrepeat⟩ := exists_repeat fun n _ => allocate_eq_none.mp hnone n
  exact distinct m n hmn (by omega) hrepeat

/-! ## All searches -/

/-- **The identifiers are distinct**, and unused before. -/
theorem allocateAll_spec {wishes allocated : List (κ × α)} (h : allocateAll next used wishes = some allocated) :
    allocated.map Prod.fst = wishes.map Prod.fst ∧ (allocated.map Prod.snd).Nodup ∧
      ∀ entry ∈ allocated, entry.2 ∉ used := by
  induction wishes generalizing used allocated with
  | nil =>
    cases h
    exact ⟨rfl, nodup_nil, forall_mem_nil _⟩
  | cons first rest ih =>
    obtain ⟨key, wish⟩ := first
    rw [allocateAll] at h
    obtain ⟨id, hid, h⟩ := bind_eq_some_iff.mp h
    obtain ⟨others, hothers, h⟩ := bind_eq_some_iff.mp h
    cases h
    obtain ⟨hkeys, hnodup, hfresh⟩ := ih hothers
    refine ⟨?_, ?_, ?_⟩
    · rw [map_cons, map_cons, hkeys]
    · rw [map_cons, nodup_cons]
      refine ⟨fun hmem => ?_, hnodup⟩
      obtain ⟨entry, hentry, heq⟩ := mem_map.mp hmem
      exact hfresh entry hentry (heq ▸ mem_cons_self)
    · intro entry hmem
      rcases mem_cons.mp hmem with rfl | hmem
      · exact allocate_free hid
      · exact fun hused => hfresh entry hmem (mem_cons_of_mem _ hused)

theorem allocateAll_isSome (size : Nat) {wishes : List (κ × α)} (room : used.length + wishes.length ≤ size)
    (distinct : ∀ wish m n, m < n → n < size → next^[m] wish ≠ next^[n] wish) :
    ∃ allocated, allocateAll next used wishes = some allocated := by
  induction wishes generalizing used with
  | nil => exact ⟨[], rfl⟩
  | cons first rest ih =>
    obtain ⟨key, wish⟩ := first
    rw [length_cons] at room
    obtain ⟨id, hid⟩ := allocate_isSome size (show used.length < size by omega) (distinct wish)
    obtain ⟨others, hothers⟩ := @ih (id :: used) (by rw [length_cons]; omega)
    refine ⟨(key, id) :: others, ?_⟩
    rw [allocateAll, hid, bind_eq_bind, bind_some, hothers]
    rfl

/-! ## Looking up -/

variable [BEq κ] [LawfulBEq κ] {allocated : List (κ × α)} {k k' : κ} {id : α}

omit [DecidableEq α] in
theorem mem_of_lookup (h : allocated.lookup k = some id) : (k, id) ∈ allocated := by
  obtain ⟨before, after, hsplit, -⟩ := lookup_eq_some_iff.mp h
  rw [hsplit]
  exact mem_append_right _ mem_cons_self

omit [DecidableEq α] in
theorem lookup_injective (distinct : (allocated.map Prod.snd).Nodup)
    (h : allocated.lookup k = some id) (h' : allocated.lookup k' = some id) : k = k' :=
  (Prod.mk.inj (inj_on_of_nodup_map distinct (mem_of_lookup h) (mem_of_lookup h') rfl)).1

omit [DecidableEq α] in
theorem lookup_of_mem_keys (h : k ∈ allocated.map Prod.fst) : ∃ id, allocated.lookup k = some id := by
  refine ne_none_iff_exists'.mp fun hnone => ?_
  obtain ⟨entry, hmem, rfl⟩ := mem_map.mp h
  have hne := lookup_eq_none_iff.mp hnone entry hmem
  rw [bne_self_eq_false] at hne
  cases hne

end Lector.Probing
