import Mathlib.Data.List.Basic

/-! Computations that may fail: how the result of a sequence splits into its steps. -/
namespace Lector.Fallible
open List Option

variable {ε α β : Type}

theorem bind_eq_ok {x : Except ε α} {f : α → Except ε β} {r : β} :
    (x >>= f) = .ok r ↔ ∃ a, x = .ok a ∧ f a = .ok r := by
  cases x with
  | error e => simp [bind, Except.bind]
  | ok a => simp [bind, Except.bind]

theorem pure_eq_ok {a r : α} : (pure a : Except ε α) = .ok r ↔ a = r := by
  simp [pure, Except.pure]

theorem mapM_some {f : α → Option β} {xs : List α} (h : ∀ x ∈ xs, ∃ y, f x = some y) :
    ∃ ys, xs.mapM f = some ys ∧ ys.length = xs.length ∧
      ∀ (i : Nat) (x : α), xs[i]? = some x → ∃ y, f x = some y ∧ ys[i]? = some y := by
  induction xs with
  | nil => exact ⟨[], rfl, rfl, fun i x hx => by cases hx⟩
  | cons x xs ih =>
    obtain ⟨y, hy⟩ := h x mem_cons_self
    obtain ⟨ys, hys, hlength, hitems⟩ := ih fun x' hx' => h x' (mem_cons_of_mem _ hx')
    refine ⟨y :: ys, ?_, congrArg Nat.succ hlength, fun i x' hx' => ?_⟩
    · rw [mapM_cons, hy, hys]
      rfl
    · cases i with
      | zero =>
        cases hx'
        exact ⟨y, hy, rfl⟩
      | succ i => exact hitems i x' hx'

theorem filterMap_some {f : α → Option β} {g : β → α} {P : β → Prop} {xs : List α}
    (h : ∀ x ∈ xs, ∃ y, f x = some y ∧ g y = x ∧ P y) :
    (xs.filterMap f).map g = xs ∧ ∀ y ∈ xs.filterMap f, P y := by
  induction xs with
  | nil => exact ⟨rfl, fun y hy => nomatch hy⟩
  | cons x xs ih =>
    obtain ⟨y, hy, hx, hP⟩ := h x mem_cons_self
    obtain ⟨hmap, hall⟩ := ih fun x' hx' => h x' (mem_cons_of_mem _ hx')
    rw [filterMap_cons_some hy, map_cons, hmap, hx]
    refine ⟨rfl, fun y' hy' => ?_⟩
    cases mem_cons.mp hy' with
    | inl hfirst => exact hfirst ▸ hP
    | inr hrest => exact hall y' hrest

theorem exists_of_mem_mapM {f : α → Option β} {xs : List α} {ys : List β} (h : xs.mapM f = some ys)
    {y : β} (hmem : y ∈ ys) : ∃ x ∈ xs, f x = some y := by
  induction xs generalizing ys with
  | nil =>
    cases h
    cases hmem
  | cons x xs ih =>
    rw [mapM_cons, bind_eq_bind, bind_eq_some_iff] at h
    obtain ⟨first, hfirst, h⟩ := h
    rw [bind_eq_bind, bind_eq_some_iff] at h
    obtain ⟨rest, hrest, h⟩ := h
    cases h
    rcases mem_cons.mp hmem with rfl | hmem
    · exact ⟨x, mem_cons_self, hfirst⟩
    · obtain ⟨x', hx', hy⟩ := ih hrest hmem
      exact ⟨x', mem_cons_of_mem _ hx', hy⟩

theorem map_flatten_mapM {γ : Type} {f : α → Option (List β)} {g : β → γ} {h : α → List γ} {xs : List α}
    {groups : List (List β)} (heach : ∀ x group, f x = some group → group.map g = h x)
    (hgroups : xs.mapM f = some groups) : groups.flatten.map g = xs.flatMap h := by
  induction xs generalizing groups with
  | nil =>
    cases hgroups
    rfl
  | cons x xs ih =>
    rw [mapM_cons, bind_eq_bind, bind_eq_some_iff] at hgroups
    obtain ⟨first, hfirst, hgroups⟩ := hgroups
    rw [bind_eq_bind, bind_eq_some_iff] at hgroups
    obtain ⟨rest, hrest, hgroups⟩ := hgroups
    cases hgroups
    rw [flatten_cons, map_append, heach x first hfirst, ih hrest, flatMap_cons]

end Lector.Fallible
