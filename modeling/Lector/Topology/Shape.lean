import Mathlib.Logic.Basic

/-! What a topology is for, without its maps: which sessions list which windows where, which links
point back, which windows and panes are active, and which window owns a pane. -/
namespace Lector.Topology

variable {σ ι ω π : Type}

@[ext] structure Shape (σ ι ω π : Type) where
  window : ω → Prop
  lists : σ → ι → ω → Prop
  links : ω → σ → ι → Prop
  activeWindow : σ → ω → Prop
  activePane : ω → π → Prop
  owner : π → ω → Prop

namespace Shape

structure Whole (g : Shape σ ι ω π) : Prop where
  listed_exists : ∀ {s i w}, g.lists s i w → g.window w
  links_inverse : ∀ {s i w}, g.lists s i w ↔ g.links w s i
  activeWindow_listed : ∀ {s w}, g.activeWindow s w → ∃ i, g.lists s i w
  activePane_owned : ∀ {w p}, g.activePane w p → g.owner p w
  owner_exists : ∀ {p w}, g.owner p w → g.window w

/-! ## Updates -/

variable (g : Shape σ ι ω π)

def listAt (s : σ) (i : ι) (w : ω) (active : Bool) : Shape σ ι ω π where
  window w' := g.window w' ∨ w' = w
  lists s' i' w' := g.lists s' i' w' ∨ s' = s ∧ i' = i ∧ w' = w
  links w' s' i' := g.links w' s' i' ∨ s' = s ∧ i' = i ∧ w' = w
  activeWindow s' w' :=
    if active then s' = s ∧ w' = w ∨ s' ≠ s ∧ g.activeWindow s' w' else g.activeWindow s' w'
  activePane := g.activePane
  owner := g.owner

def addPane (p : π) (w : ω) (active : Bool) : Shape σ ι ω π where
  window := g.window
  lists := g.lists
  links := g.links
  activeWindow := g.activeWindow
  activePane w' p' :=
    if active then w' = w ∧ p' = p ∨ w' ≠ w ∧ g.activePane w' p' else g.activePane w' p'
  owner p' w' := g.owner p' w' ∨ p' = p ∧ w' = w

def selectWindow (s : σ) (w : ω) : Shape σ ι ω π :=
  { g with activeWindow := fun s' w' => s' = s ∧ w' = w ∨ s' ≠ s ∧ g.activeWindow s' w' }

def selectPane (w : ω) (p : π) : Shape σ ι ω π :=
  { g with activePane := fun w' p' => w' = w ∧ p' = p ∨ w' ≠ w ∧ g.activePane w' p' }

def unlist (s : σ) (w : ω) : Shape σ ι ω π where
  window := g.window
  lists s' i w' := g.lists s' i w' ∧ ¬(s' = s ∧ w' = w)
  links w' s' i := g.links w' s' i ∧ ¬(s' = s ∧ w' = w)
  activeWindow s' w' := g.activeWindow s' w' ∧ ¬(s' = s ∧ w' = w)
  activePane := g.activePane
  owner := g.owner

def removeWindow (w : ω) : Shape σ ι ω π where
  window w' := g.window w' ∧ w' ≠ w
  lists s i w' := g.lists s i w' ∧ w' ≠ w
  links w' s i := g.links w' s i ∧ w' ≠ w
  activeWindow s w' := g.activeWindow s w' ∧ w' ≠ w
  activePane w' p := g.activePane w' p ∧ w' ≠ w
  owner p w' := g.owner p w' ∧ w' ≠ w

def removePane (p : π) : Shape σ ι ω π :=
  { g with
    activePane := fun w p' => g.activePane w p' ∧ p' ≠ p
    owner := fun p' w => g.owner p' w ∧ p' ≠ p }

/-! ## Integrity under updates -/

namespace Whole

variable {g : Shape σ ι ω π}

section

variable (h : g.Whole)
include h

theorem listAt (s : σ) (i : ι) (w : ω) (active : Bool) : (g.listAt s i w active).Whole where
  listed_exists := by
    rintro s' i' w' (hlists | ⟨-, -, rfl⟩)
    · exact .inl (h.listed_exists hlists)
    · exact .inr rfl
  links_inverse := or_congr h.links_inverse Iff.rfl
  activeWindow_listed := by
    intro s' w' hactive
    cases active with
    | false =>
      obtain ⟨i', hi⟩ := h.activeWindow_listed hactive
      exact ⟨i', .inl hi⟩
    | true =>
      rcases hactive with ⟨rfl, rfl⟩ | ⟨-, hold⟩
      · exact ⟨i, .inr ⟨rfl, rfl, rfl⟩⟩
      · obtain ⟨i', hi⟩ := h.activeWindow_listed hold
        exact ⟨i', .inl hi⟩
  activePane_owned := h.activePane_owned
  owner_exists hp := .inl (h.owner_exists hp)

theorem addPane {w : ω} (hw : g.window w) (p : π) (active : Bool) : (g.addPane p w active).Whole where
  listed_exists := h.listed_exists
  links_inverse := h.links_inverse
  activeWindow_listed := h.activeWindow_listed
  activePane_owned := by
    intro w' p' hactive
    cases active with
    | false => exact .inl (h.activePane_owned hactive)
    | true =>
      rcases hactive with ⟨rfl, rfl⟩ | ⟨-, hold⟩
      · exact .inr ⟨rfl, rfl⟩
      · exact .inl (h.activePane_owned hold)
  owner_exists := by
    rintro p' w' (hold | ⟨-, rfl⟩)
    · exact h.owner_exists hold
    · exact hw

theorem selectWindow_iff (s : σ) (w : ω) : (g.selectWindow s w).Whole ↔ ∃ i, g.lists s i w := by
  constructor
  · intro h'
    exact h'.activeWindow_listed (.inl ⟨rfl, rfl⟩)
  · intro hlisted
    refine ⟨h.listed_exists, h.links_inverse, ?_, h.activePane_owned, h.owner_exists⟩
    rintro s' w' (⟨rfl, rfl⟩ | ⟨-, hold⟩)
    · exact hlisted
    · exact h.activeWindow_listed hold

theorem selectPane_iff (w : ω) (p : π) : (g.selectPane w p).Whole ↔ g.owner p w := by
  constructor
  · intro h'
    exact h'.activePane_owned (.inl ⟨rfl, rfl⟩)
  · intro howner
    refine ⟨h.listed_exists, h.links_inverse, h.activeWindow_listed, ?_, h.owner_exists⟩
    rintro w' p' (⟨rfl, rfl⟩ | ⟨-, hold⟩)
    · exact howner
    · exact h.activePane_owned hold

theorem unlist (s : σ) (w : ω) : (g.unlist s w).Whole where
  listed_exists hl := h.listed_exists hl.1
  links_inverse := and_congr h.links_inverse Iff.rfl
  activeWindow_listed := by
    rintro s' w' ⟨hactive, hne⟩
    obtain ⟨i, hi⟩ := h.activeWindow_listed hactive
    exact ⟨i, hi, hne⟩
  activePane_owned := h.activePane_owned
  owner_exists := h.owner_exists

theorem removeWindow (w : ω) : (g.removeWindow w).Whole where
  listed_exists hl := ⟨h.listed_exists hl.1, hl.2⟩
  links_inverse := and_congr h.links_inverse Iff.rfl
  activeWindow_listed := by
    rintro s w' ⟨hactive, hne⟩
    obtain ⟨i, hi⟩ := h.activeWindow_listed hactive
    exact ⟨i, hi, hne⟩
  activePane_owned hp := ⟨h.activePane_owned hp.1, hp.2⟩
  owner_exists hp := ⟨h.owner_exists hp.1, hp.2⟩

theorem removePane (p : π) : (g.removePane p).Whole where
  listed_exists := h.listed_exists
  links_inverse := h.links_inverse
  activeWindow_listed := h.activeWindow_listed
  activePane_owned hp := ⟨h.activePane_owned hp.1, hp.2⟩
  owner_exists hp := h.owner_exists hp.1

end

end Whole

end Shape

end Lector.Topology
