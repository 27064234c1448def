import Lector.View.EvidenceSide
import Mathlib.Data.List.Pairwise

/-! The epochs of a view in their order, and the revisions that are stamped with them. -/
namespace Lector.Accessibility
open Terminal List

/-! ## The timeline -/

structure Timeline (epochs : List AccessibilityEpoch) (live : Nat) (liveEpoch : AccessibilityEpoch) :
    Prop where
  ordered : epochs.Pairwise fun earlier later =>
    earlier.generation < later.generation ∧ earlier.startRevision ≤ later.startRevision
  current : liveEpoch ∈ epochs
  latest : ∀ epoch ∈ epochs, epoch.generation ≤ liveEpoch.generation
  started : ∀ epoch ∈ epochs, epoch.startRevision ≤ live

/-- `revision` belongs to `epoch`, or to nothing at all: no later epoch started before it. -/
structure Placed (epochs : List AccessibilityEpoch) (live : Nat) (epoch : AccessibilityEpoch)
    (revision : Nat) : Prop where
  known : epoch ∈ epochs
  reached : revision ≤ live
  before : ∀ later ∈ epochs, epoch.generation < later.generation → revision ≤ later.startRevision

/-- What a frame is stamped with. An epoch that began with a batch is never presented without it. -/
structure Stamped (epochs : List AccessibilityEpoch) (live floor : Nat) (epoch : AccessibilityEpoch)
    (revision : Nat) : Prop extends Placed epochs live epoch revision where
  fresh : floor < epoch.generation → epoch.startRevision < revision

variable {epochs : List AccessibilityEpoch} {live floor : Nat} {liveEpoch : AccessibilityEpoch}

/-- One of the two epochs is the earlier one. -/
def Apart (a b : AccessibilityEpoch) : Prop :=
  (a.generation < b.generation ∧ a.startRevision ≤ b.startRevision) ∨
    (b.generation < a.generation ∧ b.startRevision ≤ a.startRevision)

instance : Std.Symm Apart := ⟨fun _ _ => Or.symm⟩

theorem Timeline.compare (h : Timeline epochs live liveEpoch) {a b : AccessibilityEpoch}
    (ha : a ∈ epochs) (hb : b ∈ epochs) : a = b ∨ Apart a b := by
  by_cases hsame : a = b
  · exact .inl hsame
  have hpairs : epochs.Pairwise Apart := h.ordered.imp .inl
  exact .inr (hpairs.forall ha hb hsame)

variable {epoch epoch' : AccessibilityEpoch} {revision revision' floor' : Nat}

/-- **A batch between the start of an epoch and a revision of it** is of that epoch. -/
theorem Timeline.epoch_eq (h : Timeline epochs live liveEpoch) (placed : Placed epochs live epoch revision)
    (batch : Placed epochs live epoch' revision') (own : epoch'.startRevision < revision')
    (after : epoch.startRevision < revision') (upTo : revision' ≤ revision) : epoch' = epoch := by
  rcases h.compare batch.known placed.known with hsame | ⟨hearlier, -⟩ | ⟨hlater, -⟩
  · exact hsame
  · have := batch.before epoch placed.known hearlier
    omega
  · have := placed.before epoch' batch.known hlater
    omega

/-! ## Moving on -/

theorem Timeline.advance (h : Timeline epochs live liveEpoch) : Timeline epochs (live + 1) liveEpoch :=
  ⟨h.ordered, h.current, h.latest, fun epoch hmem => (h.started epoch hmem).trans (Nat.le_succ _)⟩

theorem Placed.advance (h : Placed epochs live epoch revision) : Placed epochs (live + 1) epoch revision :=
  ⟨h.known, h.reached.trans (Nat.le_succ _), h.before⟩

theorem Stamped.advance
    (h : Stamped epochs live floor epoch revision) : Stamped epochs (live + 1) floor epoch revision :=
  ⟨h.toPlaced.advance, h.fresh⟩

theorem Timeline.begin (h : Timeline epochs live liveEpoch) :
    Timeline (epochs ++ [⟨liveEpoch.generation + 1, live⟩]) live
      ⟨liveEpoch.generation + 1, live⟩ where
  ordered := by
    rw [pairwise_append]
    refine ⟨h.ordered, pairwise_singleton _ _, fun epoch hmem later hlater => ?_⟩
    rw [mem_singleton.mp hlater]
    exact ⟨Nat.lt_succ_of_le (h.latest epoch hmem), h.started epoch hmem⟩
  current := mem_append_right _ (mem_singleton_self _)
  latest := by
    intro epoch hmem
    rcases mem_append.mp hmem with hold | hnew
    · exact (h.latest epoch hold).trans (Nat.le_succ _)
    · rw [mem_singleton.mp hnew]
  started := by
    intro epoch hmem
    rcases mem_append.mp hmem with hold | hnew
    · exact h.started epoch hold
    · rw [mem_singleton.mp hnew]

theorem Placed.begin (h : Placed epochs live epoch revision) (generation : Nat) :
    Placed (epochs ++ [⟨generation, live⟩]) live epoch revision where
  known := mem_append_left _ h.known
  reached := h.reached
  before := by
    intro later hmem hgeneration
    rcases mem_append.mp hmem with hold | hnew
    · exact h.before later hold hgeneration
    · rw [mem_singleton.mp hnew]
      exact h.reached

theorem Stamped.begin (h : Stamped epochs live floor epoch revision) (generation : Nat) :
    Stamped (epochs ++ [⟨generation, live⟩]) live floor epoch revision :=
  ⟨h.toPlaced.begin generation, h.fresh⟩

theorem Stamped.raise (h : Stamped epochs live floor epoch revision) (higher : floor ≤ floor') :
    Stamped epochs live floor' epoch revision :=
  ⟨h.toPlaced, fun hfloor => h.fresh (lt_of_le_of_lt higher hfloor)⟩

theorem Timeline.placed_live (h : Timeline epochs live liveEpoch)
    (reached : revision ≤ live) : Placed epochs live liveEpoch revision where
  known := h.current
  reached := reached
  before := fun later hmem hgeneration => absurd (h.latest later hmem) (not_le.mpr hgeneration)

end Lector.Accessibility
