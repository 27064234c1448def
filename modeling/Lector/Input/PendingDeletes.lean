import Lector.View.State
import Mathlib.Data.List.Nodup

/-! Deletions that wait for their result on the screen (`screen_reader/tracking.rs`): what is deleted is noted when the
key is pressed, and spoken when a later frame shows that it went. -/
namespace Lector.PendingDeletes
open Terminal Accessibility
open List hiding min

/-! ## Intents -/

inductive PendingDeleteKind
  | backspace (cursor : Nat × Nat) (text : String) (rowBefore : Row)
  | delete (applicationCursor : Nat × Nat) (targetCol : Nat) (text : String) (rowBefore : Row)

def PendingDeleteKind.text : PendingDeleteKind → String
  | .backspace _ text _ | .delete _ _ text _ => text

/-- The tag is not in the source, and no function reads it: it tells the intents of a run apart. -/
structure PendingDelete (τ : Type) where
  tag : τ
  viewId : ViewId
  revisionBoundary : Option Nat
  lastEvaluatedRevision : Option Nat
  evaluations : Nat
  inputSequence : UInt64
  kind : PendingDeleteKind

def maxPendingDeleteIntents : Nat := 64
def maxPendingDeletePresentations : Nat := 64

/-- What the tracker reads of a view: `screen` and `prevScreen` are the contexts of its two screens. -/
structure Tracked where
  viewId : ViewId
  rows : List Row
  cursorPosition : Nat × Nat
  screen : ScreenIdentity
  prevScreen : ScreenIdentity
  accessibilityScreenTransitionPending : Bool
  presentationTracking : Bool
  liveRevision : Nat
  presentedRevision : Nat

namespace Tracked
variable (view : Tracked)

def inputIntentRevisionBoundary : Option Nat := if view.presentationTracking then some view.liveRevision else none

def accessibilityRevision : Option Nat := if view.presentationTracking then some view.presentedRevision else none

def textAt (row col : Nat) : String :=
  ((view.rows[row]?.bind fun row => row.cells[col]?).map fun cell => cell.grapheme).getD ""

def rowTextChanged (before : Row) (row : Nat) : Bool :=
  match view.rows[row]? with
  | none => true
  | some after => before.cells.length ≠ after.cells.length || (before.cells.zip after.cells).any fun (a, b) =>
      a.grapheme ≠ b.grapheme || a.isWideContinuation ≠ b.isWideContinuation

end Tracked

def revisionPassed : Option Nat → Option Nat → Bool
  | some boundary, some current => boundary < current
  | none, none => true
  | _, _ => false

namespace PendingDelete
variable {τ : Type} (intent : PendingDelete τ) (view : Tracked)

def isConfirmed : Bool := match intent.kind with
  | .backspace oldCursor _ rowBefore =>
    view.cursorPosition.1 = oldCursor.1 && view.cursorPosition.2 < oldCursor.2 &&
      view.rowTextChanged rowBefore oldCursor.1
  | .delete applicationCursor _ _ rowBefore =>
    view.cursorPosition = applicationCursor && view.rowTextChanged rowBefore applicationCursor.1

/-- Of this view, with a later revision, and not the one evaluated last. -/
def isEvaluated : Bool :=
  intent.viewId = view.viewId && revisionPassed intent.revisionBoundary view.accessibilityRevision &&
    !(view.accessibilityRevision.isSome && intent.lastEvaluatedRevision = view.accessibilityRevision)

def isSpoken : Bool := intent.isEvaluated view && intent.isConfirmed view

def retained : Option (PendingDelete τ) :=
  if intent.isEvaluated view then
    if intent.isConfirmed view then none
    else
      let evaluations := min (intent.evaluations + 1) 255
      if evaluations < maxPendingDeletePresentations then
        some { intent with lastEvaluatedRevision := view.accessibilityRevision, evaluations }
      else none
  else some intent

end PendingDelete

/-! ## The screen reader -/

structure ScreenReader (τ : Type) where
  pendingDeletes : List (PendingDelete τ)
  inputSequence : UInt64

namespace ScreenReader
variable {τ : Type} (self : ScreenReader τ) (tag : τ) (view : Tracked)

def recordLastKey : ScreenReader τ := { self with inputSequence := self.inputSequence + 1 }

def clearPendingDelete : ScreenReader τ := { self with pendingDeletes := [] }

def pushPendingDelete (pending : PendingDelete τ) : ScreenReader τ :=
  let kept := if maxPendingDeleteIntents ≤ self.pendingDeletes.length then self.pendingDeletes.tail
    else self.pendingDeletes
  { self with pendingDeletes := kept ++ [pending] }

/-- The newest intent, where the key before this one noted it for the same view. -/
def previousIntent : Option PendingDeleteKind :=
  (self.pendingDeletes.getLast?.filter fun pending =>
    pending.viewId = view.viewId && pending.inputSequence + 1 = self.inputSequence).map (·.kind)

def pushIntent (text : String) (kind : Row → PendingDeleteKind) : ScreenReader τ :=
  if text = "" then self
  else match view.rows[view.cursorPosition.1]? with
    | none => self
    | some rowBefore => self.pushPendingDelete
      { tag
        viewId := view.viewId
        revisionBoundary := view.inputIntentRevisionBoundary
        lastEvaluatedRevision := none
        evaluations := 0
        inputSequence := self.inputSequence
        kind := kind rowBefore }

def backspaceOffset : Nat :=
  let row := view.cursorPosition.1
  let col := view.cursorPosition.2
  match self.previousIntent view with
  | some (.backspace (pendingRow, pendingCol) _ _) =>
    if pendingRow = row ∧ pendingCol ≤ col then col - pendingCol + 1 else 0
  | _ => 0

def deferBackspace : ScreenReader τ :=
  let row := view.cursorPosition.1
  let col := view.cursorPosition.2
  let virtualCol := col - self.backspaceOffset view
  let text := if 0 < virtualCol then view.textAt row (virtualCol - 1) else ""
  self.pushIntent tag view text (.backspace (row, virtualCol) text)

def deleteOffset : Nat :=
  let row := view.cursorPosition.1
  let col := view.cursorPosition.2
  match self.previousIntent view with
  | some (.delete (pendingRow, _) pendingCol _ _) =>
    if pendingRow = row ∧ col ≤ pendingCol then pendingCol - col + 1 else 0
  | _ => 0

def deferDelete : ScreenReader τ :=
  let row := view.cursorPosition.1
  let col := view.cursorPosition.2
  let virtualCol := col + self.deleteOffset view
  let text := view.textAt row virtualCol
  self.pushIntent tag view text (.delete (row, col) virtualCol text)

def hasConfirmedPendingDelete : Bool :=
  view.prevScreen = view.screen && !view.accessibilityScreenTransitionPending &&
    self.pendingDeletes.any (·.isSpoken view)

/-- The intents that are spoken, in order, and the screen reader after it. -/
def resolvePendingDelete : List (PendingDelete τ) × ScreenReader τ :=
  (self.pendingDeletes.filter (·.isSpoken view),
    { self with pendingDeletes := self.pendingDeletes.filterMap (·.retained view) })

end ScreenReader

/-! ## Runs -/

structure Shot where
  viewId : ViewId
  rows : List Row
  cursorPosition : Nat × Nat
  screen : ScreenIdentity
  prevScreen : ScreenIdentity
  accessibilityScreenTransitionPending : Bool
  liveRevision : Nat

inductive Event
  | key
  | backspace (shot : Shot)
  | delete (shot : Shot)
  | presented (viewId : ViewId) (revisions : Nat)
  | resolve (shot : Shot)
  | resolveConfirmed (shot : Shot)
  | clear

/-- The screen reader with the presented revisions, a counter for the tags, and two records. -/
structure Run where
  reader : ScreenReader Nat
  deletions : Nat
  presentedRevision : ViewId → Nat
  evaluated : List (Nat × Nat)
  spoken : List Nat

namespace Run

def start : Run := ⟨⟨[], 0⟩, 0, fun _ => 0, [], []⟩

variable (run : Run) (shot : Shot)

def view : Tracked where
  viewId := shot.viewId
  rows := shot.rows
  cursorPosition := shot.cursorPosition
  screen := shot.screen
  prevScreen := shot.prevScreen
  accessibilityScreenTransitionPending := shot.accessibilityScreenTransitionPending
  presentationTracking := true
  liveRevision := shot.liveRevision
  presentedRevision := run.presentedRevision shot.viewId

def considered : List (PendingDelete Nat) := run.reader.pendingDeletes.filter (·.isEvaluated (run.view shot))

def resolve : Run :=
  let (spoken, reader) := run.reader.resolvePendingDelete (run.view shot)
  { run with
    reader
    evaluated := run.evaluated ++
      (run.considered shot).map fun intent => (intent.tag, run.presentedRevision shot.viewId)
    spoken := run.spoken ++ spoken.map (·.tag) }

def step : Event → Run
  | .key => { run with reader := run.reader.recordLastKey }
  | .backspace shot =>
    { run with
      reader := run.reader.deferBackspace run.deletions (run.view shot)
      deletions := run.deletions + 1 }
  | .delete shot =>
    { run with reader := run.reader.deferDelete run.deletions (run.view shot), deletions := run.deletions + 1 }
  | .presented viewId revisions =>
    { run with
      presentedRevision := fun id =>
        if id = viewId then run.presentedRevision id + revisions else run.presentedRevision id }
  | .resolve shot => run.resolve shot
  | .resolveConfirmed shot => if run.reader.hasConfirmedPendingDelete (run.view shot) then run.resolve shot else run
  | .clear => { run with reader := run.reader.clearPendingDelete }

def evaluations (evaluated : List (Nat × Nat)) (tag : Nat) : Nat := (evaluated.map Prod.fst).count tag

/-- What an intent that waits remembers of its evaluations, where `presented` is the revision of its view. -/
structure Remembers (evaluated : List (Nat × Nat)) (presented : Nat) (intent : PendingDelete Nat) : Prop where
  count : intent.evaluations = evaluations evaluated intent.tag
  few : evaluations evaluated intent.tag < maxPendingDeletePresentations
  last : ∀ revision, (intent.tag, revision) ∈ evaluated →
    ∃ last, intent.lastEvaluatedRevision = some last ∧ revision ≤ last
  behind : ∀ last, intent.lastEvaluatedRevision = some last → last ≤ presented

structure Valid : Prop where
  bounded : run.reader.pendingDeletes.length ≤ maxPendingDeleteIntents
  increasing : (run.reader.pendingDeletes.map (·.tag)).Pairwise (· < ·)
  noted : ∀ intent ∈ run.reader.pendingDeletes, intent.tag < run.deletions
  silent : ∀ intent ∈ run.reader.pendingDeletes, intent.tag ∉ run.spoken
  waiting : ∀ intent ∈ run.reader.pendingDeletes,
    Remembers run.evaluated (run.presentedRevision intent.viewId) intent
  spokenOnce : run.spoken.Nodup
  spokenBefore : ∀ tag ∈ run.spoken, tag < run.deletions
  evaluatedOnce : run.evaluated.Nodup
  evaluatedBefore : ∀ entry ∈ run.evaluated, entry.1 < run.deletions
  evaluatedFew : ∀ tag, evaluations run.evaluated tag ≤ maxPendingDeletePresentations

variable {run} {shot}

theorem Valid.sublist (h : run.Valid) {pendingDeletes : List (PendingDelete Nat)} {inputSequence : UInt64}
    (hsub : pendingDeletes.Sublist run.reader.pendingDeletes) :
    Valid { run with reader := { pendingDeletes, inputSequence } } :=
  { h with
    bounded := hsub.length_le.trans h.bounded
    increasing := h.increasing.sublist (hsub.map _)
    noted := fun intent hin => h.noted intent (hsub.subset hin)
    silent := fun intent hin => h.silent intent (hsub.subset hin)
    waiting := fun intent hin => h.waiting intent (hsub.subset hin) }

theorem Valid.skip (h : run.Valid) : Valid { run with deletions := run.deletions + 1 } :=
  { h with
    noted := fun intent hin => Nat.lt_succ_of_lt (h.noted intent hin)
    spokenBefore := fun tag hin => Nat.lt_succ_of_lt (h.spokenBefore tag hin)
    evaluatedBefore := fun entry hin => Nat.lt_succ_of_lt (h.evaluatedBefore entry hin) }

theorem Valid.never_evaluated (h : run.Valid) : evaluations run.evaluated run.deletions = 0 := by
  refine count_eq_zero.mpr fun hin => ?_
  obtain ⟨entry, hentry, heq⟩ := mem_map.mp hin
  exact absurd (h.evaluatedBefore entry hentry) (heq ▸ lt_irrefl _)

theorem length_pushPendingDelete {self : ScreenReader Nat} (pending : PendingDelete Nat)
    (h : self.pendingDeletes.length ≤ maxPendingDeleteIntents) :
    (self.pushPendingDelete pending).pendingDeletes.length ≤ maxPendingDeleteIntents := by
  rw [ScreenReader.pushPendingDelete, length_append, length_singleton]
  rw [maxPendingDeleteIntents] at *
  split
  · rw [length_tail]
    omega
  · omega

theorem Valid.pushIntent (h : run.Valid) (view : Tracked) (text : String) (kind : Row → PendingDeleteKind) :
    Valid { run with
      reader := run.reader.pushIntent run.deletions view text kind
      deletions := run.deletions + 1 } := by
  rw [ScreenReader.pushIntent]
  split
  · exact h.skip
  split
  · exact h.skip
  · next rowBefore _ =>
    generalize hkept : (if maxPendingDeleteIntents ≤ run.reader.pendingDeletes.length
      then run.reader.pendingDeletes.tail else run.reader.pendingDeletes) = kept
    have hsub : kept.Sublist run.reader.pendingDeletes := by
      rw [← hkept]
      split
      · exact tail_sublist _
      · exact .refl _
    have hcases : ∀ P : PendingDelete Nat → Prop, (∀ intent ∈ run.reader.pendingDeletes, P intent) → ∀ new, P new →
        ∀ intent ∈ kept ++ [new], P intent := by
      intro P hold new hnew intent hin
      obtain hin | hin := mem_append.mp hin
      · exact hold intent (hsub.subset hin)
      · exact mem_singleton.mp hin ▸ hnew
    have hnever := h.never_evaluated
    refine { h.skip with
      bounded := length_pushPendingDelete _ h.bounded, increasing := ?_, noted := ?_, silent := ?_, waiting := ?_ }
    all_goals simp only [ScreenReader.pushPendingDelete, hkept]
    · rw [map_append, pairwise_append]
      refine ⟨h.increasing.sublist (hsub.map _), pairwise_singleton _ _, fun tag hin new hnew => ?_⟩
      obtain ⟨intent, hintent, rfl⟩ := mem_map.mp hin
      obtain rfl := mem_singleton.mp hnew
      exact h.noted intent (hsub.subset hintent)
    · exact hcases _ h.skip.noted _ (Nat.lt_succ_self _)
    · exact hcases _ h.silent _ fun hspoken => lt_irrefl _ (h.spokenBefore _ hspoken)
    · refine hcases _ h.waiting _ ⟨hnever.symm, hnever.trans_lt (by decide), ?_, nofun⟩
      exact fun revision hin => absurd (h.evaluatedBefore _ hin) (lt_irrefl _)

/-! ## Resolutions -/

variable {intent other after : PendingDelete Nat}

theorem isEvaluated_iff : intent.isEvaluated (run.view shot) = true ↔ intent.viewId = shot.viewId ∧
      (∃ boundary, intent.revisionBoundary = some boundary ∧ boundary < run.presentedRevision shot.viewId) ∧
      intent.lastEvaluatedRevision ≠ some (run.presentedRevision shot.viewId) := by
  simp only [PendingDelete.isEvaluated, view, Tracked.accessibilityRevision, if_true, Option.isSome_some,
    Bool.true_and, Bool.and_eq_true, Bool.not_eq_true', decide_eq_false_iff_not, and_assoc]
  refine and_congr decide_eq_true_iff (and_congr ?_ Iff.rfl)
  cases intent.revisionBoundary <;> simp [revisionPassed]

theorem retained_cases {τ : Type} {intent after : PendingDelete τ} {view : Tracked}
    (h : intent.retained view = some after) : intent.isEvaluated view = false ∧ after = intent ∨
      intent.isEvaluated view = true ∧ intent.isConfirmed view = false ∧
        min (intent.evaluations + 1) 255 < maxPendingDeletePresentations ∧
        after = { intent with
          lastEvaluatedRevision := view.accessibilityRevision, evaluations := min (intent.evaluations + 1) 255 } := by
  simp only [PendingDelete.retained] at h
  split at h
  · next hevaluated =>
    split at h
    · cases h
    · next hconfirmed =>
      split at h
      · next hfew => exact .inr ⟨hevaluated, Bool.eq_false_iff.mpr hconfirmed, hfew, (Option.some.inj h).symm⟩
      · cases h
  · next hignored => exact .inl ⟨Bool.eq_false_iff.mpr hignored, (Option.some.inj h).symm⟩

theorem retained_same {τ : Type} {intent after : PendingDelete τ} {view : Tracked}
    (h : intent.retained view = some after) : after.tag = intent.tag ∧ after.viewId = intent.viewId := by
  obtain ⟨-, rfl⟩ | ⟨-, -, -, rfl⟩ := retained_cases h
  · exact ⟨rfl, rfl⟩
  · exact ⟨rfl, rfl⟩

theorem not_spoken_of_retained {τ : Type} {intent after : PendingDelete τ} {view : Tracked}
    (h : intent.retained view = some after) : intent.isSpoken view = false := by
  rw [PendingDelete.isSpoken]
  obtain ⟨hignored, -⟩ | ⟨-, hconfirmed, -⟩ := retained_cases h
  · rw [hignored, Bool.false_and]
  · rw [hconfirmed, Bool.and_false]

theorem map_filterMap_sublist {α β : Type} {f : α → Option α} {g : α → β} (h : ∀ a b, f a = some b → g b = g a)
    (items : List α) : ((items.filterMap f).map g).Sublist (items.map g) := by
  induction items with
  | nil => exact .refl _
  | cons a items ih =>
    rw [filterMap_cons]
    split
    · exact ih.cons _
    · next b hb =>
      rw [map_cons, h a b hb]
      exact ih.cons_cons _

section

variable (h : run.Valid)
include h

theorem Valid.eq_of_tag (hin : intent ∈ run.reader.pendingDeletes)
    (hother : other ∈ run.reader.pendingDeletes) (heq : intent.tag = other.tag) : intent = other :=
  inj_on_of_nodup_map (h.increasing.imp fun hlt => ne_of_lt hlt) hin hother heq

theorem Valid.nodup_filter (p : PendingDelete Nat → Bool) :
    ((run.reader.pendingDeletes.filter p).map (·.tag)).Nodup :=
  (h.increasing.sublist (filter_sublist.map _)).imp fun hlt => ne_of_lt hlt

theorem Valid.mem_filter_tags (hin : intent ∈ run.reader.pendingDeletes) (p : PendingDelete Nat → Bool) :
    intent.tag ∈ (run.reader.pendingDeletes.filter p).map (·.tag) ↔ p intent = true := by
  constructor
  · intro htag
    obtain ⟨other, hother, heq⟩ := mem_map.mp htag
    obtain ⟨hother, hp⟩ := mem_filter.mp hother
    exact h.eq_of_tag hother hin heq ▸ hp
  · exact fun hp => mem_map.mpr ⟨intent, mem_filter.mpr ⟨hin, hp⟩, rfl⟩

theorem Valid.evaluations_resolve (tag : Nat) : evaluations (run.resolve shot).evaluated tag =
      evaluations run.evaluated tag + if tag ∈ (run.considered shot).map (·.tag) then 1 else 0 := by
  rw [evaluations, Run.resolve, map_append, count_append, map_map]
  exact congrArg _ (h.nodup_filter _).count

theorem Valid.remembers_resolve
    (hin : intent ∈ run.reader.pendingDeletes) (hafter : intent.retained (run.view shot) = some after) :
    Remembers (run.resolve shot).evaluated (run.presentedRevision after.viewId) after := by
  have hwaits := h.waiting intent hin
  have hcount := @Valid.evaluations_resolve run shot h intent.tag
  simp only [considered, h.mem_filter_tags hin] at hcount
  have hentries : ∀ revision, (intent.tag, revision) ∈ (run.resolve shot).evaluated →
      (intent.tag, revision) ∈ run.evaluated ∨
        intent.isEvaluated (run.view shot) = true ∧ revision = run.presentedRevision shot.viewId := by
    intro revision hentry
    obtain hold | hnew := mem_append.mp hentry
    · exact .inl hold
    · obtain ⟨other, hother, heq⟩ := mem_map.mp hnew
      obtain ⟨htag, rfl⟩ := Prod.mk.inj heq
      have htags := mem_map.mpr ⟨other, hother, htag⟩
      exact .inr ⟨(h.mem_filter_tags hin _).mp htags, rfl⟩
  obtain ⟨hignored, rfl⟩ | ⟨hevaluated, -, hfew, rfl⟩ := retained_cases hafter
  · rw [if_neg (Bool.eq_false_iff.mp hignored)] at hcount
    refine ⟨hwaits.count.trans hcount.symm, hcount.trans_lt hwaits.few, fun revision hentry => ?_, hwaits.behind⟩
    obtain hold | ⟨hevaluated, -⟩ := hentries revision hentry
    · exact hwaits.last revision hold
    · exact absurd hevaluated (Bool.eq_false_iff.mp hignored)
  · rw [if_pos hevaluated] at hcount
    obtain ⟨hview, -, -⟩ := isEvaluated_iff.mp hevaluated
    have hrevision : (run.view shot).accessibilityRevision = some (run.presentedRevision shot.viewId) := rfl
    have hone := hwaits.count
    have hmany := hwaits.few
    rw [maxPendingDeletePresentations] at hfew hmany
    have hevaluations : min (intent.evaluations + 1) 255 = evaluations (run.resolve shot).evaluated intent.tag := by
      omega
    refine ⟨hevaluations, hevaluations ▸ hfew, fun revision hentry => ⟨_, hrevision, ?_⟩, fun last hlast => ?_⟩
    · obtain hold | ⟨-, rfl⟩ := hentries revision hentry
      · obtain ⟨last, hlast, hle⟩ := hwaits.last revision hold
        exact hle.trans (hview ▸ hwaits.behind last hlast)
      · exact le_rfl
    · obtain rfl := Option.some.inj (hrevision.symm.trans hlast)
      exact le_of_eq (congrArg _ hview.symm)

theorem Valid.resolve : (run.resolve shot).Valid where
  bounded := (length_filterMap_le _ _).trans h.bounded
  increasing := h.increasing.sublist (map_filterMap_sublist (fun _ _ hafter => (retained_same hafter).1) _)
  noted after hin := by
    obtain ⟨intent, hintent, hafter⟩ := mem_filterMap.mp hin
    exact (retained_same hafter).1 ▸ h.noted intent hintent
  silent after hin hspoken := by
    obtain ⟨intent, hintent, hafter⟩ := mem_filterMap.mp hin
    rw [(retained_same hafter).1] at hspoken
    obtain hold | hnew := mem_append.mp hspoken
    · exact h.silent intent hintent hold
    · have hspeaks := (h.mem_filter_tags hintent _).mp hnew
      rw [not_spoken_of_retained hafter] at hspeaks
      cases hspeaks
  waiting after hin := by
    obtain ⟨intent, hintent, hafter⟩ := mem_filterMap.mp hin
    exact h.remembers_resolve hintent hafter
  spokenOnce := by
    refine nodup_append.mpr ⟨h.spokenOnce, h.nodup_filter _, fun tag hold other hnew heq => ?_⟩
    obtain ⟨intent, hintent, rfl⟩ := mem_map.mp hnew
    exact h.silent intent (mem_filter.mp hintent).1 (heq ▸ hold)
  spokenBefore tag hin := by
    obtain hold | hnew := mem_append.mp hin
    · exact h.spokenBefore tag hold
    · obtain ⟨intent, hintent, rfl⟩ := mem_map.mp hnew
      exact h.noted intent (mem_filter.mp hintent).1
  evaluatedOnce := by
    refine nodup_append.mpr ⟨h.evaluatedOnce, ?_, fun entry hold other hnew heq => ?_⟩
    · refine Nodup.of_map Prod.fst ?_
      rw [map_map]
      exact h.nodup_filter _
    · obtain ⟨intent, hintent, rfl⟩ := mem_map.mp hnew
      obtain ⟨hin, hevaluated⟩ := mem_filter.mp hintent
      obtain ⟨hview, -, hother⟩ := isEvaluated_iff.mp hevaluated
      obtain ⟨last, hlast, hle⟩ := (h.waiting intent hin).last _ (heq ▸ hold)
      have hbehind := (h.waiting intent hin).behind last hlast
      rw [hview] at hbehind
      exact hother (hlast.trans (congrArg some (le_antisymm hbehind hle)))
  evaluatedBefore entry hin := by
    obtain hold | hnew := mem_append.mp hin
    · exact h.evaluatedBefore entry hold
    · obtain ⟨intent, hintent, rfl⟩ := mem_map.mp hnew
      exact h.noted intent (mem_filter.mp hintent).1
  evaluatedFew tag := by
    rw [h.evaluations_resolve]
    split
    · next hin =>
      obtain ⟨intent, hintent, rfl⟩ := mem_map.mp hin
      exact (h.waiting intent (mem_filter.mp hintent).1).few
    · exact h.evaluatedFew tag

theorem Valid.step (event : Event) : (run.step event).Valid := by
  cases event with
  | key => exact h.sublist (.refl _)
  | backspace shot => exact h.pushIntent _ _ _
  | delete shot => exact h.pushIntent _ _ _
  | presented viewId revisions =>
    refine { h with waiting := fun intent hin => ?_ }
    have hwaits := h.waiting intent hin
    refine { hwaits with behind := fun last hlast => (hwaits.behind last hlast).trans ?_ }
    dsimp only [Run.step]
    split
    · exact Nat.le_add_right _ _
    · exact le_rfl
  | resolve shot => exact h.resolve
  | resolveConfirmed shot =>
    rw [Run.step]
    split
    · exact h.resolve
    · exact h
  | clear => exact h.sublist (nil_sublist _)

theorem Valid.foldl (events : List Event) : (events.foldl Run.step run).Valid := by
  induction events generalizing run with
  | nil => exact h
  | cons event events ih => exact ih (h.step event)

end

theorem valid_start : start.Valid where
  bounded := Nat.zero_le _
  increasing := Pairwise.nil
  noted := nofun
  silent := nofun
  waiting := nofun
  spokenOnce := nodup_nil
  spokenBefore := nofun
  evaluatedOnce := nodup_nil
  evaluatedBefore := nofun
  evaluatedFew _ := Nat.zero_le _

structure Resolves (run : Run) (shot : Shot) : Prop where
  inOrder : ((run.reader.resolvePendingDelete (run.view shot)).1.map (·.tag)).Pairwise (· < ·)
  later : ∀ intent ∈ (run.reader.resolvePendingDelete (run.view shot)).1, intent.viewId = shot.viewId ∧
    ∃ boundary, intent.revisionBoundary = some boundary ∧ boundary < run.presentedRevision shot.viewId
  others : (run.resolve shot).reader.pendingDeletes.filter (·.viewId ≠ shot.viewId) =
    run.reader.pendingDeletes.filter (·.viewId ≠ shot.viewId)

theorem others_untouched (pending : List (PendingDelete Nat)) (view : Tracked) :
    (pending.filterMap (·.retained view)).filter (·.viewId ≠ view.viewId) =
      pending.filter (·.viewId ≠ view.viewId) := by
  induction pending with
  | nil => rfl
  | cons intent pending ih =>
    by_cases hview : intent.viewId = view.viewId
    · rw [filter_cons_of_neg (by simpa using hview), filterMap_cons]
      split
      · exact ih
      · next after hafter =>
        rw [filter_cons_of_neg (by simpa [(retained_same hafter).2] using hview)]
        exact ih
    · have hkept : intent.retained view = some intent := by
        simp [PendingDelete.retained, PendingDelete.isEvaluated, hview]
      rw [filter_cons_of_pos (by simpa using hview), filterMap_cons, hkept]
      rw [filter_cons_of_pos (by simpa using hview), ih]

/-- **Pending deletes are spoken at most once and never early**, in every run over views whose presented
revisions only grow. A resolution speaks intents of its own view in order, each after its boundary. -/
theorem pendingDeletes_resolved_once (events : List Event) :
    let run := events.foldl Run.step start
    run.spoken.Nodup ∧ run.evaluated.Nodup ∧
      (∀ tag, evaluations run.evaluated tag ≤ maxPendingDeletePresentations) ∧
      (∀ intent ∈ run.reader.pendingDeletes, evaluations run.evaluated intent.tag < maxPendingDeletePresentations) ∧
      run.reader.pendingDeletes.length ≤ maxPendingDeleteIntents ∧ ∀ shot, Resolves run shot := by
  have h := valid_start.foldl events
  refine ⟨h.spokenOnce, h.evaluatedOnce, h.evaluatedFew, fun intent hin => (h.waiting intent hin).few, h.bounded,
    fun shot => ⟨h.increasing.sublist (filter_sublist.map _), fun intent hin => ?_,
      others_untouched _ (Run.view _ shot)⟩⟩
  obtain ⟨-, hspoken⟩ := mem_filter.mp hin
  obtain ⟨hview, hlater, -⟩ := isEvaluated_iff.mp (Bool.and_eq_true_iff.mp hspoken).1
  exact ⟨hview, hlater⟩

end Run
end Lector.PendingDeletes
