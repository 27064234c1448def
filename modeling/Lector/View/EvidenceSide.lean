import Lector.View.HistorySide

/-! What every call on a view does to its evidence. The journal is described by what it still holds and
by the gap that covers what it has lost. -/
namespace Lector.Accessibility
open Output Terminal EvidenceSide Bool
open Option hiding max min
open List hiding max min

/-! ## Provenance -/

@[simp] theorem snapshotDiffProvenance_idem (update : UpdateSummary) :
    snapshotDiffProvenance (snapshotDiffProvenance update) = snapshotDiffProvenance update := rfl

/-- **What stays true when snapshots are compared is merged on its own.** -/
theorem snapshotDiffProvenance_merge (update next : UpdateSummary) :
    snapshotDiffProvenance (update.merge next) =
      (snapshotDiffProvenance update).merge (snapshotDiffProvenance next) := by
  by_cases hbatches : next.batchCount = 0
  · have hnone : (snapshotDiffProvenance next).batchCount = 0 := hbatches
    rw [UpdateSummary.merge, if_pos hbatches, UpdateSummary.merge, if_pos hnone]
  · have hsome : (snapshotDiffProvenance next).batchCount ≠ 0 := hbatches
    rw [UpdateSummary.merge, if_neg hbatches, UpdateSummary.merge, if_neg hsome]
    rfl

/-! ## The evidence of a view on its own -/

variable (gapStart : Option Nat)

/-- The gap that starts at `gapStart` and ends at `through` covers the revision `m`. -/
def Covered (through m : Nat) : Prop :=
  (∃ start, gapStart = some start ∧ start ≤ m) ∧ m ≤ through

namespace EvidenceSide

variable (e : EvidenceSide) (epoch : AccessibilityEpoch)

/-- Where the evidence of a frame of `epoch` starts. -/
def enter : EvidenceSide :=
  if e.presentedEpoch ≠ epoch then
    { e with
      presentedEpoch := epoch
      evidenceRevision := epoch.startRevision
      exact := true
      requiresSnapshotDiff := false
      update := .default }
  else e

/-- The gap reaches into the revisions after `after` and up to `revision`. -/
def gapIn (revision after : Nat) : Bool :=
  e.gapStart.any fun start => decide (start ≤ revision) && decide (after < e.discardedThrough)

/-- The entries that a frame at `revision` has reached and that count for it. -/
def reached (journal : List AccessibilityJournalEntry) (epoch : AccessibilityEpoch)
    (after revision : Nat) : List AccessibilityJournalEntry :=
  (journal.takeWhile fun entry => decide (entry.revision ≤ revision)).filter fun entry =>
    decide (entry.epoch = epoch ∧ after < entry.revision)

def behind (journal : List AccessibilityJournalEntry) (revision : Nat) : List AccessibilityJournalEntry :=
  journal.dropWhile fun entry => decide (entry.revision ≤ revision)

def mergeEntries (update : UpdateSummary) (entries : List AccessibilityJournalEntry) :
    UpdateSummary := entries.foldl (fun update entry => update.merge entry.update) update

def reduceUnless (full : Bool) (update : UpdateSummary) : UpdateSummary :=
  if full then update else snapshotDiffProvenance update

def merged (entries : List AccessibilityJournalEntry) : EvidenceSide :=
  let requires := e.requiresSnapshotDiff || entries.any (·.requiresSnapshotDiff)
  { e with
    requiresSnapshotDiff := requires
    update := reduceUnless (e.exact && !requires) (mergeEntries e.update entries) }

def noticeGap (revision after : Nat) : EvidenceSide :=
  let exact := e.exact && !e.gapIn revision after
  { e with exact := exact, update := reduceUnless exact e.update }

/-- What a frame of `epoch` at `revision` publishes. -/
def publish (revision : Nat) : EvidenceSide :=
  if epoch.generation < e.floor then { e with update := .default }
  else
    let e := e.enter epoch
    let after := max e.evidenceRevision epoch.startRevision
    if revision < after then { e with update := .default, evidenceRevision := revision }
    else
      { (e.noticeGap revision after).merged (reached e.journal epoch after revision) with
        journal := behind e.journal revision
        evidenceRevision := revision }

theorem provenance_reduceUnless (full : Bool) (update : UpdateSummary) :
    snapshotDiffProvenance (reduceUnless full update) = snapshotDiffProvenance update := by
  cases full with
  | true => rfl
  | false => rfl

theorem provenance_mergeEntries {update update' : UpdateSummary}
    (h : snapshotDiffProvenance update = snapshotDiffProvenance update')
    (entries : List AccessibilityJournalEntry) :
    snapshotDiffProvenance (mergeEntries update entries) =
      snapshotDiffProvenance (mergeEntries update' entries) := by
  induction entries generalizing update update' with
  | nil => exact h
  | cons entry rest ih =>
    apply ih
    rw [snapshotDiffProvenance_merge, snapshotDiffProvenance_merge, h]

def baseline : EvidenceSide :=
  { e with
    finalized := e.presented
    evidenceRevision := e.presented
    exact := true
    requiresSnapshotDiff := false
    update := .default }

theorem publish_live (revision : Nat) :
    (e.publish epoch revision).live = e.live ∧ (e.publish epoch revision).floor = e.floor := by
  have hentered : (e.enter epoch).live = e.live ∧ (e.enter epoch).floor = e.floor := by
    rw [enter]
    split
    · exact ⟨rfl, rfl⟩
    · exact ⟨rfl, rfl⟩
  rw [publish]
  split
  · exact ⟨rfl, rfl⟩
  · dsimp only
    split
    · exact hentered
    · exact hentered

/-- Where a gap starts once everything up to `revision` is settled. -/
def gapAfter (gapStart : Option Nat) (through revision : Nat) : Option Nat :=
  match gapStart with
  | some start =>
    if start ≤ revision then if through ≤ revision then none else some (saturatingAdd 64 revision 1)
    else some start
  | none => none

def discardThrough (revision : Nat) : EvidenceSide :=
  { e with
    journal := behind e.journal revision
    gapStart := gapAfter e.gapStart e.discardedThrough revision }

/-- Without exact evidence of plain output, the update keeps only what stays true of snapshots. -/
def Reduced : Prop :=
  (e.exact && !e.requiresSnapshotDiff) = false → snapshotDiffProvenance e.update = e.update

theorem merged_nil {e : EvidenceSide} (reduced : e.Reduced) : e.merged [] = e := by
  have hupdate : reduceUnless (e.exact && !e.requiresSnapshotDiff) e.update = e.update := by
    cases hfull : e.exact && !e.requiresSnapshotDiff with
    | true => rfl
    | false => exact reduced hfull
  simp only [merged, any_nil, Bool.or_false, mergeEntries, foldl_nil, hupdate]

theorem merged_reduced (entries : List AccessibilityJournalEntry) : (e.merged entries).Reduced := by
  intro hpart
  have hupdate : (e.merged entries).update = snapshotDiffProvenance (mergeEntries e.update entries) := by
    simp only [merged] at hpart ⊢
    rw [hpart]
    rfl
  rw [hupdate, snapshotDiffProvenance_idem]

/-- **Merging twice is merging once**, whether or not the text is kept. -/
theorem merged_append (entries more : List AccessibilityJournalEntry) :
    (e.merged entries).merged more = e.merged (entries ++ more) := by
  have hrequires : ((e.requiresSnapshotDiff || entries.any (·.requiresSnapshotDiff)) ||
      more.any (·.requiresSnapshotDiff)) =
        (e.requiresSnapshotDiff || (entries ++ more).any (·.requiresSnapshotDiff)) := by
    rw [any_append, Bool.or_assoc]
  have hupdate : ∀ full : Bool, (full = true → (e.exact && !(e.requiresSnapshotDiff ||
        entries.any (·.requiresSnapshotDiff))) = true) →
      reduceUnless full (mergeEntries (e.merged entries).update more) =
        reduceUnless full (mergeEntries e.update (entries ++ more)) := by
    intro full hfull
    have happend : mergeEntries e.update (entries ++ more) =
        mergeEntries (mergeEntries e.update entries) more := foldl_append ..
    rw [happend]
    cases full with
    | true =>
      simp only [merged, hfull rfl]
      rfl
    | false => exact provenance_mergeEntries (provenance_reduceUnless _ _) more
  have hmerged : (e.merged entries).merged more =
      { e with
        requiresSnapshotDiff := (e.requiresSnapshotDiff || entries.any (·.requiresSnapshotDiff)) ||
          more.any (·.requiresSnapshotDiff)
        update := reduceUnless (e.exact && !((e.requiresSnapshotDiff ||
            entries.any (·.requiresSnapshotDiff)) || more.any (·.requiresSnapshotDiff)))
          (mergeEntries (e.merged entries).update more) } := rfl
  rw [hmerged, hupdate _ ?_, hrequires]
  · rfl
  · intro hfull
    simp only [and_eq_true, not_eq_true', or_eq_false_iff] at hfull ⊢
    exact ⟨hfull.1, hfull.2.1⟩

theorem noticeGap_reduced {e : EvidenceSide} (reduced : e.Reduced) (revision after : Nat) :
    (e.noticeGap revision after).Reduced := by
  intro hpart
  simp only [noticeGap] at hpart ⊢
  cases hexact : e.exact && !e.gapIn revision after with
  | true =>
    rw [hexact, Bool.true_and] at hpart
    exact reduced (by rw [hpart, Bool.and_false])
  | false => rfl

theorem enter_reduced {e : EvidenceSide} (reduced : e.Reduced) (epoch : AccessibilityEpoch) :
    (e.enter epoch).Reduced := by
  rw [enter]
  split
  · intro _
    rfl
  · exact reduced

end EvidenceSide

def EvidenceSide.first (through : Nat) : EvidenceSide where
  live := 0
  presented := 0
  finalized := 0
  liveEpoch := ⟨2, 0⟩
  floor := 2
  presentedEpoch := ⟨2, 0⟩
  evidenceRevision := 0
  exact := true
  requiresSnapshotDiff := false
  journal := []
  gapStart := gapStart
  discardedThrough := through
  update := .default

theorem Covered.noteGap {gapStart : Option Nat} {through m : Nat} (h : Covered gapStart through m)
    (revision : Nat) :
    Covered (some (gapStart.elim revision fun start => min start revision)) (max through revision)
      m := by
  obtain ⟨⟨start, rfl, hstart⟩, hthrough⟩ := h
  exact ⟨⟨_, rfl, (min_le_left _ _).trans hstart⟩, hthrough.trans (le_max_left _ _)⟩

theorem covered_noteGap (through revision : Nat) :
    Covered (some (gapStart.elim revision fun start => min start revision)) (max through revision)
      revision := by
  refine ⟨⟨_, rfl, ?_⟩, le_max_right _ _⟩
  cases gapStart with
  | none => exact le_rfl
  | some start => exact min_le_right _ _

theorem EvidenceSide.gapIn_of_covered {e : EvidenceSide} {revision after m : Nat}
    (h : Covered e.gapStart e.discardedThrough m) (hafter : after < m) (hrevision : m ≤ revision) :
    e.gapIn revision after = true := by
  obtain ⟨⟨start, hstart, hle⟩, hthrough⟩ := h
  rw [gapIn, hstart, any_some, and_eq_true, decide_eq_true_eq, decide_eq_true_eq]
  omega

/-! ## The journal -/

namespace View

variable {view view' : View} (revision : Nat)

theorem noteAccessibilityEvidenceGap_evidenceSide (view : View) :
    (view.noteAccessibilityEvidenceGap revision).evidenceSide =
      { view.evidenceSide with
        gapStart := some (view.accessibilityJournalGapStart.elim revision fun start => min start revision)
        discardedThrough := max view.accessibilityJournalDiscardedThrough revision } := rfl

/-- A part of what was offered is left, and a gap covers the rest. -/
structure Retains (offered : List AccessibilityJournalEntry) (e e' : EvidenceSide) : Prop where
  rest : ∃ journal gapStart through, e' =
    { e with journal := journal, gapStart := gapStart, discardedThrough := through }
  sublist : e'.journal.Sublist offered
  covered : ∀ m, Covered e.gapStart e.discardedThrough m → Covered e'.gapStart e'.discardedThrough m
  lost : ∀ entry ∈ offered, entry ∉ e'.journal → Covered e'.gapStart e'.discardedThrough entry.revision

theorem evictWhileOverLimits_retains (journal : List AccessibilityJournalEntry) (view : View)
    (held : view.accessibilityJournal = journal) :
    Retains journal view.evidenceSide (evictWhileOverLimits journal view).evidenceSide := by
  induction journal generalizing view with
  | nil =>
    rw [evictWhileOverLimits]
    exact ⟨⟨_, _, _, rfl⟩, held ▸ .refl _, fun _ h => h, forall_mem_nil _⟩
  | cons entry rest ih =>
    rw [evictWhileOverLimits]
    split
    · obtain ⟨⟨journal, gapStart, through, hrest⟩, hsublist, hcovered, hlost⟩ :=
        ih ((view.dropOldest entry rest).noteAccessibilityEvidenceGap entry.revision) rfl
      refine ⟨⟨journal, gapStart, through, hrest⟩, hsublist.trans (sublist_cons_self _ _),
        fun m hm => hcovered m (hm.noteGap entry.revision), fun lost hmem habsent => ?_⟩
      rcases mem_cons.mp hmem with rfl | hmem
      · exact hcovered _ (covered_noteGap _ _ _)
      · exact hlost lost hmem habsent
    · refine ⟨⟨_, _, _, rfl⟩, held ▸ .refl _, fun _ h => h, fun lost hmem habsent => ?_⟩
      have hheld : view.evidenceSide.journal = entry :: rest := held
      rw [hheld] at habsent
      exact absurd hmem habsent

section Appending

variable [EvidenceLayout]

def liveEntry (e : EvidenceSide) (update : UpdateSummary) (requiresSnapshotDiff : Bool) :
    AccessibilityJournalEntry :=
  ⟨e.liveEpoch, e.live, update, requiresSnapshotDiff, accessibilityEvidenceRetainedBytes update⟩

/-- **The journal takes evidence, or notes where it is missing.** -/
theorem appendAccessibilityEvidence_retains (update : UpdateSummary) (requires : Bool) (view : View) :
    Retains (view.accessibilityJournal ++ [liveEntry view.evidenceSide update requires]) view.evidenceSide
      (view.appendAccessibilityEvidence update requires).evidenceSide := by
  rw [appendAccessibilityEvidence]
  split
  · refine ⟨⟨_, _, _, noteAccessibilityEvidenceGap_evidenceSide _ _⟩, sublist_append_left _ _,
      fun m hm => hm.noteGap _, fun lost hmem habsent => ?_⟩
    rcases mem_append.mp hmem with hold | hnew
    · exact absurd hold habsent
    · rw [mem_singleton.mp hnew]
      exact covered_noteGap _ _ _
  · have hevicted := evictWhileOverLimits_retains
      (view.accessibilityJournal ++ [liveEntry view.evidenceSide update requires])
      { view with
        accessibilityJournal := view.accessibilityJournal ++ [liveEntry view.evidenceSide update requires]
        accessibilityJournalBytes := saturatingAdd 64 view.accessibilityJournalBytes
          (accessibilityEvidenceRetainedBytes update) } rfl
    exact ⟨hevicted.rest, hevicted.sublist, hevicted.covered, hevicted.lost⟩

end Appending

/-! ## Publishing -/

variable (epoch : AccessibilityEpoch)

theorem enterEpoch_evidenceSide (view : View) :
    (view.enterEpoch epoch).evidenceSide = view.evidenceSide.enter epoch := by
  rw [enterEpoch, enter]
  split
  · rename_i hmoved
    rw [if_pos (by exact hmoved)]
    rfl
  · rename_i hsame
    rw [if_neg (by exact hsame)]

theorem publishEntry_evidenceSide {epoch : AccessibilityEpoch} {after : Nat}
    {entry : AccessibilityJournalEntry} (view : View) (reduced : view.evidenceSide.Reduced)
    (counts : entry.epoch = epoch ∧ after < entry.revision) :
    (view.publishEntry epoch after entry).evidenceSide = view.evidenceSide.merged [entry] := by
  have hskip : ¬ (entry.epoch ≠ epoch ∨ entry.revision ≤ after) := by
    rintro (hother | hold)
    · exact hother counts.1
    · exact absurd counts.2 (not_lt.mpr hold)
  have hone : view.evidenceSide.merged [entry] =
      { view.evidenceSide with
        requiresSnapshotDiff := view.presentedAccessibilityRequiresSnapshotDiff || entry.requiresSnapshotDiff
        update := reduceUnless (view.presentedAccessibilityEvidenceExact &&
            !(view.presentedAccessibilityRequiresSnapshotDiff || entry.requiresSnapshotDiff))
          (view.presentedUpdate.merge entry.update) } := by
    simp only [merged, any_cons, any_nil, Bool.or_false]
    rfl
  rw [hone, publishEntry, if_neg hskip]
  dsimp only
  cases hfull : view.presentedAccessibilityEvidenceExact &&
      !(view.presentedAccessibilityRequiresSnapshotDiff || entry.requiresSnapshotDiff) with
  | true => rfl
  | false =>
    -- An earlier entry may have reduced the update already; reducing it again changes nothing.
    have hpresented : (if entry.requiresSnapshotDiff then snapshotDiffProvenance view.presentedUpdate
        else view.presentedUpdate) = snapshotDiffProvenance view.presentedUpdate := by
      cases hrequires : entry.requiresSnapshotDiff with
      | true => rfl
      | false =>
        rw [hrequires, Bool.or_false] at hfull
        exact (reduced hfull).symm
    simp only [hpresented, reduceUnless, snapshotDiffProvenance_merge]
    rfl

/-- **The loop over the entries** takes those up to the revision and merges those that count. -/
theorem publishEntries_evidenceSide (after revision : Nat) (journal : List AccessibilityJournalEntry)
    (view : View) (held : view.accessibilityJournal = journal) (reduced : view.evidenceSide.Reduced) :
    (publishEntries epoch after revision journal view).evidenceSide =
      { view.evidenceSide.merged (reached journal epoch after revision) with
        journal := behind journal revision } := by
  induction journal generalizing view with
  | nil =>
    have hempty : reached [] epoch after revision = [] := rfl
    rw [publishEntries, hempty, merged_nil reduced, behind, dropWhile_nil, ← held]
    rfl
  | cons entry rest ih =>
    rw [publishEntries]
    split
    · rename_i hreached
      have hbehind : behind (entry :: rest) revision = behind rest revision := by
        rw [behind, dropWhile_cons_of_pos (by simpa using hreached)]
        rfl
      have hdropped : (view.dropOldest entry rest).evidenceSide =
          { view.evidenceSide with journal := rest } := rfl
      by_cases hcounts : entry.epoch = epoch ∧ after < entry.revision
      · have htaken : reached (entry :: rest) epoch after revision =
            [entry] ++ reached rest epoch after revision := by
          rw [reached, takeWhile_cons_of_pos (by simpa using hreached),
            filter_cons_of_pos (by simpa using hcounts)]
          rfl
        have hpublished := publishEntry_evidenceSide (view.dropOldest entry rest)
          (by rw [hdropped]; exact reduced) hcounts
        have hjournal := congrArg journal hpublished
        rw [ih _ hjournal (by rw [hpublished]; exact merged_reduced _ _), hpublished,
          merged_append, ← htaken, hbehind]
        rfl
      · have htaken : reached (entry :: rest) epoch after revision = reached rest epoch after revision := by
          rw [reached, takeWhile_cons_of_pos (by simpa using hreached),
            filter_cons_of_neg (by simpa using hcounts)]
          rfl
        have hskipped : (view.dropOldest entry rest).publishEntry epoch after entry =
            view.dropOldest entry rest := by
          rw [publishEntry, if_pos]
          by_cases hepoch : entry.epoch = epoch
          · exact .inr (not_lt.mp fun hafter => hcounts ⟨hepoch, hafter⟩)
          · exact .inl hepoch
        rw [hskipped, ih _ rfl (by rw [hdropped]; exact reduced), htaken, hbehind]
        rfl
    · rename_i hahead
      have hnone : reached (entry :: rest) epoch after revision = [] := by
        rw [reached, takeWhile_cons_of_neg (by simpa using hahead), filter_nil]
      have hbehind : behind (entry :: rest) revision = entry :: rest := by
        rw [behind, dropWhile_cons_of_neg (by simpa using hahead)]
      rw [hnone, merged_nil reduced, hbehind, ← held]
      rfl

/-- **A frame publishes** what the journal holds up to its revision. -/
theorem publishAccessibilityEvidence_evidenceSide {view : View} (reduced : view.evidenceSide.Reduced) :
    (view.publishAccessibilityEvidence epoch revision).evidenceSide =
      view.evidenceSide.publish epoch revision := by
  rw [publishAccessibilityEvidence, publish]
  split
  · rename_i hfloor
    rw [if_pos (by exact hfloor)]
    rfl
  · rename_i hfloor
    have hfloor' : ¬ epoch.generation < view.evidenceSide.floor := hfloor
    have hentered := enterEpoch_evidenceSide epoch view
    have hreduced := enter_reduced reduced epoch
    generalize view.enterEpoch epoch = entered at hentered ⊢
    rw [← hentered] at hreduced ⊢
    dsimp only
    split
    · rename_i hbehind
      rw [if_pos (by exact hbehind)]
      rfl
    · rename_i hreached
      have hreached' : ¬ revision < max entered.evidenceSide.evidenceRevision epoch.startRevision := hreached
      rw [if_neg hreached']
      have hnoticed : (entered.noticeGap revision (max
          entered.presentedAccessibilityEvidenceRevision epoch.startRevision)).evidenceSide =
            entered.evidenceSide.noticeGap revision (max
              entered.presentedAccessibilityEvidenceRevision epoch.startRevision) := rfl
      have hpublished := publishEntries_evidenceSide epoch
        (max entered.presentedAccessibilityEvidenceRevision epoch.startRevision) revision
        entered.accessibilityJournal
        (entered.noticeGap revision
          (max entered.presentedAccessibilityEvidenceRevision epoch.startRevision)) rfl
        (by rw [hnoticed]; exact noticeGap_reduced hreduced _ _)
      exact congrArg (fun e : EvidenceSide => { e with evidenceRevision := revision }) hpublished

/-! ## Calls -/

theorem beginAccessibilityEpoch_evidenceSide (h : view.beginAccessibilityEpoch = some view') :
    view'.evidenceSide =
      { view.evidenceSide with
        liveEpoch := ⟨view.liveAccessibilityEpoch.generation + 1, view.liveRevision⟩ } := by
  simp only [beginAccessibilityEpoch, checkedAdd, bind_eq_bind, bind_eq_some_iff,
    ite_none_right_eq_some, some.injEq] at h
  obtain ⟨generation, ⟨-, rfl⟩, rfl⟩ := h
  rfl

theorem advanceLiveRevision_evidenceSide (h : view.advanceLiveRevision = some view') :
    view'.evidenceSide = { view.evidenceSide with live := view.liveRevision + 1 } ∧
      view.liveRevision + 1 < 2 ^ 64 := by
  simp only [advanceLiveRevision, checkedAdd, bind_eq_bind, bind_eq_some_iff,
    ite_none_right_eq_some, some.injEq] at h
  obtain ⟨-, ⟨hfits, rfl⟩, rfl⟩ := h
  exact ⟨rfl, hfits⟩

theorem advanceLiveHistoryRevision_evidenceSide (h : view.advanceLiveHistoryRevision = some view') :
    view'.evidenceSide = view.evidenceSide := by
  simp only [advanceLiveHistoryRevision, bind_eq_bind, bind_eq_some_iff, some.injEq] at h
  obtain ⟨-, -, rfl⟩ := h
  rfl

/-- **A handoff** starts the evidence over in an epoch of its own. -/
theorem resetAccessibilityJournalForHandoff_evidenceSide
    (h : view.resetAccessibilityJournalForHandoff = some view') :
    ∃ gapStart through, view'.evidenceSide =
      { view.evidenceSide with
        liveEpoch := ⟨view.liveAccessibilityEpoch.generation + 1, view.liveRevision⟩
        floor := view.liveAccessibilityEpoch.generation + 1
        presentedEpoch := ⟨view.liveAccessibilityEpoch.generation + 1, view.liveRevision⟩
        evidenceRevision := view.presentedRevision
        exact := true
        requiresSnapshotDiff := false
        journal := []
        gapStart := gapStart
        discardedThrough := through } := by
  simp only [resetAccessibilityJournalForHandoff, bind_eq_bind, bind_eq_some_iff, some.injEq] at h
  obtain ⟨next, hepoch, rfl⟩ := h
  have hnext := beginAccessibilityEpoch_evidenceSide hepoch
  have hreset : ∀ v : View, { v with
      accessibilityEpochFloorGeneration := v.liveAccessibilityEpoch.generation
      presentedAccessibilityEpoch := v.liveAccessibilityEpoch
      presentedAccessibilityEvidenceRevision := v.presentedRevision
      presentedAccessibilityEvidenceExact := true
      presentedAccessibilityRequiresSnapshotDiff := false }.evidenceSide =
        { v.evidenceSide with
          floor := v.evidenceSide.liveEpoch.generation
          presentedEpoch := v.evidenceSide.liveEpoch
          evidenceRevision := v.evidenceSide.presented
          exact := true
          requiresSnapshotDiff := false } := fun _ => rfl
  rw [hreset, hnext]
  split
  · exact ⟨_, _, rfl⟩
  · exact ⟨_, _, rfl⟩

theorem clearUpdateSummary_evidenceSide (h : view.clearUpdateSummary = some view') :
    ∃ gapStart through, view'.evidenceSide =
      { view.evidenceSide with
        liveEpoch := ⟨view.liveAccessibilityEpoch.generation + 1, view.liveRevision⟩
        floor := view.liveAccessibilityEpoch.generation + 1
        presentedEpoch := ⟨view.liveAccessibilityEpoch.generation + 1, view.liveRevision⟩
        evidenceRevision := view.presentedRevision
        exact := true
        requiresSnapshotDiff := false
        journal := []
        gapStart := gapStart
        discardedThrough := through
        update := .default } := by
  obtain ⟨gapStart, through, hside⟩ := resetAccessibilityJournalForHandoff_evidenceSide h
  exact ⟨gapStart, through, hside⟩

theorem discardEntries_evidenceSide (journal : List AccessibilityJournalEntry)
    (view : View) (held : view.accessibilityJournal = journal) :
    (discardEntries revision journal view).evidenceSide =
      { view.evidenceSide with journal := behind journal revision } := by
  induction journal generalizing view with
  | nil =>
    rw [discardEntries, behind, dropWhile_nil, ← held]
    rfl
  | cons entry rest ih =>
    rw [discardEntries, behind]
    split
    · rename_i hreached
      rw [dropWhile_cons_of_pos (by simpa using hreached), ih _ rfl]
      rfl
    · rename_i hahead
      rw [dropWhile_cons_of_neg (by simpa using hahead), ← held]
      rfl

theorem discardAccessibilityJournalThrough_evidenceSide (view : View) :
    (view.discardAccessibilityJournalThrough revision).evidenceSide =
      { view.evidenceSide with
        journal := behind view.accessibilityJournal revision
        gapStart := gapAfter view.accessibilityJournalGapStart
          view.accessibilityJournalDiscardedThrough revision } := by
  have hdiscarded := discardEntries_evidenceSide revision view.accessibilityJournal view rfl
  rw [discardAccessibilityJournalThrough]
  generalize discardEntries revision view.accessibilityJournal view = discarded at hdiscarded ⊢
  have hgap : discarded.accessibilityJournalGapStart = view.accessibilityJournalGapStart :=
    congrArg gapStart hdiscarded
  have hthrough : discarded.accessibilityJournalDiscardedThrough =
      view.accessibilityJournalDiscardedThrough := congrArg discardedThrough hdiscarded
  have hrevised : ∀ (v : View) (gap : Option Nat), { v with
      accessibilityJournalGapStart := gap }.evidenceSide = { v.evidenceSide with gapStart := gap } :=
    fun _ _ => rfl
  have hsame : discarded.evidenceSide =
      { view.evidenceSide with
        journal := behind view.accessibilityJournal revision
        gapStart := view.accessibilityJournalGapStart } := hdiscarded
  rw [hgap, ← hthrough]
  cases hstart : view.accessibilityJournalGapStart with
  | none =>
    rw [hstart] at hsame
    exact hsame
  | some start =>
    simp only [gapAfter]
    split
    · rw [hrevised, hdiscarded]
    · rw [hstart] at hsame
      exact hsame

/-- **A finalization** takes what is presented as the baseline, unless it is already. -/
theorem finalizeChanges_evidenceSide (nowMs : Nat) (view : View) :
    (view.finalizeChanges nowMs).evidenceSide = view.evidenceSide ∨
      (view.finalizeChanges nowMs).evidenceSide =
        view.evidenceSide.baseline.discardThrough view.presentedRevision := by
  rw [finalizeChanges]
  split
  · exact .inl rfl
  · right
    have hprev := advancePrevScreen_evidenceSide view
    have hbaseline : ∀ v : View, v.baselineEvidence.evidenceSide = v.evidenceSide.baseline := fun _ => rfl
    rw [finishFinalize_evidenceSide, discardAccessibilityJournalThrough_evidenceSide, hbaseline, hprev]
    have hpresented : view.advancePrevScreen.baselineEvidence.presentedRevision =
        view.presentedRevision := congrArg presented hprev
    have hjournal : view.advancePrevScreen.baselineEvidence.accessibilityJournal =
        view.accessibilityJournal := congrArg journal hprev
    have hgap : view.advancePrevScreen.baselineEvidence.accessibilityJournalGapStart =
        view.accessibilityJournalGapStart := congrArg gapStart hprev
    have hthrough : view.advancePrevScreen.baselineEvidence.accessibilityJournalDiscardedThrough =
        view.accessibilityJournalDiscardedThrough := congrArg discardedThrough hprev
    rw [hpresented, hjournal, hgap, hthrough]
    rfl

/-- **A resize** counts as one revision. -/
theorem setSize_evidenceSide {terminal : NativeTerminal} (h : view.setSize terminal = some view') :
    view'.evidenceSide = { view.evidenceSide with live := view.liveRevision + 1 } ∧
      view.liveRevision + 1 < 2 ^ 64 := by
  have hfrozen := view.freezeCurrentAccessibility_evidenceSide
  generalize hv0 : view.freezeCurrentAccessibility = v0 at hfrozen
  simp only [setSize, hv0, bind_eq_bind, bind_eq_some_iff, some.injEq] at h
  obtain ⟨v1, h1, v2, h2, rfl⟩ := h
  have hresized : { v0 with engine := v0.engine.refresh terminal }.evidenceSide = view.evidenceSide := hfrozen
  generalize { v0 with engine := v0.engine.refresh terminal } = resized at h1 hresized
  obtain ⟨hrevision, hfits⟩ := advanceLiveRevision_evidenceSide h1
  have hlive : resized.liveRevision = view.liveRevision := congrArg live hresized
  have hdropped : ∀ v : View, { v with sharedLiveHistory := none }.evidenceSide = v.evidenceSide := fun _ => rfl
  rw [hlive] at hfits hrevision
  refine ⟨?_, hfits⟩
  rw [invalidateVisibleCache_evidenceSide, noteHistoryChanged_evidenceSide, keepReview_evidenceSide,
    hdropped, advanceLiveHistoryRevision_evidenceSide h2, hrevision, hresized]

/-! ### Calls that record -/

section Recording

variable [EvidenceLayout]

inductive Records (e : EvidenceSide) (evidence : Option UpdateSummary) (requires : Bool)
    (e' : EvidenceSide) : Prop
  | taken (update : UpdateSummary) (some_ : evidence = some update)
      (retains : Retains (e.journal ++ [liveEntry e update requires]) e e')
  | missing (none_ : evidence = none) (retains : Retains e.journal e e')
      (gap : Covered e'.gapStart e'.discardedThrough e.live)

theorem recordBatch_records (batch : Batch) (activity : Bool) (view : View) :
    Records view.evidenceSide batch.evidence activity (view.recordBatch batch activity).evidenceSide := by
  rw [recordBatch]
  split
  · rename_i update hsome
    exact .taken update hsome (appendAccessibilityEvidence_retains update activity view)
  · rename_i hnone
    refine .missing hnone ⟨⟨_, _, _, rfl⟩, .refl _, fun m hm => hm.noteGap _,
      fun entry hmem habsent => absurd hmem habsent⟩ (covered_noteGap _ _ _)

/-- **A batch** perhaps begins an epoch, counts as one revision and is recorded under it. -/
theorem processChanges_evidenceSide {batch : Batch} {report : Option UpdateSummary}
    (h : view.processChanges batch = some (report, view')) : view.liveRevision + 1 < 2 ^ 64 ∧
      ∃ epoch, (epoch = view.liveAccessibilityEpoch ∨
          epoch = ⟨view.liveAccessibilityEpoch.generation + 1, view.liveRevision⟩) ∧
        Records { view.evidenceSide with live := view.liveRevision + 1, liveEpoch := epoch }
          batch.evidence (batch.synchronizedActivity view.engine.snapshot) view'.evidenceSide := by
  have hfrozen := view.freezeCurrentAccessibility_evidenceSide
  have hengine : view.freezeCurrentAccessibility.engine = view.engine := by
    rw [freezeCurrentAccessibility]
    split
    · rfl
    · rfl
  generalize hv0 : view.freezeCurrentAccessibility = v0 at hfrozen hengine
  simp only [processChanges, hv0, bind_eq_bind, bind_eq_some_iff] at h
  obtain ⟨v1, h1, v2, h2, v3, h3, -, rfl⟩ := h
  have hmoved : v1.evidenceSide = view.evidenceSide := by
    rw [advanceHistoryIf] at h1
    split at h1
    · rw [advanceLiveHistoryRevision_evidenceSide h1, parseBatch_evidenceSide, hfrozen]
    · rw [← some.inj h1, parseBatch_evidenceSide, hfrozen]
  have hlive : v1.liveRevision = view.liveRevision := congrArg live hmoved
  have hepoch : v1.liveAccessibilityEpoch = view.liveAccessibilityEpoch := congrArg liveEpoch hmoved
  have hbegun : ∃ epoch, (epoch = view.liveAccessibilityEpoch ∨
      epoch = ⟨view.liveAccessibilityEpoch.generation + 1, view.liveRevision⟩) ∧
        v2.evidenceSide = { view.evidenceSide with liveEpoch := epoch } := by
    rw [beginEpochIf] at h2
    split at h2
    · refine ⟨_, .inr rfl, ?_⟩
      rw [beginAccessibilityEpoch_evidenceSide h2, hmoved, hlive, hepoch]
    · refine ⟨_, .inl rfl, ?_⟩
      rw [← some.inj h2, hmoved]
      rfl
  obtain ⟨epoch, hcases, hside⟩ := hbegun
  obtain ⟨hadvanced, hfits⟩ := advanceLiveRevision_evidenceSide h3
  have hlive' : (v2.noteBoundary batch.update).liveRevision = view.liveRevision := congrArg live hside
  rw [hlive'] at hfits
  refine ⟨hfits, epoch, hcases, ?_⟩
  have hrecorded := recordBatch_records batch (batch.synchronizedActivity v0.engine.snapshot)
    (v3.noteSynchronizedActivity (batch.synchronizedActivity v0.engine.snapshot))
  rw [noteSynchronizedActivity_evidenceSide, hadvanced, noteBoundary_evidenceSide, hside, hlive'] at hrecorded
  rw [followBatch_evidenceSide, ← hengine]
  exact hrecorded

theorem enablePresentationTracking_evidenceSide (fresh : view.Standalone)
    (h : view.enablePresentationTracking = some view') : ∃ gapStart through,
      (view.frozen = false ∧ view'.evidenceSide = first gapStart through) ∨
      (view.frozen = true ∧ Retains [liveEntry { first gapStart through with live := 1 } .default true]
          { first gapStart through with live := 1 } view'.evidenceSide) := by
  have hpresented : ∀ v : View, v.presentCommitted.evidenceSide =
      { v.evidenceSide with presented := 0 } := fun _ => rfl
  simp only [enablePresentationTracking, fresh.presentationTracking, false_eq_true, if_false,
    bind_eq_bind, bind_eq_some_iff, some.injEq] at h
  obtain ⟨v1, h1, v2, h2, rfl⟩ := h
  obtain ⟨gapStart, through, hreset⟩ := resetAccessibilityJournalForHandoff_evidenceSide h1
  have hside : v1.evidenceSide = first gapStart through := by
    rw [hreset]
    simp only [evidenceSide, first, fresh.liveRevision, fresh.presentedRevision,
      fresh.finalizedPresentedRevision, fresh.liveAccessibilityEpoch, fresh.presentedUpdate]
  refine ⟨gapStart, through, ?_⟩
  rw [hpresented]
  simp only [commitOrOpen] at h2
  split at h2
  · rename_i hfrozen
    simp only [openTracked, bind_eq_bind, bind_eq_some_iff, some.injEq] at h2
    obtain ⟨v3, h3, rfl⟩ := h2
    obtain ⟨hadvanced, -⟩ := advanceLiveRevision_evidenceSide h3
    have hlive : v1.liveRevision = 0 := congrArg live hside
    rw [hside, hlive] at hadvanced
    have hopened : { v3 with
        liveHistoryRevision := 1
        sharedLiveHistory := none
        unpresentedSynchronizedOutput := true }.evidenceSide =
          { first gapStart through with live := 1 } := hadvanced
    generalize { v3 with
      liveHistoryRevision := 1
      sharedLiveHistory := none
      unpresentedSynchronizedOutput := true } = opened at hopened ⊢
    have hretains := appendAccessibilityEvidence_retains .default true opened
    have hjournal : opened.accessibilityJournal = [] := congrArg journal hopened
    rw [hopened, hjournal] at hretains
    have hzero : ∀ e e' : EvidenceSide, e'.presented = 0 → Retains [liveEntry e .default true] e e' →
        Retains [liveEntry e .default true] e { e' with presented := 0 } := by
      intro e e' hzero hkept
      rw [← hzero]
      exact hkept
    refine .inr ⟨hfrozen, hzero _ _ ?_ hretains⟩
    obtain ⟨journal, gap, stop, hrest⟩ := hretains.rest
    rw [hrest]
    rfl
  · rename_i hfrozen
    cases h2
    have hcommitted : v1.commitLiveHistory.evidenceSide = v1.evidenceSide := rfl
    rw [hcommitted, hside]
    exact .inl ⟨eq_false_iff.mpr hfrozen, rfl⟩

end Recording

/-! ## Captures -/

theorem presentationHistoryIfChanged_shared {history : Option (PresentedHistoryDelta Row)}
    (h : view.presentationHistoryIfChanged = some (history, view')) :
    ∃ shared, view' = { view with sharedLiveHistory := shared } := by
  rw [presentationHistoryIfChanged] at h
  split at h
  · simp only [some.injEq, Prod.mk.injEq] at h
    exact ⟨view.sharedLiveHistory, h.2.symm⟩
  split at h
  · simp only [some.injEq, Prod.mk.injEq] at h
    exact ⟨view.sharedLiveHistory, h.2.symm⟩
  · simp only [bind_eq_bind, bind_eq_some_iff] at h
    obtain ⟨delta, -, -, rfl⟩ := h
    exact ⟨some delta, rfl⟩

/-- **A frame of the live model** carries the live revisions and the live epoch. -/
structure CapturedLive (view : View) (frame : PresentedViewFrame) (view' : View) : Prop where
  revision : frame.revision = view.liveRevision
  epoch : frame.accessibilityEpoch = view.liveAccessibilityEpoch
  historyRevision : frame.historyRevision = view.liveHistoryRevision
  evidence : view'.evidenceSide = view.evidenceSide
  history : ∃ shared, view'.historySide = { view.historySide with shared := shared }

theorem captureLivePresentationFrame_captured {surfaceId : SurfaceId} {frame : PresentedViewFrame}
    (h : view.captureLivePresentationFrame surfaceId = some (frame, view')) :
    CapturedLive view frame view' := by
  have hevidence := view.liveScreen_evidenceSide
  have hhistory := view.liveScreen_historySide
  simp only [captureLivePresentationFrame, bind_eq_bind, bind_eq_some_iff, Prod.exists] at h
  obtain ⟨history, view1, hchanged, rfl, rfl⟩ := h
  obtain ⟨shared, rfl⟩ := presentationHistoryIfChanged_shared hchanged
  exact
    { revision := congrArg live hevidence
      epoch := congrArg liveEpoch hevidence
      historyRevision := congrArg HistorySide.live hhistory
      evidence := hevidence
      history := ⟨shared, congrArg (fun side : HistorySide => { side with shared := shared }) hhistory⟩ }

theorem captureCommittedPresentationFrame_sides (surfaceId : SurfaceId) (view : View) :
    (view.captureCommittedPresentationFrame surfaceId).2.historySide = view.historySide ∧
      (view.captureCommittedPresentationFrame surfaceId).2.evidenceSide = view.evidenceSide := by
  simp only [captureCommittedPresentationFrame, committedPresentationSnapshot]
  split
  · exact ⟨rfl, rfl⟩
  · exact ⟨view.liveScreen_historySide, view.liveScreen_evidenceSide⟩

/-! ## Receipts -/

theorem installPresentedSnapshot_evidenceSide (snapshot : TerminalSnapshot) (caughtUp : Bool) (view : View) :
    (view.installPresentedSnapshot snapshot caughtUp).evidenceSide = view.evidenceSide := by
  simp only [installPresentedSnapshot, invalidateVisibleCache_evidenceSide, clampReviewCursor_evidenceSide]
  split
  · rfl
  · rfl

/-- **An installed frame publishes its evidence.** -/
theorem finishPresentedFrame_evidenceSide (frame : PresentedViewFrame) (scrollback : List Row)
    (historyRevision : Nat) (historyBasis : PresentedHistoryBasis) {view : View}
    (reduced : view.evidenceSide.Reduced) :
    (view.finishPresentedFrame frame scrollback historyRevision historyBasis).evidenceSide =
      ({ view.evidenceSide with presented := frame.revision }).publish frame.accessibilityEpoch
        frame.revision := by
  have hadopted : (view.adoptFrame frame historyRevision historyBasis).evidenceSide =
      { view.evidenceSide with presented := frame.revision } := rfl
  have hsettled : ∀ (v : View) (caughtUp : Bool),
      (v.settlePresentation caughtUp).evidenceSide = v.evidenceSide := fun _ _ => rfl
  rw [finishPresentedFrame]
  rw [hsettled, publishAccessibilityEvidence_evidenceSide, installPresentedSnapshot_evidenceSide, hadopted]
  rw [installPresentedSnapshot_evidenceSide]
  exact reduced

end View

end Lector.Accessibility
