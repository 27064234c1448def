import Lector.View.State

/-! The accessibility journal of a view (`src/view.rs`): what the parser reported of each batch, kept
until a presented frame reaches it, and the gaps where a report is missing. -/
namespace Lector.Accessibility
open Terminal

class EvidenceLayout where
  journalEntry : Nat
  printedRun : Nat
  rowRange : Nat

/-! ## Evidence -/

def takeNormalizedAccessibilityEvidence (update : UpdateSummary) (preserveRendererDamage : Bool) :
    UpdateSummary × UpdateSummary :=
  ({ UpdateSummary.default with
      printedRuns := update.printedRuns
      outputReportStructural := update.outputReportStructural
      parserContinuation := update.parserContinuation
      cursorOperations := update.cursorOperations
      cursorOperationsAfterLastLineFeed := update.cursorOperationsAfterLastLineFeed
      lineFeedBoundaries := update.lineFeedBoundaries
      scrollOperations := update.scrollOperations
      changedRows := update.changedRows
      cursorBefore := update.cursorBefore
      screenBefore := update.screenBefore
      screenAfter := update.screenAfter
      semanticInputBoundary := update.semanticInputBoundary
      batchCount := update.batchCount },
    { update with
      printedRuns := []
      changedRows := if preserveRendererDamage then update.changedRows else [] })

def snapshotDiffProvenance (update : UpdateSummary) : UpdateSummary :=
  { UpdateSummary.default with
    outputReportStructural := update.outputReportStructural
    cursorOperations := update.cursorOperations
    cursorOperationsAfterLastLineFeed := update.cursorOperationsAfterLastLineFeed
    lineFeedBoundaries := update.lineFeedBoundaries
    scrollOperations := update.scrollOperations
    cursorBefore := update.cursorBefore
    cursorAfter := update.cursorAfter
    screenBefore := update.screenBefore
    screenAfter := update.screenAfter
    batchCount := update.batchCount }

def accessibilityEvidenceRetainedBytes [EvidenceLayout] (update : UpdateSummary) : Nat :=
  let entry := EvidenceLayout.journalEntry
  let runs := min (update.printedRuns.length * EvidenceLayout.printedRun) (2 ^ 64 - 1)
  let texts := (update.printedRuns.map fun run => run.text.utf8ByteSize).sum
  let ranges := min (update.changedRows.length * EvidenceLayout.rowRange) (2 ^ 64 - 1)
  saturatingAdd 64 (saturatingAdd 64 (saturatingAdd 64 entry runs) texts) ranges

/-! ## Journal operations -/

namespace View

variable (view : View)

def beginAccessibilityEpoch : Option View := do
  let generation ← checkedAdd view.liveAccessibilityEpoch.generation 1
  some { view with liveAccessibilityEpoch := ⟨generation, view.liveRevision⟩ }

def noteAccessibilityEvidenceGap (revision : Nat) : View :=
  { view with
    accessibilityJournalGapStart :=
      some (view.accessibilityJournalGapStart.elim revision fun start => min start revision)
    accessibilityJournalDiscardedThrough := max view.accessibilityJournalDiscardedThrough revision }

def resetAccessibilityJournalForHandoff : Option View := do
  let view :=
    if view.finalizedPresentedRevision < view.liveRevision then
      { view.noteAccessibilityEvidenceGap (saturatingAdd 64 view.finalizedPresentedRevision 1) with
        accessibilityJournalDiscardedThrough := view.liveRevision }
    else view
  let view ← beginAccessibilityEpoch
    { view with
      completedLinearRecordCache := none
      accessibilityJournal := []
      accessibilityJournalBytes := 0 }
  some
    { view with
      accessibilityEpochFloorGeneration := view.liveAccessibilityEpoch.generation
      presentedAccessibilityEpoch := view.liveAccessibilityEpoch
      presentedAccessibilityEvidenceRevision := view.presentedRevision
      presentedAccessibilityEvidenceExact := true
      presentedAccessibilityRequiresSnapshotDiff := false }

/-- The journal gives up `entry`, its oldest. -/
def dropOldest (entry : AccessibilityJournalEntry) (rest : List AccessibilityJournalEntry) : View :=
  { view with
    accessibilityJournal := rest
    accessibilityJournalBytes := view.accessibilityJournalBytes - entry.retainedBytes }

def evictWhileOverLimits : List AccessibilityJournalEntry → View → View
  | [], view => view
  | entry :: rest, view =>
    if accessibilityJournalMaxEntries < (entry :: rest).length ∨
        accessibilityJournalMaxBytes < view.accessibilityJournalBytes then
      evictWhileOverLimits rest
        ((view.dropOldest entry rest).noteAccessibilityEvidenceGap entry.revision)
    else view

def appendAccessibilityEvidence [EvidenceLayout] (update : UpdateSummary)
    (requiresSnapshotDiff : Bool) : View :=
  let retainedBytes := accessibilityEvidenceRetainedBytes update
  if accessibilityJournalMaxBytes < retainedBytes then
    view.noteAccessibilityEvidenceGap view.liveRevision
  else
    let entry : AccessibilityJournalEntry :=
      ⟨view.liveAccessibilityEpoch, view.liveRevision, update, requiresSnapshotDiff, retainedBytes⟩
    let journal := view.accessibilityJournal ++ [entry]
    evictWhileOverLimits journal
      { view with
        accessibilityJournal := journal
        accessibilityJournalBytes := saturatingAdd 64 view.accessibilityJournalBytes retainedBytes }

def publishEntry (epoch : AccessibilityEpoch) (requiredAfter : Nat)
    (entry : AccessibilityJournalEntry) : View :=
  if entry.epoch ≠ epoch ∨ entry.revision ≤ requiredAfter then view
  else
    let requires := view.presentedAccessibilityRequiresSnapshotDiff || entry.requiresSnapshotDiff
    { view with
      presentedAccessibilityRequiresSnapshotDiff := requires
      presentedUpdate :=
        if view.presentedAccessibilityEvidenceExact && !requires then
          view.presentedUpdate.merge entry.update
        else
          let presented :=
            if entry.requiresSnapshotDiff then snapshotDiffProvenance view.presentedUpdate
            else view.presentedUpdate
          presented.merge (snapshotDiffProvenance entry.update) }

def publishEntries (epoch : AccessibilityEpoch) (requiredAfter revision : Nat) :
    List AccessibilityJournalEntry → View → View
  | [], view => view
  | entry :: rest, view =>
    if entry.revision ≤ revision then
      publishEntries epoch requiredAfter revision rest
        ((view.dropOldest entry rest).publishEntry epoch requiredAfter entry)
    else view

def enterEpoch (epoch : AccessibilityEpoch) : View :=
  if view.presentedAccessibilityEpoch ≠ epoch then
    { view with
      presentedAccessibilityEpoch := epoch
      presentedAccessibilityEvidenceRevision := epoch.startRevision
      presentedAccessibilityEvidenceExact := true
      presentedAccessibilityRequiresSnapshotDiff := false
      presentedUpdate := .default }
  else view

def discardedInRequiredRange (revision requiredAfter : Nat) : Bool :=
  view.accessibilityJournalGapStart.any fun start =>
    start ≤ revision && requiredAfter < view.accessibilityJournalDiscardedThrough

def noticeGap (revision requiredAfter : Nat) : View :=
  let exact := view.presentedAccessibilityEvidenceExact &&
    !view.discardedInRequiredRange revision requiredAfter
  { view with
    presentedAccessibilityEvidenceExact := exact
    presentedUpdate :=
      if exact then view.presentedUpdate else snapshotDiffProvenance view.presentedUpdate }

def publishAccessibilityEvidence (epoch : AccessibilityEpoch) (revision : Nat) : View :=
  if epoch.generation < view.accessibilityEpochFloorGeneration then
    { view with presentedUpdate := .default }
  else
    let view := view.enterEpoch epoch
    let requiredAfter := max view.presentedAccessibilityEvidenceRevision epoch.startRevision
    if revision < requiredAfter then
      { view with
        presentedUpdate := .default
        presentedAccessibilityEvidenceRevision := revision }
    else
      let view := view.noticeGap revision requiredAfter
      { publishEntries epoch requiredAfter revision view.accessibilityJournal view with
        presentedAccessibilityEvidenceRevision := revision }

def discardEntries (revision : Nat) : List AccessibilityJournalEntry → View → View
  | [], view => view
  | entry :: rest, view =>
    if entry.revision ≤ revision then discardEntries revision rest (view.dropOldest entry rest)
    else view

def discardAccessibilityJournalThrough (revision : Nat) : View :=
  let view := discardEntries revision view.accessibilityJournal view
  match view.accessibilityJournalGapStart with
  | some gapStart =>
    if gapStart ≤ revision then
      { view with
        accessibilityJournalGapStart :=
          if view.accessibilityJournalDiscardedThrough ≤ revision then none
          else some (saturatingAdd 64 revision 1) }
    else view
  | none => view

end View

end Lector.Accessibility
