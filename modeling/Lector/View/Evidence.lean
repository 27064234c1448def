import Lector.View.Epochs
import Lector.View.Scrollback

/-! Evidence is never unsound: in every run, exact evidence is the merge of all batches between its
baseline and the presented revision, and a batch that is missing there costs it its exactness. -/
namespace Lector.Accessibility
open Output Terminal EvidenceSide View LoggedBatch
open Option hiding any_map filter_filter filter_map max mem_map mem_map_of_mem
open List hiding max

/-! ## The interval -/

def AccessibilityJournalEntry.batch (entry : AccessibilityJournalEntry) : LoggedBatch :=
  ⟨entry.epoch, entry.revision, some entry.update, entry.requiresSnapshotDiff⟩

variable (e : EvidenceSide)

/-- What was presented when changes were last finalized, or the start of the epoch. -/
def EvidenceSide.base : Nat := max e.finalized e.presentedEpoch.startRevision

def EvidenceSide.cut : Nat := max e.presented e.presentedEpoch.startRevision

def EvidenceSide.interval (log : List LoggedBatch) : List LoggedBatch :=
  spanOf LoggedBatch.revision e.base e.presented log

variable (batches : List LoggedBatch)

def mergedEvidence : UpdateSummary := .mergeAll (batches.filterMap (·.evidence))

/-- All of the batches, or what stays true of snapshots where one needs them compared. -/
def publishedEvidence : UpdateSummary :=
  reduceUnless (!batches.any (·.requiresSnapshotDiff)) (mergedEvidence batches)

/-! ## The invariant -/

/-- What holds between the evidence of a view, the batches it has parsed and those it has lost. -/
structure Evident (epochs : List AccessibilityEpoch) (log : List LoggedBatch) (lost : List Nat)
    (e : EvidenceSide) : Prop where
  timeline : Timeline epochs e.live e.liveEpoch
  current : Stamped epochs e.live e.floor e.liveEpoch e.live
  presented : Stamped epochs e.live e.floor e.presentedEpoch e.presented
  batches : ∀ b ∈ log, Placed epochs e.live b.epoch b.revision ∧ b.epoch.startRevision < b.revision
  increasing : Increasing LoggedBatch.revision log
  floor : e.floor ≤ e.presentedEpoch.generation
  finalized : e.finalized ≤ e.presented
  settled : max e.evidenceRevision e.presentedEpoch.startRevision = e.cut
  journal : (e.journal.map (·.batch)).Sublist log
  ahead : ∀ entry ∈ e.journal, e.presented < entry.revision
  recent : ∀ entry ∈ e.journal, e.floor ≤ entry.epoch.generation
  kept : ∀ b ∈ log, e.cut < b.revision → b.revision ∈ lost ∨ b ∈ e.journal.map (·.batch)
  bounded : ∀ m ∈ lost, m ≤ e.live
  gaps : ∀ m ∈ lost, e.cut < m → Covered e.gapStart e.discardedThrough m
  reduced : e.Reduced
  complete : e.exact = true → ∀ b ∈ e.interval log, b.evidence.isSome ∧ b.revision ∉ lost
  merged : e.exact = true → e.requiresSnapshotDiff = (e.interval log).any (·.requiresSnapshotDiff) ∧
      e.update = publishedEvidence (e.interval log)

variable {epochs : List AccessibilityEpoch} {log : List LoggedBatch} {lost : List Nat}
  {e : EvidenceSide}

theorem not_mem_interval (h : e.presented ≤ e.base) (b : LoggedBatch) : b ∉ e.interval log := by
  rw [EvidenceSide.interval, spanOf_eq_nil h]
  exact not_mem_nil

theorem merged_nothing (h : e.presented ≤ e.base) (plain : e.requiresSnapshotDiff = false)
    (fresh : e.update = .default) :
    e.requiresSnapshotDiff = (e.interval log).any (·.requiresSnapshotDiff) ∧
      e.update = publishedEvidence (e.interval log) := by
  rw [EvidenceSide.interval, spanOf_eq_nil h, plain, fresh]
  exact ⟨rfl, rfl⟩

section

variable (h : Evident epochs log lost e)
include h

theorem Evident.interval_epoch {b : LoggedBatch}
    (member : b ∈ e.interval log) : b.epoch = e.presentedEpoch := by
  obtain ⟨hmem, hafter, hupTo⟩ := mem_spanOf.mp member
  obtain ⟨hplaced, hown⟩ := h.batches b hmem
  have hstart : e.presentedEpoch.startRevision ≤ e.base := le_max_right _ _
  exact h.timeline.epoch_eq h.presented.toPlaced hplaced hown (by omega) hupTo

theorem Evident.journal_increasing : Increasing AccessibilityJournalEntry.revision e.journal := by
  have hsub := h.increasing.sublist h.journal
  rw [pairwise_map] at hsub
  exact hsub

theorem Evident.journal_reached {m : Nat} (hm : m ∈ e.journal.map (·.revision)) : m ≤ e.live := by
  obtain ⟨entry, hentry, rfl⟩ := mem_map.mp hm
  exact (h.batches entry.batch (h.journal.subset (mem_map_of_mem hentry))).1.reached

/-! ## The live side moves on -/

theorem Evident.advance : Evident epochs log lost { e with live := e.live + 1 } :=
  { h with
    timeline := h.timeline.advance
    current := ⟨h.timeline.advance.placed_live (le_rfl), fun _ =>
      Nat.lt_succ_of_le (h.timeline.started _ h.timeline.current)⟩
    presented := h.presented.advance
    batches := fun b hb => ⟨(h.batches b hb).1.advance, (h.batches b hb).2⟩
    bounded := fun m hm => (h.bounded m hm).trans (Nat.le_succ _) }

theorem Evident.begin : Evident (epochs ++ [⟨e.liveEpoch.generation + 1, e.live⟩]) log lost
      { e with live := e.live + 1, liveEpoch := ⟨e.liveEpoch.generation + 1, e.live⟩ } :=
  { h with
    timeline := h.timeline.begin.advance
    current := ⟨h.timeline.begin.advance.placed_live (le_rfl), fun _ => Nat.lt_succ_self _⟩
    presented := (h.presented.begin _).advance
    batches := fun b hb => ⟨((h.batches b hb).1.begin _).advance, (h.batches b hb).2⟩
    bounded := fun m hm => (h.bounded m hm).trans (Nat.le_succ _) }

/-- **The journal records the batch of the live revision**, or covers what it does not hold. -/
theorem Evident.record {evidence : Option UpdateSummary} {requires : Bool}
    {offered : List AccessibilityJournalEntry} {e' : EvidenceSide} (own : e.liveEpoch.startRevision < e.live)
    (behind : e.presented < e.live) (earlier : ∀ b ∈ log, b.revision < e.live)
    (retains : View.Retains offered e e')
    (isOffered : offered = e.journal ∨ ∃ entry, offered = e.journal ++ [entry] ∧
      entry.batch = ⟨e.liveEpoch, e.live, evidence, requires⟩)
    (gap : (∀ entry ∈ e'.journal, entry.revision ≠ e.live) → Covered e'.gapStart e'.discardedThrough e.live) :
    Evident epochs (log ++ [⟨e.liveEpoch, e.live, evidence, requires⟩])
      (lost ++ ((e.journal.map (·.revision)) ++ [e.live]).filter fun revision =>
        decide (revision ∉ e'.journal.map (·.revision))) e' := by
  obtain ⟨⟨journal, gapStart, through, rfl⟩, hsublist, hcovered, hlost⟩ := retains
  have hoffered : (offered.map (·.batch)).Sublist
      (log ++ [⟨e.liveEpoch, e.live, evidence, requires⟩]) := by
    rcases isOffered with rfl | ⟨entry, rfl, hentry⟩
    · exact h.journal.trans (sublist_append_left _ _)
    · rw [map_append, map_singleton, hentry]
      exact h.journal.append (.refl _)
  have hincreasing : Increasing revision
      (log ++ [⟨e.liveEpoch, e.live, evidence, requires⟩]) := by
    rw [Increasing, pairwise_append]
    refine ⟨h.increasing, pairwise_singleton _ _, fun b hb c hc => ?_⟩
    rw [mem_singleton.mp hc]
    exact earlier b hb
  have hjournal := (hsublist.map _).trans hoffered
  have hinterval : e.interval (log ++ [⟨e.liveEpoch, e.live, evidence, requires⟩]) = e.interval log := by
    have hahead : ∀ b ∈ [(⟨e.liveEpoch, e.live, evidence, requires⟩ : LoggedBatch)],
        e.presented < b.revision := by
      intro b hb
      rw [mem_singleton.mp hb]
      exact behind
    rw [EvidenceSide.interval, spanOf_append, spanOf_eq_nil_of_lt hahead, append_nil]
    rfl
  have hnew : ∀ m, m ∈ ((e.journal.map (·.revision)) ++ [e.live]).filter (fun revision =>
      decide (revision ∉ journal.map (·.revision))) ↔
        (m ∈ e.journal.map (·.revision) ∨ m = e.live) ∧ m ∉ journal.map (·.revision) := by
    intro m
    rw [mem_filter, mem_append, mem_singleton, decide_eq_true_eq]
  exact
    { h with
      batches := by
        intro b hb
        rcases mem_append.mp hb with hold | hlast
        · exact h.batches b hold
        · rw [mem_singleton.mp hlast]
          exact ⟨h.timeline.placed_live (le_rfl), own⟩
      increasing := hincreasing
      journal := hjournal
      ahead := by
        intro entry hmem
        have hentry := hsublist.subset hmem
        rcases isOffered with rfl | ⟨last, rfl, hlast⟩
        · exact h.ahead entry hentry
        · rcases mem_append.mp hentry with hold | hnew
          · exact h.ahead entry hold
          · rw [mem_singleton.mp hnew]
            have hrevision : last.revision = e.live := congrArg revision hlast
            simp only [hrevision]
            exact behind
      recent := by
        intro entry hmem
        have hentry := hsublist.subset hmem
        rcases isOffered with rfl | ⟨last, rfl, hlast⟩
        · exact h.recent entry hentry
        · rcases mem_append.mp hentry with hold | hnew
          · exact h.recent entry hold
          · rw [mem_singleton.mp hnew]
            have hepoch : last.epoch = e.liveEpoch := congrArg epoch hlast
            simp only [hepoch]
            exact h.floor.trans (h.timeline.latest _ h.presented.known)
      kept := by
        intro b hb hcut
        by_cases hheld : b.revision ∈ journal.map (·.revision)
        · -- A revision names its batch, so what the journal holds under it is this batch.
          right
          obtain ⟨entry, hentry, hrevision⟩ := mem_map.mp hheld
          have hbatch : entry.batch ∈ journal.map (·.batch) := mem_map_of_mem hentry
          have hsame := hincreasing.eq_of_number (hjournal.subset hbatch) hb hrevision
          rw [← hsame]
          exact hbatch
        · left
          rw [mem_append, hnew]
          rcases mem_append.mp hb with hold | hlast
          · rcases h.kept b hold hcut with hlost | hkept
            · exact .inl hlost
            · obtain ⟨entry, hentry, rfl⟩ := mem_map.mp hkept
              exact .inr ⟨.inl (mem_map_of_mem hentry), hheld⟩
          · rw [mem_singleton.mp hlast] at hheld ⊢
            exact .inr ⟨.inr rfl, hheld⟩
      bounded := by
        intro m hm
        rw [mem_append, hnew] at hm
        rcases hm with hold | ⟨hjournaled | rfl, -⟩
        · exact h.bounded m hold
        · exact h.journal_reached hjournaled
        · exact le_rfl
      gaps := by
        intro m hm hcut
        rw [mem_append, hnew] at hm
        rcases hm with hold | ⟨hjournaled | rfl, habsent⟩
        · exact hcovered m (h.gaps m hold hcut)
        · obtain ⟨entry, hentry, rfl⟩ := mem_map.mp hjournaled
          have hwas : entry ∈ offered := by
            rcases isOffered with rfl | ⟨last, rfl, -⟩
            · exact hentry
            · exact mem_append_left _ hentry
          exact hlost entry hwas fun hheld => habsent (mem_map_of_mem hheld)
        · exact gap fun entry hentry hrevision => habsent (hrevision ▸ mem_map_of_mem hentry)
      reduced := h.reduced
      complete := by
        intro hexact b hb
        have hb : b ∈ e.interval (log ++ [⟨e.liveEpoch, e.live, evidence, requires⟩]) := hb
        rw [hinterval] at hb
        obtain ⟨hsome, hkept⟩ := h.complete hexact b hb
        refine ⟨hsome, fun hlost => ?_⟩
        rw [mem_append, hnew] at hlost
        have hupTo : b.revision ≤ e.presented := (mem_spanOf.mp hb).2.2
        rcases hlost with hold | ⟨hjournaled | hlive, -⟩
        · exact hkept hold
        · obtain ⟨entry, hentry, hrevision⟩ := mem_map.mp hjournaled
          have hahead := h.ahead entry hentry
          omega
        · omega
      merged := by
        intro hexact
        have hmerged := h.merged hexact
        rw [← hinterval] at hmerged
        exact hmerged }

end

/-! ## The baseline moves -/

theorem mem_behind {journal : List AccessibilityJournalEntry} {revision : Nat}
    (increasing : Increasing AccessibilityJournalEntry.revision journal) {entry : AccessibilityJournalEntry} :
    entry ∈ EvidenceSide.behind journal revision ↔ entry ∈ journal ∧ revision < entry.revision := by
  rw [EvidenceSide.behind, increasing.dropWhile_eq, mem_filter, decide_eq_true_eq]

theorem covered_gapAfter {gapStart : Option Nat} {through m revision : Nat} (h : Covered gapStart through m)
    (hm : revision < m) : Covered (gapAfter gapStart through revision) through m := by
  obtain ⟨⟨start, rfl, hstart⟩, hthrough⟩ := h
  simp only [gapAfter]
  split
  · rw [if_neg (by omega)]
    refine ⟨⟨_, rfl, ?_⟩, hthrough⟩
    have hnext : saturatingAdd 64 revision 1 ≤ revision + 1 := min_le_left _ _
    omega
  · exact ⟨⟨start, rfl, hstart⟩, hthrough⟩

/-- **A finalization** leaves an empty interval and keeps what is ahead of it. -/
theorem Evident.finalize (h : Evident epochs log lost e) :
    Evident epochs log lost (e.baseline.discardThrough e.presented) := by
  have hempty : e.presented ≤ max e.presented e.presentedEpoch.startRevision := le_max_left _ _
  exact
    { h with
      finalized := le_rfl
      settled := rfl
      journal := ((dropWhile_sublist _).map _).trans h.journal
      ahead := fun entry hmem => ((mem_behind h.journal_increasing).mp hmem).2
      recent := fun entry hmem => h.recent entry ((mem_behind h.journal_increasing).mp hmem).1
      kept := by
        intro b hb hcut
        rcases h.kept b hb hcut with hlost | hkept
        · exact .inl hlost
        · obtain ⟨entry, hentry, rfl⟩ := mem_map.mp hkept
          exact .inr (mem_map_of_mem ((mem_behind h.journal_increasing).mpr ⟨hentry, h.ahead entry hentry⟩))
      gaps := by
        intro m hm hcut
        have hpresented : e.presented ≤ e.cut := le_max_left _ _
        exact covered_gapAfter (h.gaps m hm hcut) (lt_of_le_of_lt hpresented hcut)
      reduced := fun hpart => nomatch hpart
      complete := fun _ b hb => absurd hb (not_mem_interval hempty b)
      merged := fun _ => merged_nothing hempty rfl rfl }

/-- **A handoff** starts over: nothing before it is owed to any later frame. -/
theorem Evident.handoff (h : Evident epochs log lost e) {gapStart : Option Nat} {through : Nat}
    {more : List Nat} (held : more ⊆ e.journal.map (·.revision)) :
    Evident (epochs ++ [⟨e.liveEpoch.generation + 1, e.live⟩]) log (lost ++ more)
      { e with
        liveEpoch := ⟨e.liveEpoch.generation + 1, e.live⟩
        floor := e.liveEpoch.generation + 1
        presentedEpoch := ⟨e.liveEpoch.generation + 1, e.live⟩
        evidenceRevision := e.presented
        exact := true
        requiresSnapshotDiff := false
        journal := []
        gapStart := gapStart
        discardedThrough := through
        update := .default } := by
  have htimeline := h.timeline.begin
  have hpresented : e.presented ≤ e.live := h.presented.reached
  have hempty : e.presented ≤ max e.finalized e.live := hpresented.trans (le_max_right _ _)
  have bounded : ∀ m ∈ lost ++ more, m ≤ e.live := by
    intro m hm
    rcases mem_append.mp hm with hold | hmore
    · exact h.bounded m hold
    · exact h.journal_reached (held hmore)
  exact
    { timeline := htimeline
      current := ⟨htimeline.placed_live (le_rfl), fun hlt => absurd hlt (lt_irrefl _)⟩
      presented := ⟨htimeline.placed_live hpresented, fun hlt => absurd hlt (lt_irrefl _)⟩
      batches := fun b hb => ⟨(h.batches b hb).1.begin _, (h.batches b hb).2⟩
      increasing := h.increasing
      floor := le_rfl
      finalized := h.finalized
      settled := rfl
      journal := nil_sublist _
      ahead := fun _ hnone => nomatch hnone
      recent := fun _ hnone => nomatch hnone
      kept := by
        intro b hb hcut
        have hlive := (h.batches b hb).1.reached
        have hstart : e.live ≤ max e.presented e.live := le_max_right _ _
        exact absurd hcut (not_lt.mpr (hlive.trans hstart))
      bounded := bounded
      gaps := by
        intro m hm hcut
        have hlive := bounded m hm
        have hstart : e.live ≤ max e.presented e.live := le_max_right _ _
        exact absurd hcut (not_lt.mpr (hlive.trans hstart))
      reduced := fun hpart => nomatch hpart
      complete := fun _ b hb => absurd hb (not_mem_interval hempty b)
      merged := fun _ => merged_nothing hempty rfl rfl }

/-! ## A frame is presented -/

theorem mergedEvidence_append
    (entries : List AccessibilityJournalEntry) : mergedEvidence (batches ++ entries.map (·.batch)) =
      EvidenceSide.mergeEntries (mergedEvidence batches) entries := by
  have hentries : (entries.map (·.batch)).filterMap (·.evidence) = entries.map (·.update) := by
    rw [filterMap_map, ← filterMap_eq_map]
    rfl
  rw [mergedEvidence, UpdateSummary.mergeAll, filterMap_append, foldl_append, hentries, foldl_map]
  rfl

theorem publishedEvidence_append (entries : List AccessibilityJournalEntry) : reduceUnless
        (!(batches.any (·.requiresSnapshotDiff) || entries.any (·.requiresSnapshotDiff)))
        (EvidenceSide.mergeEntries (publishedEvidence batches) entries) =
      publishedEvidence (batches ++ entries.map (·.batch)) := by
  have hany : (batches ++ entries.map (·.batch)).any (·.requiresSnapshotDiff) =
      (batches.any (·.requiresSnapshotDiff) || entries.any (·.requiresSnapshotDiff)) := by
    rw [any_append, any_map]
    rfl
  rw [publishedEvidence, publishedEvidence, hany, mergedEvidence_append]
  cases hbatches : batches.any (·.requiresSnapshotDiff) with
  | false => rfl
  | true => exact provenance_mergeEntries (provenance_reduceUnless _ _) _

/-- Before a frame takes more it covers everything up to `after`, and the journal owes the rest. -/
structure Entered (log : List LoggedBatch) (lost : List Nat) (e : EvidenceSide)
    (epoch : AccessibilityEpoch) (evidenceRevision : Nat) (exact requires : Bool)
    (update : UpdateSummary) : Prop where
  owed : e.cut ≤ max evidenceRevision epoch.startRevision
  baseline : max e.finalized epoch.startRevision ≤ max evidenceRevision epoch.startRevision
  settled : ∀ revision, e.presented ≤ revision →
    max evidenceRevision epoch.startRevision ≤ max revision epoch.startRevision
  reduced : (exact && !requires) = false → snapshotDiffProvenance update = update
  complete : exact = true → ∀ b ∈ spanOf LoggedBatch.revision (max e.finalized epoch.startRevision)
      (max evidenceRevision epoch.startRevision) log, b.evidence.isSome ∧ b.revision ∉ lost
  merged : exact = true → requires = (spanOf LoggedBatch.revision (max e.finalized epoch.startRevision)
        (max evidenceRevision epoch.startRevision) log).any (·.requiresSnapshotDiff) ∧
      update = publishedEvidence (spanOf LoggedBatch.revision (max e.finalized epoch.startRevision)
        (max evidenceRevision epoch.startRevision) log)

section

variable (h : Evident epochs log lost e)
include h

variable {epoch : AccessibilityEpoch} {revision : Nat}

theorem Evident.reached_batches {after : Nat} (frame : Placed epochs e.live epoch revision)
    (start : epoch.startRevision ≤ after) :
    (EvidenceSide.reached e.journal epoch after revision).map (·.batch) =
      spanOf LoggedBatch.revision after revision (e.journal.map (·.batch)) := by
  have hspan : spanOf LoggedBatch.revision after revision (e.journal.map (·.batch)) =
      (e.journal.filter fun entry => decide (after < entry.revision ∧ entry.revision ≤ revision)).map
        (·.batch) := by
    rw [spanOf, filter_map]
    rfl
  rw [hspan, EvidenceSide.reached, h.journal_increasing.takeWhile_eq, filter_filter]
  congr 1
  apply filter_congr
  intro entry hmem
  rw [← Bool.decide_and, decide_eq_decide]
  constructor
  · rintro ⟨⟨-, hafter⟩, hupTo⟩
    exact ⟨hafter, hupTo⟩
  · rintro ⟨hafter, hupTo⟩
    obtain ⟨hplaced, hown⟩ := h.batches entry.batch (h.journal.subset (mem_map_of_mem hmem))
    exact ⟨⟨h.timeline.epoch_eq frame hplaced hown (lt_of_le_of_lt start hafter) hupTo, hafter⟩, hupTo⟩

variable (frame : Stamped epochs e.live e.floor epoch revision) (later : e.presented ≤ revision)
include frame later

section

variable (current : e.floor ≤ epoch.generation)
include current

theorem Evident.enter : ∃ evidenceRevision exact requires update,
      ({ e with presented := revision }).enter epoch =
        { e with
          presented := revision
          presentedEpoch := epoch
          evidenceRevision := evidenceRevision
          exact := exact
          requiresSnapshotDiff := requires
          update := update } ∧
      Entered log lost e epoch evidenceRevision exact requires update := by
  by_cases hsame : e.presentedEpoch = epoch
  · subst hsame
    have hcut := h.settled
    have hinterval : spanOf LoggedBatch.revision (max e.finalized e.presentedEpoch.startRevision)
        e.cut log = e.interval log := by
      apply filter_congr
      intro b _
      rw [decide_eq_decide]
      simp only [EvidenceSide.base, EvidenceSide.cut]
      omega
    refine ⟨e.evidenceRevision, e.exact, e.requiresSnapshotDiff, e.update, ?_, ?_⟩
    · rw [EvidenceSide.enter, if_neg (by simp)]
    · have hfinalized := h.finalized
      exact
        { owed := hcut.symm.le
          baseline := by
            rw [hcut, EvidenceSide.cut]
            omega
          settled := by
            rw [hcut, EvidenceSide.cut]
            omega
          reduced := h.reduced
          complete := by
            rw [hcut, hinterval]
            exact h.complete
          merged := by
            rw [hcut, hinterval]
            exact h.merged }
  · have hlater : e.presentedEpoch.generation < epoch.generation ∧
        e.presentedEpoch.startRevision ≤ epoch.startRevision := by
      rcases h.timeline.compare h.presented.known frame.known with heq | hbefore | ⟨hafter, -⟩
      · exact absurd heq hsame
      · exact hbefore
      · -- An epoch between the floor and the presented one ended before anything of that was shown.
        have hbound := frame.before e.presentedEpoch h.presented.known hafter
        have hfresh := h.presented.fresh (lt_of_le_of_lt current hafter)
        omega
    have hpresented := h.presented.before epoch frame.known hlater.1
    have hfinalized := h.finalized
    have hempty : spanOf LoggedBatch.revision (max e.finalized epoch.startRevision)
        (max epoch.startRevision epoch.startRevision) log = [] := spanOf_eq_nil (by omega) _
    refine ⟨epoch.startRevision, true, false, .default, ?_, ?_⟩
    · rw [EvidenceSide.enter, if_pos (by exact hsame)]
    · exact
        { owed := by
            rw [EvidenceSide.cut]
            omega
          baseline := by omega
          settled := fun revision _ => by omega
          reduced := fun hpart => absurd hpart (by decide)
          complete := by
            intro _ b hb
            rw [hempty] at hb
            cases hb
          merged := by
            intro _
            rw [hempty]
            exact ⟨rfl, rfl⟩ }

theorem Evident.present (owed : e.cut ≤ max revision epoch.startRevision)
    {journal : List AccessibilityJournalEntry} (sublist : journal.Sublist e.journal)
    (ahead : ∀ entry ∈ journal, revision < entry.revision)
    (keeps : ∀ entry ∈ e.journal, revision < entry.revision → entry ∈ journal)
    {exact requires : Bool} {update : UpdateSummary}
    (reduced : (exact && !requires) = false → snapshotDiffProvenance update = update)
    (complete : exact = true → ∀ b ∈ spanOf LoggedBatch.revision
      (max e.finalized epoch.startRevision) revision log, b.evidence.isSome ∧ b.revision ∉ lost)
    (merged : exact = true →
      requires = (spanOf LoggedBatch.revision (max e.finalized epoch.startRevision) revision
          log).any (·.requiresSnapshotDiff) ∧
        update = publishedEvidence
          (spanOf LoggedBatch.revision (max e.finalized epoch.startRevision) revision log)) :
    Evident epochs log lost
      { e with
        presented := revision
        presentedEpoch := epoch
        evidenceRevision := revision
        exact := exact
        requiresSnapshotDiff := requires
        journal := journal
        update := update } :=
  { h with
    presented := frame
    floor := current
    finalized := h.finalized.trans later
    settled := rfl
    journal := (sublist.map _).trans h.journal
    ahead := ahead
    recent := fun entry hmem => h.recent entry (sublist.subset hmem)
    kept := by
      intro b hb hcut
      rcases h.kept b hb (lt_of_le_of_lt owed hcut) with hlost | hkept
      · exact .inl hlost
      · obtain ⟨entry, hentry, rfl⟩ := mem_map.mp hkept
        have hahead : revision < entry.revision := lt_of_le_of_lt (le_max_left _ _) hcut
        exact .inr (mem_map_of_mem (keeps entry hentry hahead))
    gaps := fun m hm hcut => h.gaps m hm (lt_of_le_of_lt owed hcut)
    reduced := reduced
    complete := complete
    merged := merged }

variable {evidenceRevision : Nat} {exact requires : Bool} {update : UpdateSummary}
  (entered : Entered log lost e epoch evidenceRevision exact requires update)
include entered

theorem Evident.behind (before : revision < max evidenceRevision epoch.startRevision) : Evident epochs log lost
      { e with
        presented := revision
        presentedEpoch := epoch
        evidenceRevision := revision
        exact := exact
        requiresSnapshotDiff := requires
        update := .default } := by
  have hsettled := entered.settled revision later
  have howed := entered.owed
  have hempty : spanOf LoggedBatch.revision (max e.finalized epoch.startRevision) revision log = [] :=
    spanOf_eq_nil (by omega) _
  have hahead : ∀ entry ∈ e.journal, revision < entry.revision := by
    intro entry hmem
    obtain ⟨hplaced, hown⟩ := h.batches entry.batch (h.journal.subset (mem_map_of_mem hmem))
    have hown : entry.epoch.startRevision < entry.revision := hown
    rcases h.timeline.compare frame.known hplaced.known with hsame | ⟨-, hlater⟩ | ⟨hearlier, -⟩
    · have hepoch : epoch = entry.epoch := hsame
      rw [← hepoch] at hown
      omega
    · have hepoch : epoch.startRevision ≤ entry.epoch.startRevision := hlater
      omega
    · -- Only an epoch that a handoff began is presented before its first batch.
      have hfresh := frame.fresh (lt_of_le_of_lt (h.recent entry hmem) hearlier)
      omega
  refine h.present frame later current (by omega) (.refl _) hahead
    (fun entry hmem _ => hmem) (fun _ => rfl) ?_ ?_
  · intro _ b hb
    rw [hempty] at hb
    exact nomatch hb
  · intro hexact
    obtain ⟨hrequires, -⟩ := entered.merged hexact
    rw [hrequires, hempty, spanOf_eq_nil (by omega)]
    exact ⟨rfl, rfl⟩

/-- **A frame that reaches its evidence** publishes every batch since the baseline, or notices the gap. -/
theorem Evident.reached (upTo : max evidenceRevision epoch.startRevision ≤ revision) {e₁ : EvidenceSide}
    (he₁ : e₁ = { e with
        presented := revision
        presentedEpoch := epoch
        evidenceRevision := evidenceRevision
        exact := exact
        requiresSnapshotDiff := requires
        update := update }) :
    Evident epochs log lost
      { (e₁.noticeGap revision (max evidenceRevision epoch.startRevision)).merged
          (EvidenceSide.reached e.journal epoch (max evidenceRevision epoch.startRevision) revision) with
        journal := EvidenceSide.behind e.journal revision
        evidenceRevision := revision } := by
  have hstart : epoch.startRevision ≤ max evidenceRevision epoch.startRevision := le_max_right _ _
  obtain ⟨howed, hbaseline, -, -, hcomplete, hmerged⟩ := entered
  generalize max evidenceRevision epoch.startRevision = after at *
  have hgapStart : e₁.gapStart = e.gapStart := by rw [he₁]
  have hthrough : e₁.discardedThrough = e.discardedThrough := by rw [he₁]
  -- Without a gap, the journal holds every batch that the frame needs.
  have hheld : e₁.gapIn revision after = false → ∀ b ∈ log, after < b.revision →
      b.revision ≤ revision → b.revision ∉ lost ∧ b ∈ e.journal.map (·.batch) := by
    intro hgap b hb hafter hrevision
    have hkept : b.revision ∉ lost := by
      intro hlost
      have hcovered := h.gaps b.revision hlost (by omega)
      rw [← hgapStart, ← hthrough] at hcovered
      rw [gapIn_of_covered hcovered hafter hrevision] at hgap
      exact nomatch hgap
    exact ⟨hkept, (h.kept b hb (by omega)).resolve_left hkept⟩
  have htaken : e₁.gapIn revision after = false →
      (EvidenceSide.reached e.journal epoch after revision).map (·.batch) =
        spanOf LoggedBatch.revision after revision log := by
    intro hgap
    rw [h.reached_batches frame.toPlaced hstart]
    exact spanOf_sublist h.increasing h.journal fun b hb hafter hrevision =>
      (hheld hgap b hb hafter hrevision).2
  have hsplit : spanOf LoggedBatch.revision (max e.finalized epoch.startRevision) revision log =
      spanOf LoggedBatch.revision (max e.finalized epoch.startRevision) after log ++
        spanOf LoggedBatch.revision after revision log := by
    rw [spanOf_split h.increasing upTo, max_eq_right hbaseline]
  have hnoticed : (e₁.exact && !e₁.gapIn revision after) = true →
      exact = true ∧ e₁.gapIn revision after = false := by
    intro hexact
    rw [Bool.and_eq_true, Bool.not_eq_true'] at hexact
    rw [he₁] at hexact ⊢
    exact hexact
  have hpublished : (e₁.exact && !e₁.gapIn revision after) = true →
      (e₁.requiresSnapshotDiff || (EvidenceSide.reached e.journal epoch after revision).any
          (·.requiresSnapshotDiff)) =
        (spanOf LoggedBatch.revision (max e.finalized epoch.startRevision) revision log).any
          (·.requiresSnapshotDiff) ∧
      ((e₁.noticeGap revision after).merged
          (EvidenceSide.reached e.journal epoch after revision)).update =
        publishedEvidence
          (spanOf LoggedBatch.revision (max e.finalized epoch.startRevision) revision log) := by
    intro hexact
    obtain ⟨hexact₁, hgap⟩ := hnoticed hexact
    obtain ⟨hrequires, hupdate⟩ := hmerged hexact₁
    have hrequires₁ : e₁.requiresSnapshotDiff = requires := by rw [he₁]
    have hupdate₁ : e₁.update = update := by rw [he₁]
    rw [hsplit, ← htaken hgap, hrequires₁, hrequires]
    constructor
    · rw [any_append, any_map]
      rfl
    · rw [← publishedEvidence_append, ← hupdate, ← hrequires]
      simp only [EvidenceSide.noticeGap, hexact, hrequires₁, hupdate₁]
      rfl
  subst he₁
  refine h.present frame later current (by omega) (dropWhile_sublist _)
    (fun entry hmem => ((mem_behind h.journal_increasing).mp hmem).2)
    (fun entry hmem hahead => (mem_behind h.journal_increasing).mpr ⟨hmem, hahead⟩)
    (merged_reduced _ _) (fun hexact b hb => ?_) hpublished
  obtain ⟨hexact₁, hgap⟩ := hnoticed hexact
  rw [hsplit, mem_append] at hb
  rcases hb with hbefore | hafter
  · exact hcomplete hexact₁ b hbefore
  · obtain ⟨hmem, hafter, hupTo⟩ := mem_spanOf.mp hafter
    obtain ⟨hkept, hjournal⟩ := hheld hgap b hmem hafter hupTo
    obtain ⟨entry, -, rfl⟩ := mem_map.mp hjournal
    exact ⟨rfl, hkept⟩

end

theorem Evident.outdated (invalid : epoch.generation < e.floor) :
    Evident epochs log lost { e with presented := revision, update := .default } := by
  have hbound := frame.before e.presentedEpoch h.presented.known (lt_of_lt_of_le invalid h.floor)
  have hcut : max revision e.presentedEpoch.startRevision = e.cut := by
    rw [EvidenceSide.cut]
    omega
  have hbase : e.presented ≤ e.base := (later.trans hbound).trans (le_max_right _ _)
  have hempty : revision ≤ max e.finalized e.presentedEpoch.startRevision := hbound.trans (le_max_right _ _)
  have hplain : e.exact = true → e.requiresSnapshotDiff = false := by
    intro hexact
    obtain ⟨hrequires, -⟩ := h.merged hexact
    rw [hrequires, EvidenceSide.interval, spanOf_eq_nil hbase]
    rfl
  exact
    { h with
      presented :=
        { known := h.presented.known
          reached := frame.reached
          before := by
            intro other hmem hgeneration
            have hlater : e.presentedEpoch.generation < other.generation := hgeneration
            have hstart : revision ≤ other.startRevision := by
              rcases h.timeline.compare h.presented.known hmem with rfl | ⟨-, hstart⟩ | ⟨hearlier, -⟩
              · omega
              · omega
              · omega
            exact hstart
          fresh := fun hfloor => lt_of_lt_of_le (h.presented.fresh hfloor) later }
      finalized := h.finalized.trans later
      settled := h.settled.trans hcut.symm
      ahead := by
        intro entry hmem
        obtain ⟨hplaced, hown⟩ := h.batches entry.batch (h.journal.subset (mem_map_of_mem hmem))
        have hstart := frame.before entry.epoch hplaced.known (lt_of_lt_of_le invalid (h.recent entry hmem))
        exact lt_of_le_of_lt hstart hown
      kept := fun b hb hb' => h.kept b hb (hcut ▸ hb')
      gaps := fun m hm hm' => h.gaps m hm (hcut ▸ hm')
      reduced := fun _ => rfl
      complete := fun _ b hb => absurd hb (not_mem_interval hempty b)
      merged := fun hexact => merged_nothing hempty (hplain hexact) rfl }

/-- **A presented frame keeps the evidence sound.** -/
theorem Evident.publish :
    Evident epochs log lost (({ e with presented := revision }).publish epoch revision) := by
  rw [EvidenceSide.publish]
  split
  · rename_i hfloor
    exact h.outdated frame later hfloor
  · rename_i hfloor
    obtain ⟨evidenceRevision, exact, requires, update, henter, hentered⟩ :=
      h.enter frame later (not_lt.mp hfloor)
    rw [henter]
    dsimp only
    split
    · rename_i hbefore
      exact h.behind frame later (not_lt.mp hfloor) hentered hbefore
    · rename_i hupTo
      exact h.reached frame later (not_lt.mp hfloor) hentered (not_lt.mp hupTo) rfl

end

/-! ## Runs -/

def Run.Sound (run : Run) : Prop :=
  ∃ epochs, Evident epochs run.batches run.lost run.view.evidenceSide ∧
    ∀ captured ∈ run.captured, Stamped epochs run.view.liveRevision
      run.view.accessibilityEpochFloorGeneration captured.frame.accessibilityEpoch
      captured.frame.revision

theorem Retains.live {offered : List AccessibilityJournalEntry} {e e' : EvidenceSide}
    (h : View.Retains offered e e') : e'.live = e.live ∧ e'.liveEpoch = e.liveEpoch ∧ e'.floor = e.floor := by
  obtain ⟨⟨-, -, -, rfl⟩, -⟩ := h
  exact ⟨rfl, rfl, rfl⟩

theorem evident_first (gapStart : Option Nat) (through : Nat) :
    Evident [⟨2, 0⟩] [] [] (EvidenceSide.first gapStart through) := by
  have htimeline : Timeline [⟨2, 0⟩] 0 ⟨2, 0⟩ :=
    { ordered := pairwise_singleton _ _
      current := mem_singleton_self _
      latest := fun epoch hmem => by rw [mem_singleton.mp hmem]
      started := fun epoch hmem => by rw [mem_singleton.mp hmem] }
  have hstamped : Stamped [⟨2, 0⟩] 0 2 ⟨2, 0⟩ 0 :=
    ⟨htimeline.placed_live (le_rfl), fun hfloor => absurd hfloor (lt_irrefl _)⟩
  exact
    { timeline := htimeline
      current := hstamped
      presented := hstamped
      batches := fun _ hnone => nomatch hnone
      increasing := Pairwise.nil
      floor := le_rfl
      finalized := le_rfl
      settled := rfl
      journal := .refl _
      ahead := fun _ hnone => nomatch hnone
      recent := fun _ hnone => nomatch hnone
      kept := fun _ hnone => nomatch hnone
      bounded := fun _ hnone => nomatch hnone
      gaps := fun _ hnone => nomatch hnone
      reduced := fun hpart => nomatch hpart
      complete := fun _ _ hnone => nomatch hnone
      merged := fun _ => ⟨rfl, rfl⟩ }

section Runs

variable [EvidenceLayout]

theorem Evident.records (h : Evident epochs log lost e) {evidence : Option UpdateSummary} {requires : Bool}
    {e' : EvidenceSide} (own : e.liveEpoch.startRevision < e.live) (behind : e.presented < e.live)
    (earlier : ∀ b ∈ log, b.revision < e.live) (records : View.Records e evidence requires e') :
    Evident epochs (log ++ [⟨e'.liveEpoch, e'.live, evidence, requires⟩])
      (lost ++ ((e.journal.map (·.revision)) ++ [e'.live]).filter fun revision =>
        decide (revision ∉ e'.journal.map (·.revision))) e' := by
  cases records with
  | taken update some_ retains =>
    subst some_
    obtain ⟨hlive, hepoch, -⟩ := Retains.live retains
    rw [hlive, hepoch]
    refine h.record own behind earlier retains (.inr ⟨_, rfl, rfl⟩) fun habsent => ?_
    have hmem : liveEntry e update requires ∈ e.journal ++ [liveEntry e update requires] :=
      mem_append_right _ (mem_singleton_self _)
    exact retains.lost _ hmem fun hheld => habsent _ hheld rfl
  | missing none_ retains gap =>
    obtain ⟨hlive, hepoch, -⟩ := Retains.live retains
    rw [hlive, hepoch]
    exact h.record own behind earlier retains (.inl rfl) fun _ => gap

theorem start_sound {standalone : View} (fresh : standalone.Standalone) {first : Run}
    (started : Run.start standalone = some first) : first.Sound := by
  simp only [Run.start, bind_eq_bind, bind_eq_some_iff, some.injEq] at started
  obtain ⟨view, hview, rfl⟩ := started
  obtain ⟨gapStart, through, ⟨hlive, hside⟩ | ⟨hfrozen, hretains⟩⟩ :=
    enablePresentationTracking_evidenceSide fresh hview
  · refine ⟨[⟨2, 0⟩], ?_, forall_mem_nil _⟩
    simp only [hlive, hside]
    exact evident_first gapStart through
  · refine ⟨[⟨2, 0⟩], ?_, forall_mem_nil _⟩
    have hfirst := (evident_first gapStart through).advance
    have hrecords : View.Records { EvidenceSide.first gapStart through with live := 1 }
        (some .default) true view.evidenceSide := .taken _ rfl hretains
    have hrecorded := hfirst.records zero_lt_one zero_lt_one (forall_mem_nil _) hrecords
    simp only [hfrozen]
    exact hrecorded

/-! ### One step -/

theorem Run.Sound.output {run run' : Run} {batch : Batch} (h : run.Sound)
    (stepped : run.output batch = some run') : run'.Sound := by
  simp only [Run.output, bind_eq_bind, bind_eq_some_iff, some.injEq, Prod.exists] at stepped
  obtain ⟨report, view, hprocessed, rfl⟩ := stepped
  obtain ⟨epochs, hevident, hframes⟩ := h
  obtain ⟨-, epoch, hcases, hrecords⟩ := processChanges_evidenceSide hprocessed
  have hbehind := Nat.lt_succ_of_le hevident.presented.reached
  have hearlier : ∀ b ∈ run.batches, b.revision < run.view.liveRevision + 1 := fun b hb =>
    Nat.lt_succ_of_le (hevident.batches b hb).1.reached
  have hmoved : ∃ epochs', Evident epochs' run.batches run.lost
      { run.view.evidenceSide with live := run.view.liveRevision + 1, liveEpoch := epoch } ∧
      epoch.startRevision < run.view.liveRevision + 1 ∧
      ∀ captured ∈ run.captured, Stamped epochs' (run.view.liveRevision + 1)
        run.view.accessibilityEpochFloorGeneration captured.frame.accessibilityEpoch
        captured.frame.revision := by
    rcases hcases with rfl | rfl
    · exact ⟨epochs, hevident.advance,
        Nat.lt_succ_of_le (hevident.timeline.started _ hevident.timeline.current),
        fun captured hmem => (hframes captured hmem).advance⟩
    · exact ⟨_, hevident.begin, Nat.lt_succ_self _,
        fun captured hmem => ((hframes captured hmem).begin _).advance⟩
  obtain ⟨epochs', hevident', hown, hframes'⟩ := hmoved
  have hrecorded := hevident'.records hown hbehind hearlier hrecords
  obtain ⟨hlive, hfloor⟩ : view.liveRevision = run.view.liveRevision + 1 ∧
      view.accessibilityEpochFloorGeneration = run.view.accessibilityEpochFloorGeneration := by
    cases hrecords with
    | taken update some_ retains => exact ⟨(Retains.live retains).1, (Retains.live retains).2.2⟩
    | missing none_ retains gap => exact ⟨(Retains.live retains).1, (Retains.live retains).2.2⟩
  refine ⟨epochs', hrecorded, ?_⟩
  simp only [hlive, hfloor]
  exact hframes'

omit [EvidenceLayout] in
theorem Run.Sound.resize {run run' : Run} {terminal : NativeTerminal} (h : run.Sound)
    (stepped : run.resize terminal = some run') : run'.Sound := by
  simp only [Run.resize, bind_eq_bind, bind_eq_some_iff, some.injEq] at stepped
  obtain ⟨view, hresized, rfl⟩ := stepped
  obtain ⟨epochs, hevident, hframes⟩ := h
  obtain ⟨hside, -⟩ := setSize_evidenceSide hresized
  have hlive : view.liveRevision = run.view.liveRevision + 1 := congrArg EvidenceSide.live hside
  have hfloor : view.accessibilityEpochFloorGeneration =
      run.view.accessibilityEpochFloorGeneration := congrArg EvidenceSide.floor hside
  refine ⟨epochs, ?_, ?_⟩
  · simp only [hside]
    exact hevident.advance
  · simp only [hlive, hfloor]
    exact fun captured hmem => (hframes captured hmem).advance

omit [EvidenceLayout] in
theorem Run.Sound.capture {run : Run} (h : run.Sound) {frame : PresentedViewFrame} {live : Bool} {view : View}
    (side : view.evidenceSide = run.view.evidenceSide)
    (stamp : (frame.accessibilityEpoch = run.view.liveAccessibilityEpoch ∧
      frame.revision = run.view.liveRevision) ∨
      (frame.accessibilityEpoch = run.view.presentedAccessibilityEpoch ∧
      frame.revision = run.view.presentedRevision)) :
    (run.capture frame live view).Sound := by
  obtain ⟨epochs, hevident, hframes⟩ := h
  have hlive : view.liveRevision = run.view.liveRevision := congrArg EvidenceSide.live side
  have hfloor : view.accessibilityEpochFloorGeneration =
      run.view.accessibilityEpochFloorGeneration := congrArg EvidenceSide.floor side
  refine ⟨epochs, ?_, fun captured hmem => ?_⟩
  · simp only [Run.capture, side]
    exact hevident
  · simp only [Run.capture, hlive, hfloor]
    rcases mem_append.mp hmem with hold | hnew
    · exact hframes captured hold
    · rw [mem_singleton.mp hnew]
      rcases stamp with ⟨hepoch, hrevision⟩ | ⟨hepoch, hrevision⟩
      · rw [hepoch, hrevision]
        exact hevident.current
      · rw [hepoch, hrevision]
        exact hevident.presented

omit [EvidenceLayout] in
theorem Run.Sound.receipt {run run' : Run} {index : Nat} (h : run.Sound)
    (stepped : run.receipt index = some run') : run'.Sound := by
  rw [Run.receipt] at stepped
  split at stepped
  case h_2 =>
    cases stepped
    exact h
  rename_i captured hcaptured
  simp only [bind_eq_bind, bind_eq_some_iff, some.injEq, Prod.exists] at stepped
  obtain ⟨accepted, view, hreceipt, rfl⟩ := stepped
  rcases applyPresentedFrameRef_spec hreceipt with ⟨-, rfl⟩ | ⟨-, hacceptable, hinstalled⟩
  · exact h
  obtain ⟨epochs, hevident, hframes⟩ := h
  have hstamped := hframes captured (mem_of_getElem? hcaptured)
  have hside : view.evidenceSide =
      ({ run.view.evidenceSide with presented := captured.frame.revision }).publish
        captured.frame.accessibilityEpoch captured.frame.revision := by
    cases hinstalled with
    | unchanged _ _ => exact finishPresentedFrame_evidenceSide _ _ _ _ hevident.reduced
    | moved _ _ _ _ _ _ _ _ => exact finishPresentedFrame_evidenceSide _ _ _ _ hevident.reduced
  have hpublished := hevident.publish hstamped hacceptable.notObsolete
  rw [← hside] at hpublished
  obtain ⟨hlive, hfloor⟩ : view.liveRevision = run.view.liveRevision ∧
      view.accessibilityEpochFloorGeneration = run.view.accessibilityEpochFloorGeneration := by
    obtain ⟨hlive, hfloor⟩ := publish_live
      ({ run.view.evidenceSide with presented := captured.frame.revision })
      captured.frame.accessibilityEpoch captured.frame.revision
    rw [← hside] at hlive hfloor
    exact ⟨hlive, hfloor⟩
  refine ⟨epochs, hpublished, ?_⟩
  simp only [hlive, hfloor]
  exact hframes

omit [EvidenceLayout] in
theorem Run.Sound.finalize {run : Run} (h : run.Sound) (nowMs : Nat) :
    Run.Sound { run with view := run.view.finalizeChanges nowMs } := by
  obtain ⟨epochs, hevident, hframes⟩ := h
  rcases finalizeChanges_evidenceSide nowMs run.view with hsame | hmoved
  · have hlive : (run.view.finalizeChanges nowMs).liveRevision = run.view.liveRevision :=
      congrArg EvidenceSide.live hsame
    have hfloor : (run.view.finalizeChanges nowMs).accessibilityEpochFloorGeneration =
        run.view.accessibilityEpochFloorGeneration := congrArg EvidenceSide.floor hsame
    refine ⟨epochs, ?_, ?_⟩
    · simp only [hsame]
      exact hevident
    · simp only [hlive, hfloor]
      exact hframes
  · have hlive : (run.view.finalizeChanges nowMs).liveRevision = run.view.liveRevision :=
      congrArg EvidenceSide.live hmoved
    have hfloor : (run.view.finalizeChanges nowMs).accessibilityEpochFloorGeneration =
        run.view.accessibilityEpochFloorGeneration := congrArg EvidenceSide.floor hmoved
    refine ⟨epochs, ?_, ?_⟩
    · simp only [hmoved]
      exact hevident.finalize
    · simp only [hlive, hfloor]
      exact hframes

omit [EvidenceLayout] in
theorem Run.Sound.handoff {run : Run} {view : View} (h : run.Sound)
    (handed : run.view.clearUpdateSummary = some view) :
    Run.Sound { run with view := view, lost := run.lost ++ view.missing run.view.journaled } := by
  obtain ⟨epochs, hevident, hframes⟩ := h
  obtain ⟨gapStart, through, hside⟩ := clearUpdateSummary_evidenceSide handed
  have hlive : view.liveRevision = run.view.liveRevision := congrArg EvidenceSide.live hside
  have hfloor : view.accessibilityEpochFloorGeneration =
      run.view.liveAccessibilityEpoch.generation + 1 := congrArg EvidenceSide.floor hside
  have hraised :=
    (hevident.floor.trans (hevident.timeline.latest _ hevident.presented.known)).trans (Nat.le_succ _)
  refine ⟨epochs ++ [⟨run.view.liveAccessibilityEpoch.generation + 1, run.view.liveRevision⟩], ?_, ?_⟩
  · simp only [hside]
    exact hevident.handoff filter_sublist.subset
  · simp only [hlive, hfloor]
    exact fun captured hmem => ((hframes captured hmem).begin _).raise hraised

theorem Run.Sound.step {run run' : Run} {event : Event} (h : run.Sound)
    (stepped : run.step event = some run') : run'.Sound := by
  cases event with
  | output batch => exact h.output stepped
  | resize terminal => exact h.resize stepped
  | captureLive surfaceId =>
    simp only [Run.step, bind_eq_bind, bind_eq_some_iff, some.injEq, Prod.exists] at stepped
    obtain ⟨frame, view, hcaptured, rfl⟩ := stepped
    have hcapture := captureLivePresentationFrame_captured hcaptured
    exact h.capture hcapture.evidence (.inl ⟨hcapture.epoch, hcapture.revision⟩)
  | captureCommitted surfaceId =>
    cases stepped
    exact h.capture (captureCommittedPresentationFrame_sides surfaceId run.view).2 (.inr ⟨rfl, rfl⟩)
  | receipt index => exact h.receipt stepped
  | finalize nowMs =>
    cases stepped
    exact h.finalize nowMs
  | handoff =>
    simp only [Run.step, bind_eq_bind, bind_eq_some_iff, some.injEq] at stepped
    obtain ⟨view, hhandoff, rfl⟩ := stepped
    exact h.handoff hhandoff

theorem Run.reach_sound {standalone : View} (fresh : standalone.Standalone) {last : Run}
    {events : List Event} (reached : Run.reach standalone events = some last) : last.Sound := by
  obtain ⟨first, started, ran⟩ := bind_eq_some_iff.mp reached
  exact PartialRun.run_invariant (fun _ _ _ hsound hstep => hsound.step hstep) (start_sound fresh started) ran

/-! ## Published evidence -/

/-- Those after the baseline and up to the presented revision. -/
def Run.interval (run : Run) : List LoggedBatch :=
  spanOf LoggedBatch.revision
    (max run.view.finalizedPresentedRevision run.view.presentedAccessibilityEpoch.startRevision)
    run.view.presentedRevision run.batches

/-- **Exact evidence is complete.** In every run it is the ordered merge of the batches after its baseline and
up to the presented revision, all of the presented epoch, retained and not lost. Inexact evidence publishes no
more than what stays true of snapshots. -/
theorem Run.exact_evidence {standalone : View} (fresh : standalone.Standalone) {last : Run}
    {events : List Event} (reached : Run.reach standalone events = some last) :
    (last.view.presentedAccessibilityEvidenceExact = true →
      (∀ b ∈ last.interval, b.epoch = last.view.presentedAccessibilityEpoch ∧
        b.evidence.isSome ∧ b.revision ∉ last.lost) ∧
      last.view.presentedAccessibilityRequiresSnapshotDiff =
        last.interval.any (·.requiresSnapshotDiff) ∧
      last.view.presentedUpdate =
        if last.interval.any (·.requiresSnapshotDiff) then
          snapshotDiffProvenance (.mergeAll (last.interval.filterMap (·.evidence)))
        else .mergeAll (last.interval.filterMap (·.evidence))) ∧
    (last.view.presentedAccessibilityEvidenceExact = false →
      snapshotDiffProvenance last.view.presentedUpdate = last.view.presentedUpdate) := by
  obtain ⟨epochs, hevident, -⟩ := Run.reach_sound fresh reached
  constructor
  · intro hexact
    obtain ⟨hrequires, hupdate⟩ := hevident.merged hexact
    refine ⟨fun b hb => ⟨hevident.interval_epoch hb, hevident.complete hexact b hb⟩, hrequires, ?_⟩
    refine hupdate.trans ?_
    rw [publishedEvidence]
    have hsame : last.view.evidenceSide.interval last.batches = last.interval := rfl
    rw [hsame]
    cases last.interval.any (·.requiresSnapshotDiff) with
    | true => rfl
    | false => rfl
  · intro hpart
    have hexact : last.view.evidenceSide.exact = false := hpart
    exact hevident.reduced (by rw [hexact, Bool.false_and])

end Runs

/-! ### The screen is switched between two frames -/

def alternateScreen : NativeTerminal :=
  ⟨{ oneCell with screen := .alternate }, [], fun _ => none, rfl, rfl, rfl⟩

/-- One batch on the primary screen and one that leaves it; a frame; one more batch; a frame. -/
def switchScreen : List Event :=
  [.output ⟨emptyHistory, { UpdateSummary.default with batchCount := 1 }, false, true⟩,
    .output ⟨alternateScreen, { UpdateSummary.default with
      batchCount := 1
      screenAfter := .alternate }, false, true⟩,
    .captureLive ⟨1⟩, .receipt 0]

def switchScreenAndPrint : List Event :=
  switchScreen ++ [.output ⟨alternateScreen, { UpdateSummary.default with
        batchCount := 1
        screenBefore := .alternate
        screenAfter := .alternate }, false, true⟩,
      .captureLive ⟨1⟩, .receipt 1]

def switchRun : Run :=
  (@Run.reach exampleLayout (View.new ⟨1⟩ emptyHistory) switchScreenAndPrint).get (by decide +kernel)

theorem Run.exact_evidence_switchRun :
    @Run.reach exampleLayout (View.new ⟨1⟩ emptyHistory) switchScreenAndPrint = some switchRun ∧
      switchRun.view.presentedUpdate = .mergeAll (switchRun.interval.filterMap (·.evidence)) ∧
      switchRun.interval.map (·.revision) = [2, 3] := by
  have hreached : @Run.reach exampleLayout (View.new ⟨1⟩ emptyHistory) switchScreenAndPrint =
      some switchRun := (some_get _).symm
  obtain ⟨hexact, -⟩ := @Run.exact_evidence exampleLayout _ (new_standalone ⟨1⟩ emptyHistory) _ _ hreached
  obtain ⟨-, -, hupdate⟩ := hexact (by decide +kernel)
  exact ⟨hreached, hupdate, by decide +kernel⟩

/-- It is exact although a batch before it is of another epoch, and the next one publishes two
batches. -/
theorem Run.exact_evidence_spans_frames :
    (@Run.reach exampleLayout (View.new ⟨1⟩ emptyHistory) switchScreen).map (fun run =>
      (run.view.presentedRevision, run.view.presentedAccessibilityEvidenceExact,
        (spanOf revision 0 run.view.presentedRevision run.batches).map fun b =>
          decide (b.epoch = run.view.presentedAccessibilityEpoch))) =
        some (2, true, [false, true]) ∧
    (switchRun.view.presentedRevision, switchRun.view.presentedAccessibilityEvidenceExact,
        switchRun.view.presentedUpdate.batchCount,
        (UpdateSummary.mergeAll ((spanOf revision 2 switchRun.view.presentedRevision
          switchRun.batches).filterMap (·.evidence))).batchCount) = (3, true, 2, 1) := by
  constructor
  · decide +kernel
  · decide +kernel

end Lector.Accessibility
