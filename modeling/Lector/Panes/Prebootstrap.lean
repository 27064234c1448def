import Lector.Panes.PaneSet

/-! The count of the output that waits for a bootstrap is exact in every run. A bootstrapped pane
has nothing waiting unless a capture after a pause leaves it there. -/
namespace Lector.Panes
open Control SortedMap Std Tmux Lector.Topology List Option PaneState

variable {V S : Type}

def PaneState.buffered (state : PaneState V) : Nat := state.prebootstrapOutput.length

namespace TmuxPaneSet

/-! ## What is counted -/

section Counting

variable (paneSet : TmuxPaneSet V)

def bufferedBytes : Nat := total PaneState.buffered paneSet.panes + total List.length paneSet.orphanOutput

structure Counted : Prop where
  exact : paneSet.prebootstrapBytes = paneSet.bufferedBytes
  bounded : paneSet.prebootstrapBytes ≤ maxPrebootstrapBytes

def Drained : Prop :=
  ∀ (paneId : PaneId) (state : PaneState V), paneSet.panes[paneId]? = some state →
    state.bootstrapped = true → state.prebootstrapOutput = []

structure Accounted : Prop extends Counted paneSet where
  drained : paneSet.Drained

structure Keeps (after : TmuxPaneSet V) : Prop where
  counted : paneSet.Counted → after.Counted
  drained : paneSet.Drained → after.Drained

end Counting

variable {self self' self'' : TmuxPaneSet V} {paneId : PaneId} {state state' : PaneState V}

theorem Keeps.refl : self.Keeps self := ⟨id, id⟩

theorem Keeps.trans (h : self.Keeps self') (h' : self'.Keeps self'') : self.Keeps self'' :=
  ⟨h'.counted ∘ h.counted, h'.drained ∘ h.drained⟩

theorem new_accounted (connectionId : UInt64) : (new connectionId : TmuxPaneSet V).Accounted where
  exact := rfl
  bounded := Nat.zero_le _
  drained := by
    intro paneId state hstate
    simp [new] at hstate

/-! ### One pane -/

theorem bufferedBytes_set (h : self.panes[paneId]? = some state) (state' : PaneState V) :
    (self.set paneId state').bufferedBytes + state.buffered = self.bufferedBytes + state'.buffered := by
  have hpanes := total_insert_add buffered self.panes paneId state'
  rw [h, elim_some] at hpanes
  simp only [bufferedBytes, set]
  omega

theorem buffered_le (h : self.panes[paneId]? = some state) : state.buffered ≤ self.bufferedBytes :=
  (weight_le_total buffered h).trans (Nat.le_add_right _ _)

theorem drained_set (h : self.Drained) (hstate : state.bootstrapped = true → state.prebootstrapOutput = []) :
    (self.set paneId state).Drained := by
  intro otherId other hother hbootstrapped
  obtain ⟨-, rfl⟩ | ⟨-, hother⟩ := of_getElem?_insert hother
  · exact hstate hbootstrapped
  · exact h otherId other hother hbootstrapped

theorem counted_set (h : self.panes[paneId]? = some state)
    (houtput : state'.prebootstrapOutput = state.prebootstrapOutput) (counted : self.Counted) :
    (self.set paneId state').Counted := by
  have hbytes := bufferedBytes_set h state'
  have hsame : state'.buffered = state.buffered := congrArg length houtput
  have hexact := counted.exact
  refine ⟨?_, counted.bounded⟩
  simp only [set] at hbytes ⊢
  omega

theorem keeps_set (h : self.panes[paneId]? = some state)
    (houtput : state'.prebootstrapOutput = state.prebootstrapOutput)
    (hmark : state'.bootstrapped = state.bootstrapped) : self.Keeps (self.set paneId state') where
  counted := counted_set h houtput
  drained drained := by
    apply drained_set drained
    rw [houtput, hmark]
    exact drained paneId state h

theorem keeps_retire (retired : List V) : self.Keeps (self.retire retired) :=
  ⟨fun counted => ⟨counted.exact, counted.bounded⟩, id⟩

theorem keeps_drain (h : self.panes[paneId]? = some state) (hempty : state'.prebootstrapOutput = []) :
    self.Keeps
      { self.set paneId state' with
        prebootstrapBytes := self.prebootstrapBytes - state.prebootstrapOutput.length } where
  counted counted := by
    have hbytes := bufferedBytes_set h state'
    have hle := buffered_le h
    have hnone : state'.buffered = 0 := by rw [buffered, hempty]; rfl
    refine ⟨?_, (Nat.sub_le _ _).trans counted.bounded⟩
    have hexact := counted.exact
    simp only [bufferedBytes, buffered] at hbytes hexact hnone hle ⊢
    omega
  drained drained := drained_set drained fun _ => hempty

/-! ## Output -/

theorem nextTotal_ok {total buffered more next : Nat} (h : nextTotal total buffered more = .ok next) :
    next = total + more ∧ next ≤ maxPrebootstrapBytes := by
  unfold nextTotal at h
  split at h
  · next nextPaneLen htotal hpane =>
    split at h
    · cases h
    · next hroom =>
      obtain rfl := Except.ok.inj h
      simp only [checkedAdd, ite_none_right_eq_some, some.injEq] at htotal
      simp only [Bool.or_eq_true, decide_eq_true_eq] at hroom
      omega
  · cases h

theorem total_orphan (orphans : ExtTreeMap PaneId Bytes) (paneId : PaneId) (more : Bytes) :
    total length (orphans.insert paneId ((orphans[paneId]?).getD [] ++ more)) =
      total length orphans + more.length := by
  have hboth := total_insert_add length orphans paneId ((orphans[paneId]?).getD [] ++ more)
  rw [length_append] at hboth
  cases h : orphans[paneId]? with
  | none =>
    rw [h, elim_none, getD_none, length_nil] at hboth
    rw [getD_none]
    omega
  | some output =>
    rw [h, elim_some, getD_some] at hboth
    rw [getD_some]
    omega

theorem processOrphanOutput_keeps (paneId : PaneId) (bytes : Bytes) :
    self.Keeps (@processOrphanOutput V S self paneId bytes).1 := by
  unfold processOrphanOutput
  split
  · exact .refl
  · dsimp only
    split
    · have hsame := total_orphan self.orphanOutput paneId []
      rw [append_nil] at hsame
      refine ⟨fun counted => ⟨?_, counted.bounded⟩, id⟩
      have hexact := counted.exact
      simp only [bufferedBytes, length_nil] at hexact hsame ⊢
      omega
    · next next hroom =>
      obtain ⟨hnext, hbound⟩ := nextTotal_ok hroom
      have hmore := total_orphan self.orphanOutput paneId bytes
      refine ⟨fun counted => ⟨?_, hbound⟩, id⟩
      have hexact := counted.exact
      simp only [bufferedBytes] at hexact ⊢
      omega

section

variable (views : ViewMethods V S)
include views

theorem processOutput_keeps (paneId : PaneId) (bytes : Bytes) (retainForAccessibility : Bool) :
    self.Keeps (self.processOutput views paneId bytes retainForAccessibility).1 := by
  unfold processOutput
  split
  · exact processOrphanOutput_keeps paneId bytes
  · next state hstate =>
    split
    · next hwaiting =>
      split
      · exact .refl
      · next next hroom =>
        obtain ⟨hnext, hbound⟩ := nextTotal_ok hroom
        constructor
        · intro counted
          have hbytes := bufferedBytes_set hstate
            { state with prebootstrapOutput := state.prebootstrapOutput ++ bytes }
          have hexact := counted.exact
          refine ⟨?_, hbound⟩
          simp only [bufferedBytes, buffered, length_append] at hbytes hexact ⊢
          omega
        · intro drained
          apply drained_set drained
          intro hbootstrapped
          rw [hbootstrapped] at hwaiting
          cases hwaiting
    · exact keeps_set hstate rfl rfl

/-! ## Captures -/

theorem applyBootstrap_keeps (paneId : PaneId) (status : CommandStatus)
    (output : List Bytes) (lineFlags : Bool) (nowMs : Nat) :
    self.Keeps (self.applyBootstrap views paneId status output lineFlags nowMs).1 := by
  unfold applyBootstrap
  split
  · exact .refl
  · next state hstate =>
    split
    · exact keeps_drain hstate rfl
    · exact (keeps_drain hstate rfl).trans (keeps_retire [state.view])

theorem applyResyncCapture_counted (metadata : PaneCaptureMetadata)
    (output : List Bytes) (pendingEscape : Bytes) (lineFlags : Bool) (nowMs : Nat) (h : self.Counted) :
    (self.applyResyncCapture views metadata output pendingEscape lineFlags nowMs).1.Counted := by
  unfold applyResyncCapture
  split
  · exact h
  · next state hstate => exact (keeps_retire [state.view]).counted (counted_set hstate rfl h)

theorem applyResyncCapture_drained (metadata : PaneCaptureMetadata)
    (output : List Bytes) (pendingEscape : Bytes) (lineFlags : Bool) (nowMs : Nat) (h : self.Drained) :
    (self.applyResyncCapture views metadata output pendingEscape lineFlags nowMs).1.Drained ↔
      ∀ state, self.panes[metadata.paneId]? = some state → state.prebootstrapOutput = [] := by
  unfold applyResyncCapture
  split
  · next hnone => simp [hnone, h]
  · next state hstate =>
    constructor
    · intro drained other hother
      obtain rfl := some.inj (hother.symm.trans hstate)
      have hempty := drained metadata.paneId _ ExtTreeMap.getElem?_insert_self rfl
      exact hempty
    · intro hempty
      exact drained_set h fun _ => hempty state hstate

end

/-! ## Reconciliation -/

/-- Halfway through the removals: what was removed is still in the count. -/
structure Removing (count : Nat) (removed : TmuxPaneSet V × Nat) : Prop where
  prebootstrapBytes : removed.1.prebootstrapBytes = count
  exact : count = removed.1.bufferedBytes + removed.2
  bounded : count ≤ maxPrebootstrapBytes

theorem removePane_removing {count : Nat} {removed : TmuxPaneSet V × Nat} (h : Removing count removed)
    (paneId : PaneId) : Removing count (removePane removed paneId) := by
  unfold removePane
  split
  · exact h
  · next state hstate =>
    have hpanes := total_of_some buffered hstate
    have hexact := h.exact
    have hbounded := h.bounded
    refine ⟨h.prebootstrapBytes, ?_, hbounded⟩
    simp only [bufferedBytes, retire, saturatingAdd, buffered, maxPrebootstrapBytes] at *
    omega

theorem removePane_drained {removed : TmuxPaneSet V × Nat} (h : removed.1.Drained) (paneId : PaneId) :
    (removePane removed paneId).1.Drained := by
  unfold removePane
  split
  · exact h
  · intro otherId other hother
    simp only [retire, ExtTreeMap.getElem?_erase, ite_none_left_eq_some] at hother
    exact h otherId other hother.2

theorem removePanes_keeps (topology : TmuxTopology) : self.Keeps (self.removePanes topology) := by
  unfold removePanes
  generalize self.panes.keys.filter (fun paneId => !topology.panes.contains paneId) = missing
  constructor
  · intro counted
    have hstart : Removing self.prebootstrapBytes (self, 0) := ⟨rfl, counted.exact, counted.bounded⟩
    have hend : Removing self.prebootstrapBytes (missing.foldl removePane (self, 0)) := by
      induction missing using reverseRecOn with
      | nil => exact hstart
      | append_singleton missing paneId ih =>
        rw [foldl_concat]
        exact removePane_removing ih paneId
    have hcount := hend.prebootstrapBytes
    have hexact := hend.exact
    have hbounded := hend.bounded
    refine ⟨?_, ?_⟩
    · simp only [bufferedBytes] at hexact ⊢
      omega
    · dsimp only
      omega
  · intro drained
    show (missing.foldl removePane (self, 0)).1.Drained
    induction missing using reverseRecOn with
    | nil => exact drained
    | append_singleton missing paneId ih =>
      rw [foldl_concat]
      exact removePane_drained ih paneId

variable (views : ViewMethods V S)

theorem entry_set_keeps (pane : Pane) (rows cols : Nat)
    (houtput : state.prebootstrapOutput = (self.entry views pane rows cols).2.prebootstrapOutput)
    (hmark : state.bootstrapped = (self.entry views pane rows cols).2.bootstrapped) :
    self.Keeps ((self.entry views pane rows cols).1.set pane.id state) := by
  revert houtput hmark
  unfold entry
  split
  · next known hknown => exact fun houtput hmark => keeps_set hknown houtput hmark
  · next hnone =>
    intro houtput hmark
    constructor
    · intro counted
      have horphans := total_erase length self.orphanOutput pane.id
      have hpanes := total_insert_add buffered self.panes pane.id state
      rw [hnone] at hpanes
      have hbuffered : state.buffered = ((self.orphanOutput[pane.id]?).getD []).length :=
        congrArg length houtput
      have hexact := counted.exact
      refine ⟨?_, counted.bounded⟩
      cases horphan : self.orphanOutput[pane.id]? <;>
        simp only [bufferedBytes, set, horphan, Option.elim, Option.getD, length_nil] at * <;> omega
    · intro drained
      apply drained_set (by exact drained)
      intro hbootstrapped
      rw [hmark] at hbootstrapped
      cases hbootstrapped

theorem reconcilePane_keeps (reconciled : TmuxPaneSet V × List BootstrapRequest) (pane : Pane) :
    reconciled.1.Keeps (reconcilePane views reconciled pane).1 := by
  unfold reconcilePane
  dsimp only
  split
  · exact entry_set_keeps views pane _ _ rfl rfl
  · exact entry_set_keeps views pane _ _ rfl rfl

theorem dropOrphans_keeps : self.Keeps self.dropOrphans where
  counted counted := by
    have hexact := counted.exact
    have hempty : total length (∅ : ExtTreeMap PaneId Bytes) = 0 := total_empty _
    refine ⟨?_, (Nat.sub_le _ _).trans counted.bounded⟩
    simp only [bufferedBytes, dropOrphans] at hexact ⊢
    omega
  drained := id

theorem reconcile_keeps (topology : TmuxTopology) : self.Keeps (self.reconcile views topology).1 := by
  refine Keeps.trans ?_ dropOrphans_keeps
  refine (removePanes_keeps topology).trans ?_
  generalize topology.panes.values = panes
  induction panes using reverseRecOn with
  | nil => exact .refl
  | append_singleton panes pane ih =>
    rw [foldl_concat]
    exact ih.trans (reconcilePane_keeps views _ pane)

/-! ## Presentation -/

theorem enablePresentationTracking_keeps : self.Keeps (self.enablePresentationTracking views) where
  counted counted := by
    have hexact := counted.exact
    refine ⟨?_, counted.bounded⟩
    unfold bufferedBytes enablePresentationTracking at *
    rw [total_map buffered (by intros; rfl)]
    exact hexact
  drained drained := by
    intro paneId state hstate
    simp only [enablePresentationTracking, ExtTreeMap.getElem?_map, map_eq_some_iff] at hstate
    obtain ⟨before, hbefore, rfl⟩ := hstate
    exact drained paneId before hbefore

theorem setPanePortal_keeps (paneId : PaneId) (connectionId : UInt64) :
    self.Keeps (self.setPanePortal views paneId connectionId).1 := by
  unfold setPanePortal
  split
  · exact .refl
  · next state hstate =>
    refine Keeps.trans ?_ (keeps_retire _)
    exact keeps_set hstate rfl rfl

theorem clearPanePortal_keeps (paneId : PaneId) (connectionId : UInt64) :
    self.Keeps (self.clearPanePortal views paneId connectionId) := by
  unfold clearPanePortal
  split
  · exact .refl
  · next state hstate =>
    split
    · refine Keeps.trans ?_ (keeps_retire _)
      exact keeps_set hstate rfl rfl
    · exact .refl

/-! ## Runs -/

def FindsDrained (self : TmuxPaneSet V) : Operation → Prop
  | .applyResyncCapture metadata _ _ _ _ =>
    ∀ state, self.panes[metadata.paneId]? = some state → state.prebootstrapOutput = []
  | _ => True

theorem step_counted (operation : Operation) (h : self.Counted) : (self.step views operation).Counted := by
  cases operation with
  | reconcile topology => exact (reconcile_keeps views topology).counted h
  | processOutput paneId bytes retain => exact (processOutput_keeps views paneId bytes retain).counted h
  | applyBootstrap paneId status output lineFlags nowMs =>
    exact (applyBootstrap_keeps views paneId status output lineFlags nowMs).counted h
  | applyResyncCapture metadata output pendingEscape lineFlags nowMs =>
    exact applyResyncCapture_counted views metadata output pendingEscape lineFlags nowMs h
  | enablePresentationTracking => exact (enablePresentationTracking_keeps views).counted h
  | setPanePortal paneId connectionId => exact (setPanePortal_keeps views paneId connectionId).counted h
  | clearPanePortal paneId connectionId => exact (clearPanePortal_keeps views paneId connectionId).counted h

theorem step_drained (operation : Operation) (h : self.Drained) :
    (self.step views operation).Drained ↔ self.FindsDrained operation := by
  cases operation with
  | reconcile topology => exact iff_of_true ((reconcile_keeps views topology).drained h) trivial
  | processOutput paneId bytes retain =>
    exact iff_of_true ((processOutput_keeps views paneId bytes retain).drained h) trivial
  | applyBootstrap paneId status output lineFlags nowMs =>
    exact iff_of_true ((applyBootstrap_keeps views paneId status output lineFlags nowMs).drained h) trivial
  | applyResyncCapture metadata output pendingEscape lineFlags nowMs =>
    exact applyResyncCapture_drained views metadata output pendingEscape lineFlags nowMs h
  | enablePresentationTracking => exact iff_of_true ((enablePresentationTracking_keeps views).drained h) trivial
  | setPanePortal paneId connectionId =>
    exact iff_of_true ((setPanePortal_keeps views paneId connectionId).drained h) trivial
  | clearPanePortal paneId connectionId =>
    exact iff_of_true ((clearPanePortal_keeps views paneId connectionId).drained h) trivial

theorem run_concat (connectionId : UInt64) (operations : List Operation) (operation : Operation) :
    run views connectionId (operations ++ [operation]) = (run views connectionId operations).step views operation :=
  foldl_concat ..

theorem run_counted (connectionId : UInt64) (operations : List Operation) :
    (run views connectionId operations).Counted := by
  induction operations using reverseRecOn with
  | nil => exact (new_accounted connectionId).toCounted
  | append_singleton operations operation ih =>
    rw [run_concat]
    exact step_counted views operation ih

/-- The count is exact in every run; all of the accounting holds iff every capture after a pause
finds nothing. -/
theorem run_accounted_iff (connectionId : UInt64) (operations : List Operation) :
    (∀ before, before <+: operations → (run views connectionId before).Counted) ∧
      ((∀ before, before <+: operations → (run views connectionId before).Accounted) ↔
        ∀ before operation, before ++ [operation] <+: operations →
          (run views connectionId before).FindsDrained operation) := by
  refine ⟨fun before _ => run_counted views connectionId before, ?_, ?_⟩
  · intro accounted before operation hbefore
    have hdrained := (accounted before ((prefix_append _ _).trans hbefore)).drained
    apply (step_drained views operation hdrained).mp
    rw [← run_concat]
    exact (accounted _ hbefore).drained
  · intro finds before hbefore
    induction before using reverseRecOn with
    | nil => exact new_accounted connectionId
    | append_singleton before operation ih =>
      have hearlier := ih ((prefix_append _ _).trans hbefore)
      refine ⟨run_counted views connectionId _, ?_⟩
      rw [run_concat]
      exact (step_drained views operation hearlier.drained).mpr (finds before operation hbefore)

/-! ### Output that waits through a capture -/

def transcripts : ViewMethods Bytes Unit where
  new _ _ := []
  liveSize _ := (24, 80)
  setSize view _ _ := view
  processChanges view bytes := view ++ bytes
  processChangesWithBatch view bytes _ := (view ++ bytes, ())
  discardShadowPtyReplies view := view
  finalizeChanges view _ := view
  enablePresentationTracking view := view
  clearUpdateSummary view := view
  hasVisibleContent view := view != []

def onePane : TmuxTopology :=
  { TmuxTopology.new 1 with panes := (∅ : ExtTreeMap PaneId Pane).insert ⟨1⟩ (emptyPane ⟨1⟩ ⟨1⟩) }

def blankCapture : PaneCaptureMetadata where
  paneId := ⟨1⟩
  left := 0
  top := 0
  width := 80
  height := 24
  dead := false
  cursorX := 0
  cursorY := 0
  cursorVisible := true
  cursorShape := "default"
  alternateOn := false
  paneInMode := 0
  historySize := 0

def waitingRun : List Operation :=
  [.reconcile onePane, .processOutput ⟨1⟩ (ascii "a") true, .applyResyncCapture blankCapture [] [] true 0]

theorem waitingRun_not_accounted : ¬ (run transcripts 1 waitingRun).Accounted := by
  intro accounted
  have hwaiting : (run transcripts 1 waitingRun).panes[(⟨1⟩ : PaneId)]?.map
      (fun state => (state.bootstrapped, state.prebootstrapOutput)) = some (true, ascii "a") := by decide
  obtain ⟨state, hstate, hpair⟩ := map_eq_some_iff.mp hwaiting
  have hempty := accounted.drained ⟨1⟩ state hstate (congrArg Prod.fst hpair)
  cases (congrArg Prod.snd hpair).symm.trans hempty


end TmuxPaneSet
end Lector.Panes
