import Lector.Foundations.Ownership
import Lector.Stack.Bases
import Lector.Stack.Presented

/-! While frames are tracked, no operation drops a view: a view that goes out of use is retired. -/
namespace Lector.Stack
open Lector.Topology Control Tmux Accessibility Ownership ViewController List Option TmuxPaneSet ViewStack
open Controller

/-- `Ownership.Extends` for views. -/
abbrev Grows (issued : Nat) (held : List View) (made : List View × Nat) : Prop :=
  Extends View.mk issued held made.2 made.1

theorem grows_new (issued : Nat) (held : List View) :
    Grows issued held ((View.new issued).1 :: held, (View.new issued).2) := Extends.make

/-! ## Panes -/

namespace TmuxPaneSet

variable {self : TmuxPaneSet} {paneId : PaneId} {state : PaneState}

theorem get?_split (h : self.get? paneId = some state) :
    ∃ before after, self.panes = before ++ (paneId, state) :: after ∧
      ∀ state', (self.set paneId state').panes = before ++ (paneId, state') :: after := by
  obtain ⟨panes, retired, tracking⟩ := self
  dsimp only [get?, set] at h ⊢
  induction panes with
  | nil => cases h
  | cons pane panes ih =>
    rw [lookup_cons] at h
    by_cases hpane : pane.1 = paneId
    · have hbeq : (paneId == pane.1) = true := beq_iff_eq.mpr hpane.symm
      rw [hbeq] at h
      cases h
      subst hpane
      refine ⟨[], panes, rfl, ?_⟩
      intro state'
      exact replaceF_cons_of_some _ (if_pos rfl)
    · have hbeq : (paneId == pane.1) = false := beq_eq_false_iff_ne.mpr (Ne.symm hpane)
      rw [hbeq] at h
      obtain ⟨before, after, hpanes, hset⟩ := ih h
      refine ⟨pane :: before, after, by rw [hpanes]; rfl, ?_⟩
      intro state'
      have hnone := replaceF_cons_of_none
        (l := panes) (fun pane => if pane.1 = paneId then some (paneId, state') else none) (if_neg hpane)
      rw [hnone, hset state']
      rfl

theorem views_set (h : self.get? paneId = some state) : ∃ rest, self.views.Perm (state.views ++ rest) ∧
      ∀ state', (self.set paneId state').views.Perm (state'.views ++ rest) := by
  obtain ⟨before, after, hpanes, hset⟩ := get?_split h
  refine ⟨(before.flatMap fun pane => pane.2.views) ++ (after.flatMap fun pane => pane.2.views) ++
    self.retiredPresentations, ?_, ?_⟩
  · rw [views, hpanes, flatMap_append, flatMap_cons, append_assoc, append_assoc, append_assoc]
    exact perm_append_comm_assoc _ _ _
  · intro state'
    rw [views, hset state', flatMap_append, flatMap_cons, append_assoc, append_assoc, append_assoc]
    exact perm_append_comm_assoc _ _ _

section

variable (tracking : self.presentationTracking = true)
include tracking

theorem views_retire (views : List View) : (self.retire views).views = self.views ++ views := by
  unfold retire TmuxPaneSet.views
  rw [if_pos tracking, append_assoc]

theorem views_set_retire (state : PaneState) (views : List View) :
    ((self.set paneId state).retire views).views = (self.set paneId state).views ++ views :=
  @views_retire (self.set paneId state) tracking views

theorem replaceView_grows (h : self.get? paneId = some state) (issued : Nat) : Grows issued self.views
      ((self.replaceView paneId state issued).1.views, (self.replaceView paneId state issued).2) := by
  obtain ⟨rest, hviews, hset⟩ := views_set h
  refine (grows_new issued self.views).trans (Extends.of_perm ?_)
  unfold replaceView
  rw [views_set_retire tracking]
  refine ((hset _).append_right [state.view]).trans ?_
  refine Perm.trans ?_ (hviews.symm.cons _)
  exact (perm_append_singleton _ _).trans (Perm.swap _ _ _)

variable (paneId : PaneId)

theorem applyBootstrap_grows (status : CommandStatus) (issued : Nat) : Grows issued self.views
      ((self.applyBootstrap paneId status issued).1.views, (self.applyBootstrap paneId status issued).2) := by
  unfold applyBootstrap
  cases hstate : self.get? paneId with
  | none => exact .refl
  | some state =>
    dsimp only
    split
    · obtain ⟨rest, hviews, hset⟩ := views_set hstate
      exact .of_perm ((hset _).trans hviews.symm)
    · exact replaceView_grows tracking hstate issued

theorem applyResyncCapture_grows (issued : Nat) : Grows issued self.views
      ((self.applyResyncCapture paneId issued).1.views, (self.applyResyncCapture paneId issued).2) := by
  unfold applyResyncCapture
  cases hstate : self.get? paneId with
  | none => exact .refl
  | some state => exact replaceView_grows tracking hstate issued

theorem setPanePortal_grows (connectionId : UInt64) (issued : Nat) : Grows issued self.views
      ((self.setPanePortal paneId connectionId issued).1.views,
        (self.setPanePortal paneId connectionId issued).2) := by
  unfold setPanePortal
  cases hstate : self.get? paneId with
  | none => exact .refl
  | some state =>
    obtain ⟨rest, hviews, hset⟩ := views_set hstate
    refine (grows_new issued self.views).trans (Extends.of_perm ?_)
    rw [views_set_retire tracking]
    refine ((hset _).append_right state.portalViews).trans ?_
    refine Perm.trans ?_ (hviews.symm.cons _)
    exact (Perm.swap _ _ _).trans ((perm_append_comm.cons _).cons _)

theorem clearPanePortal_grows (connectionId : UInt64) (issued : Nat) :
    Grows issued self.views ((self.clearPanePortal paneId connectionId).views, issued) := by
  unfold clearPanePortal
  cases hstate : self.get? paneId with
  | none => exact .refl
  | some state =>
    dsimp only
    split
    · obtain ⟨rest, hviews, hset⟩ := views_set hstate
      refine Extends.of_perm ?_
      rw [views_set_retire tracking]
      refine ((hset _).append_right state.portalViews).trans (Perm.trans ?_ hviews.symm)
      exact perm_append_comm.cons _
    · exact .refl

end

variable (paneId : PaneId)

theorem addPane_grows (issued : Nat) :
    Grows issued self.views ((self.addPane paneId issued).1.views, (self.addPane paneId issued).2) := by
  unfold addPane
  cases hstate : self.get? paneId with
  | some state => exact .refl
  | none =>
    refine (grows_new issued self.views).trans (Extends.of_perm ?_)
    rw [views, flatMap_append, append_assoc]
    exact perm_middle

theorem addPanes_grows (panes : List Pane) (issued : Nat) :
    Grows issued self.views ((self.addPanes panes issued).1.views, (self.addPanes panes issued).2) := by
  induction panes generalizing self issued with
  | nil => exact .refl
  | cons pane panes ih => exact (addPane_grows pane.id issued).trans (ih _)

theorem reconcile_grows (tracking : self.presentationTracking = true) (topology : TmuxTopology) (issued : Nat) :
    Grows issued self.views ((self.reconcile topology issued).1.views, (self.reconcile topology issued).2) := by
  refine Extends.trans (.of_perm ?_) (addPanes_grows topology.panes.values issued)
  have hretire : ∀ panes views,
      ((⟨panes, self.retiredPresentations, self.presentationTracking⟩ : TmuxPaneSet).retire views).views =
        (panes.flatMap fun pane => pane.2.views) ++ self.retiredPresentations ++ views :=
    fun panes => @views_retire ⟨panes, _, _⟩ tracking
  rw [hretire]
  have hsplit := (filter_append_perm (fun pane => topology.panes.contains pane.1) self.panes).flatMap_right
    fun pane => pane.2.views
  rw [flatMap_append] at hsplit
  rw [append_assoc]
  refine (perm_append_comm.append_left _).trans ?_
  rw [← append_assoc]
  exact hsplit.append_right _

/-! ### Tracking stays on -/

theorem presentationTracking_addPanes (panes : List Pane) (issued : Nat) :
    (self.addPanes panes issued).1.presentationTracking = self.presentationTracking := by
  unfold addPanes
  induction panes generalizing self issued with
  | nil => rfl
  | cons pane panes ih =>
    rw [foldl_cons, ih]
    unfold addPane
    split <;> rfl

theorem presentationTracking_reconcile (topology : TmuxTopology) (issued : Nat) :
    (self.reconcile topology issued).1.presentationTracking = self.presentationTracking :=
  presentationTracking_addPanes _ issued

theorem presentationTracking_applyBootstrap (status : CommandStatus) (issued : Nat) :
    (self.applyBootstrap paneId status issued).1.presentationTracking = self.presentationTracking := by
  unfold applyBootstrap
  split
  · rfl
  · split <;> rfl

theorem presentationTracking_applyResyncCapture (issued : Nat) :
    (self.applyResyncCapture paneId issued).1.presentationTracking = self.presentationTracking := by
  unfold applyResyncCapture
  split <;> rfl

theorem presentationTracking_setPanePortal (connectionId : UInt64) (issued : Nat) :
    (self.setPanePortal paneId connectionId issued).1.presentationTracking = self.presentationTracking := by
  unfold setPanePortal
  split <;> rfl

theorem presentationTracking_clearPanePortal (connectionId : UInt64) :
    (self.clearPanePortal paneId connectionId).presentationTracking = self.presentationTracking := by
  unfold clearPanePortal
  split
  · rfl
  · split <;> rfl

end TmuxPaneSet

/-! ## Connections -/

/-- A tracked connection keeps its views, and stays tracked. -/
structure KeepsViews (issued : Nat) (tmux : TmuxConnectionView) (made : TmuxConnectionView × Nat) : Prop where
  grows : Grows issued tmux.views (made.1.views, made.2)
  tracking : made.1.panes.presentationTracking = tmux.panes.presentationTracking
  connectionId : made.1.connectionId = tmux.connectionId

theorem keepsViews_withPanes {issued : Nat} {tmux tmux' : TmuxConnectionView} {made : TmuxPaneSet × Nat}
    (grows : Grows issued tmux.panes.views (made.1.views, made.2))
    (tracking : made.1.presentationTracking = tmux.panes.presentationTracking)
    (placeholder : tmux'.placeholder = tmux.placeholder) (portal : tmux'.portal = tmux.portal)
    (connectionId : tmux'.connectionId = tmux.connectionId) :
    KeepsViews issued tmux (tmux'.withPanes made) where
  grows := by
    have hviews : (tmux'.withPanes made).1.views = [tmux.placeholder, tmux.portal] ++ made.1.views := by
      rw [← placeholder, ← portal]
      rfl
    rw [hviews]
    exact grows.append_left [tmux.placeholder, tmux.portal]
  tracking := tracking
  connectionId := connectionId

theorem ConnectionOperation.keepsViews {tmux : TmuxConnectionView}
    (tracking : tmux.panes.presentationTracking = true) (operation : ConnectionOperation) (issued : Nat) :
    KeepsViews issued tmux (operation.apply tmux issued) := by
  cases operation with
  | syncTopology topology =>
    exact keepsViews_withPanes (reconcile_grows tracking topology issued)
      (presentationTracking_reconcile topology issued) rfl rfl rfl
  | applyBootstrap paneId status =>
    exact keepsViews_withPanes (applyBootstrap_grows tracking paneId status issued)
      (presentationTracking_applyBootstrap paneId status issued) rfl rfl rfl
  | applyResyncCapture metadata =>
    unfold apply TmuxConnectionView.applyResyncCapture
    dsimp only
    cases updatePaneCaptureMetadata tmux.topology metadata with
    | none => exact ⟨.refl, rfl, rfl⟩
    | some topology =>
      exact keepsViews_withPanes (applyResyncCapture_grows tracking metadata.paneId issued)
        (presentationTracking_applyResyncCapture metadata.paneId issued) rfl rfl rfl
  | setPanePortal paneId childConnectionId =>
    exact keepsViews_withPanes (setPanePortal_grows tracking paneId childConnectionId issued)
      (presentationTracking_setPanePortal paneId childConnectionId issued) rfl rfl rfl
  | clearPanePortal paneId childConnectionId =>
    exact @keepsViews_withPanes issued tmux tmux (tmux.panes.clearPanePortal paneId childConnectionId, issued)
      (clearPanePortal_grows tracking paneId childConnectionId issued)
      (presentationTracking_clearPanePortal paneId childConnectionId) rfl rfl rfl
  | showPortal => exact ⟨.refl, rfl, rfl⟩
  | showConnection => exact ⟨.refl, rfl, rfl⟩

/-! ## Stacks -/

section Stacks

variable {V : Type} {stack stack' stack'' : ViewStack V}

structure KeepsControllers (stack stack' : ViewStack V) : Prop where
  tracking : stack'.presentationTracking = stack.presentationTracking
  count : stack.baseCount ≤ stack.views.length → stack'.baseCount ≤ stack'.views.length
  perm : (stack'.views ++ stack'.retiredViews).Perm (stack.views ++ stack.retiredViews)
  views : stack'.views ⊆ stack.views

theorem KeepsControllers.trans (h : KeepsControllers stack stack') (h' : KeepsControllers stack' stack'') :
    KeepsControllers stack stack'' where
  tracking := h'.tracking.trans h.tracking
  count := fun hcount => h'.count (h.count hcount)
  perm := h'.perm.trans h.perm
  views := Subset.trans h'.views h.views

theorem keepsControllers_same (tracking : stack'.presentationTracking = stack.presentationTracking)
    (count : stack'.baseCount = stack.baseCount) (views : stack'.views = stack.views)
    (retired : stack'.retiredViews = stack.retiredViews) : KeepsControllers stack stack' where
  tracking := tracking
  count := by rw [count, views]; exact id
  perm := by rw [views, retired]
  views := by rw [views]; exact Subset.refl _

section

variable (tracking : stack.presentationTracking = true)
include tracking

theorem clearOverlays_tracked :
    stack.clearOverlays.retiredViews = stack.retiredViews ++ stack.views.drop stack.baseCount ∧
      stack.clearOverlays.presentationTracking = stack.presentationTracking := by
  unfold clearOverlays
  by_cases hoverlay : stack.hasOverlay = true
  · have hbegun : stack.beginCompositorTransition.presentationTracking = true := tracking
    rw [if_pos hoverlay, if_pos hbegun]
    exact ⟨rfl, rfl⟩
  · rw [if_neg hoverlay, if_pos tracking]
    exact ⟨rfl, rfl⟩

theorem keepsControllers_clearOverlays : KeepsControllers stack stack.clearOverlays := by
  obtain ⟨hretired, htracking⟩ := clearOverlays_tracked tracking
  have hviews : stack.clearOverlays.views = stack.views.take stack.baseCount := views_clearOverlays stack
  constructor
  · exact htracking
  · rw [baseCount_clearOverlays, hviews, length_take]
    omega
  · rw [hviews, hretired]
    refine (perm_append_comm.append_left _).trans ?_
    rw [← append_assoc, take_append_drop]
  · rw [hviews]
    exact take_subset _ _

theorem keepsControllers_pop : KeepsControllers stack stack.pop.2 := by
  unfold pop
  by_cases hoverlay : stack.hasOverlay = true
  · have hnot : ¬(!stack.hasOverlay) = true := by rw [hoverlay]; decide
    have hlt := of_decide_eq_true hoverlay
    have hne : stack.views ≠ [] := ne_nil_of_length_pos (Nat.zero_lt_of_lt hlt)
    have hpopped : KeepsControllers stack { stack with
          views := stack.views.dropLast
          retiredViews := stack.retiredViews ++ stack.views.getLast?.toList } := by
      constructor
      · rfl
      · intro hcount
        rw [length_dropLast]
        exact Nat.le_sub_one_of_lt hlt
      · refine (perm_append_comm.append_left _).trans ?_
        rw [← append_assoc, getLast?_eq_some_getLast hne, toList_some, dropLast_append_getLast]
      · exact dropLast_subset _
    rw [if_neg hnot]
    dsimp only
    rw [if_pos tracking]
    split
    · exact hpopped.trans (keepsControllers_same rfl rfl rfl rfl)
    · exact hpopped
  · have hnot : (!stack.hasOverlay) = true := by simpa using hoverlay
    rw [if_pos hnot]
    exact keepsControllers_same rfl rfl rfl rfl

theorem keepsControllers_activateTerminal : KeepsControllers stack stack.activateTerminal := by
  have hcleared := keepsControllers_clearOverlays tracking
  unfold activateTerminal
  dsimp only
  split <;> exact hcleared.trans (keepsControllers_same rfl rfl rfl rfl)

end

variable [ViewController V]

section

variable (tracking : stack.presentationTracking = true)
include tracking

theorem keepsControllers_activateTmuxConnection
    (connectionId : UInt64) : KeepsControllers stack (stack.activateTmuxConnection connectionId).2 := by
  have hcleared := keepsControllers_clearOverlays tracking
  unfold activateTmuxConnection
  split
  · exact keepsControllers_same rfl rfl rfl rfl
  · dsimp only
    split <;> exact hcleared.trans (keepsControllers_same rfl rfl rfl rfl)

theorem keepsControllers_removeTmuxConnections
    (connectionIds : List UInt64) : KeepsControllers stack (stack.removeTmuxConnections connectionIds) := by
  have hsplit := filter_append_perm (stack.removes connectionIds) stack.views.zipIdx
  have hviews := (hsplit.map Prod.fst)
  rw [map_append, zipIdx_map_fst] at hviews
  have hremoved : KeepsControllers stack { stack with
        retiredViews := stack.retiredViews ++
          (stack.views.zipIdx.filter (stack.removes connectionIds)).map Prod.fst
        views := (stack.views.zipIdx.filter fun view => !stack.removes connectionIds view).map Prod.fst
        baseCount := stack.baseCount -
          ((stack.views.zipIdx.filter (stack.removes connectionIds)).map Prod.fst).length } := by
    constructor
    · rfl
    · have hlength := hviews.length_eq
      rw [length_append] at hlength
      dsimp only
      omega
    · refine (perm_append_comm.append_left _).trans ?_
      rw [← append_assoc]
      exact (perm_append_comm.trans hviews).append_right _
    · intro view hview
      exact hviews.subset (mem_append_right _ hview)
  unfold removeTmuxConnections
  dsimp only
  split <;> exact hremoved.trans (keepsControllers_same rfl rfl rfl rfl)

theorem push_perm (count : stack.baseCount ≤ stack.views.length)
    (view : V) : (stack.push view).presentationTracking = true ∧
      (stack.push view).baseCount ≤ (stack.push view).views.length ∧
      ((stack.push view).views ++ (stack.push view).retiredViews).Perm
        (enablePresentationTracking view :: (stack.views ++ stack.retiredViews)) ∧
      (stack.push view).views ⊆ enablePresentationTracking view :: stack.views := by
  unfold push
  dsimp only
  rw [if_pos tracking]
  split
  · have hcleared := keepsControllers_clearOverlays tracking
    have hcount := hcleared.count count
    have hinsert := perm_insertIdx (enablePresentationTracking view) stack.clearOverlays.views hcount
    refine ⟨hcleared.tracking.trans tracking, ?_, ?_, ?_⟩
    · show stack.clearOverlays.baseCount + 1 ≤ (stack.clearOverlays.views.insertIdx _ _).length
      rw [length_insertIdx_of_le_length hcount]
      exact Nat.succ_le_succ hcount
    · exact (hinsert.append_right _).trans (hcleared.perm.cons _)
    · intro other hother
      rcases mem_cons.mp (hinsert.subset hother) with hnew | hold
      · exact mem_cons.mpr (.inl hnew)
      · exact mem_cons_of_mem _ (hcleared.views hold)
  · refine ⟨tracking, ?_, ?_, ?_⟩
    · rw [length_append]
      exact le_trans count (Nat.le_add_right _ _)
    · rw [append_assoc]
      exact perm_middle
    · intro other hother
      rcases mem_append.mp hother with hold | hnew
      · exact mem_cons_of_mem _ hold
      · exact mem_cons.mpr (.inl (mem_singleton.mp hnew))

end

end Stacks

/-! ## Stacks of controllers -/

theorem Controller.views_enable (view : Controller) : (enablePresentationTracking view).views = view.views := by
  cases view <;> rfl

structure Tracks (stack : ViewStack Controller) : Prop where
  tracking : stack.presentationTracking = true
  count : stack.baseCount ≤ stack.views.length
  connections : ∀ tmux, Controller.connection tmux ∈ stack.views → tmux.panes.presentationTracking = true

section Controllers

variable {stack stack' : ViewStack Controller} {issued : Nat}

/-- The stack goes on tracking and keeps its views. -/
def Retires (stack : ViewStack Controller) (issued : Nat) (made : ViewStack Controller × Nat) : Prop :=
  Tracks made.1 ∧ Grows issued stack.owned (made.1.owned, made.2)

theorem KeepsControllers.retires (h : KeepsControllers stack stack') (tracks : Tracks stack) :
    Retires stack issued (stack', issued) := by
  refine ⟨⟨h.tracking.trans tracks.tracking, h.count tracks.count, ?_⟩, ?_⟩
  · intro tmux htmux
    exact tracks.connections tmux (h.views htmux)
  · exact .of_perm (h.perm.flatMap_right _)

theorem push_retires (tracks : Tracks stack) {view : Controller} {issued' : Nat}
    (made : Grows issued stack.owned (view.views ++ stack.owned, issued')) :
    Retires stack issued (stack.push view, issued') := by
  obtain ⟨htracking, hcount, hperm, hviews⟩ := push_perm tracks.tracking tracks.count view
  refine ⟨⟨htracking, hcount, ?_⟩, made.trans (.of_perm ?_)⟩
  · intro tmux htmux
    rcases mem_cons.mp (hviews htmux) with hnew | hold
    · cases view with
      | single kind other view => cases hnew
      | connection pushed =>
        obtain rfl := connection.inj hnew
        rfl
    · exact tracks.connections tmux hold
  · have howned := hperm.flatMap_right Controller.views
    rw [flatMap_cons, views_enable] at howned
    exact howned

theorem onConnection_retires (tracks : Tracks stack) (connectionId : UInt64) (operation : ConnectionOperation) :
    Retires stack issued (stack.onConnection connectionId operation.apply issued) := by
  have hsame : Retires stack issued (stack, issued) := ⟨tracks, .refl⟩
  unfold onConnection
  dsimp only
  cases stack.tmuxConnectionIndex connectionId with
  | none => exact hsame
  | some index =>
    rw [bind_some, bind_some]
    cases hview : stack.views[index]? with
    | none => exact hsame
    | some view =>
      cases view with
      | single kind other view => exact hsame
      | connection tmux =>
        obtain ⟨hindex, hget⟩ := List.getElem?_eq_some_iff.mp hview
        have hmem := mem_of_getElem? hview
        obtain ⟨hgrows, htracking, -⟩ := operation.keepsViews (tracks.connections tmux hmem) issued
        have hset := set_eq_take_append_cons_drop (l := stack.views) (i := index)
          (a := connection (operation.apply tmux issued).1)
        rw [if_pos hindex] at hset
        have hviews : stack.views =
            stack.views.take index ++ connection tmux :: stack.views.drop (index + 1) := by
          rw [← hget, getElem_cons_drop, take_append_drop]
        refine ⟨⟨tracks.tracking, ?_, ?_⟩, ?_⟩
        · exact le_trans tracks.count (le_of_eq length_set.symm)
        · intro other hother
          rcases mem_or_eq_of_mem_set hother with hold | hnew
          · exact tracks.connections other hold
          · obtain rfl := connection.inj hnew
            exact htracking.trans (tracks.connections tmux hmem)
        · have howned : stack.owned = (stack.views.take index).flatMap Controller.views ++ (tmux.views ++
              ((stack.views.drop (index + 1)).flatMap Controller.views ++
                stack.retiredViews.flatMap Controller.views)) := by
            rw [owned, controllers, flatMap_append, hviews, flatMap_append,
              flatMap_cons, ← hviews, append_assoc, append_assoc]
            rfl
          rw [howned]
          refine ((hgrows.append_right _).append_left _).trans (.of_perm (.of_eq ?_))
          rw [owned, controllers]
          dsimp only [map_some, bind_some, getD_some, connection?]
          rw [hset, flatMap_append, flatMap_append, flatMap_cons, append_assoc, append_assoc]
          rfl

/-- **No operation on the stack drops a view.** -/
theorem StackOperation.retires (tracks : Tracks stack) (operation : StackOperation) :
    Retires stack issued (operation.apply stack issued) := by
  cases operation with
  | push kind other => exact push_retires tracks (grows_new issued stack.owned)
  | pushConnection connectionId =>
    refine push_retires tracks ?_
    exact (grows_new issued stack.owned).trans ((grows_new (issued + 1) _).trans (.of_perm (Perm.swap _ _ _)))
  | pop => exact (keepsControllers_pop tracks.tracking).retires tracks
  | clearOverlays => exact (keepsControllers_clearOverlays tracks.tracking).retires tracks
  | removeTmuxConnections connectionIds =>
    exact (keepsControllers_removeTmuxConnections tracks.tracking connectionIds).retires tracks
  | activateTerminal => exact (keepsControllers_activateTerminal tracks.tracking).retires tracks
  | activateTmuxConnection connectionId =>
    exact (keepsControllers_activateTmuxConnection tracks.tracking connectionId).retires tracks
  | completeCompositorTransition transition =>
    refine KeepsControllers.retires ?_ tracks
    unfold ViewStack.completeCompositorTransition
    split <;> exact keepsControllers_same rfl rfl rfl rfl
  | connection connectionId operation => exact onConnection_retires tracks connectionId operation
  | makeElsewhere => exact ⟨tracks, .lose (Nat.le_succ issued)⟩

end Controllers

end Lector.Stack
