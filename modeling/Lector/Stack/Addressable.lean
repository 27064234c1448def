import Lector.Output.Order
import Lector.Stack.Retirement

/-! Over every run a view that is or can become current is still owned by the stack, and it is found by its
id unless its connection has turned to a portal. What no render names is dropped by the next pruning. -/
namespace Lector.Stack
open Output Lector.Topology Layout Tmux Accessibility Ownership List Controller ViewStack TmuxConnectionView
open Option hiding any_eq_true mem_map mem_map_of_mem

/-! ## Finding a view -/

theorem find?_views (tmux : TmuxConnectionView) (viewId : ViewId) :
    tmux.modelById viewId = tmux.views.find? fun view => view.viewId = viewId := by
  have hstate : ∀ state : PaneState, (state.views.find? fun view => view.viewId = viewId) =
        if state.view.viewId = viewId then some state.view
        else (state.portal.map PanePortal.view).filter fun view => view.viewId = viewId := by
    intro state
    rw [PaneState.views, find?_cons]
    by_cases hview : state.view.viewId = viewId
    · rw [if_pos hview, decide_eq_true hview]
    · rw [if_neg hview, decide_eq_false hview, PaneState.portalViews]
      cases hportal : state.portal with
      | none => rfl
      | some portal => rw [map_some, toList_some, find?_singleton, filter_some]
  rw [TmuxConnectionView.modelById, TmuxConnectionView.views, find?_cons, find?_cons]
  by_cases hplaceholder : tmux.placeholder.viewId = viewId
  · rw [if_pos hplaceholder, decide_eq_true hplaceholder]
  · rw [if_neg hplaceholder, decide_eq_false hplaceholder]
    by_cases hportal : tmux.portal.viewId = viewId
    · rw [if_pos hportal, decide_eq_true hportal]
    · rw [if_neg hportal, decide_eq_false hportal, TmuxPaneSet.modelById, TmuxPaneSet.views,
        find?_append, find?_flatMap]
      congr 2
      funext pane
      exact (hstate pane.2).symm

theorem mem_views_of_get? {panes : TmuxPaneSet} {paneId : PaneId} {state : PaneState}
    (h : panes.get? paneId = some state) {view : View} (hview : view ∈ state.views) : view ∈ panes.views := by
  obtain ⟨rest, hperm, -⟩ := TmuxPaneSet.views_set h
  exact hperm.mem_iff.mpr (mem_append_left _ hview)

theorem TmuxConnectionView.model_mem (tmux : TmuxConnectionView) : tmux.model ∈ tmux.views := by
  have hplaceholder : tmux.placeholder ∈ tmux.views := mem_cons_self
  have hpanes : ∀ view ∈ tmux.panes.views, view ∈ tmux.views := fun view hview =>
    mem_cons_of_mem _ (mem_cons_of_mem _ hview)
  unfold model
  split
  · exact mem_cons_of_mem _ mem_cons_self
  · split
    · cases hpane : tmux.activeWindow.activePane with
      | none => exact hplaceholder
      | some paneId =>
        rw [bind_some, TmuxPaneSet.panePortalView, TmuxPaneSet.paneView]
        cases hstate : tmux.panes.get? paneId with
        | none => exact hplaceholder
        | some state =>
          apply hpanes
          apply mem_views_of_get? hstate
          rw [bind_some]
          cases hportal : state.portal with
          | none => exact mem_cons_self
          | some portal =>
            rw [PaneState.views, PaneState.portalViews, hportal]
            exact mem_cons_of_mem _ mem_cons_self
    · exact hplaceholder

namespace Controller

variable {controller : Controller} {view found : View} {viewId : ViewId}

theorem model_mem (controller : Controller) : controller.model ∈ controller.views := by
  cases controller with
  | single kind other view => exact mem_singleton_self view
  | connection tmux => exact tmux.model_mem

theorem mem_of_modelById (h : controller.modelById viewId = some found) :
    found ∈ controller.views ∧ found.viewId = viewId := by
  unfold modelById at h
  split at h
  · cases controller with
    | single kind other view => cases h
    | connection tmux =>
      rw [connection?, bind_some, find?_views] at h
      have hid := find?_some (p := fun view : View => decide (view.viewId = viewId)) h
      exact ⟨mem_of_find?_eq_some h, of_decide_eq_true hid⟩
  · split at h
    · rename_i hmodel
      cases h
      exact ⟨controller.model_mem, hmodel⟩
    · cases h

/-- The view belongs to a connection that has turned to a portal, and is not what the connection shows. -/
def Hides (controller : Controller) (view : View) : Prop :=
  ∃ tmux, controller = connection tmux ∧ tmux.isShowingPortal = true ∧ view ∈ tmux.views ∧ tmux.model ≠ view

theorem modelById_isSome_iff (hmem : view ∈ controller.views)
    (hids : ∀ other ∈ controller.views, other.viewId = view.viewId → other = view) :
    (controller.modelById view.viewId).isSome = true ↔ ¬controller.Hides view := by
  unfold modelById
  cases controller with
  | single kind other held =>
    obtain rfl := mem_singleton.mp hmem
    have hkind : (single kind other view).kind ≠ .tmuxConnection := other
    have hid : (single kind other view).model.viewId = view.viewId := rfl
    rw [if_neg hkind, if_pos hid]
    refine iff_of_true rfl ?_
    rintro ⟨tmux, htmux, -⟩
    cases htmux
  | connection tmux =>
    cases hportal : tmux.isShowingPortal with
    | false =>
      have hkind : (connection tmux).kind = .tmuxConnection := by
        rw [kind, TmuxConnectionView.kind, hportal]
        rfl
      rw [if_pos hkind, connection?, bind_some, find?_views]
      refine iff_of_true ?_ ?_
      · exact find?_isSome.mpr ⟨view, hmem, decide_eq_true rfl⟩
      · rintro ⟨tmux', htmux, hshowing, -⟩
        obtain rfl := connection.inj htmux
        rw [hportal] at hshowing
        cases hshowing
    | true =>
      have hkind : (connection tmux).kind ≠ .tmuxConnection := by
        rw [kind, TmuxConnectionView.kind, hportal]
        decide
      rw [if_neg hkind]
      by_cases hmodel : tmux.model = view
      · have hid : (connection tmux).model.viewId = view.viewId := congrArg View.viewId hmodel
        rw [if_pos hid]
        refine iff_of_true rfl ?_
        rintro ⟨tmux', htmux, -, -, hne⟩
        obtain rfl := connection.inj htmux
        exact hne hmodel
      · have hid : (connection tmux).model.viewId ≠ view.viewId := fun hsame =>
          hmodel (hids tmux.model tmux.model_mem hsame)
        rw [if_neg hid]
        exact iff_of_false Bool.false_ne_true (not_not_intro ⟨tmux, rfl, hportal, hmem, hmodel⟩)

end Controller

namespace ViewStack

variable {stack : ViewStack Controller} {view : View}

theorem mem_owned : view ∈ stack.owned ↔ ∃ controller ∈ stack.controllers, view ∈ controller.views :=
  mem_flatMap

def Hides (stack : ViewStack Controller) (view : View) : Prop :=
  ∃ controller ∈ stack.controllers, controller.Hides view

theorem modelById_eq_some_iff (hnodup : stack.owned.Nodup) (hmem : view ∈ stack.owned)
    (hids : ∀ other ∈ stack.owned, other.viewId = view.viewId → other = view) :
    stack.modelById view.viewId = some view ↔ ¬stack.Hides view := by
  obtain ⟨controller, hcontroller, hview⟩ := mem_owned.mp hmem
  have hsame : ∀ other ∈ stack.controllers, view ∈ other.views → other = controller := by
    intro other hother hotherView
    by_contra hne
    have hsymm : Std.Symm (Function.onFun Disjoint Controller.views) := ⟨fun _ _ h _ hb ha => h ha hb⟩
    have hdisjoint := (nodup_flatMap.mp hnodup).2.forall hother hcontroller hne
    exact hdisjoint hotherView hview
  have hhere := modelById_isSome_iff hview fun other hother =>
    hids other (mem_owned.mpr ⟨controller, hcontroller, hother⟩)
  have hfound : ∀ other ∈ stack.controllers, ∀ found, other.modelById view.viewId = some found →
      found = view ∧ other = controller := by
    intro other hother found hsome
    obtain ⟨hfoundMem, hid⟩ := mem_of_modelById hsome
    obtain rfl := hids found (mem_owned.mpr ⟨other, hother, hfoundMem⟩) hid
    exact ⟨rfl, hsame other hother hfoundMem⟩
  constructor
  · intro hsome hhides
    obtain ⟨other, hother, hotherHides⟩ := hhides
    obtain ⟨tmux, rfl, hshowing, htmuxView, hmodel⟩ := hotherHides
    obtain rfl := hsame _ hother htmuxView
    obtain ⟨found, hfoundMem, hfoundSome⟩ := exists_of_findSome?_eq_some hsome
    obtain ⟨-, rfl⟩ := hfound found hfoundMem view hfoundSome
    exact hhere.mp (isSome_of_eq_some hfoundSome) ⟨tmux, rfl, hshowing, htmuxView, hmodel⟩
  · intro hnot
    have hisSome := hhere.mpr fun hhides => hnot ⟨controller, hcontroller, hhides⟩
    have hstack : (stack.modelById view.viewId).isSome := by
      rw [modelById, findSome?_isSome_iff]
      exact ⟨controller, hcontroller, hisSome⟩
    obtain ⟨found, hsome⟩ := isSome_iff_exists.mp hstack
    obtain ⟨other, hother, hotherSome⟩ := exists_of_findSome?_eq_some hsome
    rw [hsome, (hfound other hother found hotherSome).1]

end ViewStack

/-! ## Pruning -/

section Pruning

variable {retained : List ViewId}

theorem TmuxConnectionView.views_retain (tmux : TmuxConnectionView) (retained : List ViewId) :
    (tmux.retainAccessibilityViews retained).views.Sublist tmux.views := by
  have hretired : (tmux.panes.retainAccessibilityViews retained).views.Sublist tmux.panes.views :=
    filter_sublist.append_left _
  exact (hretired.cons_cons _).cons_cons _

theorem TmuxConnectionView.mem_views_retain {tmux : TmuxConnectionView} {view : View} (h : view ∈ tmux.views)
    (hretained : view.viewId ∈ retained) : view ∈ (tmux.retainAccessibilityViews retained).views := by
  rcases mem_cons.mp h with hplaceholder | h
  · exact hplaceholder ▸ mem_cons_self
  · rcases mem_cons.mp h with hportal | h
    · exact hportal ▸ mem_cons_of_mem _ mem_cons_self
    · apply mem_cons_of_mem
      apply mem_cons_of_mem
      rcases mem_append.mp h with hpane | hretired
      · exact mem_append_left _ hpane
      · exact mem_append_right _ (mem_filter.mpr ⟨hretired, contains_iff_mem.mpr hretained⟩)

namespace Controller

theorem views_retain (controller : Controller) (retained : List ViewId) :
    (controller.retainAccessibilityViews retained).views.Sublist controller.views := by
  cases controller with
  | single kind other view => exact .refl _
  | connection tmux => exact tmux.views_retain retained

theorem mem_views_retain {controller : Controller} {view : View} (h : view ∈ controller.views)
    (hretained : view.viewId ∈ retained) : view ∈ (controller.retainAccessibilityViews retained).views := by
  cases controller with
  | single kind other view => exact h
  | connection tmux => exact TmuxConnectionView.mem_views_retain h hretained

theorem isRetained_iff (controller : Controller) :
    controller.isRetained retained = true ↔ ∃ view ∈ controller.views, view.viewId ∈ retained := by
  cases controller with
  | single kind other view =>
    rw [isRetained, contains_iff_mem]
    exact ⟨fun h => ⟨view, mem_singleton_self view, h⟩, fun ⟨found, hfound, h⟩ => mem_singleton.mp hfound ▸ h⟩
  | connection tmux =>
    rw [isRetained, any_eq_true]
    constructor
    · rintro ⟨viewId, hretained, hfound⟩
      rw [find?_views, find?_isSome] at hfound
      obtain ⟨view, hview, hid⟩ := hfound
      exact ⟨view, hview, of_decide_eq_true hid ▸ hretained⟩
    · rintro ⟨view, hview, hretained⟩
      refine ⟨view.viewId, hretained, ?_⟩
      rw [find?_views, find?_isSome]
      exact ⟨view, hview, decide_eq_true rfl⟩

end Controller

namespace ViewStack

theorem owned_retain (stack : ViewStack Controller) (retained : List ViewId) :
    (stack.retainAccessibilityViews retained).owned.Sublist stack.owned := by
  have hflat : ∀ views : List Controller,
      ((views.map (Controller.retainAccessibilityViews retained)).flatMap Controller.views).Sublist
        (views.flatMap Controller.views) := by
    intro views
    induction views with
    | nil => exact .refl _
    | cons view views ih => exact (view.views_retain retained).append ih
  rw [owned, owned, controllers, controllers, flatMap_append, flatMap_append]
  exact (hflat stack.views).append ((filter_sublist.flatMap Controller.views).trans (hflat stack.retiredViews))

theorem mem_owned_retain {stack : ViewStack Controller} {view : View} (h : view ∈ stack.owned)
    (hretained : view.viewId ∈ retained) : view ∈ (stack.retainAccessibilityViews retained).owned := by
  obtain ⟨controller, hcontroller, hview⟩ := mem_owned.mp h
  have hkept := mem_views_retain hview hretained
  refine mem_owned.mpr ⟨_, ?_, hkept⟩
  rcases mem_append.mp hcontroller with hviews | hretired
  · exact mem_append_left _ (mem_map_of_mem hviews)
  · exact mem_append_right _ (mem_filter.mpr ⟨mem_map_of_mem hretired,
      (isRetained_iff _).mpr ⟨view, hkept, hretained⟩⟩)

theorem tracks_retain {stack : ViewStack Controller} (h : Tracks stack) :
    Tracks (stack.retainAccessibilityViews retained) where
  tracking := h.tracking
  count := le_trans h.count (le_of_eq (length_map _).symm)
  connections := by
    intro tmux htmux
    obtain ⟨controller, hcontroller, hretain⟩ := mem_map.mp htmux
    cases controller with
    | single kind other view => cases hretain
    | connection found =>
      obtain rfl := connection.inj hretain
      exact h.connections found hcontroller

end ViewStack

end Pruning

/-! ## Renders -/

def Named (ids : List ViewId) (views : List View) : Prop := ∀ id ∈ ids, ∃ view ∈ views, view.viewId = id

section Captures

variable {views views' : List View} {ids ids' : List ViewId}

theorem Named.mono (h : Named ids views) (hsub : views ⊆ views') : Named ids views' := by
  intro id hid
  obtain ⟨view, hview, rfl⟩ := h id hid
  exact ⟨view, hsub hview, rfl⟩

theorem named_append : Named (ids ++ ids') views ↔ Named ids views ∧ Named ids' views := forall_mem_append

theorem named_singleton {view : View} (h : view ∈ views) : Named [view.viewId] views := by
  intro id hid
  exact ⟨view, h, (mem_singleton.mp hid).symm⟩

theorem TmuxPaneSet.named_capture (panes : TmuxPaneSet) (layout : TmuxLayout) (activePane : Option PaneId) :
    Named ((panes.capturePresentationFrames layout activePane).1.toList ++
      (panes.capturePresentationFrames layout activePane).2) panes.views := by
  have hpresented : ∀ pane ∈ layout.panes.filterMap fun pane =>
      (panes.get? pane.paneId).map fun state => (pane.paneId, state.presentedView.viewId),
      ∃ view ∈ panes.views, view.viewId = pane.2 := by
    intro pane hpane
    obtain ⟨found, -, hfound⟩ := mem_filterMap.mp hpane
    obtain ⟨state, hstate, rfl⟩ := map_eq_some_iff.mp hfound
    refine ⟨state.presentedView, mem_views_of_get? hstate ?_, rfl⟩
    rw [PaneState.presentedView, PaneState.views, PaneState.portalViews]
    cases state.portal with
    | none => exact mem_cons_self
    | some portal => exact mem_cons_of_mem _ mem_cons_self
  apply named_append.mpr
  constructor
  · intro id hid
    obtain ⟨pane, hlast, rfl⟩ := map_eq_some_iff.mp (mem_toList.mp hid)
    exact hpresented pane (mem_of_mem_filter (mem_of_getLast? hlast))
  · intro id hid
    obtain ⟨pane, hpane, rfl⟩ := mem_map.mp hid
    exact hpresented pane hpane

theorem Controller.named_captureBase (controller : Controller) :
    Named (controller.captureBase.1.toList ++ controller.captureBase.2) controller.views := by
  have hmodel := named_append.mpr ⟨named_singleton controller.model_mem, named_singleton controller.model_mem⟩
  cases controller with
  | single kind other view => exact hmodel
  | connection tmux =>
    unfold captureBase
    dsimp only
    split
    · unfold capturePresentationFrames
      cases tmux.activeWindow.active? with
      | none => exact named_singleton tmux.model_mem
      | some active =>
        refine (tmux.panes.named_capture active.layout active.activePane).mono ?_
        intro view hview
        exact mem_cons_of_mem _ (mem_cons_of_mem _ hview)
    · exact hmodel

theorem ViewStack.named_capture (stack : ViewStack Controller) :
    Named stack.capturePresentationBundle.viewIds stack.owned := by
  have hviews : ∀ controller ∈ stack.views, controller.views ⊆ stack.owned := by
    intro controller hcontroller view hview
    exact mem_owned.mpr ⟨controller, mem_append_left _ hcontroller, hview⟩
  have hbase : Named ((stack.views[stack.activeBase]?.elim (none, []) captureBase).1.toList ++
      (stack.views[stack.activeBase]?.elim (none, []) captureBase).2) stack.owned := by
    cases hactive : stack.views[stack.activeBase]? with
    | none => exact fun id hid => absurd hid not_mem_nil
    | some base => exact base.named_captureBase.mono (hviews base (mem_of_getElem? hactive))
  have hoverlays : Named ((stack.views.drop stack.baseCount).map fun view => view.model.viewId) stack.owned := by
    intro id hid
    obtain ⟨overlay, hoverlay, rfl⟩ := mem_map.mp hid
    exact ⟨overlay.model, hviews overlay (mem_of_mem_drop hoverlay) overlay.model_mem, rfl⟩
  obtain ⟨hactive, hframes⟩ := named_append.mp hbase
  refine named_append.mpr ⟨?_, named_append.mpr ⟨hframes, hoverlays⟩⟩
  intro id hid
  rcases or_eq_some_iff.mp (mem_toList.mp hid) with hlast | ⟨-, hbaseActive⟩
  · exact hoverlays id (mem_of_getLast? hlast)
  · exact hactive id (mem_toList.mpr hbaseActive)

end Captures

section Scheduler

variable {Scene : Type} {scheduler scheduler' : OutputScheduler Scene PresentedAccessibilityBundle}
  {views : List View} {accessibility : PresentedAccessibilityBundle}

theorem mem_retained {id : ViewId} : id ∈ retainedAccessibilityViewIds scheduler ↔
    ∃ render ∈ scheduler.unreported, id ∈ render.accessibility.viewIds := by
  have hpending : scheduler.pendingRender.toList.map PendingRender.accessibility =
      (scheduler.pendingRender.map PendingRender.tracked).toList.map TrackedRender.accessibility := by
    cases scheduler.pendingRender <;> rfl
  have hrenders : (scheduler.pendingRender.toList.map PendingRender.accessibility ++
      (scheduler.active.filterMap ActiveTransaction.completedRender ++
        scheduler.awaitingFlushRenders).map TrackedRender.accessibility).Perm
      (scheduler.unreported.map TrackedRender.accessibility) := by
    rw [hpending, ← map_append]
    apply Perm.map
    refine perm_append_comm.trans ?_
    rw [OutputScheduler.unreported, OutputScheduler.renderLane, ← append_assoc]
    exact perm_append_comm.append_right _
  unfold retainedAccessibilityViewIds
  rw [(hrenders.flatMap_right _).mem_iff, flatMap_map]
  exact mem_flatMap

theorem named_retained (h : Named (retainedAccessibilityViewIds scheduler) views)
    (hrenders : ∀ render ∈ scheduler'.unreported, render ∈ scheduler.unreported ∨
      Named render.accessibility.viewIds views) :
    Named (retainedAccessibilityViewIds scheduler') views := by
  intro id hid
  obtain ⟨render, hrender, hmem⟩ := mem_retained.mp hid
  rcases hrenders render hrender with hold | hnew
  · exact h id (mem_retained.mpr ⟨render, hold, hmem⟩)
  · exact hnew id hmem

theorem unreported_of_advances {offer : Offer} (h : Output.Advances offer scheduler scheduler') :
    scheduler'.unreported ⊆ scheduler.unreported :=
  (h.awaiting.append h.renders).subset

theorem unreported_runCommands (commands : List Command) :
    (runCommands commands scheduler).unreported ⊆ scheduler.unreported := by
  induction commands generalizing scheduler with
  | nil => exact Subset.refl _
  | cons command commands ih =>
    exact Subset.trans ih (unreported_of_advances (command.apply_advances scheduler))

theorem unreported_enqueueRender (batch : RenderBatch Scene) (nowMs : Nat) :
    ∀ render ∈ (scheduler.enqueueRenderWithAccessibility batch accessibility nowMs).2.unreported,
      render ∈ scheduler.unreported ∨ render.accessibility = accessibility := by
  intro render hrender
  rcases scheduler.enqueueRender_cases batch accessibility nowMs with ⟨-, hadvances⟩ | ⟨-, haccepts⟩
  · exact .inl (unreported_of_advances hadvances hrender)
  · obtain ⟨withdrawn, hadvances, hactive, -, -, -, hawaiting, -, -⟩ := haccepts.withdrawn
    obtain ⟨byteLen, hpending⟩ := haccepts.pending
    rw [OutputScheduler.unreported, OutputScheduler.renderLane, hactive, hawaiting, hpending] at hrender
    rcases mem_append.mp hrender with hold | hrender
    · exact .inl (unreported_of_advances hadvances (mem_append_left _ hold))
    · rcases mem_append.mp hrender with hold | hnew
      · exact .inl (unreported_of_advances hadvances (mem_append_right _ (mem_append_left _ hold)))
      · rw [map_some, toList_some, mem_singleton] at hnew
        rw [hnew]
        exact .inr rfl

end Scheduler

/-! ## Runs -/

theorem mk_injective : Function.Injective View.mk := fun _ _ h => congrArg View.ordinal h

theorem viewId_injective {issued : Nat} (few : issued < 2 ^ 64) {view other : View}
    (hview : view.ordinal < issued) (hother : other.ordinal < issued) (h : view.viewId = other.viewId) :
    view = other := by
  have hword : (UInt64.ofNat (view.ordinal + 1)).toNat = (UInt64.ofNat (other.ordinal + 1)).toNat :=
    congrArg (fun id => id.value.toNat) h
  rw [UInt64.toNat_ofNat', UInt64.toNat_ofNat', Nat.mod_eq_of_lt (by omega), Nat.mod_eq_of_lt (by omega)] at hword
  cases view
  cases other
  exact congrArg View.mk (Nat.succ_inj.mp hword)

namespace App

variable {Scene : Type} {app : App Scene}

/-- The stack tracks its views, each of its own, and owns those that are named. -/
structure Sound (app : App Scene) : Prop where
  tracks : Tracks app.viewStack
  issued : Issued View.mk app.issued app.viewStack.owned
  named : Named app.named app.viewStack.owned

theorem sound_enable {stack : ViewStack Controller} {issued : Nat} (count : stack.baseCount ≤ stack.views.length)
    (hissued : Issued View.mk issued stack.owned) (config : OutputSchedulerConfig) (synchronizedOutput : Bool) :
    (enableOutputScheduler stack issued config synchronizedOutput : App Scene).Sound := by
  have howned : stack.enableTracking.owned = stack.owned := by
    rw [owned, owned, controllers, controllers, flatMap_append, flatMap_append]
    congr 1
    unfold enableTracking
    rw [flatMap_map]
    exact congrArg stack.views.flatMap (funext views_enable)
  refine ⟨⟨rfl, le_trans count (le_of_eq (length_map _).symm), ?_⟩, ?_, ?_⟩
  · intro tmux htmux
    obtain ⟨controller, -, hsame⟩ := mem_map.mp htmux
    cases controller with
    | single kind other view => cases hsame
    | connection found =>
      obtain rfl := connection.inj hsame
      rfl
  · exact howned.symm ▸ hissued
  · intro id hid
    obtain ⟨controller, hactive, rfl⟩ := map_eq_some_iff.mp (mem_toList.mp hid)
    refine ⟨controller.model, mem_owned.mpr ⟨controller, ?_, controller.model_mem⟩, rfl⟩
    exact mem_append_left _ (mem_of_getElem? hactive)

theorem Sound.named_iff : Named app.named app.viewStack.owned ↔
    Named (retainedAccessibilityViewIds app.outputScheduler) app.viewStack.owned ∧
      Named app.presentedAccessibilityView.toList app.viewStack.owned := named_append

section

variable (h : app.Sound)
include h

theorem Sound.prune : app.pruneRetiredAccessibilityViews.Sound where
  tracks := tracks_retain h.tracks
  issued := h.issued.sublist (owned_retain app.viewStack app.named)
  named := by
    intro id hid
    obtain ⟨view, hview, rfl⟩ := h.named id hid
    exact ⟨view, mem_owned_retain hview hid, rfl⟩

theorem Sound.stack (operation : StackOperation) : ({ app with
      viewStack := (operation.apply app.viewStack app.issued).1
      issued := (operation.apply app.viewStack app.issued).2 } : App Scene).Sound := by
  obtain ⟨htracks, hgrows⟩ := operation.retires h.tracks
  refine ⟨htracks, h.issued.extend mk_injective hgrows, h.named.mono ?_⟩
  intro view hview
  exact hgrows.mem hview

theorem Sound.schedule {scheduler : OutputScheduler Scene PresentedAccessibilityBundle}
    (hrenders : ∀ render ∈ scheduler.unreported, render ∈ app.outputScheduler.unreported ∨
      Named render.accessibility.viewIds app.viewStack.owned) :
    { app with outputScheduler := scheduler }.Sound where
  tracks := h.tracks
  issued := h.issued
  named := by
    obtain ⟨hscheduler, hpresented⟩ := Sound.named_iff.mp h.named
    exact Sound.named_iff.mpr ⟨named_retained hscheduler hrenders, hpresented⟩

theorem Sound.render (scene : PreparedScene Scene) : (app.renderPreparedScene scene).Sound := by
  apply Sound.prune
  apply h.schedule
  intro render hrender
  rcases unreported_enqueueRender scene.batch scene.nowMs render (unreported_runCommands scene.after hrender) with
    hold | hnew
  · exact .inl (unreported_runCommands scene.before hold)
  · rw [hnew]
    exact .inr app.viewStack.named_capture

theorem Sound.present {completed : List (CompletedRender Scene PresentedAccessibilityBundle)}
    (hcompleted : ∀ render ∈ completed, Named render.accessibility.viewIds app.viewStack.owned) :
    (completed.foldl App.present app).Sound := by
  induction completed generalizing app with
  | nil => exact h
  | cons render completed ih =>
    refine ih ⟨h.tracks, h.issued, ?_⟩ fun other hother => hcompleted other (mem_cons_of_mem _ hother)
    obtain ⟨hscheduler, hpresented⟩ := Sound.named_iff.mp h.named
    refine Sound.named_iff.mpr ⟨hscheduler, ?_⟩
    intro id hid
    rcases or_eq_some_iff.mp (mem_toList.mp hid) with hactive | ⟨-, hold⟩
    · exact hcompleted render mem_cons_self id (mem_append_left _ (mem_toList.mpr hactive))
    · exact hpresented id (mem_toList.mpr hold)

end

variable [SceneGeometry Scene]

theorem Sound.drain (h : app.Sound) (writer : Writer) (nowMs : Nat) (force : Bool)
    (retry : Option (PreparedScene Scene)) : (app.drainScheduledOutput writer nowMs force retry).Sound := by
  have hfollows := Drain.drainReady_follows
    (⟨app.outputScheduler, .default, writer, []⟩ : Drain Scene PresentedAccessibilityBundle) nowMs force
  obtain ⟨hscheduler, -⟩ := Sound.named_iff.mp h.named
  unfold drainScheduledOutput
  dsimp only
  generalize Drain.drainReady
    (⟨app.outputScheduler, .default, writer, []⟩ : Drain Scene PresentedAccessibilityBundle) nowMs force =
      phase at hfollows ⊢
  rcases hfollows with ⟨-, hmoves⟩ | ⟨hfailed, before, -, failing, -, hfail⟩
  · obtain ⟨reported, hcompleted, hunreported⟩ := hmoves.keepsWork.reported
    have hdrained : { app with outputScheduler := phase.drain.scheduler }.Sound := by
      apply h.schedule
      intro render hrender
      refine .inl ?_
      rw [← hunreported]
      exact mem_append_right _ hrender
    split
    · apply Sound.prune
      have hpresented : (phase.drain.report.completedRenders.foldl App.present
          { app with outputScheduler := phase.drain.scheduler }).Sound := by
        apply hdrained.present
        intro completed hmem
        rw [hcompleted] at hmem
        obtain ⟨render, hrender, rfl⟩ := mem_map.mp hmem
        intro id hid
        refine hscheduler id (mem_retained.mpr ⟨render, ?_, hid⟩)
        rw [← hunreported]
        exact mem_append_left _ hrender
      cases retry with
      | none => exact hpresented
      | some scene => exact hpresented.render scene
    · exact hdrained
  · have hnot : phase.outcome ≠ .returned := by
      rw [hfailed]
      decide
    rw [if_neg hnot, hfail]
    apply h.schedule
    intro render hrender
    cases hrender

theorem Sound.perform (h : app.Sound) (operation : Operation Scene) : (app.perform operation).Sound := by
  cases operation with
  | stack operation => exact h.stack operation
  | command command =>
    apply h.schedule
    intro render hrender
    exact .inl (unreported_of_advances (command.apply_advances app.outputScheduler) hrender)
  | render scene => exact h.render scene
  | drain writer nowMs force retry => exact h.drain writer nowMs force retry

theorem Sound.run (h : app.Sound) (operations : List (Operation Scene)) : (app.run operations).Sound := by
  induction operations generalizing app with
  | nil => exact h
  | cons operation operations ih => exact ih (h.perform operation)

/-! ### What commands read, and what is dropped -/

/-- **In every run** the views that are or can become current are in the stack, each is found by its
id unless its connection shows another view, and pruning keeps only what a render or a command
names. -/
theorem run_addressable {stack : ViewStack Controller} {issued : Nat}
    (count : stack.baseCount ≤ stack.views.length) (distinct : Issued View.mk issued stack.owned)
    (config : OutputSchedulerConfig) (synchronizedOutput : Bool) (operations : List (Operation Scene))
    {app : App Scene}
    (hrun : (enableOutputScheduler stack issued config synchronizedOutput).run operations = app)
    (few : app.issued < 2 ^ 64) : (∀ id ∈ app.named, ∃ view ∈ app.viewStack.owned, view.viewId = id) ∧
    (∀ view : View, view.ordinal < app.issued → view.viewId ∈ app.named →
      (app.viewStack.modelById view.viewId = some view ↔ ¬app.viewStack.Hides view)) ∧
    (∀ controller ∈ app.pruneRetiredAccessibilityViews.viewStack.retiredViews,
      ∃ view ∈ controller.views, view.viewId ∈ app.named) ∧
    ∀ tmux, .connection tmux ∈ app.pruneRetiredAccessibilityViews.viewStack.controllers →
      ∀ view ∈ tmux.panes.retiredPresentations, view.viewId ∈ app.named := by
  have hsound : app.Sound := hrun ▸ (sound_enable count distinct config synchronizedOutput).run operations
  have hordinal : ∀ view ∈ app.viewStack.owned, view.ordinal < app.issued := by
    intro view hview
    obtain ⟨k, hk, rfl⟩ := hsound.issued.made view hview
    exact hk
  refine ⟨hsound.named, ?_, ?_, ?_⟩
  · intro view hmade hnamed
    have hids : ∀ other ∈ app.viewStack.owned, other.viewId = view.viewId → other = view :=
      fun other hother => viewId_injective few (hordinal other hother) hmade
    obtain ⟨found, hfound, hid⟩ := hsound.named _ hnamed
    obtain rfl := hids found hfound hid
    exact modelById_eq_some_iff hsound.issued.nodup hfound hids
  · intro controller hcontroller
    exact (isRetained_iff controller).mp (mem_filter.mp hcontroller).2
  · intro tmux htmux view hview
    have hretain : ∃ found : TmuxConnectionView, found.retainAccessibilityViews app.named = tmux := by
      have hmap : ∀ views : List Controller,
          connection tmux ∈ views.map (retainAccessibilityViews app.named) →
          ∃ found : TmuxConnectionView, found.retainAccessibilityViews app.named = tmux := by
        intro views hmem
        obtain ⟨controller, -, hsame⟩ := mem_map.mp hmem
        cases controller with
        | single kind other view => cases hsame
        | connection found => exact ⟨found, connection.inj hsame⟩
      rcases mem_append.mp htmux with hviews | hretired
      · exact hmap _ hviews
      · exact hmap _ (mem_of_mem_filter hretired)
    obtain ⟨found, rfl⟩ := hretain
    exact contains_iff_mem.mp (mem_filter.mp hview).2

/-! ### A connection turns to its portal -/

def terminalStack : ViewStack Controller := .new (.single .terminal (by decide) ⟨0⟩)

def emptyScene : PreparedScene TerminalGeometry := ⟨[], ⟨[], ⟨24, 80, 0, 0⟩⟩, [], 0⟩

def presentedConnection : App TerminalGeometry :=
  (enableOutputScheduler terminalStack 1 .default false).run
    [.stack (.pushConnection 7), .render emptyScene, .drain (.scripted [] [.flushed]) 0 false none]

/-- Its user goes back to the portal, and the terminal has not taken the render yet. -/
def turnedToPortal : App TerminalGeometry :=
  presentedConnection.run [.stack (.connection 7 .showPortal), .render emptyScene]

theorem run_addressable_presented : presentedConnection.presentedAccessibilityView = some (View.mk 1).viewId ∧
      presentedConnection.viewStack.modelById (View.mk 1).viewId = some ⟨1⟩ := by
  have hdistinct : Issued View.mk 1 terminalStack.owned := by
    refine ⟨by decide, ?_⟩
    intro view hview
    exact ⟨0, zero_lt_one, (mem_singleton.mp hview).symm⟩
  have hnamed : (View.mk 1).viewId ∈ presentedConnection.named := by decide +kernel
  have hshowing : ∀ controller ∈ presentedConnection.viewStack.controllers,
      (controller.connection?.any TmuxConnectionView.isShowingPortal) = false := by decide +kernel
  refine ⟨by decide +kernel, ?_⟩
  have hfound := (run_addressable (le_refl 1) hdistinct .default false _ rfl (by decide +kernel)).2.1
    ⟨1⟩ (by decide +kernel) hnamed
  apply hfound.mpr
  rintro ⟨controller, hcontroller, tmux, rfl, htmux, -⟩
  have hnot := hshowing _ hcontroller
  rw [connection?, any_some, htmux] at hnot
  cases hnot

/-- The view on the screen is not found any more, and commands read the portal. -/
theorem presented_not_found : turnedToPortal.presentedAccessibilityView = some (View.mk 1).viewId ∧
      turnedToPortal.viewStack.modelById (View.mk 1).viewId = none := by
  decide +kernel

end App

end Lector.Stack
