import Lector.Output.Runs
import Lector.Stack.Controllers

/-! Which views the application can still come back to (`app.rs`, `app/view_stack.rs`,
`views/stack.rs`): those that a render on its way, or the last one on the screen, names. -/
namespace Lector.Stack
open Output Lector.Topology Control Tmux Accessibility ViewController

/-- What a render tells once it is on the screen: of a frame, the id of its view. -/
structure PresentedAccessibilityBundle where
  activeView : Option ViewId
  frames : List ViewId

def PresentedAccessibilityBundle.viewIds (bundle : PresentedAccessibilityBundle) : List ViewId :=
  bundle.activeView.toList ++ bundle.frames

namespace Controller

def captureBase : Controller → Option ViewId × List ViewId
  | single _ _ view => (some view.viewId, [view.viewId])
  | connection tmux =>
    if tmux.isReady && !tmux.isShowingPortal then tmux.capturePresentationFrames
    else (some tmux.model.viewId, [tmux.model.viewId])

/-- The branch on `kind`: only a connection that does not show a portal is asked for all its views. -/
def modelById (controller : Controller) (viewId : ViewId) : Option View :=
  if controller.kind = .tmuxConnection then
    controller.connection?.bind fun tmux => tmux.modelById viewId
  else if controller.model.viewId = viewId then some controller.model
  else none

def retainAccessibilityViews (retained : List ViewId) : Controller → Controller :=
  mapConnection fun tmux => tmux.retainAccessibilityViews retained

def isRetained (retained : List ViewId) : Controller → Bool
  | single _ _ view => retained.contains view.viewId
  | connection tmux => retained.any fun viewId => (tmux.modelById viewId).isSome

end Controller

namespace ViewStack

variable (self : ViewStack Controller)

def controllers : List Controller := self.views ++ self.retiredViews

def owned : List View := self.controllers.flatMap Controller.views

def logicalActiveViewId : Option ViewId := self.active.map fun view => view.model.viewId

def capturePresentationBundle : PresentedAccessibilityBundle :=
  let base := self.views[self.activeBase]?.elim (none, []) Controller.captureBase
  let overlays := (self.views.drop self.baseCount).map fun view => view.model.viewId
  ⟨overlays.getLast?.or base.1, base.2 ++ overlays⟩

def modelById (viewId : ViewId) : Option View := self.controllers.findSome? fun view => view.modelById viewId

def retainAccessibilityViews (retained : List ViewId) : ViewStack Controller :=
  { self with
    views := self.views.map (Controller.retainAccessibilityViews retained)
    retiredViews :=
      (self.retiredViews.map (Controller.retainAccessibilityViews retained)).filter
        (Controller.isRetained retained) }

/-- An operation on the first base that is this connection (`tmux_connection_mut`). -/
def onConnection (connectionId : UInt64) (operation : TmuxConnectionView → Making TmuxConnectionView) :
    Making (ViewStack Controller) := fun issued =>
  let index := self.tmuxConnectionIndex connectionId
  let found := index.bind fun index => self.views[index]?.bind Controller.connection?
  (index.bind fun index => found.map fun tmux =>
    let (tmux, issued) := operation tmux issued
    ({ self with views := self.views.set index (.connection tmux) }, issued)).getD (self, issued)

end ViewStack

/-! ## Operations -/

inductive ConnectionOperation
  | syncTopology (topology : TmuxTopology)
  | applyBootstrap (paneId : PaneId) (status : CommandStatus)
  | applyResyncCapture (metadata : PaneCaptureMetadata)
  | setPanePortal (paneId : PaneId) (childConnectionId : UInt64)
  | clearPanePortal (paneId : PaneId) (childConnectionId : UInt64)
  | showPortal
  | showConnection

def ConnectionOperation.apply (operation : ConnectionOperation) (tmux : TmuxConnectionView) :
    Making TmuxConnectionView := fun issued =>
  match operation with
  | syncTopology topology => tmux.syncTopology topology issued
  | applyBootstrap paneId status => tmux.applyBootstrap paneId status issued
  | applyResyncCapture metadata => tmux.applyResyncCapture metadata issued
  | setPanePortal paneId childConnectionId => tmux.setPanePortal paneId childConnectionId issued
  | clearPanePortal paneId childConnectionId => (tmux.clearPanePortal paneId childConnectionId, issued)
  | showPortal => (tmux.showPortal, issued)
  | showConnection => (tmux.showConnection, issued)

inductive StackOperation
  | push (kind : ViewKind) (other : kind ≠ .tmuxConnection)
  | pushConnection (connectionId : UInt64)
  | pop
  | clearOverlays
  | removeTmuxConnections (connectionIds : List UInt64)
  | activateTerminal
  | activateTmuxConnection (connectionId : UInt64)
  | completeCompositorTransition (transition : CompositorTransitionToken)
  | connection (connectionId : UInt64) (operation : ConnectionOperation)
  /-- A view is made that does not come to the stack. -/
  | makeElsewhere

def StackOperation.apply (operation : StackOperation) (stack : ViewStack Controller) :
    Making (ViewStack Controller) := fun issued =>
  match operation with
  | push kind other =>
    let (view, issued) := View.new issued
    (stack.push (.single kind other view), issued)
  | pushConnection connectionId =>
    let (tmux, issued) := TmuxConnectionView.new connectionId issued
    (stack.push (.connection tmux), issued)
  | pop => (stack.pop.2, issued)
  | clearOverlays => (stack.clearOverlays, issued)
  | removeTmuxConnections connectionIds => (stack.removeTmuxConnections connectionIds, issued)
  | activateTerminal => (stack.activateTerminal, issued)
  | activateTmuxConnection connectionId => ((stack.activateTmuxConnection connectionId).2, issued)
  | completeCompositorTransition transition => ((stack.completeCompositorTransition transition).2, issued)
  | connection connectionId operation => stack.onConnection connectionId operation.apply issued
  | makeElsewhere => (stack, issued + 1)

/-! ## Renders -/

/-- A scene on its way, with the effects, the synchronization state and the bells around it. -/
structure PreparedScene (Scene : Type) where
  before : List Command
  batch : RenderBatch Scene
  after : List Command
  nowMs : Nat

variable {Scene : Type}

def runCommands (commands : List Command) (scheduler : OutputScheduler Scene PresentedAccessibilityBundle) :
    OutputScheduler Scene PresentedAccessibilityBundle :=
  commands.foldl (fun scheduler command => command.apply scheduler) scheduler

def retainedAccessibilityViewIds (scheduler : OutputScheduler Scene PresentedAccessibilityBundle) :
    List ViewId :=
  let pending := scheduler.pendingRender.toList.map PendingRender.accessibility
  let tracked := scheduler.active.filterMap ActiveTransaction.completedRender ++ scheduler.awaitingFlushRenders
  (pending ++ tracked.map TrackedRender.accessibility).flatMap PresentedAccessibilityBundle.viewIds

structure App (Scene : Type) where
  viewStack : ViewStack Controller
  outputScheduler : OutputScheduler Scene PresentedAccessibilityBundle
  presentedAccessibilityView : Option ViewId
  /-- How many views were made (`NEXT_VIEW_ID`). -/
  issued : Nat

namespace App

variable (app : App Scene)

def enableOutputScheduler (stack : ViewStack Controller) (issued : Nat) (config : OutputSchedulerConfig)
    (synchronizedOutput : Bool) : App Scene where
  viewStack := stack.enableTracking
  outputScheduler := .new config synchronizedOutput
  presentedAccessibilityView := stack.enableTracking.logicalActiveViewId
  issued := issued

def named : List ViewId :=
  retainedAccessibilityViewIds app.outputScheduler ++ app.presentedAccessibilityView.toList

def pruneRetiredAccessibilityViews : App Scene :=
  { app with viewStack := app.viewStack.retainAccessibilityViews app.named }

def renderPreparedScene (scene : PreparedScene Scene) : App Scene :=
  let accessibility := app.viewStack.capturePresentationBundle
  let scheduler := runCommands scene.before app.outputScheduler
  let scheduler := (scheduler.enqueueRenderWithAccessibility scene.batch accessibility scene.nowMs).2
  { app with outputScheduler := runCommands scene.after scheduler }.pruneRetiredAccessibilityViews

def present (completed : CompletedRender Scene PresentedAccessibilityBundle) : App Scene :=
  { app with
    presentedAccessibilityView := completed.accessibility.activeView.or app.presentedAccessibilityView }

/-- `retry` is the render made when a hold timed out or a transition is tried again. -/
def drainScheduledOutput [SceneGeometry Scene] (writer : Writer) (nowMs : Nat) (force : Bool)
    (retry : Option (PreparedScene Scene)) : App Scene :=
  let phase := Drain.drainReady ⟨app.outputScheduler, .default, writer, []⟩ nowMs force
  let drained := { app with outputScheduler := phase.drain.scheduler }
  if phase.outcome = .returned then
    let presented := phase.drain.report.completedRenders.foldl present drained
    (retry.elim presented presented.renderPreparedScene).pruneRetiredAccessibilityViews
  else drained

inductive Operation (Scene : Type)
  | stack (operation : StackOperation)
  | command (command : Command)
  | render (scene : PreparedScene Scene)
  | drain (writer : Writer) (nowMs : Nat) (force : Bool) (retry : Option (PreparedScene Scene))

def perform [SceneGeometry Scene] : Operation Scene → App Scene
  | .stack operation =>
    let (stack, issued) := operation.apply app.viewStack app.issued
    { app with viewStack := stack, issued := issued }
  | .command command => { app with outputScheduler := command.apply app.outputScheduler }
  | .render scene => app.renderPreparedScene scene
  | .drain writer nowMs force retry => app.drainScheduledOutput writer nowMs force retry

def run [SceneGeometry Scene] (operations : List (Operation Scene)) : App Scene :=
  operations.foldl (fun app operation => app.perform operation) app

end App

end Lector.Stack
