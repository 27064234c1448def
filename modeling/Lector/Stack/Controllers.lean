import Lector.Control.Parser
import Lector.Layout.Parser
import Lector.Stack.ViewStack
import Lector.Tmux.Connection
import Lector.View.State

/-! The views that the controllers of a stack hold: one each, but a tmux connection
(`views/tmux_connection.rs`, `tmux_panes.rs`) holds a placeholder, a portal, and views for its
panes. What a view shows is left out. -/
namespace Lector.Stack
open Output Std Lector.Topology Layout Control Tmux Accessibility ViewController

/-! ## Views -/

/-- A `View`, by its place in the order in which views are made. -/
structure View where
  ordinal : Nat
deriving DecidableEq

def View.viewId (view : View) : ViewId := ⟨UInt64.ofNat (view.ordinal + 1)⟩

/-- Some operations make views. `issued` views were made before. -/
abbrev Making (α : Type) : Type := Nat → α × Nat

def View.new : Making View := fun issued => (⟨issued⟩, issued + 1)

inductive ViewKind
  | terminal
  | message
  | luaRepl
  | review
  | popup
  | tableSetup
  | tmuxConnection
  | tmuxConnectionChooser
  | tmuxConnectionRename
  | tmuxChooser
  | tmuxCommand
  | tmuxPortal
  | other
deriving DecidableEq

/-! ## Panes -/

structure PanePortal where
  connectionId : UInt64
  view : View

structure PaneState where
  view : View
  portal : Option PanePortal
  bootstrapped : Bool

namespace PaneState

variable (state : PaneState)

def portalViews : List View := (state.portal.map PanePortal.view).toList

def views : List View := state.view :: state.portalViews

def presentedView : View := (state.portal.map PanePortal.view).getD state.view

end PaneState

structure TmuxPaneSet where
  panes : List (PaneId × PaneState)
  retiredPresentations : List View
  presentationTracking : Bool

namespace TmuxPaneSet

variable (self : TmuxPaneSet)

def new : TmuxPaneSet := ⟨[], [], false⟩

def views : List View := (self.panes.flatMap fun pane => pane.2.views) ++ self.retiredPresentations

variable (paneId : PaneId)

def get? : Option PaneState := self.panes.lookup paneId

def set (state : PaneState) : TmuxPaneSet :=
  { self with
    panes := self.panes.replaceF fun pane => if pane.1 = paneId then some (paneId, state) else none }

def retire (views : List View) : TmuxPaneSet :=
  { self with
    retiredPresentations :=
      if self.presentationTracking then self.retiredPresentations ++ views else self.retiredPresentations }

def addPane : Making TmuxPaneSet := fun issued =>
  match self.get? paneId with
  | some _ => (self, issued)
  | none =>
    let (view, issued) := View.new issued
    ({ self with panes := self.panes ++ [(paneId, ⟨view, none, false⟩)] }, issued)

def addPanes (panes : List Pane) : Making TmuxPaneSet := fun issued =>
  panes.foldl (fun made pane => made.1.addPane pane.id made.2) (self, issued)

def reconcile (topology : TmuxTopology) : Making TmuxPaneSet :=
  let removed := self.panes.filter fun pane => !topology.panes.contains pane.1
  let self := { self with panes := self.panes.filter fun pane => topology.panes.contains pane.1 }
  (self.retire (removed.flatMap fun pane => pane.2.views)).addPanes topology.panes.values

def replaceView (state : PaneState) : Making TmuxPaneSet := fun issued =>
  let (view, issued) := View.new issued
  ((self.set paneId ⟨view, state.portal, true⟩).retire [state.view], issued)

def applyBootstrap (status : CommandStatus) : Making TmuxPaneSet := fun issued =>
  match self.get? paneId with
  | none => (self, issued)
  | some state =>
    if status = .error then (self.set paneId { state with bootstrapped := true }, issued)
    else self.replaceView paneId state issued

def applyResyncCapture : Making TmuxPaneSet := fun issued =>
  match self.get? paneId with
  | none => (self, issued)
  | some state => self.replaceView paneId state issued

def setPanePortal (connectionId : UInt64) : Making TmuxPaneSet := fun issued =>
  match self.get? paneId with
  | none => (self, issued)
  | some state =>
    let (view, issued) := View.new issued
    ((self.set paneId { state with portal := some ⟨connectionId, view⟩ }).retire state.portalViews, issued)

def clearPanePortal (connectionId : UInt64) : TmuxPaneSet :=
  match self.get? paneId with
  | none => self
  | some state =>
    if state.portal.any fun portal => portal.connectionId == connectionId then
      (self.set paneId { state with portal := none }).retire state.portalViews
    else self

def panePortalTarget : Option UInt64 :=
  (self.get? paneId).bind fun state => state.portal.map PanePortal.connectionId

def panePortalView : Option View :=
  (self.get? paneId).bind fun state => state.portal.map PanePortal.view

def paneView : Option View := (self.get? paneId).map PaneState.view

def paneIsBootstrapped : Bool := (self.get? paneId).any PaneState.bootstrapped

def capturePresentationFrames (layout : TmuxLayout) (activePane : Option PaneId) :
    Option ViewId × List ViewId :=
  let presented := layout.panes.filterMap fun pane =>
    (self.get? pane.paneId).map fun state => (pane.paneId, state.presentedView.viewId)
  (((presented.filter fun pane => some pane.1 == activePane).getLast?).map Prod.snd, presented.map Prod.snd)

def modelById (viewId : ViewId) : Option View :=
  (self.panes.findSome? fun pane =>
    if pane.2.view.viewId = viewId then some pane.2.view
    else (pane.2.portal.map PanePortal.view).filter fun view => view.viewId = viewId).or
    (self.retiredPresentations.find? fun view => view.viewId = viewId)

def retainAccessibilityViews (retained : List ViewId) : TmuxPaneSet :=
  { self with
    retiredPresentations := self.retiredPresentations.filter fun view => retained.contains view.viewId }

end TmuxPaneSet

/-! ## Connections -/

structure ActiveWindow where
  layout : TmuxLayout
  activePane : Option PaneId
  title : String

inductive ActiveWindowProjection
  | missingActiveWindow
  | missingLayout
  | invalidLayout (error : LayoutError)
  | ready (active : ActiveWindow)

namespace ActiveWindowProjection

variable (topology : TmuxTopology)

def activePaneOf (window : Topology.Window) (layout : TmuxLayout) : Option PaneId :=
  (window.activePane.filter fun paneId =>
      (layout.panes.any fun pane => pane.paneId == paneId) && topology.panes.contains paneId).or
    ((layout.panes.map LayoutPane.paneId).find? fun paneId => topology.panes.contains paneId)

def fromWindow (window : Topology.Window) : ActiveWindowProjection :=
  let layoutText := if window.visibleLayout.isEmpty then window.layout else window.visibleLayout
  if layoutText.isEmpty then .missingLayout
  else
    -- The parser always has an answer.
    ((TmuxLayout.parse (utf8 layoutText)).map fun parsed =>
      match parsed with
      | .error error => invalidLayout error
      | .ok layout => ready ⟨layout, activePaneOf topology window layout, window.name⟩).getD .missingLayout

def fromTopology : ActiveWindowProjection :=
  let session := topology.attachedSession.bind fun id => topology.sessions[id]?
  let window := (session.bind Session.activeWindow).bind fun id => topology.windows[id]?
  window.elim .missingActiveWindow (fromWindow topology)

def active? : ActiveWindowProjection → Option ActiveWindow
  | ready active => some active
  | _ => none

def activePane (projection : ActiveWindowProjection) : Option PaneId :=
  projection.active?.bind ActiveWindow.activePane

end ActiveWindowProjection

structure TmuxConnectionView where
  connectionId : UInt64
  placeholder : View
  portal : View
  panes : TmuxPaneSet
  topology : TmuxTopology
  activeWindow : ActiveWindowProjection
  showingPortal : Bool

def updatePaneCaptureMetadata (topology : TmuxTopology) (metadata : PaneCaptureMetadata) :
    Option TmuxTopology :=
  if topology.panes.contains metadata.paneId then
    some { topology with
      panes := topology.panes.modify metadata.paneId fun pane =>
        { pane with
          left := metadata.left
          top := metadata.top
          width := metadata.width
          height := metadata.height
          dead := metadata.dead
          cursorX := metadata.cursorX
          cursorY := metadata.cursorY
          cursorVisible := metadata.cursorVisible
          cursorShape := metadata.cursorShape
          alternateOn := metadata.alternateOn
          paneInMode := metadata.paneInMode
          historySize := metadata.historySize } }
  else none

namespace TmuxConnectionView

variable (self : TmuxConnectionView)

def new (connectionId : UInt64) : Making TmuxConnectionView := fun issued =>
  let (placeholder, issued) := View.new issued
  let (portal, issued) := View.new issued
  (⟨connectionId, placeholder, portal, .new, .new connectionId, .missingActiveWindow, false⟩, issued)

def views : List View := self.placeholder :: self.portal :: self.panes.views

def withPanes (made : TmuxPaneSet × Nat) : TmuxConnectionView × Nat := ({ self with panes := made.1 }, made.2)

def syncTopology (topology : TmuxTopology) : Making TmuxConnectionView := fun issued =>
  { self with
    topology := topology
    activeWindow := .fromTopology topology }.withPanes (self.panes.reconcile topology issued)

variable (paneId : PaneId)

def applyBootstrap (status : CommandStatus) : Making TmuxConnectionView := fun issued =>
  self.withPanes (self.panes.applyBootstrap paneId status issued)

def applyResyncCapture (metadata : PaneCaptureMetadata) : Making TmuxConnectionView := fun issued =>
  (updatePaneCaptureMetadata self.topology metadata).elim (self, issued) fun topology =>
    { self with topology := topology }.withPanes (self.panes.applyResyncCapture metadata.paneId issued)

def setPanePortal (childConnectionId : UInt64) : Making TmuxConnectionView := fun issued =>
  self.withPanes (self.panes.setPanePortal paneId childConnectionId issued)

def clearPanePortal (childConnectionId : UInt64) : TmuxConnectionView :=
  { self with panes := self.panes.clearPanePortal paneId childConnectionId }

def showPortal : TmuxConnectionView := { self with showingPortal := true }

def showConnection : TmuxConnectionView := { self with showingPortal := false }

def isReady : Bool :=
  self.activeWindow.active?.any fun active =>
    !active.layout.panes.isEmpty && (active.layout.panes.all fun pane =>
        self.topology.panes.contains pane.paneId && self.panes.paneIsBootstrapped pane.paneId) &&
      active.activePane.isSome

def activePanePortalTarget : Option UInt64 := self.activeWindow.activePane.bind self.panes.panePortalTarget

def isShowingPortal : Bool := self.showingPortal || self.activePanePortalTarget.isSome

def model : View :=
  if self.showingPortal then self.portal
  else if self.isReady then
    (self.activeWindow.activePane.bind fun paneId =>
      (self.panes.panePortalView paneId).or (self.panes.paneView paneId)).getD self.placeholder
  else self.placeholder

def kind : ViewKind := if self.isShowingPortal then .tmuxPortal else .tmuxConnection

def capturePresentationFrames : Option ViewId × List ViewId :=
  self.activeWindow.active?.elim (some self.model.viewId, []) fun active =>
    self.panes.capturePresentationFrames active.layout active.activePane

def modelById (viewId : ViewId) : Option View :=
  if self.placeholder.viewId = viewId then some self.placeholder
  else if self.portal.viewId = viewId then some self.portal
  else self.panes.modelById viewId

def retainAccessibilityViews (retained : List ViewId) : TmuxConnectionView :=
  { self with panes := self.panes.retainAccessibilityViews retained }

end TmuxConnectionView

/-! ## Controllers -/

/-- A view controller. Only a tmux connection holds more than one view. -/
inductive Controller
  | single (kind : ViewKind) (other : kind ≠ .tmuxConnection) (view : View)
  | connection (connection : TmuxConnectionView)

namespace Controller

def views : Controller → List View
  | single _ _ view => [view]
  | connection tmux => tmux.views

def model : Controller → View
  | single _ _ view => view
  | connection tmux => tmux.model

def kind : Controller → ViewKind
  | single kind _ _ => kind
  | connection tmux => tmux.kind

def connection? : Controller → Option TmuxConnectionView
  | single _ _ _ => none
  | connection tmux => some tmux

def mapConnection (f : TmuxConnectionView → TmuxConnectionView) : Controller → Controller
  | single kind other view => single kind other view
  | connection tmux => connection (f tmux)

def trackPresentation (connection : TmuxConnectionView) : TmuxConnectionView :=
  { connection with panes := { connection.panes with presentationTracking := true } }

end Controller

instance : ViewController Controller where
  connectionId view := view.connection?.map TmuxConnectionView.connectionId
  markReviewContextActive view := view
  enablePresentationTracking view := view.mapConnection Controller.trackPresentation
  connectionId_mark _ := rfl
  connectionId_enable view := by cases view <;> rfl

end Lector.Stack
