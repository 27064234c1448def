import Lector.Control.Parser
import Lector.Tmux.Capture
import Lector.Tmux.Connection

/-! The panes of a tmux connection and the output that comes before their bootstrap (`TmuxPaneSet` in
`src/tmux_panes.rs`). A view is used through its methods only; its terminal is not looked into. -/
namespace Lector.Panes
open Bytes Control Std Tmux Lector.Topology

def maxPrebootstrapBytes : Nat := 4 * 1024 * 1024
def maxOrphanPanes : Nat := 4096

def panePortalText : Bytes :=
  ascii "tmux control mode is running.\r\nPress Enter to switch to the nested session in this pane."

/-- The methods of `View` that a pane set calls, with the `UpdateSummary` of a batch. -/
structure ViewMethods (V S : Type) where
  new (rows cols : Nat) : V
  liveSize (view : V) : Nat × Nat
  setSize (view : V) (rows cols : Nat) : V
  processChanges (view : V) (bytes : Bytes) : V
  processChangesWithBatch (view : V) (bytes : Bytes) (retainForAccessibility : Bool) : V × S
  discardShadowPtyReplies (view : V) : V
  finalizeChanges (view : V) (nowMs : Nat) : V
  enablePresentationTracking (view : V) : V
  clearUpdateSummary (view : V) : V
  hasVisibleContent (view : V) : Bool

structure BootstrapRequest where
  paneId : PaneId
  command : Bytes

/-- The errors of `TmuxPaneError` that these operations return. -/
inductive TmuxPaneError
  | unknownPane (paneId : UInt64)
  | prebootstrapOutputTooLong
  | tooManyPrebootstrapPanes
deriving DecidableEq

variable {V S : Type}

structure PanePortal (V : Type) where
  connectionId : UInt64
  view : V

structure PaneState (V : Type) where
  view : V
  portal : Option (PanePortal V)
  metadata : Pane
  surfaceId : Nat
  bootstrapRequested : Bool
  bootstrapped : Bool
  prebootstrapOutput : Bytes

structure TmuxPaneSet (V : Type) where
  connectionId : UInt64
  borderId : Nat
  nextSurfaceId : Nat
  panes : ExtTreeMap PaneId (PaneState V)
  retiredPresentations : List V
  orphanOutput : ExtTreeMap PaneId Bytes
  prebootstrapBytes : Nat
  presentationTracking : Bool

namespace TmuxPaneSet

def new (connectionId : UInt64) : TmuxPaneSet V :=
  let space := 0x8000000000000000 ||| (connectionId * 0x100000000 &&& 0x7fffffff00000000)
  { connectionId
    borderId := space.toNat
    nextSurfaceId := saturatingAdd 64 space.toNat 1
    panes := ∅
    retiredPresentations := []
    orphanOutput := ∅
    prebootstrapBytes := 0
    presentationTracking := false }

variable (views : ViewMethods V S) (self : TmuxPaneSet V) (paneId : PaneId)

def set (state : PaneState V) : TmuxPaneSet V :=
  { self with panes := self.panes.insert paneId state }

def retire (retired : List V) : TmuxPaneSet V :=
  { self with
    retiredPresentations :=
      if self.presentationTracking then self.retiredPresentations ++ retired else self.retiredPresentations }

def track (view : V) : V := if self.presentationTracking then views.enablePresentationTracking view else view

def renderPortal (view : V) : V :=
  views.processChanges (views.clearUpdateSummary view) (ascii "\x1b[2J\x1b[H" ++ panePortalText)

/-! ## Reconciliation -/

def removePane (removed : TmuxPaneSet V × Nat) (paneId : PaneId) : TmuxPaneSet V × Nat :=
  match removed.1.panes[paneId]? with
  | none => removed
  | some state =>
    let self := { removed.1 with panes := removed.1.panes.erase paneId }
    (self.retire (state.view :: (state.portal.map PanePortal.view).toList),
      saturatingAdd 64 removed.2 state.prebootstrapOutput.length)

def removePanes (topology : TmuxTopology) : TmuxPaneSet V :=
  let missing := self.panes.keys.filter fun paneId => !topology.panes.contains paneId
  let removed := missing.foldl removePane (self, 0)
  { removed.1 with prebootstrapBytes := removed.1.prebootstrapBytes - removed.2 }

def entry (pane : Pane) (rows cols : Nat) : TmuxPaneSet V × PaneState V :=
  match self.panes[pane.id]? with
  | some state => (self, state)
  | none =>
    ({ self with
        nextSurfaceId := saturatingAdd 64 self.nextSurfaceId 1
        orphanOutput := self.orphanOutput.erase pane.id },
      { view := self.track views (views.new rows cols)
        portal := none
        metadata := pane
        surfaceId := self.nextSurfaceId
        bootstrapRequested := false
        bootstrapped := false
        prebootstrapOutput := (self.orphanOutput[pane.id]?).getD [] })

def resizePortal (portal : PanePortal V) (rows cols : Nat) : PanePortal V :=
  if views.liveSize portal.view ≠ (rows, cols) then
    { portal with view := renderPortal views (views.setSize portal.view rows cols) }
  else portal

/-- The loop of `reconcile` over the panes of the topology. -/
def reconcilePane (reconciled : TmuxPaneSet V × List BootstrapRequest) (pane : Pane) :
    TmuxPaneSet V × List BootstrapRequest :=
  let rows := dimension pane.height.toNat
  let cols := dimension pane.width.toNat
  let found := reconciled.1.entry views pane rows cols
  let state := found.2
  let resized :=
    { state with
      view := if views.liveSize state.view ≠ (rows, cols) then views.setSize state.view rows cols else state.view
      portal := state.portal.map fun portal => resizePortal views portal rows cols
      metadata := pane }
  if !state.bootstrapped && !state.bootstrapRequested then
    -- `capture_command`
    let command := captureCommandForState pane.id pane.alternateOn pane.paneInMode true
    (found.1.set pane.id { resized with bootstrapRequested := true }, reconciled.2 ++ [⟨pane.id, command⟩])
  else (found.1.set pane.id resized, reconciled.2)

def dropOrphans : TmuxPaneSet V :=
  { self with
    prebootstrapBytes := self.prebootstrapBytes - SortedMap.total List.length self.orphanOutput
    orphanOutput := ∅ }

def reconcile (topology : TmuxTopology) : TmuxPaneSet V × List BootstrapRequest :=
  let reconciled := topology.panes.values.foldl (reconcilePane views) (self.removePanes topology, [])
  (reconciled.1.dropOrphans, reconciled.2)

/-! ## Output -/

/-- The new total and length, each with a `checked_add`, against the limit. -/
def nextTotal (total buffered more : Nat) : Except TmuxPaneError Nat :=
  match checkedAdd total more, checkedAdd buffered more with
  | some nextTotal, some nextPaneLen =>
    if maxPrebootstrapBytes < nextTotal || maxPrebootstrapBytes < nextPaneLen then
      .error .prebootstrapOutputTooLong
    else .ok nextTotal
  | _, _ => .error .prebootstrapOutputTooLong

/-- Output for a pane that is not known yet. Its entry is made before the checks and stays when they fail. -/
def processOrphanOutput (bytes : Bytes) : TmuxPaneSet V × Except TmuxPaneError (Option S) :=
  if !self.orphanOutput.contains paneId && self.orphanOutput.size == maxOrphanPanes then
    (self, .error .tooManyPrebootstrapPanes)
  else
    let output := (self.orphanOutput[paneId]?).getD []
    match nextTotal self.prebootstrapBytes output.length bytes.length with
    | .error error => ({ self with orphanOutput := self.orphanOutput.insert paneId output }, .error error)
    | .ok total =>
      ({ self with
          orphanOutput := self.orphanOutput.insert paneId (output ++ bytes)
          prebootstrapBytes := total }, .ok none)

def processOutput (bytes : Bytes) (retainForAccessibility : Bool) :
    TmuxPaneSet V × Except TmuxPaneError (Option S) :=
  match self.panes[paneId]? with
  | none => self.processOrphanOutput paneId bytes
  | some state =>
    if !state.bootstrapped then
      match nextTotal self.prebootstrapBytes state.prebootstrapOutput.length bytes.length with
      | .error error => (self, .error error)
      | .ok total =>
        ({ self.set paneId { state with prebootstrapOutput := state.prebootstrapOutput ++ bytes } with
            prebootstrapBytes := total }, .ok none)
    else
      let update := views.processChangesWithBatch state.view bytes retainForAccessibility
      (self.set paneId { state with view := views.discardShadowPtyReplies update.1 }, .ok (some update.2))

/-! ## Captures -/

def applyFailedBootstrap (state : PaneState V) : TmuxPaneSet V :=
  let buffered := state.prebootstrapOutput
  { self.set paneId
      { state with
        bootstrapped := true
        bootstrapRequested := false
        prebootstrapOutput := []
        view := views.discardShadowPtyReplies (views.processChanges state.view buffered) } with
    prebootstrapBytes := self.prebootstrapBytes - buffered.length }

def applyBootstrap (status : CommandStatus) (output : List Bytes) (lineFlags : Bool)
    (nowMs : Nat) : TmuxPaneSet V × Except TmuxPaneError Unit :=
  match self.panes[paneId]? with
  | none => (self, .error (.unknownPane paneId.value))
  | some state =>
    if status == .error then (self.applyFailedBootstrap views paneId state, .ok ())
    else
      let pane := state.metadata
      let captured :=
        views.processChanges (views.new (dimension pane.height.toNat) (dimension pane.width.toNat))
          (reconstructionBytes pane.alternateOn pane.cursorX.toNat pane.cursorY.toNat pane.cursorVisible
            pane.cursorShape ⟨output, [], lineFlags⟩)
      let buffered := state.prebootstrapOutput
      let replayed :=
        if !views.hasVisibleContent captured && !buffered.isEmpty then views.processChanges captured buffered
        else captured
      let view := self.track views (views.finalizeChanges (views.discardShadowPtyReplies replayed) nowMs)
      let applied :=
        self.set paneId
          { state with view, bootstrapped := true, bootstrapRequested := false, prebootstrapOutput := [] }
      ({ applied.retire [state.view] with prebootstrapBytes := self.prebootstrapBytes - buffered.length },
        .ok ())

def capturedMetadata (pane : Pane) (metadata : PaneCaptureMetadata) : Pane :=
  { pane with
    left := metadata.left
    top := metadata.top
    width := metadata.width
    height := metadata.height
    dead := metadata.dead
    cursorX := metadata.cursorX
    cursorY := metadata.cursorY
    cursorVisible := metadata.cursorVisible
    cursorShape := metadata.cursorShape
    alternateOn := metadata.alternateOn
    paneInMode := metadata.paneInMode
    historySize := metadata.historySize }

def applyResyncCapture (metadata : PaneCaptureMetadata) (output : List Bytes) (pendingEscape : Bytes)
    (lineFlags : Bool) (nowMs : Nat) : TmuxPaneSet V × Except TmuxPaneError Unit :=
  match self.panes[metadata.paneId]? with
  | none => (self, .error (.unknownPane metadata.paneId.value))
  | some state =>
    let captured :=
      views.processChanges (views.new (dimension metadata.height.toNat) (dimension metadata.width.toNat))
        (reconstructionBytes metadata.alternateOn metadata.cursorX.toNat metadata.cursorY.toNat
          metadata.cursorVisible metadata.cursorShape ⟨output, pendingEscape, lineFlags⟩)
    let view := self.track views (views.finalizeChanges (views.discardShadowPtyReplies captured) nowMs)
    let applied :=
      self.set metadata.paneId
        { state with
          metadata := capturedMetadata state.metadata metadata
          view
          bootstrapped := true
          bootstrapRequested := false }
    (applied.retire [state.view], .ok ())

/-! ## Presentation -/

def enablePresentationTracking : TmuxPaneSet V :=
  { self with
    presentationTracking := true
    panes := self.panes.map fun _ state =>
      { state with
        view := views.enablePresentationTracking state.view
        portal := state.portal.map fun portal =>
          { portal with view := views.enablePresentationTracking portal.view } } }

def setPanePortal (connectionId : UInt64) : TmuxPaneSet V × Except TmuxPaneError Unit :=
  match self.panes[paneId]? with
  | none => (self, .error (.unknownPane paneId.value))
  | some state =>
    let cleared := views.clearUpdateSummary state.view
    let size := views.liveSize cleared
    let portal := renderPortal views (self.track views (views.new size.1 size.2))
    let placed := self.set paneId { state with view := cleared, portal := some ⟨connectionId, portal⟩ }
    (placed.retire (state.portal.map PanePortal.view).toList, .ok ())

def clearPanePortal (connectionId : UInt64) : TmuxPaneSet V :=
  match self.panes[paneId]? with
  | none => self
  | some state =>
    if state.portal.map PanePortal.connectionId = some connectionId then
      let cleared := self.set paneId { state with view := views.clearUpdateSummary state.view, portal := none }
      cleared.retire (state.portal.map PanePortal.view).toList
    else self

end TmuxPaneSet

/-! ## Runs -/

inductive Operation
  | reconcile (topology : TmuxTopology)
  | processOutput (paneId : PaneId) (bytes : Bytes) (retainForAccessibility : Bool)
  | applyBootstrap (paneId : PaneId) (status : CommandStatus) (output : List Bytes) (lineFlags : Bool)
    (nowMs : Nat)
  | applyResyncCapture (metadata : PaneCaptureMetadata) (output : List Bytes) (pendingEscape : Bytes)
    (lineFlags : Bool) (nowMs : Nat)
  | enablePresentationTracking
  | setPanePortal (paneId : PaneId) (connectionId : UInt64)
  | clearPanePortal (paneId : PaneId) (connectionId : UInt64)

namespace TmuxPaneSet

variable (views : ViewMethods V S) (self : TmuxPaneSet V)

def step : Operation → TmuxPaneSet V
  | .reconcile topology => (self.reconcile views topology).1
  | .processOutput paneId bytes retainForAccessibility =>
    (self.processOutput views paneId bytes retainForAccessibility).1
  | .applyBootstrap paneId status output lineFlags nowMs =>
    (self.applyBootstrap views paneId status output lineFlags nowMs).1
  | .applyResyncCapture metadata output pendingEscape lineFlags nowMs =>
    (self.applyResyncCapture views metadata output pendingEscape lineFlags nowMs).1
  | .enablePresentationTracking => self.enablePresentationTracking views
  | .setPanePortal paneId connectionId => (self.setPanePortal views paneId connectionId).1
  | .clearPanePortal paneId connectionId => self.clearPanePortal views paneId connectionId

def run (connectionId : UInt64) (operations : List Operation) : TmuxPaneSet V :=
  operations.foldl (step views) (new connectionId)

end TmuxPaneSet
end Lector.Panes
