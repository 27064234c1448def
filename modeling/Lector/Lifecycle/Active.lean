import Lector.Foundations.Queues
import Lector.Lifecycle.Gateways
import Lector.Tmux.Transparency

/-! The active tmux connection, and the sizes that the app tells its connections (`src/app.rs`,
`src/app/pty.rs`). Of the view stack there are the connection views and the geometry of the root view. -/
namespace Lector.Lifecycle
open Std Lector.Topology Tmux Output Latest

/-- `TerminalGeometry::new`: a grid has a row and a column. -/
def endpointGeometry (geometry : TerminalGeometry) : TerminalGeometry :=
  { geometry with
    rows := if geometry.rows = 0 then 1 else geometry.rows
    cols := if geometry.cols = 0 then 1 else geometry.cols }

def sizeOf (command : PendingTmuxCommand) : Option (UInt64 × Bytes) :=
  if command.kind = .resize then some (command.connectionId, command.bytes) else none

def sizesOf (commands : List PendingTmuxCommand) : List (UInt64 × Bytes) := commands.filterMap sizeOf

abbrev OtherCommand := { command : PendingTmuxCommand // command.kind ≠ .resize }

/-- Ghost fields: the last size told to each connection, and the geometry when it was last active.
-/
structure Shown where
  app : App
  connectionViews : List UInt64
  activeTmuxConnection : Option UInt64
  geometry : TerminalGeometry
  lastSize : UInt64 → Option Bytes
  lastSeen : UInt64 → Option TerminalGeometry

namespace App

def lastConnection (app : App) : Option UInt64 := app.tmux.connections.getLast?.map (·.id)

end App

namespace Shown

def new (geometry : TerminalGeometry) : Shown where
  app := .new
  connectionViews := []
  activeTmuxConnection := none
  geometry := endpointGeometry geometry
  lastSize := fun _ => none
  lastSeen := fun _ => none

variable (self : Shown)

def tmux : TmuxApp := self.app.tmux

def withTmux (tmux : TmuxApp) : Shown := { self with app := { self.app with tmux := tmux } }

def publishSizes (sizes : List (UInt64 × Bytes)) : Shown :=
  { self with lastSize := publish self.lastSize sizes }

def onResizeWithGeometry (geometry : TerminalGeometry) : Shown :=
  let self := { self with geometry := endpointGeometry geometry }
  match self.activeTmuxConnection with
  | some connectionId =>
    if connectionId ∈ self.connectionViews then
      (self.withTmux (self.tmux.queueTmuxResize connectionId geometry)).publishSizes
        [(connectionId, refreshClientCommand geometry)]
    else self
  | none => self

def showsParent : GatewayOrigin → Bool
  | .direct => true
  | .pane parentConnectionId _ _ _ => parentConnectionId ∈ self.connectionViews

variable (connectionId : UInt64)

/-- `portal` says whether the parent has a pane for the portal. -/
def startTmuxConnection (origin : GatewayOrigin) (portal : Bool) : Option Shown := do
  let app ← self.app.startTmuxConnection connectionId origin self.geometry
    (portal && self.showsParent origin)
  let self := { self with
    app := app
    connectionViews := self.connectionViews ++ [connectionId]
    activeTmuxConnection := some connectionId }
  some (self.publishSizes [(connectionId, refreshClientCommand self.geometry)])

def removeViews (removed : List UInt64) : Shown :=
  { self with connectionViews := self.connectionViews.filter (· ∉ removed) }

/-- The active connection if it still exists, else the last one if there was an active one. -/
def stillActive (app : App) (previouslyActive : Option UInt64) : Option UInt64 :=
  (previouslyActive.filter fun active => (app.tmux.connection active).isSome).or
    (previouslyActive.bind fun _ => app.lastConnection)

def endTmuxConnection : Option Shown := do
  let (removed, _) ← self.app.hierarchy.removeConnection connectionId
  let removed := if removed.isEmpty then [connectionId] else removed
  let app ← self.app.endTmuxConnection connectionId
  some ({ self with
    app := app
    activeTmuxConnection := stillActive app self.activeTmuxConnection }.removeViews removed)

def activeAfter (app : App) (parentConnectionId : UInt64) (removed : List UInt64)
    (active : Option UInt64) : Option UInt64 :=
  if active.any (· ∈ removed) then
    if (app.tmux.connection parentConnectionId).isSome then some parentConnectionId
    else app.lastConnection
  else active

def resolveDestroyedTmuxGateways (parentConnectionId : UInt64) (paneIds windowIds : List UInt64) :
    Option Shown := do
  let (removed, _) ← self.app.removeGateways parentConnectionId paneIds windowIds
  let app ← self.app.resolveDestroyedTmuxGateways parentConnectionId paneIds windowIds
  if removed.isEmpty then some { self with app := app }
  else
    some ({ self with
      app := app
      activeTmuxConnection :=
        activeAfter app parentConnectionId removed self.activeTmuxConnection }.removeViews removed)

def showTmuxGateway : Shown :=
  if (self.tmux.connection connectionId).isNone then self
  else
    match self.app.hierarchy.origin connectionId with
    | some (.pane parentConnectionId _ _ _) =>
      if parentConnectionId ∈ self.connectionViews then
        { self with activeTmuxConnection := some parentConnectionId }
      else self
    | some .direct | none =>
      if connectionId ∈ self.connectionViews then
        { self with activeTmuxConnection := some connectionId }
      else self

def activateTmuxConnection : Shown :=
  if (self.tmux.connection connectionId).isNone ∨ connectionId ∉ self.connectionViews then self
  else
    { self with activeTmuxConnection := some connectionId }.withTmux
      ((self.tmux.queueTmuxGatewayPathResumes connectionId).getD self.tmux)

def writtenSizes (outcomes : List (PendingTmuxCommand × TmuxApp.Outcome)) : List (UInt64 × Bytes) :=
  sizesOf (TmuxApp.writtenCommands outcomes)

def drainTmuxCommandsFor (nowMs : Nat) (connectionId : UInt64) : Option Shown :=
  match self.tmux.drainTmuxCommandsFor nowMs connectionId with
  | .ok (outcomes, tmux) => some ((self.withTmux tmux).publishSizes (writtenSizes outcomes))
  | .error _ => none

def withApp (app : App) : Shown := { self with app := app }

end Shown

/-- What happens to the sizes of connections. Commands that tell no size may be queued at any time. -/
inductive SizeEvent
  | resize (geometry : TerminalGeometry)
  | started (connectionId : UInt64) (origin : GatewayOrigin) (portal : Bool)
  | ended (connectionId : UInt64)
  | destroyed (parentConnectionId : UInt64) (paneIds windowIds : List UInt64)
  | showGateway (connectionId : UInt64)
  | activate (connectionId : UInt64)
  | request (connectionId : UInt64) (action : GatewayControlAction)
  | answer (nowMs : Nat) (confirmed : Bool)
  | recover (nowMs : Nat) (connectionId : UInt64)
  | input (connectionId : UInt64) (paneId : PaneId) (bytes : Bytes)
  | commands (commands : List OtherCommand)
  | topology (connectionId : UInt64) (topology : TmuxTopology)
  | drain (nowMs : Nat) (connectionId : UInt64)

namespace Shown

variable (self : Shown)

def perform : SizeEvent → Option Shown
  | .resize geometry => some (self.onResizeWithGeometry geometry)
  | .started connectionId origin portal => self.startTmuxConnection connectionId origin portal
  | .ended connectionId => self.endTmuxConnection connectionId
  | .destroyed parentConnectionId paneIds windowIds =>
    self.resolveDestroyedTmuxGateways parentConnectionId paneIds windowIds
  | .showGateway connectionId => some (self.showTmuxGateway connectionId)
  | .activate connectionId => some (self.activateTmuxConnection connectionId)
  | .request connectionId action => (self.app.requestTmuxGatewayActionFor connectionId action).map self.withApp
  | .answer nowMs confirmed => (self.app.answerGatewayConfirmation nowMs confirmed).map self.withApp
  | .recover nowMs connectionId => (self.app.beginTmuxProtocolRecovery nowMs connectionId).map self.withApp
  | .input connectionId paneId bytes =>
    some (self.withTmux (self.tmux.queueTmuxInput connectionId paneId bytes))
  | .commands commands => some (self.withTmux (self.tmux.pushAll (commands.map Subtype.val)))
  | .topology connectionId topology =>
    some (self.withTmux (self.tmux.withConnection connectionId ({ · with topology := topology })))
  | .drain nowMs connectionId => self.drainTmuxCommandsFor nowMs connectionId

def note : Shown :=
  match self.activeTmuxConnection with
  | some connectionId =>
    { self with lastSeen := Function.update self.lastSeen connectionId (some self.geometry) }
  | none => self

def after (event : SizeEvent) : Shown := ((self.perform event).map note).getD self

def run (events : List SizeEvent) : Shown := events.foldl after self

/-- **The active connection has been told the outer size last.** -/
def Told : Prop :=
  ∀ connectionId, self.activeTmuxConnection = some connectionId →
    self.lastSize connectionId = some (refreshClientCommand self.geometry)

end Shown

end Lector.Lifecycle
