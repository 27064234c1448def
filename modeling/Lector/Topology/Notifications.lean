import Lector.Topology.Inventory

/-! Notifications between two inventories: each updates the maps in place and says whether the
topology must be read again. -/
namespace Lector.Topology
open Bytes Std SortedMap

/-! ## Arguments -/

variable (arguments : Bytes)

def sessionNameArguments : Except TopologyError (SessionId × String) := do
  let (id, name) ← splitFirst arguments
  let id ← parseSessionId id
  let name ← text name "session name"
  return (id, name)

def sessionWindowArguments : Except TopologyError (SessionId × WindowId) := do
  let (session, window) ← splitFirst arguments
  let sessionId ← parseSessionId session
  let windowId ← parseWindowId (← singleField window)
  return (sessionId, windowId)

def windowNameArguments : Except TopologyError (WindowId × String) := do
  let (window, name) ← splitFirst arguments
  let windowId ← parseWindowId window
  let name ← text name "window name"
  return (windowId, name)

def windowPaneArguments : Except TopologyError (WindowId × PaneId) := do
  let (window, pane) ← splitFirst arguments
  let windowId ← parseWindowId window
  let paneId ← parsePaneId (← singleField pane)
  return (windowId, paneId)

def windowArgument : Except TopologyError WindowId := do
  parseWindowId (← singleField arguments)

def paneArgument : Except TopologyError PaneId := do
  parsePaneId (← singleField arguments)

def nextField : Option Bytes → Except TopologyError Bytes
  | some field => .ok field
  | none => .error .malformedNotification

structure LayoutChange where
  windowId : WindowId
  layout : String
  visibleLayout : String
  flags : String

def layoutArguments : Except TopologyError LayoutChange := do
  let fields := splitn space 4 arguments
  let windowId ← parseWindowId (← nextField fields[0]?)
  let layout ← text (← nextField fields[1]?) "window layout"
  let visibleLayout ← text (← nextField fields[2]?) "window visible layout"
  let flags ← text (← nextField fields[3]?) "window flags"
  return { windowId, layout, visibleLayout, flags }

/-! ## Updates -/

def Session.unlist (session : Session) (id : WindowId) : Session :=
  { session with
    windows := retain session.windows (fun listed => listed ≠ id)
    activeWindow := if session.activeWindow = some id then none else session.activeWindow }

def Window.deactivate (window : Window) (id : PaneId) : Window :=
  { window with activePane := if window.activePane = some id then none else window.activePane }

def Window.unlink (window : Window) (sessionId : SessionId) : Window :=
  { window with links := window.links.filter fun link => link.sessionId ≠ sessionId }

namespace TmuxTopology

variable (t : TmuxTopology)

def requireResync : TmuxTopology × ReconcileOutcome :=
  ({ t with needsResync := true }, .resyncRequired)

def resyncIf (missing : Bool) (t : TmuxTopology) : TmuxTopology × ReconcileOutcome :=
  if missing then t.requireResync else (t, .applied)

def sessionChanged (id : SessionId) (name : String) : TmuxTopology × ReconcileOutcome :=
  resyncIf (!t.sessions.contains id) { t with
    sessions := upsert t.sessions id (emptySession id) ({ · with name })
    attachedSession := some id }

def sessionWindowChanged (sessionId : SessionId) (windowId : WindowId) : TmuxTopology × ReconcileOutcome :=
  resyncIf (!t.sessions.contains sessionId || !t.windows.contains windowId) { t with
    sessions := upsert t.sessions sessionId (emptySession sessionId)
      ({ · with activeWindow := some windowId })
    windows := upsert t.windows windowId (emptyWindow windowId) id }

variable (windowId : WindowId)

def windowRenamed (name : String) : TmuxTopology × ReconcileOutcome :=
  resyncIf (!t.windows.contains windowId) { t with
    windows := upsert t.windows windowId (emptyWindow windowId) ({ · with name }) }

def windowPaneChanged (paneId : PaneId) : TmuxTopology × ReconcileOutcome :=
  resyncIf (!t.windows.contains windowId || !t.panes.contains paneId) { t with
    windows := upsert t.windows windowId (emptyWindow windowId)
      ({ · with activePane := some paneId })
    panes := upsert t.panes paneId (emptyPane paneId windowId) id }

def windowAdd : TmuxTopology × ReconcileOutcome :=
  requireResync { t with windows := upsert t.windows windowId (emptyWindow windowId) id }

def removePane (id : PaneId) : TmuxTopology :=
  { t with
    panes := t.panes.erase id
    windows := t.windows.map fun _ window => window.deactivate id }

def removeWindow (id : WindowId) : TmuxTopology :=
  { t with
    windows := t.windows.erase id
    panes := retain t.panes (fun pane => pane.windowId ≠ id)
    sessions := t.sessions.map fun _ session => session.unlist id }

def closeAttachedWindow : TmuxTopology × ReconcileOutcome :=
  match t.attachedSession with
  | none => t.requireResync
  | some sessionId =>
    let t := { t with sessions := t.sessions.modify sessionId (·.unlist windowId) }
    match t.windows[windowId]? with
    | none => (t, .applied)
    | some window =>
      let window := window.unlink sessionId
      let t := { t with windows := t.windows.insert windowId window }
      (if window.links.isEmpty then t.removeWindow windowId else t, .applied)

def closeUnlinkedWindow : TmuxTopology × ReconcileOutcome :=
  if (t.windows[windowId]?).any fun window => !window.links.isEmpty then t.requireResync
  else (t.removeWindow windowId, .applied)

def layoutChanged (change : LayoutChange) : TmuxTopology × ReconcileOutcome :=
  requireResync { t with
    windows := upsert t.windows change.windowId (emptyWindow change.windowId) ({ · with
      layout := change.layout, visibleLayout := change.visibleLayout, flags := change.flags }) }

/-! ## Dispatch -/

inductive Kind
  | sessionsChanged
  | sessionChanged
  | sessionRenamed
  | sessionWindowChanged
  | windowRenamed
  | windowPaneChanged
  | windowAdd
  | windowClose
  | unlinkedWindowClose
  | layoutChange
  | paneModeChanged
  | paneExited
deriving DecidableEq

def kinds : List (Bytes × Kind) :=
  [(ascii "sessions-changed", .sessionsChanged), (ascii "session-changed", .sessionChanged),
   (ascii "session-renamed", .sessionRenamed),
   (ascii "session-window-changed", .sessionWindowChanged),
   (ascii "window-renamed", .windowRenamed),
   (ascii "unlinked-window-renamed", .windowRenamed),
   (ascii "window-pane-changed", .windowPaneChanged),
   (ascii "window-add", .windowAdd),
   (ascii "unlinked-window-add", .windowAdd),
   (ascii "window-close", .windowClose),
   (ascii "unlinked-window-close", .unlinkedWindowClose),
   (ascii "layout-change", .layoutChange),
   (ascii "pane-mode-changed", .paneModeChanged),
   (ascii "pane-exited", .paneExited)]

/-- An update that waits for its arguments: nothing is touched when they do not parse. -/
def afterParsing {α : Type} (parsed : Except TopologyError α)
    (update : α → TmuxTopology × ReconcileOutcome) :
    TmuxTopology × Except TopologyError ReconcileOutcome :=
  match parsed with
  | .error e => (t, .error e)
  | .ok a => ((update a).1, .ok (update a).2)

def applyKind (arguments : Bytes) : Kind → TmuxTopology × Except TopologyError ReconcileOutcome
  | .sessionsChanged => t.afterParsing (.ok ()) fun _ => t.requireResync
  | .sessionChanged => t.afterParsing (sessionNameArguments arguments) fun (id, name) =>
      t.sessionChanged id name
  | .sessionRenamed =>
    match t.attachedSession with
    | none => t.afterParsing (.ok ()) fun _ => t.requireResync
    | some id => t.afterParsing (text arguments "session name") fun name =>
        if t.sessions.contains id then
          ({ t with sessions := t.sessions.modify id ({ · with name }) }, .applied)
        else t.requireResync
  | .sessionWindowChanged => t.afterParsing (sessionWindowArguments arguments)
      fun (sessionId, windowId) => t.sessionWindowChanged sessionId windowId
  | .windowRenamed => t.afterParsing (windowNameArguments arguments) fun (windowId, name) =>
      t.windowRenamed windowId name
  | .windowPaneChanged => t.afterParsing (windowPaneArguments arguments) fun (windowId, paneId) =>
      t.windowPaneChanged windowId paneId
  | .windowAdd => t.afterParsing (windowArgument arguments) t.windowAdd
  | .windowClose => t.afterParsing (windowArgument arguments) t.closeAttachedWindow
  | .unlinkedWindowClose => t.afterParsing (windowArgument arguments) t.closeUnlinkedWindow
  | .layoutChange => t.afterParsing (layoutArguments arguments) t.layoutChanged
  | .paneModeChanged => t.afterParsing (.ok ()) fun _ => t.requireResync
  | .paneExited => t.afterParsing (paneArgument arguments) fun id => (t.removePane id, .applied)

def applyNotification (name arguments : Bytes) : TmuxTopology × Except TopologyError ReconcileOutcome :=
  match kinds.lookup name with
  | none => (t, .ok .ignored)
  | some kind => t.applyKind arguments kind

end TmuxTopology

end Lector.Topology
