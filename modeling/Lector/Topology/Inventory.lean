import Lector.Topology.Model

/-! The inventory of a tmux server: its lines, applied one after the other to an empty topology, and
the check that ends it. -/
namespace Lector.Topology
open Bytes Std

namespace TmuxTopology

def inventorySession (t : TmuxTopology) (line : Bytes) : Except TopologyError TmuxTopology := do
  let fields ← splitInventory line 3
  let id ← parseSessionId (fields.getD 1 [])
  let name ← text (fields.getD 2 []) "session name"
  if t.sessions.contains id then .error (.contradictoryInventory "duplicate session id")
  else .ok { t with sessions := t.sessions.insert id { emptySession id with name } }

structure WindowLine where
  sessionId : SessionId
  windowId : WindowId
  index : UInt32
  active : Bool
  layout : String
  visibleLayout : String
  flags : String
  name : String

variable (line : Bytes)

def parseWindowLine : Except TopologyError WindowLine := do
  let fields ← splitInventory line 9
  let sessionId ← parseSessionId (fields.getD 1 [])
  let windowId ← parseWindowId (fields.getD 2 [])
  let index ← number (fields.getD 3 []) "window index"
  let active ← boolean (fields.getD 4 []) "window active"
  let layout ← text (fields.getD 5 []) "window layout"
  let visibleLayout ← text (fields.getD 6 []) "window visible layout"
  let flags ← text (fields.getD 7 []) "window flags"
  let name ← text (fields.getD 8 []) "window name"
  return { sessionId, windowId, index, active, layout, visibleLayout, flags, name }

/-- The window a `W` line describes, before any other line linked it. -/
def WindowLine.window (l : WindowLine) : Window :=
  { emptyWindow l.windowId with
    name := l.name, layout := l.layout, visibleLayout := l.visibleLayout, flags := l.flags }

/-- The session of a `W` line with the window listed. -/
def WindowLine.listIn (l : WindowLine) (session : Session) : Session :=
  { session with
    windows := session.windows.insert l.index l.windowId
    activeWindow := if l.active then some l.windowId else session.activeWindow }

def WindowLine.link (l : WindowLine) (window : Window) : Window :=
  { window with flags := l.flags, links := window.links.insert ⟨l.sessionId, l.index⟩ }

def linkWindow (t : TmuxTopology) (l : WindowLine) : Except TopologyError TmuxTopology :=
  match t.sessions[l.sessionId]? with
  | none => .error (.contradictoryInventory "window references missing session")
  | some session =>
    let window := (t.windows[l.windowId]?).getD l.window
    if session.windows.contains l.index then
      .error (.contradictoryInventory "duplicate window index")
    else if window.name ≠ l.name || window.layout ≠ l.layout || window.visibleLayout ≠ l.visibleLayout then
      .error (.contradictoryInventory "linked window metadata differs")
    else
      .ok { t with
        sessions := t.sessions.insert l.sessionId (l.listIn session)
        windows := t.windows.insert l.windowId (l.link window) }

def inventoryWindow (t : TmuxTopology) (line : Bytes) : Except TopologyError TmuxTopology := do
  t.linkWindow (← parseWindowLine line)

def orDefault {α : Type} (printed : Bool) (parsed : Except TopologyError α) (default : α) :
    Except TopologyError α :=
  if printed then parsed else .ok default

/-- Later versions of the inventory command have more fields. -/
def parsePaneLine : Except TopologyError (Pane × Bool) := do
  let tabs := line.count tab
  let namedMode := decide (tabs ≥ 18)
  let extended := decide (tabs ≥ 17)
  let fields ← splitInventory line (if namedMode then 19 else if extended then 18 else 11)
  let field := fun i => fields.getD i []
  let windowId ← parseWindowId (field 1)
  let id ← parsePaneId (field 2)
  let index ← number (field 3) "pane index"
  let left ← number (field 5) "pane left"
  let top ← number (field 6) "pane top"
  let width ← number (field 7) "pane width"
  let height ← number (field 8) "pane height"
  let dead ← boolean (field 9) "pane dead"
  let cursorX ← orDefault extended (number (field 10) "cursor x") 0
  let cursorY ← orDefault extended (number (field 11) "cursor y") 0
  let cursorVisible ← orDefault extended (boolean (field 12) "cursor visible") true
  let cursorShape ← orDefault extended (parseCursorShape (field 13)) "default"
  let alternateOn ← orDefault extended (boolean (field 14) "alternate screen") false
  let paneInMode ← orDefault extended (number (field 15) "pane mode") 0
  let mode ← orDefault namedMode (text (field 16) "pane mode name") ""
  let historySize ←
    orDefault extended (number (field (if namedMode then 17 else 16)) "history size") 0
  let title ← text (field (if namedMode then 18 else if extended then 17 else 10)) "pane title"
  let active ← boolean (field 4) "pane active"
  return ({ id, windowId, index, title, left, top, width, height, dead, cursorX, cursorY,
            cursorVisible, cursorShape, alternateOn, paneInMode, mode, historySize }, active)

def activate (window : Window) (id : PaneId) (active : Bool) : Window :=
  if active then { window with activePane := some id } else window

def addPane (t : TmuxTopology) (pane : Pane) (active : Bool) : Except TopologyError TmuxTopology :=
  match t.windows[pane.windowId]? with
  | none => .error (.contradictoryInventory "pane references missing window")
  | some window =>
    let windows := t.windows.insert pane.windowId (activate window pane.id active)
    match t.panes[pane.id]? with
    | none => .ok { t with windows, panes := t.panes.insert pane.id pane }
    | some existing =>
      if existing ≠ pane then .error (.contradictoryInventory "linked pane metadata differs")
      else .ok { t with windows }

def inventoryPane (t : TmuxTopology) (line : Bytes) : Except TopologyError TmuxTopology := do
  let (pane, active) ← parsePaneLine line
  t.addPane pane active

def inventoryAttached (t : TmuxTopology) (line : Bytes) : Except TopologyError TmuxTopology := do
  let hasHost := decide (line.count tab ≥ 2)
  let fields ← splitInventory line (if hasHost then 3 else 2)
  let id ← parseSessionId (fields.getD 1 [])
  if t.attachedSession.isSome then .error (.contradictoryInventory "multiple attached records")
  else if hasHost then do
    let host ← text (fields.getD 2 []) "server host"
    if host.utf8ByteSize > 256 || host.toList.any isControl then .error .malformedInventory
    else .ok { t with attachedSession := some id, host := if host.isEmpty then none else some host }
  else .ok { t with attachedSession := some id }

/-- An `O` line sets an option, a `C` line a fact about the client. -/
def inventoryKeyValue (t : TmuxTopology) (line : Bytes) (option : Bool) :
    Except TopologyError TmuxTopology := do
  let fields ← splitInventory line 3
  if (fields.getD 1 []).isEmpty then .error .malformedInventory
  else do
    let key ← text (fields.getD 1 []) "metadata key"
    let value ← text (fields.getD 2 []) "metadata value"
    let known := if option then t.options else t.clientInfo
    if known.contains key then .error (.contradictoryInventory "duplicate metadata key")
    else if option then .ok { t with options := t.options.insert key value }
    else .ok { t with clientInfo := t.clientInfo.insert key value }

def insertBinding (t : TmuxTopology) (binding : TmuxBinding) : Except TopologyError TmuxTopology :=
  let duplicate := .error (.contradictoryInventory "duplicate key-table binding")
  if binding.table = "prefix" then
    if t.bindings.contains binding.key then duplicate
    else .ok { t with bindings := t.bindings.insert binding.key binding }
  else
    let bindings := (t.keyTables[binding.table]?).getD ∅
    if bindings.contains binding.key then duplicate
    else .ok { t with
      keyTables := t.keyTables.insert binding.table (bindings.insert binding.key binding) }

/-- The binding of a `B` line; without a table field it is in the prefix table. -/
def parseBindingLine : Except TopologyError TmuxBinding := do
  let hasTable := decide (line.count tab ≥ 4)
  let fields ← splitInventory line (if hasTable then 5 else 4)
  let table ← orDefault hasTable (text (fields.getD 1 []) "binding table") "prefix"
  let keyIndex := if hasTable then 2 else 1
  let key ← text (fields.getD keyIndex []) "binding key"
  let command ← text (fields.getD (keyIndex + 2) []) "binding command"
  validateBinding table key command
  let repeatable ← boolean (fields.getD (keyIndex + 1) []) "binding repeatable"
  return { table, key, repeatable, command }

def inventoryBinding (t : TmuxTopology) (line : Bytes) : Except TopologyError TmuxTopology := do
  t.insertBinding (← parseBindingLine line)

/-- The table that an option of `bind-key` names, and the input behind it. -/
def legacyTable (option rest : Bytes) : Except TopologyError (Bytes × Bytes) :=
  if option = ascii "-T" then lexRequired rest
  else if option = ascii "-n" then .ok (ascii "root", rest)
  else .error .malformedInventory

/-- The binding that a printed `bind-key` command sets. -/
def parseLegacyBinding : Except TopologyError TmuxBinding := do
  let (word, rest) ← lexRequired line
  if word ≠ ascii "bind-key" then .error .malformedInventory
  else do
    let (first, rest) ← lexRequired rest
    let repeatable := decide (first = ascii "-r")
    let (option, rest) ← orDefault repeatable (lexRequired rest) (first, rest)
    let (table, rest) ← legacyTable option rest
    -- the key is positional and may itself begin with a dash
    let (key, rest) ← lexRequired rest
    let command ← lexRemainder rest
    let table ← text table "binding table"
    let key ← text key "binding key"
    let command ← text command "binding command"
    validateBinding table key command
    return { table, key, repeatable, command }

def inventoryLegacyBinding (t : TmuxTopology) (line : Bytes) : Except TopologyError TmuxTopology := do
  t.insertBinding (← parseLegacyBinding line)

def applyInventoryLine (t : TmuxTopology) (line : Bytes) : Except TopologyError TmuxTopology :=
  match line.head? with
  | some 0x53 => t.inventorySession line
  | some 0x57 => t.inventoryWindow line
  | some 0x50 => t.inventoryPane line
  | some 0x41 => t.inventoryAttached line
  | some 0x4f => t.inventoryKeyValue line true
  | some 0x43 => t.inventoryKeyValue line false
  | some 0x42 => t.inventoryBinding line
  | some 0x62 => t.inventoryLegacyBinding line
  | _ => .error .malformedInventory

def applyInventoryLines (t : TmuxTopology) : List Bytes → Except TopologyError TmuxTopology
  | [] => .ok t
  | line :: lines => do (← t.applyInventoryLine line).applyInventoryLines lines

def validateInventory (t : TmuxTopology) : Except TopologyError Unit :=
  if t.attachedSession.any (fun id => !t.sessions.contains id) then
    .error (.contradictoryInventory "attached session is missing")
  else if t.panes.values.any (fun pane => !t.windows.contains pane.windowId) then
    .error (.contradictoryInventory "pane window is missing")
  else .ok ()

def readInventory (t : TmuxTopology) (lines : List Bytes) : Except TopologyError TmuxTopology := do
  let next ← { new t.connectionId with label := t.label }.applyInventoryLines lines
  next.validateInventory
  return next

def replaceInventory (t : TmuxTopology) (lines : List Bytes) : TmuxTopology × Except TopologyError Unit :=
  match t.readInventory lines with
  | .error e => (t, .error e)
  | .ok next => (next, .ok ())

end TmuxTopology

end Lector.Topology
