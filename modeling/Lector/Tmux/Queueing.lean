import Lector.Output.Scheduler
import Lector.Tmux.Routing

/-! The commands that the app queues for its tmux connections (`src/app/pty.rs`,
`src/app/tmux_interaction.rs`). -/
namespace Lector.Tmux
open Bytes Std Lector.Topology Output

/-! ## Texts -/

def inventoryCommands : List String :=
  ["list-sessions -F 'S\t#\x7bsession_id\x7d\t#\x7bsession_name\x7d'\n",
    "list-windows -a -F 'W\t#\x7bsession_id\x7d\t#\x7bwindow_id\x7d\t#\x7bwindow_index\x7d\t#\x7bwindow_active\x7d\t#\x7bwindow_layout\x7d\t#\x7bwindow_visible_layout\x7d\t#\x7bwindow_flags\x7d\t#\x7bwindow_name\x7d'\n",
    "list-panes -a -F 'P\t#\x7bwindow_id\x7d\t#\x7bpane_id\x7d\t#\x7bpane_index\x7d\t#\x7bpane_active\x7d\t#\x7bpane_left\x7d\t#\x7bpane_top\x7d\t#\x7bpane_width\x7d\t#\x7bpane_height\x7d\t#\x7bpane_dead\x7d\t#\x7bcursor_x\x7d\t#\x7bcursor_y\x7d\t#\x7bcursor_flag\x7d\t#\x7bcursor_shape\x7d\t#\x7balternate_on\x7d\t#\x7bpane_in_mode\x7d\t#\x7bpane_mode\x7d\t#\x7bhistory_size\x7d\t#\x7bpane_title\x7d'\n",
    "display-message -p -F 'A\t#\x7bsession_id\x7d\t#\x7bhost\x7d'\n",
    "display-message -p -F 'O\tbase-index\t#\x7bbase-index\x7d'\n",
    "display-message -p -F 'O\tpane-base-index\t#\x7bpane-base-index\x7d'\n",
    "display-message -p -F 'C\tclient_name\t#\x7bclient_name\x7d'\n",
    "display-message -p -F 'O\tprefix\t#\x7bprefix\x7d'\n",
    "display-message -p -F 'O\tprefix2\t#\x7bprefix2\x7d'\n",
    "display-message -p -F 'O\tkey-table\t#\x7bkey-table\x7d'\n",
    "display-message -p -F 'O\trepeat-time\t#\x7brepeat-time\x7d'\n",
    "list-keys -a\n"]

def inventoryReplyCount : Nat := inventoryCommands.length

def flowControlCommand : String := "refresh-client -f pause-after=1\n"

def flowControlVerifyCommand : String := "display-message -p -F '#\x7bclient_flags\x7d'\n"

def refreshClientCommand (geometry : TerminalGeometry) : Bytes :=
  ascii s!"refresh-client -C {max geometry.cols.toNat 1}x{max geometry.rows.toNat 1}\n"

def isWhitespace (c : Char) : Bool :=
  (0x9 ≤ c.val && c.val ≤ 0xd) || c.val == 0x20 || c.val == 0x85 || c.val == 0xa0 ||
    c.val == 0x1680 || (0x2000 ≤ c.val && c.val ≤ 0x200a) || c.val == 0x2028 || c.val == 0x2029 ||
    c.val == 0x202f || c.val == 0x205f || c.val == 0x3000

def trim (text : String) : List Char :=
  ((text.toList.dropWhile isWhitespace).reverse.dropWhile isWhitespace).reverse

/-- The texts that `classify_binding` accepts. What it takes them for matters to key bindings only. -/
def classifyBindingAccepts (command : String) : Bool :=
  !(trim command).isEmpty && (trim command).all fun c => c.val != 0 && c.val != 0xd && c.val != 0xa

/-! ## Queueing -/

structure TmuxGatewayHop where
  parentConnectionId : UInt64
  sessionId : SessionId
  windowId : WindowId
  paneId : PaneId
deriving DecidableEq

namespace TmuxApp

variable (app : TmuxApp)

def push (command : PendingTmuxCommand) : TmuxApp :=
  { app with pendingTmuxCommands := app.pendingTmuxCommands ++ [command] }

def pushAll (commands : List PendingTmuxCommand) : TmuxApp :=
  { app with pendingTmuxCommands := app.pendingTmuxCommands ++ commands }

variable (connectionId : UInt64)

def queueTmuxInput (paneId : PaneId) (input : Bytes) : TmuxApp :=
  if input.isEmpty then app
  else
    match app.pendingTmuxCommands.getLast? with
    | some command =>
      if command.connectionId = connectionId ∧ command.kind = .input paneId then
        { app with pendingTmuxCommands :=
            app.pendingTmuxCommands.dropLast ++ [{ command with bytes := command.bytes ++ input }] }
      else app.push ⟨connectionId, input, [], .input paneId⟩
    | none => app.push ⟨connectionId, input, [], .input paneId⟩

def inventoryRequest : List PendingTmuxCommand :=
  inventoryCommands.map fun command => ⟨connectionId, utf8 command, [.inventory], .ordinary⟩

def queueTmuxInventory : TmuxApp := app.pushAll (inventoryRequest connectionId)

def queueTmuxResize (geometry : TerminalGeometry) : TmuxApp :=
  let bytes := refreshClientCommand geometry
  match app.pendingTmuxCommands.findIdx? fun command =>
    command.connectionId = connectionId ∧ command.kind = .resize with
  | some index =>
    { app with pendingTmuxCommands := app.pendingTmuxCommands.modify index ({ · with bytes := bytes }) }
  | none => app.push ⟨connectionId, bytes, [.ignored], .resize⟩

/-- `none` is `PrefixError::UnsafeCommand`. -/
def queueTmuxCommand (command : String) (showSuccess : Bool) : Option TmuxApp :=
  if classifyBindingAccepts command then
    some (app.push ⟨connectionId, utf8 command ++ [lf], [.userCommand command showSuccess], .ordinary⟩)
  else none

def queueTmuxUserCommand (command : String) : Option TmuxApp :=
  app.queueTmuxCommand connectionId command false

def continuePane (paneId : PaneId) : PendingTmuxCommand :=
  ⟨connectionId, continuePaneCommand paneId, [.paneContinue paneId], .ordinary⟩

/-! ## The way to a connection -/

/-- The loop of `tmux_gateway_path`, from the inside out. -/
def gatewayPathFrom : (rounds : Nat) → (connectionId : UInt64) → Option (List TmuxGatewayHop)
  | 0, _ => some []
  | rounds + 1, connectionId =>
    match app.hierarchy.origin connectionId with
    | some .direct => some []
    | some (.pane parentConnectionId sessionId windowId paneId) =>
      (gatewayPathFrom rounds parentConnectionId).map
        (⟨parentConnectionId, ⟨sessionId⟩, ⟨windowId⟩, ⟨paneId⟩⟩ :: ·)
    | none => none

def tmuxGatewayPath : Option (List TmuxGatewayHop) :=
  (app.gatewayPathFrom 65 connectionId).map List.reverse

def restore (hop : TmuxGatewayHop) (command : String) : PendingTmuxCommand :=
  ⟨hop.parentConnectionId, utf8 command ++ [lf], [.ignored], .ordinary⟩

/-- The commands of one hop, or `none` where its pane is not on its way any more. -/
def hopRestores (hop : TmuxGatewayHop) : Option (List PendingTmuxCommand) := do
  let connection ← app.connection hop.parentConnectionId
  let topology := connection.topology
  let session ← topology.sessions[hop.sessionId]?
  let window ← topology.windows[hop.windowId]?
  let pane ← topology.panes[hop.paneId]?
  if pane.windowId ≠ hop.windowId ∨
      session.windows.toList.all (fun entry => entry.2 != hop.windowId) then none
  else
    some
      ((if topology.attachedSession ≠ some hop.sessionId then
          [restore hop s!"switch-client -t ${hop.sessionId.value}"] else []) ++
        (if session.activeWindow ≠ some hop.windowId then
          [restore hop s!"select-window -t @{hop.windowId.value}"] else []) ++
        if window.activePane ≠ some hop.paneId then
          [restore hop s!"select-pane -t %{hop.paneId.value}"] else [])

/-- One hop of the second loop of `queue_tmux_gateway_path_resumes`. -/
def resumeHop (hop : TmuxGatewayHop) : TmuxApp :=
  (app.withConnection hop.parentConnectionId
    (·.withFlow hop.paneId ({ · with resumeRequested := true }))).push
      (continuePane hop.parentConnectionId hop.paneId)

/-- `none` where the way is blocked; then nothing is queued. -/
def queueTmuxGatewayPathResumes : Option TmuxApp := do
  let path ← app.tmuxGatewayPath connectionId
  let restores ← path.mapM app.hopRestores
  some (path.foldl resumeHop (app.pushAll restores.flatten))

end TmuxApp

end Lector.Tmux
