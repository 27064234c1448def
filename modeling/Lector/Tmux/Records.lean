import Lector.Control.Parser
import Lector.Topology.Notifications
import Lector.Tmux.Queueing

/-! The records of a control transport that answer commands or report a change
(`process_tmux_control` in `src/app/pty.rs`), as far as they concern inventories and bootstraps. -/
namespace Lector.Tmux
open Std Lector.Topology Control

/-! ## Texts -/

def isAsciiWhitespace (c : Char) : Bool := c == ' ' || c == '\t' || c == '\n' || c.val == 0xc || c == '\r'

def splitAsciiWhitespace (text : String) : List (List Char) :=
  (text.toList.splitOnP isAsciiWhitespace).filter fun word => !word.isEmpty

/-- The characters that `command_may_change_key_configuration` trims from a word. -/
def isQuoting (c : Char) : Bool := c.val == 0x27 || c.val == 0x22 || c.val == 0x5c || c == ';'

def trimQuoting (word : List Char) : List Char :=
  ((word.dropWhile isQuoting).reverse.dropWhile isQuoting).reverse

def keyConfigurationCommands : List String :=
  ["source-file", "bind", "bind-key", "unbind", "unbind-key", "set", "set-option"]

def commandMayChangeKeyConfiguration (command : String) : Bool :=
  (splitAsciiWhitespace command).any fun word =>
    keyConfigurationCommands.any fun keyword => trimQuoting word == keyword.toList

def hasWindow (needle line : Bytes) : Bool := line.tails.any needle.isPrefixOf

def tmuxCaptureLineFlagsUnsupported (status : CommandStatus) (output : List Bytes) : Bool :=
  status == .error &&
    output.any fun line => hasWindow (ascii "unknown flag") line && hasWindow (ascii "-F") line

def captureCommand (pane : Pane) (lineFlags : Bool) : Bytes :=
  captureCommandForState pane.id pane.alternateOn pane.paneInMode lineFlags

/-! ## Connections -/

def clearNativeCopyMode (topology : TmuxTopology) (paneId : PaneId) : TmuxTopology :=
  { topology with
    panes := topology.panes.modify paneId fun pane =>
      if pane.mode = "copy-mode" then { pane with paneInMode := 0, mode := "" } else pane }

def bootstrapCommand (connectionId : UInt64) (pane : Pane) (lineFlags : Bool) : PendingTmuxCommand :=
  ⟨connectionId, captureCommand pane lineFlags, [.bootstrap pane.id lineFlags], .ordinary⟩

def leaveCopyMode (connectionId : UInt64) (paneId : PaneId) : PendingTmuxCommand :=
  ⟨connectionId, ascii s!"copy-mode -q -t %{paneId.value}\n", [.ignored], .ordinary⟩

/-- A connection after a record, the commands that are queued for it and the pane whose bootstrap has
come. -/
structure Handled where
  connection : TmuxConnectionState
  commands : List PendingTmuxCommand
  bootstrap : Option PaneId

namespace TmuxConnectionState

variable (connection : TmuxConnectionState)

def markResyncRequired : TmuxConnectionState :=
  { connection with topology := { connection.topology with needsResync := true } }

def awaitInventory : TmuxConnectionState :=
  { connection.resetInventoryAttempt with
    inventoryRepliesRemaining := inventoryReplyCount
    inventoryRetryCount := 0 }

def idle : Handled := ⟨connection, [], none⟩

def requestInventory : Handled := ⟨connection.awaitInventory, TmuxApp.inventoryRequest connection.id, none⟩

def inventoryResult : Option TmuxTopology :=
  if connection.inventoryFailed then none
  else
    match connection.topology.replaceInventory connection.pendingInventory with
    | (topology, .ok ()) => some topology
    | (_, .error _) => none

def nativeCopyModePanes (topology : TmuxTopology) : List PaneId :=
  (topology.panes.values.filter fun pane => pane.mode = "copy-mode").map (·.id)

def finishInventory : Handled :=
  match connection.inventoryResult with
  | some topology =>
    let panes := nativeCopyModePanes topology
    ⟨{ connection.resetInventoryAttempt with
        topology := panes.foldl clearNativeCopyMode topology
        hasInventory := true
        inventoryRetryCount := 0 },
      panes.map (leaveCopyMode connection.id), none⟩
  | none =>
    let connection := connection.markResyncRequired
    if connection.inventoryRetryCount = 0 then
      ⟨{ connection.resetInventoryAttempt with
          inventoryRepliesRemaining := inventoryReplyCount
          inventoryRetryCount := 1 },
        TmuxApp.inventoryRequest connection.id, none⟩
    else connection.resetInventoryAttempt.idle

variable (status : CommandStatus) (output : List Bytes)

def collectInventory : TmuxConnectionState :=
  match status with
  | .success => connection.appendInventory output
  | .error => connection.recordInventoryError

def handleInventory : Handled :=
  let connection := { connection with
    inventoryRepliesRemaining := connection.inventoryRepliesRemaining - 1 }
  let connection := connection.collectInventory status output
  if connection.inventoryRepliesRemaining = 0 then connection.finishInventory else connection.idle

def handleBootstrap (paneId : PaneId) (lineFlags : Bool) (status : CommandStatus)
    (output : List Bytes) : Handled :=
  let retry :=
    if lineFlags && tmuxCaptureLineFlagsUnsupported status output then
      connection.topology.panes[paneId]?
    else none
  match retry with
  | some pane =>
    ⟨{ connection with captureLineFlagsSupported := some false },
      [⟨connection.id, captureCommand pane false, [.bootstrap paneId false], .ordinary⟩], none⟩
  | none =>
    let supported :=
      if lineFlags && status == .success then some true else connection.captureLineFlagsSupported
    ⟨{ connection with captureLineFlagsSupported := supported }, [], some paneId⟩

def handleUserCommand (description : String) : Handled :=
  if commandMayChangeKeyConfiguration description ∧ connection.inventoryRepliesRemaining = 0 then
    connection.markResyncRequired.requestInventory
  else connection.idle

def handleReply (reply : ExpectedTmuxReply) (status : CommandStatus) (output : List Bytes) : Handled :=
  match reply with
  | .inventory => connection.handleInventory status output
  | .bootstrap paneId lineFlags => connection.handleBootstrap paneId lineFlags status output
  | .userCommand description _ => connection.handleUserCommand description
  | _ => connection.idle

def handleCommand : Handled :=
  if !connection.initialCommandSeen then { connection with initialCommandSeen := true }.idle
  else
    match connection.expectedReplies with
    | [] => connection.idle
    | reply :: rest => { connection with expectedReplies := rest }.handleReply reply status output

def isMessage (name : Bytes) : Bool := name == ascii "message" || name == ascii "config-error"

/-- `none` is an error, with which the program ends. -/
def handleNotification (name arguments : Bytes) : Option Handled :=
  if isMessage name then some connection.idle
  else
    match connection.topology.applyNotification name arguments with
    | (_, .error _) => none
    | (topology, .ok outcome) =>
      let connection := { connection with topology := topology }
      if outcome = .resyncRequired ∧ connection.inventoryRepliesRemaining = 0 then
        some connection.requestInventory
      else some connection.idle

end TmuxConnectionState

/-! ## Panes -/

structure PaneState where
  bootstrapRequested : Bool
  bootstrapped : Bool
deriving DecidableEq

abbrev TmuxPaneSet := ExtTreeMap PaneId PaneState

namespace TmuxPaneSet

variable (panes : TmuxPaneSet)

def reconcilePane (state : TmuxPaneSet × List Pane) (pane : Pane) : TmuxPaneSet × List Pane :=
  let paneState := state.1[pane.id]?.getD ⟨false, false⟩
  if !paneState.bootstrapped && !paneState.bootstrapRequested then
    (state.1.insert pane.id { paneState with bootstrapRequested := true }, state.2 ++ [pane])
  else (state.1.insert pane.id paneState, state.2)

def reconcile (topology : TmuxTopology) : TmuxPaneSet × List Pane :=
  topology.panes.values.foldl reconcilePane
    (panes.filter fun paneId _ => topology.panes.contains paneId, [])

def applyCapture (paneId : PaneId) : Option TmuxPaneSet :=
  if panes.contains paneId then some (panes.insert paneId ⟨false, true⟩) else none

end TmuxPaneSet

end Lector.Tmux
