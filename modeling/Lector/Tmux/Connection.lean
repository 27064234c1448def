import Lector.Tmux.Commands

/-! The state of one tmux connection (`TmuxConnectionState` in `src/app.rs`). Times are in milliseconds.
Texts for the user, counters for the diagnostics and the key tables of the prefix are left out. -/
namespace Lector.Tmux
open Std Lector.Topology

def tmuxFlowRetryBaseMs : Nat := 100
def tmuxFlowRetryMaxMs : Nat := 2000
def tmuxExpectedReplyLimit : Nat := 512
def tmuxRoutedCommandLimitBytes : Nat := 1024 * 1024
def tmuxRoutedCommandLimitCount : Nat := 4096
def tmuxInventoryLimitBytes : Nat := 8 * 1024 * 1024
def tmuxInventoryLimitLines : Nat := 65536

def after (nowMs delayMs : Nat) : Nat := saturatingAdd 128 nowMs delayMs

/-! ## The flow of a pane -/

inductive TmuxFlowStatus
  | running
  | resynchronizing
  | resyncFailed
deriving DecidableEq

structure TmuxPaneFlowState where
  status : TmuxFlowStatus
  isPaused : Bool
  pauseRequested : Bool
  resumeRequested : Bool
  resyncRequested : Bool
  resyncInFlight : Bool
  finalResyncRequested : Bool
  resyncAfterMs : Option Nat
  recaptureHardDeadlineMs : Option Nat
  consecutiveResyncFailures : Nat
deriving DecidableEq

namespace TmuxPaneFlowState

variable (flow : TmuxPaneFlowState)

def retryDelayMs (consecutiveFailures : Nat) : Nat :=
  min (tmuxFlowRetryBaseMs * 2 ^ min (consecutiveFailures - 1) 5) tmuxFlowRetryMaxMs

def retryLater (nowMs : Nat) : TmuxPaneFlowState :=
  let failures := saturatingAdd 32 flow.consecutiveResyncFailures 1
  { flow with
    consecutiveResyncFailures := failures
    resyncAfterMs := some (after nowMs (retryDelayMs failures)) }

end TmuxPaneFlowState

/-! ## Captures -/

structure PaneCaptureMetadata where
  paneId : PaneId
  left : UInt32
  top : UInt32
  width : UInt32
  height : UInt32
  dead : Bool
  cursorX : UInt32
  cursorY : UInt32
  cursorVisible : Bool
  cursorShape : String
  alternateOn : Bool
  paneInMode : UInt32
  historySize : UInt32
deriving DecidableEq

structure PendingTmuxPaneCapture where
  metadata : PaneCaptureMetadata
  output : Option (List Bytes)
  pendingEscape : Bytes
  lineFlags : Bool
  parserContinuationAvailable : Bool
  failed : Bool
deriving DecidableEq

/-! ## Connections -/

structure TmuxConnectionState where
  id : UInt64
  topology : TmuxTopology
  initialCommandSeen : Bool
  inventoryRepliesRemaining : Nat
  pendingInventory : List Bytes
  inventoryFailed : Bool
  expectedReplies : List ExpectedTmuxReply
  hasInventory : Bool
  inventoryRetryCount : Nat
  paneFlow : ExtTreeMap PaneId TmuxPaneFlowState
  pendingPaneCaptures : ExtTreeMap PaneId PendingTmuxPaneCapture
  captureLineFlagsSupported : Option Bool

namespace TmuxConnectionState

variable (connection : TmuxConnectionState)

/-- The two totals that the connection keeps are those of `pending_inventory`. -/
def appendInventory (output : List Bytes) : TmuxConnectionState :=
  if connection.inventoryFailed then connection
  else
    let lines := connection.pendingInventory ++ output
    if tmuxInventoryLimitBytes < (lines.map List.length).sum ∨ tmuxInventoryLimitLines < lines.length then
      { connection with inventoryFailed := true, pendingInventory := [] }
    else { connection with pendingInventory := lines }

def recordInventoryError : TmuxConnectionState :=
  { connection with inventoryFailed := true, pendingInventory := [] }

def resetInventoryAttempt : TmuxConnectionState :=
  { connection with pendingInventory := [], inventoryFailed := false }

def withFlow (paneId : PaneId) (f : TmuxPaneFlowState → TmuxPaneFlowState) : TmuxConnectionState :=
  { connection with paneFlow := connection.paneFlow.modify paneId f }

def expect (replies : List ExpectedTmuxReply) : TmuxConnectionState :=
  { connection with expectedReplies := connection.expectedReplies ++ replies }

end TmuxConnectionState

def startedConnection (connectionId : UInt64) (inventoryReplies : Nat) : TmuxConnectionState where
  id := connectionId
  topology := .new connectionId
  initialCommandSeen := false
  inventoryRepliesRemaining := inventoryReplies
  pendingInventory := []
  inventoryFailed := false
  expectedReplies := []
  hasInventory := false
  inventoryRetryCount := 0
  paneFlow := ∅
  pendingPaneCaptures := ∅
  captureLineFlagsSupported := none

end Lector.Tmux
