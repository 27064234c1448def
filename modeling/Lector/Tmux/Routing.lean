import Lector.Lifecycle.Hierarchy
import Lector.Tmux.Connection

/-! Writing commands: a command for a nested connection is sent as keys to the pane that carries it, level
by level down to the root transport (`src/app/pty.rs`). -/
namespace Lector.Tmux
open Std SortedMap Lector.Topology Lifecycle

structure TmuxApp where
  connections : List TmuxConnectionState
  hierarchy : ConnectionHierarchy
  pendingTmuxCommands : List PendingTmuxCommand

abbrev Encoded := Bytes × List ExpectedTmuxReply

inductive RoutingError
  | input (error : TmuxInputError)
  | tooDeep
deriving DecidableEq

/-! ## Routing -/

def repliesOf (encoded : List Encoded) : List ExpectedTmuxReply := encoded.flatMap (·.2)

def ignoredReplies (commands : List Bytes) : List Encoded := commands.map fun bytes => (bytes, [.ignored])

def encodeKeys (paneId : PaneId) (input : Bytes) : Except RoutingError (List Encoded) :=
  match encodeSendKeys paneId input with
  | .ok commands => .ok (ignoredReplies commands)
  | .error error => .error (.input error)

def encodeCommand (command : PendingTmuxCommand) : Except RoutingError (List Encoded) :=
  match command.kind with
  | .input paneId => encodeKeys paneId command.bytes
  | .ordinary | .resize => .ok [(command.bytes, command.expectedReplies)]

def carry (paneId : PaneId) (encoded : List Encoded) : Except RoutingError (List Encoded) := do
  let commands ← encoded.mapM fun command => encodeKeys paneId command.1
  return commands.flatten

def routeIsBounded (commands : List Encoded) : Bool :=
  commands.length ≤ tmuxRoutedCommandLimitCount &&
    (commands.map (·.1.length)).sum ≤ tmuxRoutedCommandLimitBytes

namespace TmuxApp

variable (app : TmuxApp) (connectionId : UInt64)

def connection : Option TmuxConnectionState :=
  app.connections.find? fun connection => connection.id = connectionId

def withConnection (f : TmuxConnectionState → TmuxConnectionState) : TmuxApp :=
  { app with
    connections := app.connections.map fun connection =>
      if connection.id = connectionId then f connection else connection }

abbrev ReplyAddition := UInt64 × List ExpectedTmuxReply

variable (additions : List ReplyAddition)

def addedReplies (connectionId : UInt64) : Nat :=
  ((additions.filter (·.1 = connectionId)).map (·.2.length)).sum

def replyBacklogExceeded : Bool :=
  additions.any fun addition =>
    (app.connection addition.1).any fun connection =>
      tmuxExpectedReplyLimit < connection.expectedReplies.length + addedReplies additions addition.1

def expectReplies : TmuxApp :=
  additions.foldl (fun app addition => app.withConnection addition.1 (·.expect addition.2)) app

/-- The loop of `route_tmux_command`, with the number of its rounds. -/
def routeFrom : (rounds : Nat) → (connectionId : UInt64) → List Encoded → List ReplyAddition →
    Except RoutingError (Option (UInt64 × List Bytes × TmuxApp))
  | 0, _, _, _ => .error .tooDeep
  | rounds + 1, connectionId, encoded, additions =>
    if (app.connection connectionId).isNone then .ok none
    else
      let additions := additions ++ [(connectionId, repliesOf encoded)]
      match app.hierarchy.origin connectionId with
      | some .direct =>
        if app.replyBacklogExceeded additions then .ok none
        else .ok (some (connectionId, encoded.map (·.1), app.expectReplies additions))
      | some (.pane parentConnectionId _ _ paneId) => do
        let encoded ← carry ⟨paneId⟩ encoded
        if routeIsBounded encoded then routeFrom rounds parentConnectionId encoded additions
        else .ok none
      | none => .ok none

/-- The root transport, its commands and the app, or `none` where the command is discarded. -/
def routeTmuxCommand (command : PendingTmuxCommand) :
    Except RoutingError (Option (UInt64 × List Bytes × TmuxApp)) := do
  if (app.connection command.connectionId).isNone then return none
  let encoded ← encodeCommand command
  if routeIsBounded encoded then app.routeFrom 65 command.connectionId encoded [] else return none

/-! ## Draining -/

def directTransportFrom : (rounds : Nat) → (connectionId : UInt64) → Option UInt64
  | 0, _ => none
  | rounds + 1, connectionId =>
    match app.hierarchy.origin connectionId with
    | some .direct => some connectionId
    | some (.pane parentConnectionId _ _ _) => directTransportFrom rounds parentConnectionId
    | none => none

def directTransportFor : Option UInt64 := app.directTransportFrom 65 connectionId

def resyncPane : ExpectedTmuxReply → Option PaneId
  | .paneResyncProbe paneId | .paneResyncCapture paneId | .paneResyncPendingEscape paneId
  | .paneResyncVerify paneId => some paneId
  | _ => none

def markTmuxFlowCommandsInFlight (replies : List ExpectedTmuxReply) : TmuxApp :=
  app.withConnection connectionId fun connection =>
    (replies.filterMap resyncPane).foldl
      (fun connection paneId => connection.withFlow paneId ({ · with resyncInFlight := true }))
      connection

/-- What the replies of a discarded command ask to undo for a pane. -/
structure Undo where
  pause : Bool
  resume : Bool
  resync : Bool

def undoOf : ExpectedTmuxReply → Option (PaneId × Undo)
  | .panePause paneId => some (paneId, ⟨true, false, false⟩)
  | .paneContinue paneId => some (paneId, ⟨false, true, false⟩)
  | .paneResyncContinue paneId => some (paneId, ⟨false, true, true⟩)
  | .paneResyncProbe paneId | .paneResyncCapture paneId | .paneResyncPendingEscape paneId
  | .paneResyncVerify paneId => some (paneId, ⟨false, false, true⟩)
  | _ => none

def Undo.or (a b : Undo) : Undo := ⟨a.pause || b.pause, a.resume || b.resume, a.resync || b.resync⟩

def undoActions (replies : List ExpectedTmuxReply) : ExtTreeMap PaneId Undo :=
  (replies.filterMap undoOf).foldl
    (fun actions action => upsert actions action.1 ⟨false, false, false⟩ (·.or action.2)) ∅

def undoFlow (nowMs : Nat) (undo : Undo) (flow : TmuxPaneFlowState) : TmuxPaneFlowState :=
  let flow := if undo.pause then { flow with isPaused := false, pauseRequested := false } else flow
  let flow := if undo.resume then { flow with resumeRequested := false } else flow
  let flow :=
    if undo.resync then
      { flow with resyncRequested := false, resyncInFlight := false, finalResyncRequested := false }
    else flow
  if flow.status = .running then flow
  else { flow.retryLater nowMs with recaptureHardDeadlineMs := none }

def undoPane (nowMs : Nat) (connection : TmuxConnectionState) (action : PaneId × Undo) :
    TmuxConnectionState :=
  let connection :=
    if action.2.resync then
      { connection with pendingPaneCaptures := connection.pendingPaneCaptures.erase action.1 }
    else connection
  connection.withFlow action.1 (undoFlow nowMs action.2)

def recoverDiscardedTmuxFlowCommand (nowMs : Nat) (connectionId : UInt64)
    (replies : List ExpectedTmuxReply) : TmuxApp :=
  app.withConnection connectionId fun connection =>
    (undoActions replies).toList.foldl (undoPane nowMs) connection

/-- What became of one pending command: it was left for another transport, discarded, or written. -/
inductive Outcome
  | rotated
  | discarded
  | written (encoded : List Bytes)
deriving DecidableEq

def drainCommand (nowMs : Nat) (connectionId : UInt64) (command : PendingTmuxCommand) :
    Except RoutingError (Outcome × TmuxApp) :=
  if app.directTransportFor command.connectionId ≠ some connectionId then
    .ok (.rotated, { app with pendingTmuxCommands := app.pendingTmuxCommands ++ [command] })
  else do
    match ← app.routeTmuxCommand command with
    | none =>
      .ok (.discarded, app.recoverDiscardedTmuxFlowCommand nowMs command.connectionId command.expectedReplies)
    | some (_, encoded, app) =>
      .ok (.written encoded, app.markTmuxFlowCommandsInFlight command.connectionId command.expectedReplies)

/-- The rounds of `drain_tmux_commands_for`, as many as there were commands, with the outcome of each. -/
def drainRounds (nowMs : Nat) (connectionId : UInt64) : (queued : Nat) → TmuxApp →
    Except RoutingError (List (PendingTmuxCommand × Outcome) × TmuxApp)
  | 0, app => .ok ([], app)
  | queued + 1, app =>
    match app.pendingTmuxCommands with
    | [] => .ok ([], app)
    | command :: rest => do
      let (outcome, app) ←
        { app with pendingTmuxCommands := rest }.drainCommand nowMs connectionId command
      let (outcomes, app) ← drainRounds nowMs connectionId queued app
      return ((command, outcome) :: outcomes, app)

def drainTmuxCommandsFor (nowMs : Nat) (connectionId : UInt64) :
    Except RoutingError (List (PendingTmuxCommand × Outcome) × TmuxApp) :=
  drainRounds nowMs connectionId app.pendingTmuxCommands.length app

end TmuxApp

def Outcome.bytes : TmuxApp.Outcome → Bytes
  | .written encoded => encoded.flatten
  | _ => []

def writtenBytes (outcomes : List (PendingTmuxCommand × TmuxApp.Outcome)) : Bytes :=
  outcomes.flatMap fun outcome => Outcome.bytes outcome.2

end Lector.Tmux
