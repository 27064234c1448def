import Lector.Gateway.Router
import Lector.Tmux.Queueing

/-! How the app starts, watches and ends tmux connections (`src/app/pty.rs`,
`src/app/tmux_interaction.rs`). A result of `none` is an error, with which the program ends. -/
namespace Lector.Lifecycle
open Std Lector.Topology Gateway Tmux Output

def tmuxForceAbandonGraceMs : Nat := 750
def tmuxTerminatorTimeoutMs : Nat := 1000
def maxNestedTmuxGateways : Nat := 4096

/-! ## The state -/

structure GatewayKey where
  parentConnectionId : UInt64
  paneId : UInt64
deriving DecidableEq

instance : Ord GatewayKey :=
  ⟨compareLex (compareOn GatewayKey.parentConnectionId) (compareOn GatewayKey.paneId)⟩

instance : TransOrd GatewayKey :=
  inferInstanceAs (TransCmp (compareLex (compareOn GatewayKey.parentConnectionId)
    (compareOn GatewayKey.paneId)))

instance : LawfulEqOrd GatewayKey where
  eq_of_compare {a b} h := by
    obtain ⟨hparent, hpane⟩ := compareLex_eq_eq.mp h
    have hp : a.parentConnectionId = b.parentConnectionId := LawfulEqOrd.eq_of_compare hparent
    have hi : a.paneId = b.paneId := LawfulEqOrd.eq_of_compare hpane
    obtain ⟨p, i⟩ := a
    obtain ⟨p', i'⟩ := b
    exact congrArg₂ GatewayKey.mk hp hi

/-- `events` are those of the last bytes that the loop over them has not reached yet. -/
structure NestedTmuxGatewayState where
  router : TmuxGatewayRouter
  activeLocalConnectionId : Option UInt64
  activeGlobalConnectionId : Option UInt64
  terminationDeadlineMs : Option Nat
  events : List GatewayEvent

namespace NestedTmuxGatewayState

def new : NestedTmuxGatewayState := ⟨.new, none, none, none, []⟩

variable (gateway : NestedTmuxGatewayState)

def globalConnectionId (localConnectionId : UInt64) : Option UInt64 :=
  if gateway.activeLocalConnectionId = some localConnectionId then gateway.activeGlobalConnectionId
  else none

def forget (removed : List UInt64) : NestedTmuxGatewayState :=
  if gateway.activeGlobalConnectionId.any (· ∈ removed) then
    { gateway with activeLocalConnectionId := none, activeGlobalConnectionId := none }
  else gateway

end NestedTmuxGatewayState

structure PendingGatewayConfirmation where
  connectionId : UInt64
  action : GatewayControlAction
deriving DecidableEq

structure PendingDirectGatewayInput where
  connectionId : UInt64
  bytes : Bytes
deriving DecidableEq

structure PendingGracefulTeardown where
  remaining : List UInt64
  awaiting : Option UInt64
deriving DecidableEq

structure PendingForceAbandon where
  connectionId : UInt64
  deadlineMs : Nat
deriving DecidableEq

inductive LogEvent
  | requestedDetach (connectionId : UInt64)
  | completedTeardown
deriving DecidableEq

/-- `gatewayEvents` are the events of the root transport that the loop has not reached yet. -/
structure App where
  tmux : TmuxApp
  tmuxGateway : TmuxGatewayRouter
  gatewayEvents : List GatewayEvent
  tmuxTerminationDeadlineMs : Option Nat
  nestedTmuxGateways : ExtTreeMap GatewayKey NestedTmuxGatewayState
  pendingDirectGatewayInput : List PendingDirectGatewayInput
  pendingGatewayConfirmation : Option PendingGatewayConfirmation
  pendingGracefulTeardown : Option PendingGracefulTeardown
  pendingForceAbandon : Option PendingForceAbandon
  log : List LogEvent

namespace App

def new : App where
  tmux := ⟨[], .new, []⟩
  tmuxGateway := .new
  gatewayEvents := []
  tmuxTerminationDeadlineMs := none
  nestedTmuxGateways := ∅
  pendingDirectGatewayInput := []
  pendingGatewayConfirmation := none
  pendingGracefulTeardown := none
  pendingForceAbandon := none
  log := []

variable (app : App)

abbrev hierarchy : ConnectionHierarchy := app.tmux.hierarchy

def withHierarchy (hierarchy : ConnectionHierarchy) : App :=
  { app with tmux := { app.tmux with hierarchy := hierarchy } }

/-! ## Graceful teardown -/

variable (connectionId : UInt64)

/-- `none` is a way that is blocked: nothing is sent. -/
def queueAccessibleTmuxDetach : Option App := do
  let tmux ← app.tmux.queueTmuxGatewayPathResumes connectionId
  let tmux ← tmux.queueTmuxUserCommand connectionId "detach-client"
  some { app with tmux := tmux }

def nextRemaining (remaining : List UInt64) : Option (UInt64 × List UInt64) :=
  match remaining with
  | [] => none
  | connectionId :: rest =>
    if app.hierarchy.contains connectionId then some (connectionId, rest) else nextRemaining rest

def advanceGracefulTmuxTeardown : App :=
  match app.pendingGracefulTeardown with
  | none => app
  | some pending =>
    if pending.awaiting.any app.hierarchy.contains then app
    else
      match app.nextRemaining pending.remaining with
      | none => { app with pendingGracefulTeardown := none, log := app.log ++ [.completedTeardown] }
      | some (next, rest) =>
        match app.queueAccessibleTmuxDetach next with
        | some app =>
          { app with
            pendingGracefulTeardown := some ⟨rest, some next⟩
            log := app.log ++ [.requestedDetach next] }
        | none => { app with pendingGracefulTeardown := none }

def beginGracefulTmuxTeardown : Option App := do
  let remaining ← app.hierarchy.teardownOrder connectionId
  some (advanceGracefulTmuxTeardown
    { app with
      pendingForceAbandon := none
      pendingGracefulTeardown := some ⟨remaining, none⟩ })

/-! ## Control of a transport -/

def queueGatewayTransportInput (action : GatewayControlAction) : Option App := do
  let bytes ← action.transportBytes
  match app.hierarchy.origin connectionId with
  | some .direct =>
    some { app with
      pendingDirectGatewayInput := app.pendingDirectGatewayInput ++ [⟨connectionId, bytes⟩] }
  | some (.pane parentConnectionId _ _ paneId) =>
    some { app with tmux := app.tmux.queueTmuxInput parentConnectionId ⟨paneId⟩ bytes }
  | none => some app

/-- Whom a request to abandon addresses: the connection that a teardown waits for, if it lies below. -/
def abandonTarget : Option UInt64 := do
  let order ← app.hierarchy.teardownOrder connectionId
  match app.pendingGracefulTeardown.bind (·.awaiting) with
  | some awaiting => some (if awaiting ∈ order then awaiting else connectionId)
  | none => some connectionId

def requestTmuxGatewayActionFor (action : GatewayControlAction) : Option App :=
  if (app.tmux.connection connectionId).isNone then some app
  else
    match action with
    | .gracefulDetach => app.beginGracefulTmuxTeardown connectionId
    | .forceAbandon => do
      let connectionId ← app.abandonTarget connectionId
      some { app with pendingGatewayConfirmation := some ⟨connectionId, .forceAbandon⟩ }

variable (nowMs : Nat)

def acceptGatewayConfirmation (confirmation : PendingGatewayConfirmation) : Option App :=
  if app.hierarchy.contains confirmation.connectionId then do
    let app ← { app with pendingGracefulTeardown := none }.queueGatewayTransportInput
      confirmation.connectionId confirmation.action
    some { app with
      pendingForceAbandon := some ⟨confirmation.connectionId, after nowMs tmuxForceAbandonGraceMs⟩ }
  else some app

/-- `PopupResponse` in `handle_view_action`. -/
def answerGatewayConfirmation (confirmed : Bool) : Option App :=
  match app.pendingGatewayConfirmation with
  | none => some app
  | some confirmation =>
    let app := { app with pendingGatewayConfirmation := none }
    if confirmed then app.acceptGatewayConfirmation nowMs confirmation else some app

/-! ## Starting -/

variable (geometry : TerminalGeometry)

def startCommands (tmux : TmuxApp) : TmuxApp :=
  let tmux := tmux.pushAll
    [⟨connectionId, utf8 flowControlCommand, [.flowControlPolicy], .ordinary⟩,
      ⟨connectionId, utf8 flowControlVerifyCommand, [.flowControlVerification], .ordinary⟩]
  (tmux.queueTmuxResize connectionId geometry).queueTmuxInventory connectionId

/-- `portal` says whether the view of the parent takes the new connection into its pane. -/
def startTmuxConnection (origin : GatewayOrigin) (geometry : TerminalGeometry)
    (portal : Bool) : Option App :=
  match app.hierarchy.insert connectionId origin with
  | .error _ => none
  | .ok hierarchy =>
    if origin ≠ .direct ∧ !portal then none
    else
      some { app with
        pendingGatewayConfirmation := none
        tmux := startCommands connectionId geometry
          { app.tmux with
            hierarchy := hierarchy
            connections := app.tmux.connections ++ [startedConnection connectionId inventoryReplyCount] } }

/-! ## Ending -/

variable (removed : List UInt64)

def forget : App :=
  { app with
    tmux := { app.tmux with
      connections := app.tmux.connections.filter (·.id ∉ removed)
      pendingTmuxCommands := app.tmux.pendingTmuxCommands.filter (·.connectionId ∉ removed) }
    pendingDirectGatewayInput := app.pendingDirectGatewayInput.filter (·.connectionId ∉ removed)
    pendingGatewayConfirmation := app.pendingGatewayConfirmation.filter (·.connectionId ∉ removed) }

def cleanupNestedGatewayState : App :=
  { app with
    nestedTmuxGateways :=
      (app.nestedTmuxGateways.map fun _ gateway => gateway.forget removed).filter
        fun key _ => key.parentConnectionId ∉ removed }

def afterRemoval (hierarchy : ConnectionHierarchy) : App :=
  ((app.withHierarchy hierarchy).forget removed).cleanupNestedGatewayState removed

def endTmuxConnection : Option App := do
  let (removed, hierarchy) ← app.hierarchy.removeConnection connectionId
  let removed := if removed.isEmpty then [connectionId] else removed
  let app := { app with
    pendingForceAbandon := app.pendingForceAbandon.filter (·.connectionId ∉ removed) }
  some (app.afterRemoval removed hierarchy).advanceGracefulTmuxTeardown

def failTmuxConnection : Option App :=
  if app.hierarchy.contains connectionId then app.endTmuxConnection connectionId else some app

def beginTmuxProtocolRecovery (connectionId : UInt64) : Option App :=
  if app.hierarchy.contains connectionId then do
    let affected ← app.hierarchy.teardownOrder connectionId
    let app := { app with
      tmux := { app.tmux with
        pendingTmuxCommands := app.tmux.pendingTmuxCommands.filter (·.connectionId ∉ affected) }
      pendingDirectGatewayInput := app.pendingDirectGatewayInput.filter (·.connectionId ∉ affected) }
    let app ← app.queueGatewayTransportInput connectionId .forceAbandon
    some { app with
      pendingForceAbandon := some ⟨connectionId, after nowMs tmuxForceAbandonGraceMs⟩ }
  else some app

def removeGateways (parentConnectionId : UInt64) (paneIds windowIds : List UInt64) :
    Option (List UInt64 × ConnectionHierarchy) := do
  let (removed, hierarchy) ← windowIds.foldlM
    (fun (removed, hierarchy) windowId => do
      let (more, hierarchy) ← hierarchy.removeGatewayWindow parentConnectionId windowId
      some (removed ++ more, hierarchy))
    (([] : List UInt64), app.hierarchy)
  paneIds.foldlM
    (fun (removed, hierarchy) paneId => do
      let (more, hierarchy) ← hierarchy.removeGatewayPane parentConnectionId paneId
      some (removed ++ more, hierarchy))
    (removed, hierarchy)

def resolveDestroyedTmuxGateways (parentConnectionId : UInt64) (paneIds windowIds : List UInt64) :
    Option App := do
  let app := { app with
    nestedTmuxGateways := paneIds.foldl
      (fun gateways paneId => gateways.erase ⟨parentConnectionId, paneId⟩) app.nestedTmuxGateways }
  let (removed, hierarchy) ← app.removeGateways parentConnectionId paneIds windowIds
  if removed.isEmpty then some app else some (app.afterRemoval removed hierarchy)

/-! ## Events of a transport -/

def isProtocolFailure : GatewayFailure → Bool
  | .protocol _ => true
  | _ => false

def handleTmuxGatewayEvent (event : GatewayEvent) : Option App :=
  match event with
  | .directOutput _ | .control _ _ => some app
  | .connectionStarted connectionId => app.startTmuxConnection connectionId .direct geometry true
  | .connectionEnded connectionId => app.endTmuxConnection connectionId
  | .connectionFailed connectionId reason =>
    if isProtocolFailure reason ∧ app.tmuxGateway.lifecycleState = .recovering then
      app.beginTmuxProtocolRecovery nowMs connectionId
    else app.failTmuxConnection connectionId

variable (key : GatewayKey)

def modifyGateway (f : NestedTmuxGatewayState → NestedTmuxGatewayState) : App :=
  { app with nestedTmuxGateways := app.nestedTmuxGateways.modify key f }

def gatewayPlace : Option (SessionId × WindowId) := do
  let connection ← app.tmux.connection key.parentConnectionId
  let topology := connection.topology
  let pane ← topology.panes[(⟨key.paneId⟩ : PaneId)]?
  let window ← topology.windows[pane.windowId]?
  let attached := topology.attachedSession.filter fun sessionId =>
    (topology.sessions[sessionId]?).any fun session =>
      session.windows.toList.any fun entry => entry.2 = pane.windowId
  let sessionId ← attached.or (window.links.toList.head?.map (·.sessionId))
  some (sessionId, pane.windowId)

def isFree : Bool := (app.tmux.connection connectionId).isNone

def nextAvailableFrom : (rounds : Nat) → (candidate : UInt64) → Option UInt64
  | 0, _ => none
  | rounds + 1, candidate =>
    if app.isFree candidate then some candidate
    else (checkedSucc candidate).bind (nextAvailableFrom rounds)

def nextAvailableTmuxConnectionId : Option UInt64 := app.nextAvailableFrom (app.tmux.connections.length + 1) 1

def handleNestedGatewayEvent (portal : Bool)
    (key : GatewayKey) (gateway : NestedTmuxGatewayState) (event : GatewayEvent) : Option App :=
  match event with
  | .directOutput _ => some app
  | .control localConnectionId _ =>
    if (gateway.globalConnectionId localConnectionId).isNone then none else some app
  | .connectionStarted localConnectionId => do
    let connectionId ← app.nextAvailableTmuxConnectionId
    let app := app.modifyGateway key ({ · with
      activeLocalConnectionId := some localConnectionId
      activeGlobalConnectionId := some connectionId })
    let (sessionId, windowId) ← app.gatewayPlace key
    app.startTmuxConnection connectionId
      (.pane key.parentConnectionId sessionId.value windowId.value key.paneId) geometry portal
  | .connectionEnded localConnectionId => do
    let connectionId ← gateway.globalConnectionId localConnectionId
    let app ← app.endTmuxConnection connectionId
    some (app.modifyGateway key ({ · with
      activeLocalConnectionId := none
      activeGlobalConnectionId := none }))
  | .connectionFailed localConnectionId reason => do
    let recovering := gateway.router.lifecycleState = .recovering
    let app ←
      match gateway.globalConnectionId localConnectionId with
      | none => some app
      | some connectionId =>
        if isProtocolFailure reason ∧ recovering then
          app.beginTmuxProtocolRecovery nowMs connectionId
        else app.failTmuxConnection connectionId
    if recovering then some app
    else
      some (app.modifyGateway key ({ · with
        activeLocalConnectionId := none
        activeGlobalConnectionId := none
        terminationDeadlineMs := none }))

/-! ## Bytes -/

def terminationDeadline (router : TmuxGatewayRouter) (deadline : Option Nat) : Option Nat :=
  if router.lifecycleState = .awaitingTerminator then
    some (deadline.getD (after nowMs tmuxTerminatorTimeoutMs))
  else none

def receive (bytes : Bytes) : Option App :=
  match app.tmuxGateway.push bytes with
  | (_, .error _) => none
  | (router, .ok events) =>
    some { app with
      tmuxGateway := router
      gatewayEvents := events
      tmuxTerminationDeadlineMs := terminationDeadline nowMs router app.tmuxTerminationDeadlineMs }

def receiveNested (bytes : Bytes) : Option App :=
  if !app.nestedTmuxGateways.contains key ∧ app.nestedTmuxGateways.size = maxNestedTmuxGateways then none
  else
    let gateway := app.nestedTmuxGateways[key]?.getD .new
    match gateway.router.push bytes with
    | (_, .error _) => none
    | (router, .ok events) =>
      some { app with
        nestedTmuxGateways := app.nestedTmuxGateways.insert key { gateway with
          router := router
          events := events
          terminationDeadlineMs := terminationDeadline nowMs router gateway.terminationDeadlineMs } }

def receiveEof : App :=
  let (router, events) := app.tmuxGateway.finishTransport
  { app with tmuxGateway := router, gatewayEvents := events, tmuxTerminationDeadlineMs := none }

/-! ## Ticks -/

def expireRootTerminator : App :=
  if app.tmuxTerminationDeadlineMs.any (· ≤ nowMs) then
    let (router, events) := app.tmuxGateway.expireTermination
    { app with tmuxGateway := router, gatewayEvents := events, tmuxTerminationDeadlineMs := none }
  else app

def isFailure : GatewayEvent → Bool
  | .connectionFailed _ _ => true
  | _ => false

def expireNestedTerminator : Option App :=
  match app.nestedTmuxGateways[key]? with
  | none => some app
  | some gateway =>
    if gateway.terminationDeadlineMs.any (· ≤ nowMs) then do
      let (router, events) := gateway.router.expireTermination
      let app := app.modifyGateway key ({ · with router := router, terminationDeadlineMs := none })
      let app ← (events.filter isFailure).foldlM
        (fun app _ => gateway.activeGlobalConnectionId.elim (some app) app.failTmuxConnection) app
      some (app.modifyGateway key ({ · with
        activeLocalConnectionId := none
        activeGlobalConnectionId := none }))
    else some app

def expireTmuxForceAbandon : Option App :=
  match app.pendingForceAbandon with
  | none => some app
  | some pending =>
    if nowMs < pending.deadlineMs then some app
    else
      let app := { app with pendingForceAbandon := none }
      match app.hierarchy.origin pending.connectionId with
      | none => some app
      | some .direct =>
        { app with
          tmuxGateway := .new
          tmuxTerminationDeadlineMs := none }.endTmuxConnection pending.connectionId
      | some (.pane parentConnectionId _ _ paneId) =>
        { app with
          nestedTmuxGateways := app.nestedTmuxGateways.insert ⟨parentConnectionId, paneId⟩ .new
          }.endTmuxConnection pending.connectionId

/-! ## Runs -/

def idle : Bool :=
  app.gatewayEvents.isEmpty && app.nestedTmuxGateways.toList.all fun entry => entry.2.events.isEmpty

def isQuiet : Bool :=
  (app.nestedTmuxGateways[key]?).all fun gateway => gateway.events.isEmpty

end App

/-- Input and ticks find the loops over events done. What control records do besides may come at any
time. -/
inductive Step
  | receive (nowMs : Nat) (bytes : Bytes)
  | eof
  | request (connectionId : UInt64) (action : GatewayControlAction)
  | answer (nowMs : Nat) (confirmed : Bool)
  | dismiss
  | expireRootTerminator (nowMs : Nat)
  | expireNestedTerminator (nowMs : Nat) (key : GatewayKey)
  | expireForceAbandon (nowMs : Nat)
  | handle (nowMs : Nat) (geometry : TerminalGeometry)
  | handleNested (nowMs : Nat) (geometry : TerminalGeometry) (portal : Bool) (key : GatewayKey)
  | receiveNested (nowMs : Nat) (key : GatewayKey) (bytes : Bytes)
  | topology (connectionId : UInt64) (topology : TmuxTopology)
  | destroyed (parentConnectionId : UInt64) (paneIds windowIds : List UInt64)
  | pending (commands : List PendingTmuxCommand) (input : List PendingDirectGatewayInput)

namespace App

variable (app : App)

def handleNext (nowMs : Nat) (geometry : TerminalGeometry) : Option App :=
  match app.gatewayEvents with
  | [] => none
  | event :: rest => { app with gatewayEvents := rest }.handleTmuxGatewayEvent nowMs geometry event

def handleNextNested (nowMs : Nat) (geometry : TerminalGeometry) (portal : Bool) (key : GatewayKey) :
    Option App := do
  let gateway ← app.nestedTmuxGateways[key]?
  match gateway.events with
  | [] => none
  | event :: rest =>
    (app.modifyGateway key ({ · with events := rest })).handleNestedGatewayEvent nowMs geometry portal
      key gateway event

def whenIdle (result : Option App) : Option App := if app.idle then result else none

def step : Step → Option App
  | .receive nowMs bytes => app.whenIdle (app.receive nowMs bytes)
  | .eof => app.whenIdle (some app.receiveEof)
  | .request connectionId action => app.whenIdle (app.requestTmuxGatewayActionFor connectionId action)
  | .answer nowMs confirmed => app.whenIdle (app.answerGatewayConfirmation nowMs confirmed)
  | .dismiss => app.whenIdle (some { app with pendingGatewayConfirmation := none })
  | .expireRootTerminator nowMs => app.whenIdle (some (app.expireRootTerminator nowMs))
  | .expireNestedTerminator nowMs key => app.whenIdle (app.expireNestedTerminator nowMs key)
  | .expireForceAbandon nowMs => app.whenIdle (app.expireTmuxForceAbandon nowMs)
  | .handle nowMs geometry => app.handleNext nowMs geometry
  | .handleNested nowMs geometry portal key => app.handleNextNested nowMs geometry portal key
  | .receiveNested nowMs key bytes =>
    if app.isQuiet key then app.receiveNested nowMs key bytes else none
  | .topology connectionId topology =>
    some { app with
      tmux := app.tmux.withConnection connectionId ({ · with topology := topology }) }
  | .destroyed parentConnectionId paneIds windowIds =>
    app.resolveDestroyedTmuxGateways parentConnectionId paneIds windowIds
  | .pending commands input =>
    some { app with
      tmux := { app.tmux with pendingTmuxCommands := commands }
      pendingDirectGatewayInput := input }

end App

end Lector.Lifecycle
