import Lector.Lifecycle.Census
import Lector.Lifecycle.Orphans
import Mathlib.Data.List.Perm.Subperm

/-! The gateways of panes go with their panes, unless output comes from a pane that no inventory and no
notification has told of. -/
namespace Lector.Lifecycle
open List hiding contains_iff
open Std SortedMap Lector.Topology Gateway Control Tmux TmuxConnectionState ExtTreeMap PartialRun
open Option hiding mem_map
open TmuxTopology (requireResync resyncIf kinds)

/-! ## Records -/

def lostPanes (previous next : TmuxTopology) : List UInt64 :=
  (previous.panes.keys.filter fun paneId => !next.panes.contains paneId).map (·.value)

def lostWindows (previous next : TmuxTopology) : List UInt64 :=
  (previous.windows.keys.filter fun windowId => !next.windows.contains windowId).map (·.value)

def completedInventory (connection : TmuxConnectionState) (status : CommandStatus)
    (output : List Bytes) : Option TmuxTopology :=
  if connection.initialCommandSeen then
    match connection.expectedReplies with
    | .inventory :: _ =>
      if connection.inventoryRepliesRemaining - 1 = 0 then
        (connection.collectInventory status output).inventoryResult
      else none
    | _ => none
  else none

/-- Whether the panes and windows that a notification takes away are followed up. -/
def reportsLosses (connection : TmuxConnectionState) (name arguments : Bytes) : Bool :=
  match connection.topology.applyNotification name arguments with
  | (_, .ok .applied) => true
  | _ => false

namespace Client

variable (client : Client)

/-- `process_tmux_control`, with the gateways of the panes and windows that are gone. -/
def processTmuxRecord (connectionId : UInt64) (handle : TmuxConnectionState → Option Handled)
    (reports : TmuxConnectionState → Bool) : Option Client :=
  match client.app.tmux.connection connectionId with
  | none => some client
  | some connection => do
    let handled ← handle connection
    let client ← client.settle connectionId handled
    let reported := reports connection
    let next := handled.connection.topology
    let app ← client.app.resolveDestroyedTmuxGateways connectionId
      (if reported then lostPanes connection.topology next else [])
      (if reported then lostWindows connection.topology next else [])
    some (client.follow app)

/-- Output of a pane is a record of its connection. -/
def recordStep : ClientStep → Option Client
  | .command connectionId status output =>
    client.processTmuxRecord connectionId (fun connection => some (connection.handleCommand status output))
      fun connection => (completedInventory connection status output).isSome
  | .notification connectionId name arguments =>
    client.processTmuxRecord connectionId (·.handleNotification name arguments)
      (reportsLosses · name arguments)
  | .lifecycle (.topology _ _) | .lifecycle (.destroyed _ _ _) => none
  | .lifecycle (.receiveNested nowMs key bytes) =>
    if (client.app.tmux.connection key.parentConnectionId).isSome then
      client.step (.lifecycle (.receiveNested nowMs key bytes))
    else some client
  | event => client.step event

/-- Every gateway is of a living connection and of a pane that it has or has not been told of yet.
-/
def GatewaysBacked : Prop :=
  ∀ key, client.app.nestedTmuxGateways.contains key →
    ∃ connection, client.app.tmux.connection key.parentConnectionId = some connection ∧
      (connection.topology.panes.contains ⟨key.paneId⟩ ∨ connection.hasInventory = false)

/-- Output of a pane comes when its connection knows it or waits for the first inventory, which
tells of it. -/
def Anticipates : ClientStep → Prop
  | .lifecycle (.receiveNested _ key _) =>
    ∀ connection, client.app.tmux.connection key.parentConnectionId = some connection →
      client.app.nestedTmuxGateways.contains key ∨
        connection.topology.panes.contains ⟨key.paneId⟩ ∨ connection.hasInventory = false
  | .command connectionId status output =>
    ∀ connection inventory, client.app.tmux.connection connectionId = some connection →
      connection.hasInventory = false → completedInventory connection status output = some inventory →
      ∀ paneId, client.app.nestedTmuxGateways.contains ⟨connectionId, paneId⟩ →
        connection.topology.panes.contains ⟨paneId⟩ ∨ inventory.panes.contains ⟨paneId⟩
  | _ => True

end Client

/-! ## What records keep -/

section Records

variable {connection : TmuxConnectionState} {status : CommandStatus} {output : List Bytes}

theorem knownBy_clear (topology : TmuxTopology) (panes : List PaneId) (paneId : PaneId) :
    (panes.foldl clearNativeCopyMode topology).panes.contains paneId = topology.panes.contains paneId := by
  induction panes generalizing topology with
  | nil => rfl
  | cons pane rest ih =>
    rw [foldl_cons, ih]
    exact contains_modify

section

variable (connection : TmuxConnectionState)

theorem knownBy_collect (status : CommandStatus)
    (output : List Bytes) : knownBy (connection.collectInventory status output) = knownBy connection := by
  cases status with
  | error => rfl
  | success =>
    show knownBy (connection.appendInventory output) = _
    rw [appendInventory]
    split
    · rfl
    · dsimp only
      split
      · rfl
      · rfl

theorem knownBy_finish : knownBy connection.finishInventory.connection =
      connection.inventoryResult.elim (knownBy connection) fun inventory =>
        ((inventory.panes.contains ·), true) := by
  rw [finishInventory]
  cases connection.inventoryResult with
  | none =>
    dsimp only
    split
    · rfl
    · rfl
  | some inventory =>
    refine Prod.ext ?_ rfl
    funext paneId
    exact knownBy_clear inventory _ paneId

theorem inventoryResult_collect (status : CommandStatus)
    (output : List Bytes) (replies : List ExpectedTmuxReply) (remaining : Nat) : ({ connection with
        expectedReplies := replies
        inventoryRepliesRemaining := remaining }.collectInventory status output).inventoryResult =
      (connection.collectInventory status output).inventoryResult := by
  cases status with
  | error => rfl
  | success =>
    show inventoryResult (appendInventory _ output) = inventoryResult (connection.appendInventory output)
    rw [appendInventory, appendInventory]
    split
    · rfl
    · dsimp only
      split
      · rfl
      · rfl

theorem knownBy_handleInventory (rest : List ExpectedTmuxReply)
    (status : CommandStatus) (output : List Bytes) :
    knownBy ({ connection with expectedReplies := rest }.handleInventory status output).connection =
      (if connection.inventoryRepliesRemaining - 1 = 0 then
        (connection.collectInventory status output).inventoryResult
      else none).elim (knownBy connection) fun inventory => ((inventory.panes.contains ·), true) := by
  obtain ⟨-, -, hremaining⟩ := collectInventory_keeps { connection with
    expectedReplies := rest
    inventoryRepliesRemaining := connection.inventoryRepliesRemaining - 1 } status output
  rw [handleInventory]
  dsimp only at hremaining ⊢
  rw [hremaining]
  split
  · rw [knownBy_finish, inventoryResult_collect, knownBy_collect]
    rfl
  · exact knownBy_collect _ status output

/-- **What an answer tells of panes**: those of the inventory that it completes. -/
theorem knownBy_handleCommand (status : CommandStatus)
    (output : List Bytes) : knownBy (connection.handleCommand status output).connection =
      (completedInventory connection status output).elim (knownBy connection) fun inventory =>
        ((inventory.panes.contains ·), true) := by
  rw [TmuxConnectionState.handleCommand, completedInventory]
  by_cases hseen : connection.initialCommandSeen
  · have hlater : ¬ (!connection.initialCommandSeen) = true := by
      rw [hseen]
      exact Bool.false_ne_true
    rw [if_neg hlater, if_pos hseen]
    cases connection.expectedReplies with
    | nil => rfl
    | cons reply rest =>
      cases reply with
      | inventory => exact knownBy_handleInventory connection rest status output
      | bootstrap paneId lineFlags =>
        show knownBy (handleBootstrap _ paneId lineFlags status output).connection = _
        rw [handleBootstrap]
        split
        · rfl
        · rfl
      | userCommand description showSuccess =>
        show knownBy (handleUserCommand _ description).connection = _
        rw [handleUserCommand]
        split
        · rfl
        · rfl
      | _ => rfl
  · rw [eq_false_of_ne_true hseen]
    rfl

end

/-- Panes are lost by updates that are applied, and by no others. -/
def Spares (t : TmuxTopology) (result : TmuxTopology × Except TopologyError ReconcileOutcome) : Prop :=
  result.2 = .ok .applied ∨ ∀ paneId, t.panes.contains paneId → result.1.panes.contains paneId

variable {t : TmuxTopology}

theorem spares_resyncIf {t' : TmuxTopology} (missing : Bool)
    (h : ∀ paneId, t.panes.contains paneId → t'.panes.contains paneId) :
    Spares t ((resyncIf missing t').1, .ok (resyncIf missing t').2) := by
  rw [resyncIf]
  split
  · exact .inr h
  · exact .inl rfl

theorem spares_closeAttachedWindow (windowId : WindowId) :
    Spares t ((t.closeAttachedWindow windowId).1, .ok (t.closeAttachedWindow windowId).2) := by
  rw [TmuxTopology.closeAttachedWindow]
  split
  · exact .inr fun _ h => h
  · dsimp only
    split
    · exact .inl rfl
    · exact .inl rfl

theorem spares_closeUnlinkedWindow (windowId : WindowId) :
    Spares t ((t.closeUnlinkedWindow windowId).1, .ok (t.closeUnlinkedWindow windowId).2) := by
  rw [TmuxTopology.closeUnlinkedWindow]
  split
  · exact .inr fun _ h => h
  · exact .inl rfl

theorem contains_upsert {m : ExtTreeMap PaneId Pane} {other : PaneId} (h : m.contains other)
    (paneId : PaneId) (fresh : Pane) (f : Pane → Pane) : (upsert m paneId fresh f).contains other := by
  obtain ⟨pane, hpane⟩ := contains_iff.mp h
  rw [contains_iff, upsert, getElem?_alter]
  split
  · exact ⟨_, rfl⟩
  · exact ⟨pane, hpane⟩

theorem spares_afterParsing {α : Type} {parsed : Except TopologyError α}
    {update : α → TmuxTopology × ReconcileOutcome} (hupdate : ∀ a, Spares t ((update a).1, .ok (update a).2)) :
    Spares t (t.afterParsing parsed update) := by
  cases parsed with
  | error e => exact .inr fun _ h => h
  | ok a => exact hupdate a

theorem spares_applyKind (t : TmuxTopology) (arguments : Bytes) (kind : TmuxTopology.Kind) :
    Spares t (t.applyKind arguments kind) := by
  cases kind with
  | sessionsChanged => exact spares_afterParsing fun _ => .inr fun _ h => h
  | sessionChanged => exact spares_afterParsing fun _ => spares_resyncIf _ fun _ h => h
  | sessionRenamed =>
    rw [TmuxTopology.applyKind]
    split
    · exact .inr fun _ h => h
    · refine spares_afterParsing fun name => ?_
      split
      · exact .inl rfl
      · exact .inr fun _ h => h
  | sessionWindowChanged => exact spares_afterParsing fun _ => spares_resyncIf _ fun _ h => h
  | windowRenamed => exact spares_afterParsing fun _ => spares_resyncIf _ fun _ h => h
  | windowPaneChanged => exact spares_afterParsing fun _ => spares_resyncIf _ fun _ h => contains_upsert h _ _ _
  | windowAdd => exact spares_afterParsing fun _ => .inr fun _ h => h
  | windowClose => exact spares_afterParsing spares_closeAttachedWindow
  | unlinkedWindowClose => exact spares_afterParsing spares_closeUnlinkedWindow
  | layoutChange => exact spares_afterParsing fun _ => .inr fun _ h => h
  | paneModeChanged => exact spares_afterParsing fun _ => .inr fun _ h => h
  | paneExited => exact spares_afterParsing fun _ => .inl rfl

theorem spares_applyNotification (t : TmuxTopology) (name arguments : Bytes) :
    Spares t (t.applyNotification name arguments) := by
  rw [TmuxTopology.applyNotification]
  split
  · exact .inr fun _ h => h
  · exact spares_applyKind t arguments _

/-- **What a notification tells of panes**: it takes none away without a report. -/
theorem knownBy_handleNotification {name arguments : Bytes} {handled : Handled}
    (h : connection.handleNotification name arguments = some handled) :
    handled.connection.hasInventory = connection.hasInventory ∧
      (reportsLosses connection name arguments = false → ∀ paneId,
        connection.topology.panes.contains paneId → handled.connection.topology.panes.contains paneId) := by
  rw [handleNotification] at h
  split at h
  · cases h
    exact ⟨rfl, fun _ _ hpane => hpane⟩
  · split at h
    · cases h
    · rename_i topology outcome happly
      have hhandled : handled.connection.hasInventory = connection.hasInventory ∧
          handled.connection.topology = topology := by
        dsimp only at h
        split at h
        · cases h
          exact ⟨rfl, rfl⟩
        · cases h
          exact ⟨rfl, rfl⟩
      refine ⟨hhandled.1, fun hreports paneId hpane => ?_⟩
      rw [hhandled.2]
      have hspares := spares_applyNotification connection.topology name arguments
      rw [happly] at hspares
      rcases hspares with happlied | hkept
      · cases happlied
        rw [reportsLosses, happly] at hreports
        cases hreports
      · exact hkept paneId hpane

end Records

/-! ## Steps -/

namespace Client

variable {client client' : Client}

theorem apart_knownBy : TmuxApp.Apart knownBy := ⟨fun _ _ => rfl, fun _ _ => rfl, fun _ _ => rfl⟩

theorem tidy_of_tmux {tmux : TmuxApp} (htidy : (census client.app).Tidy)
    (hhierarchy : tmux.hierarchy = client.app.hierarchy)
    (hknowledge : knowledge tmux = knowledge client.app.tmux) : (census (client.withTmux tmux).app).Tidy := by
  have hcensus : census (client.withTmux tmux).app = census client.app :=
    App.census_eq ⟨hhierarchy, hknowledge⟩ rfl
  rw [hcensus]
  exact htidy

theorem tidy_drain {nowMs : Nat} {root : UInt64} (htidy : (census client.app).Tidy)
    (h : client.drainNext nowMs root = some client') : (census client'.app).Tidy := by
  rw [drainNext] at h
  split at h
  · cases h
    exact htidy
  · rename_i command rest hpending
    split at h
    · rename_i outcome tmux hdrain
      cases h
      have hforest : ({ client.app.tmux with pendingTmuxCommands := rest } : TmuxApp).hierarchy.Forest :=
        htidy.forest
      obtain ⟨outcome', tmux', hdrain', hdrained⟩ := TmuxApp.drainCommand_spec hforest nowMs root command
      cases hdrain.symm.trans hdrain'
      refine tidy_of_tmux htidy hdrained.hierarchy ?_
      funext x
      exact apart_knownBy.drain hdrain x
    · cases h

theorem app_applyCapture {connectionId : UInt64} {paneId : PaneId}
    (h : client.applyCapture connectionId paneId = some client') : client'.app = client.app :=
  (applyCapture_some h).1

theorem census_settle {connectionId : UInt64} {connection : TmuxConnectionState} {handled : Handled}
    (hconnection : client.app.tmux.connection connectionId = some connection)
    (hid : handled.connection.id = connection.id) (h : client.settle connectionId handled = some client') :
    census client'.app = (census client.app).learning connectionId (knownBy handled.connection) := by
  have happ : client'.app = (client.withTmux ((client.app.tmux.withConnection connectionId fun _ =>
      handled.connection).pushAll handled.commands)).app := by
    rw [settle] at h
    split at h
    · cases h
      rfl
    · exact (applyCapture_some h).1
  rw [happ]
  refine congrArg (Census.mk _ · _) ?_
  funext x
  show ((client.app.tmux.withConnection connectionId fun _ => handled.connection).connection x).map knownBy = _
  rw [connection_replace _ (hid.trans (connection_id hconnection))]
  show _ = if x = connectionId then ((client.app.tmux.connection connectionId).map knownBy).map _
    else (client.app.tmux.connection x).map knownBy
  split
  · rw [Option.map_map, Option.map_map]
    rfl
  · rfl

/-- **A record keeps the order** if it takes no pane away without a report, and if a first inventory has the
panes that had output. -/
theorem tidy_record {connectionId : UInt64} {handle : TmuxConnectionState → Option Handled}
    {reports : TmuxConnectionState → Bool} (htidy : (census client.app).Tidy)
    (hrecord : ∀ connection handled, client.app.tmux.connection connectionId = some connection →
      handle connection = some handled → handled.connection.id = connection.id ∧
      (reports connection = false → ∀ paneId, connection.topology.panes.contains paneId →
      handled.connection.topology.panes.contains paneId) ∧
      ∀ paneId, client.app.nestedTmuxGateways.contains ⟨connectionId, paneId⟩ →
      connection.hasInventory = false → handled.connection.hasInventory = true →
      connection.topology.panes.contains ⟨paneId⟩ ∨ handled.connection.topology.panes.contains ⟨paneId⟩)
    (h : client.processTmuxRecord connectionId handle reports = some client') : (census client'.app).Tidy := by
  rw [processTmuxRecord] at h
  split at h
  · cases h
    exact htidy
  · rename_i connection hconnection
    simp only [bind_eq_bind, bind_eq_some_iff, some.injEq] at h
    obtain ⟨handled, hhandled, next, hsettle, app, hresolve, rfl⟩ := h
    obtain ⟨hid, hkept, hfirst⟩ := hrecord connection handled hconnection hhandled
    rw [follow_app]
    have hcensus := census_settle hconnection hid hsettle
    have hforest : next.app.hierarchy = client.app.hierarchy := congrArg Census.hierarchy hcensus
    obtain ⟨removed, hierarchy, hshrinks, hclear, happ⟩ :=
      App.census_destroyed (hforest ▸ htidy.forest) hresolve
    rw [happ, hcensus]
    rw [hforest] at hshrinks
    refine htidy.learns (congrArg (Option.map knownBy) hconnection) (fun paneId hpane => ?_) hfirst
      hshrinks hclear
    cases hreports : reports connection with
    | false => exact .inl (hkept hreports paneId hpane)
    | true =>
      by_cases hstays : handled.connection.topology.panes.contains paneId
      · exact .inl hstays
      · refine .inr ?_
        refine mem_map.mpr ⟨paneId, mem_filter.mpr ⟨?_, ?_⟩, rfl⟩
        · exact mem_keys.mpr hpane
        · rw [eq_false_of_ne_true hstays]
          rfl

theorem step_lifecycle {event : Step} (h : client.step (.lifecycle event) = some client') :
    ∃ app, client.app.step event = some app ∧ client' = client.follow app := by
  obtain ⟨-, h⟩ := ite_none_right_eq_some.mp h
  obtain ⟨app, hstep, rfl⟩ := map_eq_some_iff.mp h
  exact ⟨app, hstep, rfl⟩

theorem tidy_recordStep {event : ClientStep} (htidy : (census client.app).Tidy)
    (hevent : client.Anticipates event) (h : client.recordStep event = some client') :
    (census client'.app).Tidy := by
  cases event with
  | command connectionId status output =>
    refine tidy_record htidy (fun connection handled hconnection hhandled => ?_) h
    cases hhandled
    have hknown := knownBy_handleCommand connection status output
    refine ⟨(settles_command connection status output).id, fun hreports paneId hpane => ?_,
      fun paneId hgateway hwaits hhas => ?_⟩
    · rw [isSome_eq_false_iff, isNone_iff_eq_none] at hreports
      rw [hreports] at hknown
      exact (congrFun (congrArg Prod.fst hknown) paneId).trans hpane
    · cases hinventory : completedInventory connection status output with
      | none =>
        rw [hinventory] at hknown
        have hsame : _ = connection.hasInventory := congrArg Prod.snd hknown
        rw [hwaits] at hsame
        cases hhas.symm.trans hsame
      | some inventory =>
        rw [hinventory] at hknown
        refine (hevent connection inventory hconnection hwaits hinventory paneId hgateway).imp id ?_
        exact (congrFun (congrArg Prod.fst hknown) ⟨paneId⟩).trans
  | notification connectionId name arguments =>
    refine tidy_record htidy (fun connection handled hconnection hhandled => ?_) h
    obtain ⟨hhas, hkept⟩ := knownBy_handleNotification hhandled
    refine ⟨(settles_notification hhandled).id, hkept, fun paneId _ hwaits hafter => ?_⟩
    rw [hhas, hwaits] at hafter
    cases hafter
  | lifecycle event =>
    have hother : App.changesPanes event = false → client.step (.lifecycle event) = some client' →
        (census client'.app).Tidy := by
      intro hevent h
      obtain ⟨app, hstep, rfl⟩ := step_lifecycle h
      rw [follow_app]
      exact App.tidy_step htidy hevent hstep
    cases event with
    | topology connectionId topology => cases h
    | destroyed parentConnectionId paneIds windowIds => cases h
    | receiveNested nowMs key bytes =>
      rw [recordStep] at h
      split at h
      · rename_i hlive
        obtain ⟨connection, hconnection⟩ := isSome_iff_exists.mp hlive
        obtain ⟨app, hstep, rfl⟩ := step_lifecycle h
        rw [follow_app]
        refine App.tidy_receiveNested htidy ?_ (ite_none_right_eq_some.mp hstep).2
        refine (hevent connection hconnection).imp id fun hbacked => ?_
        exact ⟨knownBy connection, congrArg (Option.map knownBy) hconnection, hbacked⟩
      · cases h
        exact htidy
    | _ => exact hother rfl h
  | drain nowMs connectionId => exact tidy_drain htidy h
  | sync connectionId =>
    cases h
    rw [syncTmuxPanes]
    split
    · exact htidy
    · exact htidy
  | capture connectionId paneId =>
    rw [app_applyCapture h]
    exact htidy
  | flow connectionId paneFlow captures =>
    cases h
    refine tidy_of_tmux htidy rfl ?_
    exact knowledge_withConnection
      (f := ({ · with paneFlow := paneFlow, pendingPaneCaptures := captures })) (fun _ => rfl)
      (fun _ => rfl) connectionId

theorem tidy_new : (census new.app).Tidy where
  forest := ConnectionHierarchy.Forest.new
  placed id parent session window pane horigin := by cases horigin
  backed key hkey := by cases hkey

theorem backed_of_tidy (htidy : (census client.app).Tidy) : client.GatewaysBacked := by
  intro key hkey
  obtain ⟨known, hknown, hpane⟩ := htidy.backed key hkey
  obtain ⟨connection, hconnection, rfl⟩ := map_eq_some_iff.mp hknown
  exact ⟨connection, hconnection, hpane⟩

/-- **No gateway outlives its pane** in a run in which the first output of a pane comes when its connection knows
the pane, or before the first inventory, and that inventory has the pane. -/
theorem run_gatewaysBacked {events : List ClientStep} {client : Client}
    (anticipates : PartialRun.Meets recordStep Anticipates new events)
    (h : run recordStep new events = some client) : client.GatewaysBacked :=
  backed_of_tidy (run_invariant_of_meets (P := fun client => (census client.app).Tidy)
    (fun _ _ _ htidy hevent hstep => tidy_recordStep htidy hevent hstep) tidy_new anticipates h)

end Client

/-! ## Two runs -/

def answers (outputs : List (List Bytes)) : List ClientStep := outputs.map (.command 1 .success ·)

def onePaneInventory : List (List Bytes) :=
  [[ascii "S\t$0\tmain"], [ascii "W\t$0\t@0\t0\t1\tb\tb\t*\tshell"],
    [ascii "P\t@0\t%0\t0\t1\t0\t0\t80\t24\t0\tvim"], [ascii "A\t$0"], [ascii "O\tbase-index\t0"],
    [ascii "O\tpane-base-index\t0"], [ascii "C\tclient_name\tclient"], [ascii "O\tprefix\tC-b"],
    [ascii "O\tprefix2\tNone"], [ascii "O\tkey-table\troot"], [ascii "O\trepeat-time\t500"], []]

def inventoried : List ClientStep :=
  (rootBytes startMarker 2).map .lifecycle ++ drains 15 ++ answers [[], [], [], []] ++
    answers onePaneInventory

def paneOutput (paneId : UInt64) : List ClientStep :=
  [.lifecycle (.receiveNested 0 ⟨1, paneId⟩ (ascii "x")),
    .lifecycle (.handleNested 0 ⟨24, 80, 0, 0⟩ true ⟨1, paneId⟩)]

def writtenPane : List ClientStep :=
  inventoried ++ paneOutput 0 ++ [.notification 1 (ascii "window-renamed") (ascii "@0 log")]

/-- The pane 9 opens, writes, and is gone before the inventory that its opening asks for. -/
def briefPane : List ClientStep :=
  inventoried ++ .notification 1 (ascii "layout-change") (ascii "@0 b b *") :: paneOutput 9 ++ drains 12 ++
    answers onePaneInventory

namespace Client

/-- A condition that implies `Anticipates`. -/
def settled (client : Client) : ClientStep → Bool
  | .lifecycle (.receiveNested _ key _) =>
    (client.app.tmux.connection key.parentConnectionId).all fun connection =>
      connection.topology.panes.contains ⟨key.paneId⟩
  | .command _ _ _ => client.app.nestedTmuxGateways.isEmpty
  | _ => true

theorem anticipates_of_settled (client : Client) (event : ClientStep) (h : client.settled event) :
    client.Anticipates event := by
  cases event with
  | lifecycle event =>
    cases event with
    | receiveNested nowMs key bytes =>
      intro connection hconnection
      rw [settled, hconnection] at h
      exact .inr (.inl h)
    | _ => trivial
  | command connectionId status output =>
    intro connection inventory _ _ _ paneId hgateway
    rw [settled, ExtTreeMap.isEmpty_iff] at h
    rw [h] at hgateway
    cases hgateway
  | _ => trivial

set_option maxRecDepth 8000 in
theorem run_gatewaysBacked_written : ∃ client, run recordStep new writtenPane = some client ∧
      client.app.nestedTmuxGateways.contains ⟨1, 0⟩ ∧ client.GatewaysBacked := by
  have hrun : (run recordStep new writtenPane).any fun client =>
      client.app.nestedTmuxGateways.contains ⟨1, 0⟩ := by
    decide +kernel
  obtain ⟨client, hclient, hgateway⟩ := (any_eq_true _ _).mp hrun
  have hmeets : PartialRun.Meets recordStep Anticipates new writtenPane :=
    meets_of_checks settled anticipates_of_settled (by decide +kernel)
  exact ⟨client, hclient, hgateway, run_gatewaysBacked hmeets hclient⟩

set_option maxRecDepth 8000 in
/-- The gateway of the pane 9 stays, though no topology of its connection has ever had the pane. -/
theorem briefPane_leaks : ¬ ∀ client, run recordStep new briefPane = some client → client.GatewaysBacked := by
  intro hall
  have hrun : (run recordStep new briefPane).any fun client =>
      client.app.nestedTmuxGateways.contains ⟨1, 9⟩ && (client.app.tmux.connection 1).all fun connection =>
          !connection.topology.panes.contains ⟨9⟩ && connection.hasInventory := by
    decide +kernel
  obtain ⟨client, hclient, hleak⟩ := (any_eq_true _ _).mp hrun
  obtain ⟨hgateway, hunknown⟩ := (Bool.and_eq_true _ _).mp hleak
  obtain ⟨connection, hconnection, hbacked⟩ := hall client hclient ⟨1, 9⟩ hgateway
  rw [hconnection, all_some, Bool.and_eq_true, Bool.not_eq_true'] at hunknown
  rcases hbacked with hpane | hwaits
  · cases hunknown.1.symm.trans hpane
  · cases hwaits.symm.trans hunknown.2

end Client

end Lector.Lifecycle
