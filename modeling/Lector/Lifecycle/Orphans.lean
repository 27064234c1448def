import Lector.Lifecycle.Settling

/-! Inventories and bootstraps that are asked for stay under way, and what orphans them. -/
namespace Lector.Lifecycle
open Std SortedMap Lector.Topology Gateway Control Tmux Output List TmuxPaneSet PartialRun
open Option hiding mem_map

/-! ## Runs -/

structure Client where
  app : App
  views : ExtTreeMap UInt64 TmuxPaneSet

/-- What a record does besides stands for itself and may come at any time. -/
inductive ClientStep
  | lifecycle (event : Step)
  | drain (nowMs : Nat) (connectionId : UInt64)
  | command (connectionId : UInt64) (status : CommandStatus) (output : List Bytes)
  | notification (connectionId : UInt64) (name arguments : Bytes)
  | sync (connectionId : UInt64)
  | capture (connectionId : UInt64) (paneId : PaneId)
  | flow (connectionId : UInt64) (paneFlow : ExtTreeMap PaneId TmuxPaneFlowState)
      (captures : ExtTreeMap PaneId PendingTmuxPaneCapture)

namespace Client

def new : Client := ⟨.new, ∅⟩

variable (client : Client)

def withTmux (tmux : TmuxApp) : Client := { client with app := { client.app with tmux := tmux } }

def follow (app : App) : Client :=
  let kept := client.views.filter fun id _ => (app.tmux.connection id).isSome
  match app.tmux.connections.find? fun connection => (client.app.tmux.connection connection.id).isNone with
  | some started => ⟨app, kept.insert started.id ∅⟩
  | none => ⟨app, kept⟩

/-- Other changes of the queue leave the commands that announce work in it, in some order. -/
def keepsWork : Step → Bool
  | .pending commands _ => (workOf commands).isPerm (workOf client.app.tmux.pendingTmuxCommands)
  | _ => true

variable (connectionId : UInt64)

def applyCapture (paneId : PaneId) : Option Client :=
  match client.views[connectionId]? with
  | none => some client
  | some panes =>
    (TmuxPaneSet.applyCapture panes paneId).map fun panes =>
      { client with views := client.views.insert connectionId panes }

def settle (handled : Handled) : Option Client :=
  let client := client.withTmux
    ((client.app.tmux.withConnection connectionId fun _ => handled.connection).pushAll handled.commands)
  match handled.bootstrap with
  | none => some client
  | some paneId => client.applyCapture connectionId paneId

def processTmuxControl (handle : TmuxConnectionState → Option Handled) : Option Client :=
  match client.app.tmux.connection connectionId with
  | none => some client
  | some connection => (handle connection).bind (client.settle connectionId)

def syncTmuxPanes : Client :=
  match client.app.tmux.connection connectionId, client.views[connectionId]? with
  | some connection, some panes =>
    let lineFlags := connection.captureLineFlagsSupported != some false
    let (panes, requests) := TmuxPaneSet.reconcile panes connection.topology
    { client.withTmux
        (client.app.tmux.pushAll (requests.map (bootstrapCommand connectionId · lineFlags))) with
      views := client.views.insert connectionId panes }
  | _, _ => client

def drainNext (nowMs : Nat) (connectionId : UInt64) : Option Client :=
  match client.app.tmux.pendingTmuxCommands with
  | [] => some client
  | command :: rest =>
    match { client.app.tmux with pendingTmuxCommands := rest }.drainCommand nowMs connectionId
      command with
    | .ok (_, tmux) => some (client.withTmux tmux)
    | .error _ => none

def step : ClientStep → Option Client
  | .lifecycle event =>
    if client.keepsWork event then (client.app.step event).map client.follow else none
  | .drain nowMs connectionId => client.drainNext nowMs connectionId
  | .command connectionId status output =>
    client.processTmuxControl connectionId fun connection => some (connection.handleCommand status output)
  | .notification connectionId name arguments =>
    client.processTmuxControl connectionId (·.handleNotification name arguments)
  | .sync connectionId => some (client.syncTmuxPanes connectionId)
  | .capture connectionId paneId => client.applyCapture connectionId paneId
  | .flow connectionId paneFlow captures =>
    some (client.withTmux (client.app.tmux.withConnection connectionId
      ({ · with paneFlow := paneFlow, pendingPaneCaptures := captures })))

/-! ## What a run keeps -/

/-- A pane of the connection's view waits for its bootstrap. -/
def Requested (paneId : PaneId) : Prop :=
  Holds client.views connectionId fun panes => Holds panes paneId (·.bootstrapRequested = true)

/-- The counters tell the parts that are on their way, and for a pane that waits one bootstrap is.
-/
def Accounted : Prop :=
  ∀ connectionId connection, client.app.tmux.connection connectionId = some connection →
    connection.inventoryRepliesRemaining =
      inventories (announced client.app.tmux.pendingTmuxCommands connectionId) +
        inventories connection.expectedReplies ∧
    ∀ paneId, client.Requested connectionId paneId →
      Bootstraps (announced client.app.tmux.pendingTmuxCommands connectionId ++
        connection.expectedReplies) paneId

/-- A command that is discarded or dropped announces no work that is still waited for. -/
def Spares : ClientStep → Prop
  | .lifecycle event => (account client.app.tmux).Spares client.Requested (client.app.recovers event)
  | .drain _ root =>
    ∀ command rest, client.app.tmux.pendingTmuxCommands = command :: rest →
      client.app.tmux.directTransportFor command.connectionId = some root →
      ¬ { client.app.tmux with pendingTmuxCommands := rest }.HasRoom command →
      (account client.app.tmux).Dispensable client.Requested (workOf [command]) (workOf rest)
  | _ => True

structure Tracked : Prop where
  sound : (account client.app.tmux).Sound client.Requested
  viewed : ∀ id, client.views.contains id → client.app.hierarchy.contains id

/-! ## Views -/

variable {client} {client' : Client}

theorem requested_reconcile (panes : TmuxPaneSet) (topology : TmuxTopology) {paneId : PaneId}
    (h : Holds (reconcile panes topology).1 paneId (·.bootstrapRequested = true)) :
    Holds panes paneId (·.bootstrapRequested = true) ∨
      ∃ pane ∈ (reconcile panes topology).2, pane.id = paneId := by
  have hfold : ∀ (values : List Pane) (state : TmuxPaneSet × List Pane),
      (Holds state.1 paneId (·.bootstrapRequested = true) →
        Holds panes paneId (·.bootstrapRequested = true) ∨ ∃ pane ∈ state.2, pane.id = paneId) →
      Holds (values.foldl reconcilePane state).1 paneId (·.bootstrapRequested = true) →
      Holds panes paneId (·.bootstrapRequested = true) ∨
        ∃ pane ∈ (values.foldl reconcilePane state).2, pane.id = paneId := by
    intro values
    induction values with
    | nil => exact fun state hstate => hstate
    | cons pane rest ih =>
      intro state hstate
      refine ih (reconcilePane state pane) ?_
      rw [reconcilePane]
      split
      · intro hholds
        rcases holds_insert.mp hholds with ⟨rfl, -⟩ | ⟨-, hholds⟩
        · exact .inr ⟨pane, mem_append_right _ (mem_singleton_self _), rfl⟩
        · refine (hstate hholds).imp id fun hasked => ?_
          obtain ⟨asked, hmem, hid⟩ := hasked
          exact ⟨asked, mem_append_left _ hmem, hid⟩
      · intro hholds
        rcases holds_insert.mp hholds with ⟨rfl, hrequested⟩ | ⟨-, hholds⟩
        · refine hstate ?_
          cases hentry : state.1[pane.id]? with
          | none =>
            rw [hentry] at hrequested
            cases hrequested
          | some paneState =>
            rw [hentry] at hrequested
            exact ⟨paneState, hentry, hrequested⟩
        · exact hstate hholds
  refine hfold topology.panes.values _ (fun hholds => .inl ?_) h
  obtain ⟨paneState, hentry, hrequested, -⟩ := holds_filter.mp hholds
  exact ⟨paneState, hentry, hrequested⟩

/-! ## Steps -/

variable {id connectionId x : UInt64} {connection after : TmuxConnectionState}

theorem connection_replace (tmux : TmuxApp) (hid : connection.id = id) (x : UInt64) :
    (tmux.withConnection id fun _ => connection).connection x =
      if x = id then (tmux.connection id).map fun _ => connection else tmux.connection x := by
  rw [TmuxApp.connection, TmuxApp.withConnection, TmuxApp.connection, TmuxApp.connection]
  induction tmux.connections with
  | nil =>
    split
    · rfl
    · rfl
  | cons first rest ih =>
    rw [map_cons, find?_cons, find?_cons, find?_cons]
    by_cases hfirst : first.id = id
    · rw [if_pos hfirst, decide_eq_true hfirst]
      by_cases hx : x = id
      · rw [if_pos hx, decide_eq_true (hid.trans hx.symm)]
        rfl
      · rw [decide_eq_false (fun h => hx (h.symm.trans hid)),
          decide_eq_false (fun h => hx (h.symm.trans hfirst)), if_neg hx]
        refine ih.trans ?_
        rw [if_neg hx]
    · rw [if_neg hfirst, decide_eq_false hfirst]
      by_cases hx : first.id = x
      · rw [decide_eq_true hx, if_neg (fun h => hfirst (hx.trans h))]
      · rw [decide_eq_false hx]
        exact ih

theorem connection_id {tmux : TmuxApp} (h : tmux.connection id = some connection) : connection.id = id :=
  of_decide_eq_true (find?_some (p := fun c : TmuxConnectionState => decide (c.id = id)) h)

theorem account_replace {tmux : TmuxApp} (hconnection : tmux.connection id = some connection)
    (hid : after.id = id) (commands : List PendingTmuxCommand) :
    account ((tmux.withConnection id fun _ => after).pushAll commands) = ⟨(account tmux).hierarchy,
        fun x => if x = id then some (owedBy after) else (account tmux).owed x,
        (account tmux).work ++ workOf commands⟩ := by
  rw [account_pushAll]
  refine congrArg₂ (Account.mk _) ?_ rfl
  funext x
  show ((tmux.withConnection id fun _ => after).connection x).map owedBy = _
  rw [connection_replace tmux hid, hconnection]
  split
  · rfl
  · rfl

theorem applyCapture_some {paneId : PaneId} (h : client.applyCapture connectionId paneId = some client') :
    client'.app = client.app ∧ (∀ x, client'.views.contains x → client.views.contains x) ∧
      ∀ x p, client'.Requested x p → client.Requested x p ∧ (x = connectionId → p ≠ paneId) := by
  rw [applyCapture] at h
  split at h
  · rename_i hnone
    cases h
    refine ⟨rfl, fun _ hx => hx, fun x p hrequested => ⟨hrequested, ?_⟩⟩
    rintro rfl
    exact absurd hrequested (not_holds_of_none hnone _)
  · rename_i panes hpanes
    obtain ⟨panes', hcapture, rfl⟩ := map_eq_some_iff.mp h
    obtain rfl := some.inj (ite_none_right_eq_some.mp hcapture).2
    refine ⟨rfl, fun x hx => ?_, fun x p hrequested => ?_⟩
    · rw [ExtTreeMap.contains_insert, Bool.or_eq_true] at hx
      rcases hx with hx | hx
      · obtain rfl := LawfulEqOrd.eq_of_compare (beq_iff_eq.mp hx)
        exact contains_iff.mpr ⟨panes, hpanes⟩
      · exact hx
    · rcases holds_insert.mp hrequested with ⟨rfl, hp⟩ | ⟨hx, hrequested⟩
      · rcases holds_insert.mp hp with ⟨-, hp⟩ | ⟨hp, hrequested⟩
        · cases hp
        · exact ⟨⟨panes, hpanes, hrequested⟩, fun _ => hp⟩
      · exact ⟨hrequested, fun hid => absurd hid hx⟩

theorem settle_some {handled : Handled} (h : client.settle connectionId handled = some client') :
    client'.app.tmux = (client.app.tmux.withConnection connectionId fun _ =>
        handled.connection).pushAll handled.commands ∧
      (∀ x, client'.views.contains x → client.views.contains x) ∧
      ∀ x p, client'.Requested x p →
        client.Requested x p ∧ (x = connectionId → handled.bootstrap ≠ some p) := by
  rw [settle] at h
  split at h
  · rename_i hnone
    cases h
    refine ⟨rfl, fun _ hx => hx, fun x p hrequested => ⟨hrequested, fun _ hsome => ?_⟩⟩
    rw [hnone] at hsome
    cases hsome
  · rename_i paneId hsome
    obtain ⟨happ, hviews, hrequests⟩ := applyCapture_some h
    refine ⟨congrArg App.tmux happ, hviews, fun x p hrequested => ?_⟩
    obtain ⟨hbefore, hother⟩ := hrequests x p hrequested
    refine ⟨hbefore, fun hx hp => hother hx ?_⟩
    rw [hsome] at hp
    exact (some.inj hp).symm

section

variable (htracked : client.Tracked)
include htracked

theorem Tracked.hierarchy {tmux : TmuxApp} (htmux : client'.app.tmux = tmux)
    (hhierarchy : tmux.hierarchy = client.app.hierarchy)
    (hviews : ∀ x, client'.views.contains x → client.views.contains x) :
    ∀ x, client'.views.contains x → client'.app.hierarchy.contains x := by
  intro x hx
  rw [App.hierarchy, htmux, hhierarchy]
  exact htracked.viewed x (hviews x hx)

theorem Tracked.settle {handled : Handled}
    (hconnection : client.app.tmux.connection connectionId = some connection)
    (hsettles : Settles connection handled) (h : client.settle connectionId handled = some client') :
    client'.Tracked := by
  obtain ⟨htmux, hviews, hrequests⟩ := settle_some h
  have hid := connection_id hconnection
  have howed : (account client.app.tmux).owed connectionId = some (owedBy connection) :=
    congrArg (Option.map owedBy) hconnection
  have hlive := (htracked.sound.live connectionId).mp (isSome_iff_exists.mpr ⟨_, howed⟩)
  have hexpected : (account client.app.tmux).outstanding connectionId =
      announced (account client.app.tmux).work connectionId ++ connection.expectedReplies := by
    rw [Account.outstanding, howed]
    rfl
  refine ⟨?_, htracked.hierarchy htmux rfl hviews⟩
  rw [htmux, account_replace hconnection (hsettles.id.trans hid)]
  refine htracked.sound.settles hlive (fun command hmem => ?_) ?_ (fun paneId hrequested => ?_)
    fun x paneId _ hrequested => (hrequests x paneId hrequested).1
  · rw [← hid]
    exact hsettles.commands command hmem
  · refine hsettles.counted _ ?_
    have hcounted := htracked.sound.counted connectionId _ howed
    rw [hexpected, inventories, count_append] at hcounted
    exact hcounted
  · obtain ⟨hbefore, hother⟩ := hrequests connectionId paneId hrequested
    have hcovered := htracked.sound.covered connectionId paneId hlive hbefore
    rw [hexpected, bootstraps_append] at hcovered
    rcases hcovered with hpending | hexpects
    · exact .inl hpending
    · exact .inr ((hsettles.covered paneId hexpects).resolve_right (hother rfl))

theorem Tracked.processTmuxControl {handle : TmuxConnectionState → Option Handled}
    (hhandle : ∀ connection handled, handle connection = some handled → Settles connection handled)
    (h : client.processTmuxControl connectionId handle = some client') : client'.Tracked := by
  rw [Client.processTmuxControl] at h
  split at h
  · cases h
    exact htracked
  · rename_i connection hconnection
    obtain ⟨handled, hhandled, h⟩ := bind_eq_some_iff.mp h
    exact htracked.settle hconnection (hhandle connection handled hhandled) h

theorem Tracked.sync (connectionId : UInt64) : (client.syncTmuxPanes connectionId).Tracked := by
  rw [syncTmuxPanes]
  split
  · rename_i connection panes hconnection hpanes
    have howed : (account client.app.tmux).owed connectionId = some (owedBy connection) :=
      congrArg (Option.map owedBy) hconnection
    have hlive := (htracked.sound.live connectionId).mp (isSome_iff_exists.mpr ⟨_, howed⟩)
    generalize hresult : reconcile panes connection.topology = result
    obtain ⟨panes', requests⟩ := result
    generalize (connection.captureLineFlagsSupported != some false) = lineFlags
    have hpushed : ∀ commands, account (client.app.tmux.pushAll commands) =
        ⟨(account client.app.tmux).hierarchy, fun x => if x = connectionId then some (owedBy connection)
            else (account client.app.tmux).owed x,
          (account client.app.tmux).work ++ workOf commands⟩ := by
      intro commands
      rw [account_pushAll]
      refine congrArg₂ (Account.mk _) ?_ rfl
      funext x
      split
      · rename_i hx
        rw [hx, howed]
      · rfl
    have hquiet : inventories ((requests.map (bootstrapCommand connectionId · lineFlags)).flatMap
        (·.expectedReplies)) = 0 := by
      refine count_eq_zero.mpr fun hmem => ?_
      rw [flatMap_map] at hmem
      obtain ⟨pane, -, hreply⟩ := mem_flatMap.mp hmem
      cases mem_singleton.mp hreply
    have hcounted := htracked.sound.counted connectionId _ howed
    have hexpected : (account client.app.tmux).outstanding connectionId =
        announced (account client.app.tmux).work connectionId ++ connection.expectedReplies := by
      rw [Account.outstanding, howed]
      rfl
    refine ⟨?_, fun x hx => ?_⟩
    · show (account (client.app.tmux.pushAll _)).Sound _
      rw [hpushed]
      refine htracked.sound.settles hlive (fun command hmem => ?_) ?_ (fun paneId hrequested => ?_)
        fun x paneId hx hrequested => ?_
      · obtain ⟨pane, -, rfl⟩ := mem_map.mp hmem
        exact ⟨rfl, rfl⟩
      · rw [hexpected, inventories, count_append] at hcounted
        rw [hquiet]
        exact hcounted
      · rcases holds_insert.mp hrequested with ⟨-, hwaits⟩ | ⟨hne, -⟩
        · have hreconcile :=
            requested_reconcile panes connection.topology (by rw [hresult]; exact hwaits)
          rw [hresult] at hreconcile
          rcases hreconcile with hbefore | ⟨pane, hpane, rfl⟩
          · have hcovered := htracked.sound.covered connectionId paneId hlive ⟨panes, hpanes, hbefore⟩
            rw [hexpected, bootstraps_append] at hcovered
            exact hcovered.imp id fun h => bootstraps_append.mpr (.inr h)
          · refine .inr (bootstraps_append.mpr (.inl ⟨lineFlags, ?_⟩))
            rw [flatMap_map]
            exact mem_flatMap.mpr ⟨pane, hpane, mem_singleton_self _⟩
        · exact absurd rfl hne
      · rcases holds_insert.mp hrequested with ⟨heq, -⟩ | ⟨-, hbefore⟩
        · exact absurd heq hx
        · exact hbefore
    · rw [ExtTreeMap.contains_insert, Bool.or_eq_true] at hx
      rcases hx with hx | hx
      · obtain rfl := LawfulEqOrd.eq_of_compare (beq_iff_eq.mp hx)
        exact hlive
      · exact htracked.viewed x hx
  · exact htracked

theorem Tracked.drain {nowMs : Nat} {root : UInt64} (hspares : client.Spares (.drain nowMs root))
    (h : client.drainNext nowMs root = some client') : client'.Tracked := by
  rw [drainNext] at h
  split at h
  · cases h
    exact htracked
  · rename_i command rest hpending
    split at h
    · rename_i outcome tmux hdrain
      cases h
      have hserves := serves_drain htracked.sound hpending (hspares command rest hpending) hdrain
      refine ⟨htracked.sound.serves hserves, fun x hx => ?_⟩
      have hhierarchy : tmux.hierarchy = client.app.tmux.hierarchy := hserves.hierarchy
      show tmux.hierarchy.contains x
      rw [hhierarchy]
      exact htracked.viewed x hx
    · cases h

end

theorem requested_follow {app : App} {paneId : PaneId}
    (h : (client.follow app).Requested x paneId) : client.Requested x paneId := by
  have hkept : ∀ {x : UInt64}, Holds (client.views.filter fun id _ => (app.tmux.connection id).isSome) x
      (fun panes => Holds panes paneId (·.bootstrapRequested = true)) → client.Requested x paneId := by
    intro x hholds
    obtain ⟨panes, hpanes, hwaits, -⟩ := holds_filter.mp hholds
    exact ⟨panes, hpanes, hwaits⟩
  rw [follow] at h
  split at h
  · rcases holds_insert.mp h with ⟨-, paneState, hnone, -⟩ | ⟨-, h⟩
    · cases hnone
    · exact hkept h
  · exact hkept h

theorem follow_live {app : App} (h : (client.follow app).views.contains x) :
    (app.tmux.connection x).isSome := by
  have hkept : ∀ {x : UInt64}, (client.views.filter fun id _ => (app.tmux.connection id).isSome).contains x →
        (app.tmux.connection x).isSome := by
    intro x hx
    obtain ⟨panes, hpanes⟩ := contains_iff.mp hx
    rw [ExtTreeMap.getElem?_filter', filter_eq_some_iff] at hpanes
    exact hpanes.2
  rw [follow] at h
  split at h
  · rename_i started hstarted
    rw [ExtTreeMap.contains_insert, Bool.or_eq_true] at h
    rcases h with h | h
    · obtain rfl := LawfulEqOrd.eq_of_compare (beq_iff_eq.mp h)
      refine find?_isSome.mpr ⟨started, mem_of_find?_eq_some hstarted, ?_⟩
      exact decide_eq_true rfl
    · exact hkept h
  · exact hkept h

theorem follow_app (app : App) : (client.follow app).app = app := by
  rw [follow]
  split
  · rfl
  · rfl

theorem Tracked.lifecycle (htracked : client.Tracked) {event : Step}
    (hspares : client.Spares (.lifecycle event)) (h : client.step (.lifecycle event) = some client') :
    client'.Tracked := by
  obtain ⟨hwork, h⟩ := ite_none_right_eq_some.mp h
  obtain ⟨app, hstep, rfl⟩ := map_eq_some_iff.mp h
  have hinherits : (account client.app.tmux).Inherits client.Requested (client.follow app).Requested := by
    intro x paneId hrequested
    have hbefore := requested_follow hrequested
    obtain ⟨panes, hpanes, -⟩ := hbefore
    exact ⟨htracked.viewed x (contains_iff.mpr ⟨panes, hpanes⟩), requested_follow hrequested⟩
  have hsound : (account app.tmux).Sound (client.follow app).Requested := by
    by_cases hqueue : App.keepsQueue event
    · exact htracked.sound.turns hinherits hspares (App.account_step htracked.sound.forest hstep hqueue)
    · cases event with
      | pending commands input =>
        cases hstep
        have hperm := isPerm_iff.mp hwork
        exact (htracked.sound.serves (Account.serves_perm hperm)).mono
          fun x paneId hrequested => (hinherits x paneId hrequested).2
      | _ => exact absurd rfl hqueue
  refine ⟨(follow_app app).symm ▸ hsound, fun x hx => ?_⟩
  rw [follow_app]
  refine (hsound.live x).mp ?_
  rw [account, isSome_map]
  exact follow_live hx

theorem Tracked.flow (htracked : client.Tracked) (connectionId : UInt64)
    (paneFlow : ExtTreeMap PaneId TmuxPaneFlowState) (captures : ExtTreeMap PaneId PendingTmuxPaneCapture) :
    (client.withTmux (client.app.tmux.withConnection connectionId
      ({ · with paneFlow := paneFlow, pendingPaneCaptures := captures }))).Tracked := by
  refine ⟨?_, htracked.viewed⟩
  show (account (client.app.tmux.withConnection connectionId _)).Sound _
  rw [account_withConnection (f := ({ · with paneFlow := paneFlow, pendingPaneCaptures := captures }))
    (fun _ => rfl) (fun _ => rfl)]
  exact htracked.sound

theorem Tracked.step (htracked : client.Tracked) {event : ClientStep} (hspares : client.Spares event)
    (h : client.step event = some client') : client'.Tracked := by
  cases event with
  | lifecycle event => exact htracked.lifecycle hspares h
  | drain nowMs connectionId => exact htracked.drain hspares h
  | command connectionId status output =>
    refine htracked.processTmuxControl (fun connection handled hhandled => ?_) h
    rw [← some.inj hhandled]
    exact settles_command connection status output
  | notification connectionId name arguments =>
    exact htracked.processTmuxControl (fun _ _ => settles_notification) h
  | sync connectionId =>
    rw [← some.inj h]
    exact htracked.sync connectionId
  | capture connectionId paneId =>
    obtain ⟨happ, hviews, hrequests⟩ := applyCapture_some h
    refine ⟨?_, fun x hx => happ ▸ htracked.viewed x (hviews x hx)⟩
    rw [happ]
    exact htracked.sound.mono fun x p hrequested => (hrequests x p hrequested).1
  | flow connectionId paneFlow captures =>
    rw [← some.inj h]
    exact htracked.flow connectionId paneFlow captures

theorem Tracked.new : new.Tracked where
  sound := by
    refine ⟨ConnectionHierarchy.Forest.new, fun id => ?_, forall_mem_nil _,
      fun id owed howed => ?_, fun id paneId hlive => ?_⟩
    · exact iff_of_false Bool.false_ne_true Bool.false_ne_true
    · cases howed
    · cases hlive
  viewed id hid := by cases hid

theorem Tracked.accounted (htracked : client.Tracked) : client.Accounted := by
  intro connectionId connection hconnection
  have howed : (account client.app.tmux).owed connectionId = some (owedBy connection) :=
    congrArg (Option.map owedBy) hconnection
  have hexpected : (account client.app.tmux).outstanding connectionId =
      announced (workOf client.app.tmux.pendingTmuxCommands) connectionId ++ connection.expectedReplies := by
    rw [Account.outstanding, howed]
    rfl
  refine ⟨?_, fun paneId hrequested => ?_⟩
  · have hcounted := htracked.sound.counted connectionId _ howed
    rw [hexpected, inventories, count_append] at hcounted
    rw [← inventories_announced]
    exact hcounted
  · have hlive := (htracked.sound.live connectionId).mp (isSome_iff_exists.mpr ⟨_, howed⟩)
    have hcovered := htracked.sound.covered connectionId paneId hlive hrequested
    rw [hexpected, bootstraps_append, bootstraps_announced] at hcovered
    exact bootstraps_append.mpr hcovered

/-- **Nothing is orphaned** in a run that loses no command that announces work which is waited for. -/
theorem run_accounted {events : List ClientStep} {client : Client}
    (spares : PartialRun.Meets Client.step Client.Spares Client.new events)
    (h : run Client.step Client.new events = some client) : client.Accounted :=
  (run_invariant_of_meets (P := Tracked) (fun _ _ _ hs hevent hstep => hs.step hevent hstep)
    .new spares h).accounted

end Client

/-! ## Two runs -/

def enteredCommand : PendingTmuxCommand := ⟨1, ascii "x\n", [.userCommand "x" true], .ordinary⟩

def startedCommands : List PendingTmuxCommand :=
  (App.startCommands 1 ⟨24, 80, 0, 0⟩ ⟨[], .new, []⟩).pendingTmuxCommands

def queueing (commands : List PendingTmuxCommand) : ClientStep := .lifecycle (.pending commands [])

def drains (rounds : Nat) : List ClientStep := List.replicate rounds (.drain 0 1)

def rejections (count : Nat) : List ClientStep := List.replicate count (.command 1 .error [])

def rejectedInventory : List ClientStep :=
  (rootBytes startMarker 2).map .lifecycle ++ drains 15 ++ rejections 16 ++ drains 12

/-- The commands of the user leave no room for the second attempt. -/
def crowdedInventory : List ClientStep :=
  (rootBytes startMarker 2).map .lifecycle ++
    queueing (startedCommands ++ List.replicate 497 enteredCommand) :: drains 512 ++ rejections 15 ++
    queueing (List.replicate 15 enteredCommand) :: drains 14 ++ rejections 1 ++ drains 2

namespace Client

/-- A condition that implies `Spares`: nothing is lost. -/
def quiet (client : Client) : ClientStep → Bool
  | .lifecycle event => (client.app.recovers event).isNone
  | .drain _ _ =>
    match client.app.tmux.pendingTmuxCommands with
    | [] => true
    | command :: rest =>
      match { client.app.tmux with pendingTmuxCommands := rest }.routeTmuxCommand command with
      | .ok (some _) => true
      | _ => false
  | _ => true

theorem spares_of_quiet (client : Client) (event : ClientStep) (h : client.quiet event) :
    client.Spares event := by
  cases event with
  | lifecycle event =>
    intro root affected hrecovers
    rw [quiet, hrecovers] at h
    cases h
  | drain nowMs root =>
    intro command rest hpending _ hroom
    rw [quiet, hpending] at h
    dsimp only at h
    split at h
    · rename_i result hroute
      exact absurd (TmuxApp.room_of_route hroute).1 hroom
    · cases h
  | _ => trivial

set_option maxRecDepth 4000 in
theorem run_accounted_rejected : ∃ client, run step new rejectedInventory = some client ∧
      (client.app.tmux.connection 1).any (·.inventoryRepliesRemaining = 12) ∧ client.Accounted := by
  have hrun : (run step new rejectedInventory).any fun client =>
      (client.app.tmux.connection 1).any (·.inventoryRepliesRemaining = 12) := by
    decide +kernel
  obtain ⟨client, hclient, hremaining⟩ := (any_eq_true _ _).mp hrun
  have hmeets : PartialRun.Meets step Spares new rejectedInventory :=
    meets_of_checks quiet spares_of_quiet (by decide +kernel)
  exact ⟨client, hclient, hremaining, run_accounted hmeets hclient⟩

set_option maxRecDepth 4000 in
/-- A part of the second inventory is discarded and still counted: the counter never reaches zero again. -/
theorem crowdedInventory_orphans :
    ¬ ∀ client, run step new crowdedInventory = some client → client.Accounted := by
  intro hall
  have hrun : (run step new crowdedInventory).any fun client =>
      (client.app.tmux.connection 1).any fun connection =>
        connection.inventoryRepliesRemaining = 12 ∧ inventories connection.expectedReplies = 0 ∧
          inventories (announced client.app.tmux.pendingTmuxCommands 1) = 11 := by
    decide +kernel
  obtain ⟨client, hclient, hconnection⟩ := (any_eq_true _ _).mp hrun
  obtain ⟨connection, hsome, hcounts⟩ := (any_eq_true _ _).mp hconnection
  obtain ⟨hremaining, hexpected, hpending⟩ := of_decide_eq_true hcounts
  have hcounted := (hall client hclient 1 connection hsome).1
  rw [hremaining, hexpected, hpending] at hcounted
  cases hcounted

end Client

end Lector.Lifecycle
