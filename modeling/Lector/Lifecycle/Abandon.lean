import Lector.Gateway.Brackets
import Lector.Lifecycle.Teardown

/-! The one deadline that all connections share, and when it ends every connection that waits for it. -/
namespace Lector.Lifecycle
open Std SortedMap Gateway Tmux Output Foundations Relation List ConnectionHierarchy
  NestedTmuxGatewayState ExtTreeMap PartialRun Bool
open Option hiding all_eq_true

/-! ## What a run shows -/

namespace App

variable (app : App)

/-- The connection whose deadline a step arms: an abandon is confirmed, or a recovery begins. -/
def arms : Step → Option UInt64
  | .answer _ confirmed => do
    let confirmation ← app.pendingGatewayConfirmation
    if confirmed ∧ app.hierarchy.contains confirmation.connectionId then
      some confirmation.connectionId
    else none
  | .handle _ _ =>
    match app.gatewayEvents with
    | .connectionFailed connectionId reason :: _ =>
      if isProtocolFailure reason ∧ app.tmuxGateway.lifecycleState = .recovering ∧
          app.hierarchy.contains connectionId then some connectionId
      else none
    | _ => none
  | .handleNested _ _ _ key => do
    let gateway ← app.nestedTmuxGateways[key]?
    match gateway.events with
    | .connectionFailed localConnectionId reason :: _ => do
      let connectionId ← gateway.globalConnectionId localConnectionId
      if isProtocolFailure reason ∧ gateway.router.lifecycleState = .recovering ∧
          app.hierarchy.contains connectionId then some connectionId
      else none
    | _ => none
  | _ => none

def Recovering (connectionId : UInt64) : Prop :=
  (app.hierarchy.origin connectionId = some .direct ∧ app.tmuxGateway.lifecycleState = .recovering) ∨
    ∃ (key : GatewayKey) (gateway : NestedTmuxGatewayState), app.nestedTmuxGateways[key]? = some gateway ∧
      gateway.activeGlobalConnectionId = some connectionId ∧
      gateway.router.lifecycleState = .recovering

/-- A deadline is armed, and when it expires the connection ends. -/
def WillEnd (connectionId : UInt64) : Prop :=
  ∃ pending, app.pendingForceAbandon = some pending ∧ ∀ nowMs, pending.deadlineMs ≤ nowMs →
    ∃ app', app.step (.expireForceAbandon nowMs) = some app' ∧ app'.hierarchy.contains connectionId = false

end App

/-- `armed` are the connections that live and have had a deadline armed. -/
structure Watched where
  app : App
  armed : List UInt64

namespace Watched

def new : Watched := ⟨.new, []⟩

def step (s : Watched) (event : Step) : Option Watched := do
  let app ← s.app.step event
  some ⟨app, ((s.app.arms event).toList ++ s.armed).filter app.hierarchy.contains⟩

/-- Where the deadline is armed anew, its connection carries all that wait, and no teardown begins.
-/
def Unshared (s : Watched) (event : Step) : Prop :=
  (∀ connectionId, s.app.arms event = some connectionId →
    ∀ id ∈ s.armed, s.app.hierarchy.AtOrBelow id connectionId) ∧
  ((s.app.begun event).isSome → s.armed = [])

end Watched

/-! ## Events that are still to be handled -/

/-- The handling of the events has come to `told`, and the rest leads to where the router is. -/
structure Follows (told : Phase) (router : TmuxGatewayRouter) (events : List GatewayEvent) : Prop where
  path : Path Bracket told events router.phase
  wellFormed : router.WellFormed 1
  names : ∀ event ∈ events, event.Names 1

section Events

variable {told : Phase} {router : TmuxGatewayRouter} {event : GatewayEvent} {events : List GatewayEvent}

theorem Follows.new : Follows .direct .new [] := ⟨.nil _, TmuxGatewayRouter.wellFormed_fresh 1, nofun⟩

theorem Follows.done (h : Follows told router []) : told = router.phase := by
  cases h.path
  rfl

theorem Follows.op (h : Follows told router []) (op : Gateway.Op) :
    Follows told (op.run router).1 (op.run router).2 := by
  refine ⟨?_, h.wellFormed.op op, TmuxGatewayRouter.op_names h.wellFormed op⟩
  rw [h.done]
  exact TmuxGatewayRouter.op_path h.wellFormed op

theorem Follows.push (h : Follows told router []) {bytes : Bytes} {router' : TmuxGatewayRouter}
    (hpush : router.push bytes = (router', .ok events)) : Follows told router' events := by
  have hop := h.op (.push bytes)
  rw [Gateway.Op.run, hpush] at hop
  exact hop

theorem Follows.next (h : Follows told router (event :: events)) :
    ∃ next, Bracket told event next ∧ Follows next router events ∧ event.Names 1 := by
  obtain ⟨path, wellFormed, names⟩ := h
  cases path with
  | cons head tail =>
    obtain ⟨hname, hrest⟩ := forall_mem_cons.mp names
    exact ⟨_, head, ⟨tail, wellFormed, hrest⟩, hname⟩

theorem phase_recovering (h : router.lifecycleState = .recovering) : ∃ id, router.phase = .draining id := by
  rw [TmuxGatewayRouter.lifecycleState] at h
  split at h
  · cases h
  · rename_i active hactive
    split at h
    · rename_i hrecovering
      exact ⟨active.connectionId, phase_draining hactive hrecovering⟩
    · split at h
      · cases h
      · cases h

end Events

/-! ## The invariant -/

/-- Every armed connection lives at or below the one that has the deadline. -/
def Covers (h : ConnectionHierarchy) (deadline : Option PendingForceAbandon) (armed : List UInt64) : Prop :=
  ∀ id ∈ armed, h.contains id ∧ ∃ pending ∈ deadline, h.AtOrBelow id pending.connectionId

/-- A direct connection is the one that the root transport has told of, or its deadline is armed. -/
def RootGate (h : ConnectionHierarchy) (armed : List UInt64) (router : TmuxGatewayRouter)
    (events : List GatewayEvent) : Prop :=
  ∃ told, Follows told router events ∧
    ∀ id, h.origin id = some .direct → id = 1 ∧ (told = .live 1 ∨ id ∈ armed)

/-- A gateway's connection lives, and its transport has told of it or its deadline is armed. -/
def Gate (h : ConnectionHierarchy) (armed : List UInt64) (gateway : NestedTmuxGatewayState) : Prop :=
  ∃ told, Follows told gateway.router gateway.events ∧ ∀ id, gateway.activeGlobalConnectionId = some id →
      h.contains id ∧ gateway.activeLocalConnectionId = some 1 ∧ (told = .live 1 ∨ id ∈ armed)

def Gates (h : ConnectionHierarchy) (armed : List UInt64)
    (gateways : ExtTreeMap GatewayKey NestedTmuxGatewayState) : Prop :=
  ∀ (key : GatewayKey) (gateway : NestedTmuxGatewayState), gateways[key]? = some gateway →
    Gate h armed gateway

structure Guarded (app : App) (armed : List UInt64) : Prop where
  forest : app.hierarchy.Forest
  covers : Covers app.hierarchy app.pendingForceAbandon armed
  root : RootGate app.hierarchy armed app.tmuxGateway app.gatewayEvents
  gates : Gates app.hierarchy armed app.nestedTmuxGateways

section Frames

variable {h h' : ConnectionHierarchy} {armed armed' removed : List UInt64}
  {router : TmuxGatewayRouter} {events : List GatewayEvent} {gateway gateway' : NestedTmuxGatewayState}

theorem RootGate.mono (hgate : RootGate h armed router events)
    (horigin : ∀ id, h'.origin id = some .direct → h.origin id = some .direct)
    (harmed : ∀ id ∈ armed, h'.contains id → id ∈ armed') : RootGate h' armed' router events := by
  obtain ⟨told, hfollows, hdirect⟩ := hgate
  refine ⟨told, hfollows, fun id hid => ?_⟩
  obtain ⟨hfirst, htold⟩ := hdirect id (horigin id hid)
  have hlive := contains_iff_origin.mpr ⟨_, hid⟩
  exact ⟨hfirst, htold.imp_right fun hmem => harmed id hmem hlive⟩

theorem Gate.mono (hgate : Gate h armed gateway) (hrouter : gateway'.router = gateway.router)
    (hevents : gateway'.events = gateway.events)
    (hactive : ∀ id, gateway'.activeGlobalConnectionId = some id →
      gateway.activeGlobalConnectionId = some id ∧
      gateway'.activeLocalConnectionId = gateway.activeLocalConnectionId ∧ (h.contains id → h'.contains id))
    (harmed : ∀ id ∈ armed, h'.contains id → id ∈ armed') : Gate h' armed' gateway' := by
  obtain ⟨told, hfollows, hcarries⟩ := hgate
  refine ⟨told, by rwa [hrouter, hevents], fun id hid => ?_⟩
  obtain ⟨hid, hlocal, hkeeps⟩ := hactive id hid
  obtain ⟨hlive, hfirst, htold⟩ := hcarries id hid
  exact ⟨hkeeps hlive, hlocal.trans hfirst, htold.imp_right fun hmem => harmed id hmem (hkeeps hlive)⟩

theorem forget_router (gateway : NestedTmuxGatewayState) (removed : List UInt64) :
    (gateway.forget removed).router = gateway.router := by
  rw [forget]
  split
  · rfl
  · rfl

theorem forget_events (gateway : NestedTmuxGatewayState) (removed : List UInt64) :
    (gateway.forget removed).events = gateway.events := by
  rw [forget]
  split
  · rfl
  · rfl

theorem Gate.idle (hfollows : ∃ told, Follows told gateway.router gateway.events)
    (hnone : gateway.activeGlobalConnectionId = none) : Gate h armed gateway := by
  obtain ⟨told, hfollows⟩ := hfollows
  refine ⟨told, hfollows, fun id hid => ?_⟩
  rw [hnone] at hid
  cases hid

theorem Gate.follows (hgate : Gate h armed gateway) : ∃ told, Follows told gateway.router gateway.events := by
  obtain ⟨told, hfollows, -⟩ := hgate
  exact ⟨told, hfollows⟩

theorem mem_survivors (id : UInt64) (hmem : id ∈ armed) (hlive : h'.contains id) :
    id ∈ armed.filter h'.contains := mem_filter.mpr ⟨hmem, hlive⟩

theorem Gates.mono {gateways : ExtTreeMap GatewayKey NestedTmuxGatewayState}
    (hgates : Gates h armed gateways) (hkeeps : ∀ id, h.contains id → h'.contains id)
    (harmed : ∀ id ∈ armed, h'.contains id → id ∈ armed') : Gates h' armed' gateways :=
  fun key gateway hgateway => (hgates key gateway hgateway).mono rfl rfl
    (fun id hid => ⟨hid, rfl, hkeeps id⟩) harmed

end Frames

/-! ## Ends -/

namespace App

/-- Connections are gone, and what they had to do with gateways. -/
structure Ends (app : App) (removed : List UInt64) (app' : App) : Prop where
  shrinks : app.hierarchy.Shrinks removed app'.hierarchy
  tmuxGateway : app'.tmuxGateway = app.tmuxGateway
  gatewayEvents : app'.gatewayEvents = app.gatewayEvents
  abandon : ∀ pending ∈ app.pendingForceAbandon, pending.connectionId ∉ removed →
    pending ∈ app'.pendingForceAbandon
  nested : ∀ (key : GatewayKey) (gateway' : NestedTmuxGatewayState),
    app'.nestedTmuxGateways[key]? = some gateway' →
    ∃ gateway, app.nestedTmuxGateways[key]? = some gateway ∧ gateway' = gateway.forget removed

variable {app app' : App} {removed armed : List UInt64} {connectionId : UInt64}

section

variable (h : app.Ends removed app')
include h

theorem Ends.covers (hcovers : Covers app.hierarchy app.pendingForceAbandon armed) :
    Covers app'.hierarchy app'.pendingForceAbandon (armed.filter app'.hierarchy.contains) := by
  intro id hmem
  obtain ⟨hmem, hlive⟩ := mem_filter.mp hmem
  obtain ⟨-, pending, hpending, hat⟩ := hcovers id hmem
  obtain ⟨hat, hout⟩ := h.shrinks.atOrBelow (h.shrinks.contains_iff.mp hlive).2 hat
  exact ⟨hlive, pending, h.abandon pending hpending hout, hat⟩

theorem Ends.origin {id : UInt64} {origin : GatewayOrigin}
    (horigin : app'.hierarchy.origin id = some origin) : app.hierarchy.origin id = some origin := by
  rw [h.shrinks.rest id] at horigin
  split at horigin
  · cases horigin
  · exact horigin

theorem Ends.gate {gateway : NestedTmuxGatewayState} (hgate : Gate app.hierarchy armed gateway) :
    Gate app'.hierarchy (armed.filter app'.hierarchy.contains) (gateway.forget removed) := by
  rw [NestedTmuxGatewayState.forget]
  split
  · exact Gate.idle hgate.follows rfl
  · rename_i hkept
    refine hgate.mono rfl rfl (fun id hid => ⟨hid, rfl, fun hlive => ?_⟩) mem_survivors
    refine h.shrinks.contains_iff.mpr ⟨hlive, fun hmem => hkept ?_⟩
    rw [hid]
    exact decide_eq_true hmem

theorem Ends.gates (hgates : Gates app.hierarchy armed app.nestedTmuxGateways) :
    Gates app'.hierarchy (armed.filter app'.hierarchy.contains) app'.nestedTmuxGateways := by
  intro key gateway' hgateway'
  obtain ⟨gateway, hgateway, rfl⟩ := h.nested key gateway' hgateway'
  exact h.gate (hgates key gateway hgateway)

end

theorem of_forgotten {gateways : ExtTreeMap GatewayKey NestedTmuxGatewayState}
    {keep : GatewayKey → NestedTmuxGatewayState → Bool} {key : GatewayKey} {gateway' : NestedTmuxGatewayState}
    (h : ((gateways.map fun _ gateway => gateway.forget removed).filter keep)[key]? = some gateway') :
    ∃ gateway : NestedTmuxGatewayState, gateways[key]? = some gateway ∧ gateway' = gateway.forget removed := by
  rw [getElem?_filter', filter_eq_some_iff, ExtTreeMap.getElem?_map, map_eq_some_iff] at h
  obtain ⟨⟨gateway, hgateway, rfl⟩, -⟩ := h
  exact ⟨gateway, hgateway, rfl⟩

theorem endTmuxConnection_ends (h : app.endTmuxConnection connectionId = some app')
    (forest : app.hierarchy.Forest) : ∃ removed, app.Ends removed app' ∧
      ∀ id, app'.hierarchy.contains id → ¬ app.hierarchy.AtOrBelow id connectionId := by
  obtain ⟨removed, hierarchy, hshrinks, hexact, heq⟩ := endTmuxConnection_eq forest connectionId
  obtain rfl := some.inj (heq.symm.trans h)
  have hsame := sameGateways_advance (afterRemoval
    { app with pendingForceAbandon := app.pendingForceAbandon.filter (·.connectionId ∉ removed) }
    removed hierarchy)
  have hhierarchy : _ = hierarchy := hsame.hierarchy
  rw [← hhierarchy] at hshrinks
  refine ⟨removed, ⟨hshrinks, hsame.tmuxGateway, hsame.gatewayEvents, ?_, ?_⟩, ?_⟩
  · intro pending hpending hout
    rw [hsame.abandon]
    exact filter_eq_some_iff.mpr ⟨hpending, decide_eq_true hout⟩
  · intro key gateway' hgateway'
    rw [hsame.nested] at hgateway'
    exact of_forgotten hgateway'
  · intro id hlive hat
    exact (hshrinks.contains_iff.mp hlive).2 ((hexact id).mpr hat)

theorem failTmuxConnection_ends (h : app.failTmuxConnection connectionId = some app')
    (forest : app.hierarchy.Forest) : ∃ removed, app.Ends removed app' ∧
      ∀ id, app'.hierarchy.contains id → ¬ app.hierarchy.AtOrBelow id connectionId := by
  rw [failTmuxConnection] at h
  split at h
  · exact endTmuxConnection_ends h forest
  · rename_i hgone
    cases h
    refine ⟨[], ⟨.refl forest, rfl, rfl, fun _ hpending _ => hpending, ?_⟩, ?_⟩
    · intro key gateway hgateway
      refine ⟨gateway, hgateway, ?_⟩
      rw [NestedTmuxGatewayState.forget]
      simp
    · exact fun id hlive hat => hgone (forest.contains_root hlive hat)

end App

/-! ## One step -/

section Steps

open App

variable {app app' : App} {armed removed : List UInt64} {connectionId : UInt64}

theorem Guarded.ends (hguarded : Guarded app armed) (h : app.Ends removed app') :
    Guarded app' (armed.filter app'.hierarchy.contains) where
  forest := h.shrinks.forest
  covers := h.covers hguarded.covers
  root := by
    rw [h.tmuxGateway, h.gatewayEvents]
    exact hguarded.root.mono (fun _ => h.origin) mem_survivors
  gates := h.gates hguarded.gates

theorem Guarded.survivors (hguarded : Guarded app armed) : armed.filter app.hierarchy.contains = armed :=
  filter_eq_self.mpr fun id hmem => (hguarded.covers id hmem).1

theorem Guarded.kept (hguarded : Guarded app armed) : Guarded app (armed.filter app.hierarchy.contains) := by
  rwa [hguarded.survivors]

theorem Guarded.unarmed {event : Step} (hguarded : Guarded app' (armed.filter app'.hierarchy.contains))
    (h : app.arms event = none) :
    Guarded app' (((app.arms event).toList ++ armed).filter app'.hierarchy.contains) := by
  rwa [h, toList_none, nil_append]

theorem Guarded.same (hguarded : Guarded app armed) (h : SameGateways app app') : Guarded app' armed := by
  obtain ⟨forest, covers, root, gates⟩ := hguarded
  refine ⟨?_, ?_, ?_, ?_⟩
  · rwa [h.hierarchy]
  · rwa [h.hierarchy, h.abandon]
  · rwa [h.hierarchy, h.tmuxGateway, h.gatewayEvents]
  · rwa [h.hierarchy, h.nested]

variable {h h' : ConnectionHierarchy}

theorem covers_grows {origin : GatewayOrigin}
    {deadline : Option PendingForceAbandon} (hcovers : Covers h deadline armed)
    (hgrows : h.Grows connectionId origin h') : Covers h' deadline (armed.filter h'.contains) := by
  intro id hmem
  obtain ⟨hmem, hlive⟩ := mem_filter.mp hmem
  obtain ⟨-, pending, hpending, hat⟩ := hcovers id hmem
  exact ⟨hlive, pending, hpending, hgrows.atOrBelow hat⟩

theorem mem_armed (hlive : h.contains connectionId) :
    connectionId ∈ (connectionId :: armed).filter h.contains :=
  mem_filter.mpr ⟨mem_cons_self, hlive⟩

theorem Guarded.arm (hguarded : Guarded app armed) {tmux : TmuxApp}
    (input : List PendingDirectGatewayInput) (deadlineMs : Nat)
    (htmux : tmux.hierarchy = app.hierarchy) (hall : ∀ id ∈ armed, app.hierarchy.AtOrBelow id connectionId) :
    Guarded { app with
      tmux := tmux
      pendingDirectGatewayInput := input
      pendingForceAbandon := some ⟨connectionId, deadlineMs⟩ }
      ((connectionId :: armed).filter tmux.hierarchy.contains) := by
  have hkeeps : ∀ id ∈ armed, app.hierarchy.contains id →
      id ∈ (connectionId :: armed).filter app.hierarchy.contains :=
    fun id hmem hid => mem_filter.mpr ⟨mem_cons_of_mem _ hmem, hid⟩
  refine ⟨?_, ?_, ?_, ?_⟩
  · show tmux.hierarchy.Forest
    rw [htmux]
    exact hguarded.forest
  · show Covers tmux.hierarchy _ _
    rw [htmux]
    intro id hmem
    obtain ⟨hmem, hid⟩ := mem_filter.mp hmem
    refine ⟨hid, ⟨connectionId, deadlineMs⟩, rfl, ?_⟩
    rcases mem_cons.mp hmem with rfl | hmem
    · exact .refl
    · exact hall id hmem
  · show RootGate tmux.hierarchy _ _ _
    rw [htmux]
    exact hguarded.root.mono (fun _ hid => hid) hkeeps
  · show Gates tmux.hierarchy _ _
    rw [htmux]
    exact hguarded.gates.mono (fun _ hid => hid) hkeeps

theorem Guarded.rootEnds (hguarded : Guarded app armed) {told : Phase} {rest : List GatewayEvent}
    (hrest : Follows told app.tmuxGateway rest) (h : Ends { app with gatewayEvents := rest } removed app')
    (hgone : ∀ id, app'.hierarchy.contains id → ¬ app.hierarchy.AtOrBelow id 1) :
    Guarded app' (armed.filter app'.hierarchy.contains) where
  forest := h.shrinks.forest
  covers := h.covers hguarded.covers
  root := by
    obtain ⟨_, -, hdirect⟩ := hguarded.root
    rw [h.tmuxGateway, h.gatewayEvents]
    refine ⟨told, hrest, fun id hid => ?_⟩
    obtain ⟨rfl, -⟩ := hdirect id (h.origin hid)
    exact absurd .refl (hgone 1 (contains_iff_origin.mpr ⟨_, hid⟩))
  gates := h.gates hguarded.gates

variable {nowMs : Nat}

theorem Guarded.handle (hguarded : Guarded app armed) {geometry : TerminalGeometry}
    (unshared : ∀ connectionId, app.arms (.handle nowMs geometry) = some connectionId →
      ∀ id ∈ armed, app.hierarchy.AtOrBelow id connectionId)
    (h : app.handleNext nowMs geometry = some app') :
    Guarded app' (((app.arms (.handle nowMs geometry)).toList ++ armed).filter
      app'.hierarchy.contains) := by
  rw [handleNext] at h
  split at h
  · cases h
  · rename_i event rest hevents
    obtain ⟨told, hfollows, hdirect⟩ := hguarded.root
    rw [hevents] at hfollows
    obtain ⟨next, hbracket, hrest, hname⟩ := hfollows.next
    cases event with
    | directOutput bytes =>
      cases h
      cases hbracket
      have hafter : Guarded { app with gatewayEvents := rest } armed :=
        ⟨hguarded.forest, hguarded.covers, ⟨_, hrest, hdirect⟩, hguarded.gates⟩
      exact hafter.kept.unarmed (by simp only [arms, hevents])
    | control id control =>
      cases h
      cases hbracket
      have hafter : Guarded { app with gatewayEvents := rest } armed :=
        ⟨hguarded.forest, hguarded.covers, ⟨_, hrest, hdirect⟩, hguarded.gates⟩
      exact hafter.kept.unarmed (by simp only [arms, hevents])
    | connectionStarted id =>
      obtain rfl : id = 1 := hname
      obtain ⟨hgrows, tmux, rfl⟩ := startTmuxConnection_some h hguarded.forest
      refine Guarded.unarmed ?_ (by simp only [arms, hevents])
      refine ⟨hgrows.forest, covers_grows hguarded.covers hgrows, ?_, ?_⟩
      · cases hbracket
        refine ⟨.live 1, hrest, fun x hx => ⟨?_, .inl rfl⟩⟩
        rw [hgrows.rest x] at hx
        split at hx
        · rename_i hone
          exact hone.symm
        · exact (hdirect x hx).1
      · exact hguarded.gates.mono (fun x hx => hgrows.contains_iff.mpr (.inr hx)) mem_survivors
    | connectionEnded id =>
      obtain rfl : id = 1 := hname
      obtain ⟨removed, hends, hgone⟩ := endTmuxConnection_ends h hguarded.forest
      exact (hguarded.rootEnds hrest hends hgone).unarmed (by simp only [arms, hevents])
    | connectionFailed id reason =>
      obtain rfl : id = 1 := hname
      rw [handleTmuxGatewayEvent] at h
      split at h
      · rename_i hrecovers
        rcases beginTmuxProtocolRecovery_some h with ⟨hgone, rfl⟩ | ⟨hlive, tmux, input, htmux, rfl⟩
        · have harms : app.arms (.handle nowMs geometry) = none := by
            simp only [arms, hevents]
            exact if_neg fun hall => Bool.noConfusion (hall.2.2.symm.trans hgone)
          refine Guarded.unarmed (Guarded.kept ?_) harms
          refine ⟨hguarded.forest, hguarded.covers, ⟨next, hrest, fun id hid => ?_⟩, hguarded.gates⟩
          obtain ⟨rfl, -⟩ := hdirect id hid
          have hlive := contains_iff_origin.mpr ⟨_, hid⟩
          cases hlive.symm.trans hgone
        · have harms : app.arms (.handle nowMs geometry) = some 1 := by
            simp only [arms, hevents]
            exact if_pos ⟨hrecovers.1, hrecovers.2, hlive⟩
          rw [harms]
          have harmed := hguarded.arm input (after nowMs tmuxForceAbandonGraceMs) htmux (unshared 1 harms)
          refine ⟨harmed.forest, harmed.covers, ⟨next, hrest, fun id hid => ?_⟩, harmed.gates⟩
          obtain ⟨rfl, -⟩ := hdirect id (htmux ▸ hid)
          exact ⟨rfl, .inr (mem_armed (contains_iff_origin.mpr ⟨_, hid⟩))⟩
      · rename_i hfails
        have harms : app.arms (.handle nowMs geometry) = none := by
          simp only [arms, hevents]
          exact if_neg fun hall => hfails ⟨hall.1, hall.2.1⟩
        obtain ⟨removed, hends, hgone⟩ := failTmuxConnection_ends h hguarded.forest
        exact (hguarded.rootEnds hrest hends hgone).unarmed harms

variable {key : GatewayKey} {f : NestedTmuxGatewayState → NestedTmuxGatewayState}
  {gateway : NestedTmuxGatewayState}

section

variable (hguarded : Guarded app armed)
include hguarded

theorem Guarded.modify
    (hgate : ∀ gateway : NestedTmuxGatewayState, app.nestedTmuxGateways[key]? = some gateway →
      Gate app.hierarchy armed (f gateway)) :
    Guarded (app.modifyGateway key f) armed := by
  refine ⟨hguarded.forest, hguarded.covers, hguarded.root, fun key' gateway' hgateway' => ?_⟩
  rcases of_getElem?_modify hgateway' with ⟨-, gateway, hgateway, rfl⟩ | ⟨-, hother⟩
  · exact hgate gateway hgateway
  · exact hguarded.gates key' gateway' hother

theorem Guarded.modifyOne (hgateway : app.nestedTmuxGateways[key]? = some gateway)
    (hgate : Gate app.hierarchy armed (f gateway)) : Guarded (app.modifyGateway key f) armed :=
  hguarded.modify fun _ hgateway' => some.inj (hgateway'.symm.trans hgateway) ▸ hgate

theorem Guarded.clear
    (hf : ∀ gateway, (f gateway).router = gateway.router ∧ (f gateway).events = gateway.events ∧
      (f gateway).activeGlobalConnectionId = none) :
    Guarded (app.modifyGateway key f) armed := by
  refine hguarded.modify fun gateway hgateway => ?_
  obtain ⟨hrouter, hevents, hnone⟩ := hf gateway
  refine Gate.idle ?_ hnone
  rw [hrouter, hevents]
  exact (hguarded.gates key gateway hgateway).follows

theorem Guarded.gateEnds
    (hgateway : app.nestedTmuxGateways[key]? = some gateway) (h : Ends (app.modifyGateway key f) removed app')
    (hgate : Gate app'.hierarchy (armed.filter app'.hierarchy.contains) ((f gateway).forget removed)) :
    Guarded app' (armed.filter app'.hierarchy.contains) := by
  refine ⟨h.shrinks.forest, h.covers hguarded.covers, ?_, fun key' gateway' hgateway' => ?_⟩
  · rw [h.tmuxGateway, h.gatewayEvents]
    exact hguarded.root.mono (fun _ => h.origin) mem_survivors
  · obtain ⟨middle, hmiddle, rfl⟩ := h.nested key' gateway' hgateway'
    rcases of_getElem?_modify hmiddle with ⟨-, before, hbefore, rfl⟩ | ⟨-, hother⟩
    · rwa [some.inj (hbefore.symm.trans hgateway)]
    · exact h.gate (hguarded.gates key' middle hother)

end

theorem forget_gone (h : app.Ends removed app')
    (hgone : ∀ id, app'.hierarchy.contains id → ¬ app.hierarchy.AtOrBelow id connectionId)
    (hactive : gateway.activeGlobalConnectionId = some connectionId)
    (hlive : app.hierarchy.contains connectionId) :
    (gateway.forget removed).activeGlobalConnectionId = none := by
  have hmem : connectionId ∈ removed := by
    by_contra hout
    exact hgone connectionId (h.shrinks.contains_iff.mpr ⟨hlive, hout⟩) .refl
  rw [NestedTmuxGatewayState.forget, if_pos]
  rw [hactive]
  exact decide_eq_true hmem

theorem globalConnectionId_some {id : UInt64} (h : gateway.globalConnectionId id = some connectionId) :
    gateway.activeGlobalConnectionId = some connectionId := by
  rw [globalConnectionId, ite_none_right_eq_some] at h
  exact h.2

theorem Guarded.handleNested (hguarded : Guarded app armed) {geometry : TerminalGeometry} {portal : Bool}
    (unshared : ∀ connectionId, app.arms (.handleNested nowMs geometry portal key) = some connectionId →
      ∀ id ∈ armed, app.hierarchy.AtOrBelow id connectionId)
    (h : app.handleNextNested nowMs geometry portal key = some app') :
    Guarded app' (((app.arms (.handleNested nowMs geometry portal key)).toList ++ armed).filter
      app'.hierarchy.contains) := by
  simp only [handleNextNested, bind_eq_bind, bind_eq_some_iff] at h
  obtain ⟨gateway, hgateway, h⟩ := h
  split at h
  · cases h
  · rename_i event rest hevents
    obtain ⟨told, hfollows, hcarries⟩ := hguarded.gates key gateway hgateway
    rw [hevents] at hfollows
    obtain ⟨next, hbracket, hrest, hname⟩ := hfollows.next
    -- the active connection ends, and the rest of the events is still to come
    have hended : ∀ connectionId {removed : List UInt64} {after : App},
        gateway.globalConnectionId 1 = some connectionId →
        Ends (app.modifyGateway key ({ · with events := rest })) removed after →
        (∀ id, after.hierarchy.contains id → ¬ app.hierarchy.AtOrBelow id connectionId) →
        Guarded after (armed.filter after.hierarchy.contains) := by
      intro connectionId removed after hglobal hends hgone
      refine hguarded.gateEnds hgateway hends ?_
      have hactive := globalConnectionId_some hglobal
      refine Gate.idle ⟨next, ?_⟩ (forget_gone hends hgone hactive (hcarries connectionId hactive).1)
      rw [forget_router, forget_events]
      exact hrest
    cases event with
    | directOutput bytes =>
      cases h
      cases hbracket
      have hafter := hguarded.modifyOne (f := ({ · with events := rest })) hgateway ⟨_, hrest, hcarries⟩
      exact hafter.kept.unarmed (by simp only [arms, hgateway, bind_eq_bind, bind_some, hevents])
    | control id control =>
      rw [handleNestedGatewayEvent] at h
      split at h
      · cases h
      · cases h
        cases hbracket
        have hafter := hguarded.modifyOne (f := ({ · with events := rest })) hgateway ⟨_, hrest, hcarries⟩
        exact hafter.kept.unarmed (by simp only [arms, hgateway, bind_eq_bind, bind_some, hevents])
    | connectionStarted id =>
      obtain rfl : id = 1 := hname
      simp only [handleNestedGatewayEvent, bind_eq_bind, bind_eq_some_iff] at h
      obtain ⟨connectionId, -, place, -, hstart⟩ := h
      obtain ⟨hgrows, tmux, rfl⟩ := startTmuxConnection_some hstart hguarded.forest
      refine Guarded.unarmed ?_ (by simp only [arms, hgateway, bind_eq_bind, bind_some, hevents])
      have hkeeps : ∀ id, app.hierarchy.contains id → tmux.hierarchy.contains id :=
        fun id hid => hgrows.contains_iff.mpr (.inr hid)
      refine ⟨hgrows.forest, covers_grows hguarded.covers hgrows, ?_, fun key' gateway' hgateway' => ?_⟩
      · refine hguarded.root.mono (fun id hid => ?_) mem_survivors
        rw [hgrows.rest id] at hid
        split at hid
        · cases hid
        · exact hid
      · rcases of_getElem?_modify hgateway' with ⟨-, middle, hmiddle, rfl⟩ | ⟨hne, hother⟩
        · rcases of_getElem?_modify hmiddle with ⟨-, before, hbefore, rfl⟩ | ⟨hne, -⟩
          · obtain rfl := some.inj (hbefore.symm.trans hgateway)
            cases hbracket
            refine ⟨.live 1, hrest, fun id hid => ?_⟩
            cases hid
            exact ⟨hgrows.contains_iff.mpr (.inl rfl), rfl, .inl rfl⟩
          · exact absurd rfl hne
        · rcases of_getElem?_modify hother with ⟨rfl, -⟩ | ⟨-, hother⟩
          · exact absurd rfl hne
          · exact (hguarded.gates key' gateway' hother).mono rfl rfl
              (fun id hid => ⟨hid, rfl, hkeeps id⟩) mem_survivors
    | connectionEnded id =>
      obtain rfl : id = 1 := hname
      simp only [handleNestedGatewayEvent, bind_eq_bind, bind_eq_some_iff, some.injEq] at h
      obtain ⟨connectionId, hglobal, after, hend, rfl⟩ := h
      obtain ⟨removed, hends, hgone⟩ := endTmuxConnection_ends hend hguarded.forest
      refine Guarded.unarmed ?_ (by simp only [arms, hgateway, bind_eq_bind, bind_some, hevents])
      exact (hended connectionId hglobal hends hgone).clear fun _ => ⟨rfl, rfl, rfl⟩
    | connectionFailed id reason =>
      obtain rfl : id = 1 := hname
      have hkept : ∀ {after : App} {armed' : List UInt64}, Guarded after armed' →
          (if gateway.router.lifecycleState = .recovering then some after
            else some (after.modifyGateway key ({ · with
              activeLocalConnectionId := none
              activeGlobalConnectionId := none
              terminationDeadlineMs := none }))) = some app' →
          Guarded app' armed' ∧ app'.hierarchy = after.hierarchy := by
        intro after armed' hafter h
        split at h
        · cases h
          exact ⟨hafter, rfl⟩
        · cases h
          exact ⟨hafter.clear fun _ => ⟨rfl, rfl, rfl⟩, rfl⟩
      simp only [handleNestedGatewayEvent] at h
      split at h
      · rename_i hnone
        have harms : app.arms (.handleNested nowMs geometry portal key) = none := by
          simp only [arms, hgateway, bind_eq_bind, bind_some, hevents, hnone, bind_none]
        have hafter : Guarded (app.modifyGateway key ({ · with events := rest })) armed := by
          refine hguarded.modifyOne hgateway ⟨next, hrest, fun id hid => ?_⟩
          have hlocal := (hcarries id hid).2.1
          rw [globalConnectionId, if_pos hlocal, hid] at hnone
          cases hnone
        exact (hkept hafter h).1.kept.unarmed harms
      · rename_i connectionId hglobal
        have hactive := globalConnectionId_some hglobal
        obtain ⟨hlive, hlocal, -⟩ := hcarries connectionId hactive
        split at h
        · rename_i hrecovers
          obtain ⟨after, hafter, h⟩ := bind_eq_some_iff.mp h
          have harms : app.arms (.handleNested nowMs geometry portal key) = some connectionId := by
            simp only [arms, hgateway, bind_eq_bind, bind_some, hevents, hglobal]
            exact if_pos ⟨hrecovers.1, hrecovers.2, hlive⟩
          rcases beginTmuxProtocolRecovery_some hafter with
            ⟨hgone, -⟩ | ⟨-, tmux, input, htmux, rfl⟩
          · cases hlive.symm.trans hgone
          · rw [if_pos hrecovers.2] at h
            cases h
            rw [harms]
            refine (hguarded.arm input (after nowMs tmuxForceAbandonGraceMs) htmux
              (unshared connectionId harms)).modifyOne hgateway ⟨next, hrest, fun id hid => ?_⟩
            obtain rfl : connectionId = id := some.inj (hactive.symm.trans hid)
            have hlive' := htmux ▸ hlive
            exact ⟨hlive', hlocal, .inr (mem_armed hlive')⟩
        · rename_i hfails
          obtain ⟨after, hafter, h⟩ := bind_eq_some_iff.mp h
          have harms : app.arms (.handleNested nowMs geometry portal key) = none := by
            simp only [arms, hgateway, bind_eq_bind, bind_some, hevents, hglobal]
            exact if_neg fun hall => hfails ⟨hall.1, hall.2.1⟩
          obtain ⟨removed, hends, hgone⟩ := failTmuxConnection_ends hafter hguarded.forest
          obtain ⟨happ', hhierarchy⟩ := hkept (hended connectionId hglobal hends hgone) h
          refine Guarded.unarmed ?_ harms
          rwa [hhierarchy]

theorem idle_root (h : app.idle) : app.gatewayEvents = [] := by
  rw [App.idle, and_eq_true] at h
  exact isEmpty_iff.mp h.1

theorem idle_nested (h : app.idle)
    (hgateway : app.nestedTmuxGateways[key]? = some gateway) : gateway.events = [] := by
  rw [App.idle, and_eq_true, all_eq_true] at h
  exact isEmpty_iff.mp (h.2 (key, gateway) (mem_toList_iff_getElem?_eq_some.mpr hgateway))

section

variable (hguarded : Guarded app armed)
include hguarded

theorem Guarded.withRoot {router : TmuxGatewayRouter}
    {events : List GatewayEvent} {deadline : Option Nat}
    (hroot : ∀ told, Follows told app.tmuxGateway app.gatewayEvents → Follows told router events) :
    Guarded { app with
      tmuxGateway := router
      gatewayEvents := events
      tmuxTerminationDeadlineMs := deadline } armed := by
  obtain ⟨told, hfollows, hdirect⟩ := hguarded.root
  exact ⟨hguarded.forest, hguarded.covers, ⟨told, hroot told hfollows, hdirect⟩, hguarded.gates⟩

theorem Guarded.receive (hidle : app.idle) {bytes : Bytes}
    (h : app.receive nowMs bytes = some app') : Guarded app' armed := by
  rw [App.receive] at h
  split at h
  · cases h
  · rename_i router events hpush
    cases h
    refine hguarded.withRoot fun told hfollows => ?_
    rw [idle_root hidle] at hfollows
    exact hfollows.push hpush

theorem Guarded.receiveNested {bytes : Bytes} (hquiet : app.isQuiet key)
    (h : app.receiveNested nowMs key bytes = some app') : Guarded app' armed := by
  have hgate : Gate app.hierarchy armed (app.nestedTmuxGateways[key]?.getD .new) ∧
      (app.nestedTmuxGateways[key]?.getD .new).events = [] := by
    rw [App.isQuiet] at hquiet
    cases hgateway : app.nestedTmuxGateways[key]? with
    | none => exact ⟨Gate.idle ⟨.direct, .new⟩ rfl, rfl⟩
    | some gateway =>
      rw [hgateway] at hquiet
      exact ⟨hguarded.gates key gateway hgateway, isEmpty_iff.mp hquiet⟩
  rw [App.receiveNested] at h
  split at h
  · cases h
  · dsimp only at h
    obtain ⟨⟨told, hfollows, hcarries⟩, hevents⟩ := hgate
    rw [hevents] at hfollows
    split at h
    · cases h
    · rename_i router events hpush
      cases h
      refine ⟨hguarded.forest, hguarded.covers, hguarded.root, fun key' gateway' hgateway' => ?_⟩
      rcases of_getElem?_insert hgateway' with ⟨-, rfl⟩ | ⟨-, hother⟩
      · exact ⟨told, hfollows.push hpush, hcarries⟩
      · exact hguarded.gates key' gateway' hother

theorem Guarded.answer {confirmed : Bool}
    (unshared : ∀ connectionId, app.arms (.answer nowMs confirmed) = some connectionId →
      ∀ id ∈ armed, app.hierarchy.AtOrBelow id connectionId)
    (h : app.answerGatewayConfirmation nowMs confirmed = some app') :
    Guarded app' (((app.arms (.answer nowMs confirmed)).toList ++ armed).filter
      app'.hierarchy.contains) := by
  rw [answerGatewayConfirmation] at h
  cases hconfirmation : app.pendingGatewayConfirmation with
  | none =>
    rw [hconfirmation] at h
    cases h
    exact hguarded.kept.unarmed (by simp only [arms, hconfirmation, bind_eq_bind, bind_none])
  | some confirmation =>
    rw [hconfirmation] at h
    dsimp only at h
    have harms : app.arms (.answer nowMs confirmed) =
        if confirmed ∧ app.hierarchy.contains confirmation.connectionId then
          some confirmation.connectionId
        else none := by
      simp only [arms, hconfirmation, bind_eq_bind, bind_some]
    split at h
    · rename_i hyes
      rcases acceptGatewayConfirmation_some h with ⟨hgone, rfl⟩ | ⟨hlive, tmux, input, htmux, rfl⟩
      · rw [if_neg fun hall => Bool.noConfusion (hall.2.symm.trans hgone)] at harms
        exact Guarded.unarmed (Guarded.kept (hguarded.same ⟨rfl, rfl, rfl, rfl, rfl⟩)) harms
      · rw [if_pos ⟨hyes, hlive⟩] at harms
        rw [harms]
        exact (hguarded.arm input (after nowMs tmuxForceAbandonGraceMs) htmux
          (unshared confirmation.connectionId harms)).same ⟨rfl, rfl, rfl, rfl, rfl⟩
    · rename_i hno
      cases h
      rw [if_neg fun hall => hno hall.1] at harms
      exact Guarded.unarmed (Guarded.kept (hguarded.same ⟨rfl, rfl, rfl, rfl, rfl⟩)) harms

theorem Guarded.request {action : GatewayControlAction}
    (unshared : (app.begun (.request connectionId action)).isSome → armed = [])
    (h : app.requestTmuxGatewayActionFor connectionId action = some app') : Guarded app' armed := by
  rw [requestTmuxGatewayActionFor.eq_def] at h
  split at h
  · cases h
    exact hguarded
  · cases action with
    | gracefulDetach =>
      simp only [beginGracefulTmuxTeardown, bind_eq_bind, bind_eq_some_iff, some.injEq] at h
      obtain ⟨order, -, rfl⟩ := h
      have hempty : armed = [] := by
        refine unshared ?_
        rw [begun, if_pos]
        · rfl
        · rwa [isSome_iff_ne_none, ne_eq, ← isNone_iff_eq_none]
      have hsame := sameGateways_advance { app with
        pendingForceAbandon := none, pendingGracefulTeardown := some ⟨order, none⟩ }
      refine Guarded.same ?_ hsame
      refine ⟨hguarded.forest, ?_, hguarded.root, hguarded.gates⟩
      rw [hempty]
      exact forall_mem_nil _
    | forceAbandon =>
      simp only [bind_eq_bind, bind_eq_some_iff, some.injEq] at h
      obtain ⟨-, -, rfl⟩ := h
      exact hguarded.same ⟨rfl, rfl, rfl, rfl, rfl⟩

theorem Guarded.expireRoot (hidle : app.idle) (nowMs : Nat) :
    Guarded (app.expireRootTerminator nowMs) armed := by
  rw [expireRootTerminator]
  split
  · refine hguarded.withRoot fun told hfollows => ?_
    rw [idle_root hidle] at hfollows
    exact hfollows.op .expireTermination
  · exact hguarded

end

theorem modifyGateway_twice (app : App) (key : GatewayKey)
    (f g : NestedTmuxGatewayState → NestedTmuxGatewayState) :
    (app.modifyGateway key f).modifyGateway key g = app.modifyGateway key fun gateway => g (f gateway) := by
  have hmap : (app.nestedTmuxGateways.modify key f).modify key g =
      app.nestedTmuxGateways.modify key fun gateway => g (f gateway) := by
    refine ext_getElem? fun key' => ?_
    rw [ExtTreeMap.getElem?_modify, getElem?_modify_self, Option.map_map,
      ExtTreeMap.getElem?_modify, ExtTreeMap.getElem?_modify]
    split
    · rfl
    · rfl
  rw [modifyGateway, modifyGateway, modifyGateway]
  rw [hmap]

theorem Guarded.expireNested (hguarded : Guarded app armed) (hidle : app.idle)
    (h : app.expireNestedTerminator nowMs key = some app') :
    Guarded app' (armed.filter app'.hierarchy.contains) := by
  rcases expireNestedTerminator_some h with rfl | ⟨gateway, next, hgateway, -, rfl, hnext⟩
  · exact hguarded.kept
  · obtain ⟨told, hfollows, hcarries⟩ := hguarded.gates key gateway hgateway
    have hevents := idle_nested hidle hgateway
    have hexpired : ∃ told, Follows told gateway.router.expireTermination.1 gateway.events := by
      rw [hevents]
      exact ⟨_, .nil _, hfollows.wellFormed.op .expireTermination, nofun⟩
    rcases hnext with ⟨rfl, -⟩ | ⟨connectionId, hactive, hfail⟩
    · refine Guarded.kept ?_
      rw [withoutActive, withExpired, modifyGateway_twice]
      exact hguarded.modifyOne hgateway (Gate.idle hexpired rfl)
    · obtain ⟨removed, hends, hgone⟩ := failTmuxConnection_ends hfail hguarded.forest
      refine (hguarded.gateEnds hgateway hends ?_).clear fun _ => ⟨rfl, rfl, rfl⟩
      refine Gate.idle ?_ (forget_gone hends hgone hactive (hcarries connectionId hactive).1)
      rwa [forget_router, forget_events]

theorem nobody_waits (hguarded : Guarded app armed) {pending : PendingForceAbandon}
    (hpending : app.pendingForceAbandon = some pending)
    (hgone : ∀ id, h'.contains id → ¬ app.hierarchy.AtOrBelow id pending.connectionId) :
    armed.filter h'.contains = [] := by
  refine filter_eq_nil_iff.mpr fun id hmem hlive => ?_
  obtain ⟨-, pending', hpending', hat⟩ := hguarded.covers id hmem
  obtain rfl : pending = pending' := some.inj (hpending.symm.trans hpending')
  exact hgone id hlive hat

theorem Guarded.expireAbandon (hguarded : Guarded app armed) (hidle : app.idle)
    (h : app.expireTmuxForceAbandon nowMs = some app') :
    Guarded app' (armed.filter app'.hierarchy.contains) := by
  rw [expireTmuxForceAbandon] at h
  split at h
  · cases h
    exact hguarded.kept
  · rename_i pending hpending
    split at h
    · cases h
      exact hguarded.kept
    · dsimp only at h
      split at h
      · rename_i horigin
        cases h
        have hgone : ∀ id, app.hierarchy.contains id → ¬ app.hierarchy.AtOrBelow id pending.connectionId := by
          intro id hlive hat
          obtain ⟨origin, hsome⟩ := contains_iff_origin.mp (hguarded.forest.contains_root hlive hat)
          cases hsome.symm.trans horigin
        have hnobody := nobody_waits hguarded hpending hgone
        rw [hguarded.survivors] at hnobody
        refine Guarded.kept ⟨hguarded.forest, ?_, hguarded.root, hguarded.gates⟩
        rw [hnobody]
        exact forall_mem_nil _
      · rename_i horigin
        obtain ⟨removed, hends, hgone⟩ := endTmuxConnection_ends h hguarded.forest
        refine ⟨hends.shrinks.forest, ?_, ?_, hends.gates hguarded.gates⟩
        · rw [nobody_waits hguarded hpending hgone]
          exact forall_mem_nil _
        · rw [hends.tmuxGateway, hends.gatewayEvents]
          refine ⟨.direct, ?_, fun id hid => ?_⟩
          · rw [idle_root hidle]
            exact .new
          · obtain ⟨_, -, hdirect⟩ := hguarded.root
            obtain ⟨rfl, -⟩ := hdirect id (hends.origin hid)
            have hone := (hdirect _ horigin).1
            refine absurd ?_ (hgone 1 (contains_iff_origin.mpr ⟨_, hid⟩))
            rw [hone]
      · obtain ⟨removed, hends, hgone⟩ := endTmuxConnection_ends h hguarded.forest
        refine ⟨hends.shrinks.forest, ?_, ?_, hends.gates fun key gateway hgateway => ?_⟩
        · rw [nobody_waits hguarded hpending hgone]
          exact forall_mem_nil _
        · rw [hends.tmuxGateway, hends.gatewayEvents]
          exact hguarded.root.mono (fun _ => hends.origin) mem_survivors
        · rcases of_getElem?_insert hgateway with ⟨-, rfl⟩ | ⟨-, hother⟩
          · exact Gate.idle ⟨.direct, .new⟩ rfl
          · exact hguarded.gates key gateway hother

theorem of_foldl_erase {gateways : ExtTreeMap GatewayKey NestedTmuxGatewayState}
    {parentConnectionId : UInt64} {paneIds : List UInt64}
    (h : (paneIds.foldl (fun gateways paneId => gateways.erase ⟨parentConnectionId, paneId⟩)
      gateways)[key]? = some gateway) : gateways[key]? = some gateway := by
  induction paneIds generalizing gateways with
  | nil => exact h
  | cons paneId rest ih =>
    have herase := ih h
    rw [getElem?_erase] at herase
    split at herase
    · cases herase
    · exact herase

theorem Guarded.destroyed (hguarded : Guarded app armed) {parentConnectionId : UInt64}
    {paneIds windowIds : List UInt64}
    (h : app.resolveDestroyedTmuxGateways parentConnectionId paneIds windowIds = some app') :
    Guarded app' (armed.filter app'.hierarchy.contains) := by
  rcases (resolveDestroyed_eq hguarded.forest h).1 with rfl | ⟨removed, hierarchy, hshrinks, rfl⟩
  · exact Guarded.kept ⟨hguarded.forest, hguarded.covers, hguarded.root, fun key gateway hgateway =>
      hguarded.gates key gateway (of_foldl_erase hgateway)⟩
  · refine hguarded.ends ⟨hshrinks, rfl, rfl, fun _ hpending _ => hpending, fun key gateway' hgateway' => ?_⟩
    obtain ⟨gateway, hgateway, rfl⟩ := of_forgotten hgateway'
    exact ⟨gateway, of_foldl_erase hgateway, rfl⟩

/-- **One step that does not share the deadline** keeps every connection that waits covered. -/
theorem Guarded.step (hguarded : Guarded app armed) {event : Step}
    (unshared : Watched.Unshared ⟨app, armed⟩ event) (h : app.step event = some app') :
    Guarded app' (((app.arms event).toList ++ armed).filter app'.hierarchy.contains) := by
  obtain ⟨hall, hnone⟩ := unshared
  cases event with
  | receive nowMs bytes =>
    obtain ⟨hidle, h⟩ := whenIdle_some h
    exact (hguarded.receive hidle h).kept
  | eof =>
    obtain ⟨hidle, h⟩ := whenIdle_some h
    cases h
    refine Guarded.kept (hguarded.withRoot fun told hfollows => ?_)
    rw [idle_root hidle] at hfollows
    exact hfollows.op .finishTransport
  | request connectionId action => exact (hguarded.request hnone (whenIdle_some h).2).kept
  | answer nowMs confirmed => exact hguarded.answer hall (whenIdle_some h).2
  | dismiss =>
    obtain ⟨-, h⟩ := whenIdle_some h
    cases h
    exact Guarded.kept (hguarded.same ⟨rfl, rfl, rfl, rfl, rfl⟩)
  | expireRootTerminator nowMs =>
    obtain ⟨hidle, h⟩ := whenIdle_some h
    cases h
    exact (hguarded.expireRoot hidle nowMs).kept
  | expireNestedTerminator nowMs key =>
    obtain ⟨hidle, h⟩ := whenIdle_some h
    exact hguarded.expireNested hidle h
  | expireForceAbandon nowMs =>
    obtain ⟨hidle, h⟩ := whenIdle_some h
    exact hguarded.expireAbandon hidle h
  | handle nowMs geometry => exact hguarded.handle hall h
  | handleNested nowMs geometry portal key => exact hguarded.handleNested hall h
  | receiveNested nowMs key bytes =>
    rw [App.step] at h
    split at h
    · rename_i hquiet
      exact (hguarded.receiveNested hquiet h).kept
    · cases h
  | topology connectionId topology =>
    cases h
    exact Guarded.kept (hguarded.same ⟨rfl, rfl, rfl, rfl, rfl⟩)
  | destroyed parentConnectionId paneIds windowIds => exact hguarded.destroyed h
  | pending commands input =>
    cases h
    exact Guarded.kept (hguarded.same ⟨rfl, rfl, rfl, rfl, rfl⟩)

end Steps

/-! ## Runs -/

theorem Guarded.new : Guarded .new [] where
  forest := ConnectionHierarchy.Forest.new
  covers := nofun
  root := by
    refine ⟨.direct, .new, fun id hid => ?_⟩
    cases hid
  gates := by
    intro key gateway hgateway
    cases hgateway

section Idle

variable {app : App} {armed : List UInt64} {connectionId : UInt64}

theorem Guarded.recovering (hguarded : Guarded app armed) (hidle : app.idle)
    (h : app.Recovering connectionId) : connectionId ∈ armed := by
  rcases h with ⟨hdirect, hrecovering⟩ | ⟨key, gateway, hgateway, hactive, hrecovering⟩
  · obtain ⟨told, hfollows, htold⟩ := hguarded.root
    rw [idle_root hidle] at hfollows
    obtain ⟨id, hphase⟩ := phase_recovering hrecovering
    refine (htold connectionId hdirect).2.resolve_left fun hlive => ?_
    rw [← hfollows.done, hlive] at hphase
    cases hphase
  · obtain ⟨told, hfollows, hcarries⟩ := hguarded.gates key gateway hgateway
    rw [idle_nested hidle hgateway] at hfollows
    obtain ⟨id, hphase⟩ := phase_recovering hrecovering
    refine (hcarries connectionId hactive).2.2.resolve_left fun hlive => ?_
    rw [← hfollows.done, hlive] at hphase
    cases hphase

theorem Guarded.willEnd (hguarded : Guarded app armed) (hidle : app.idle) (hmem : connectionId ∈ armed) :
    app.WillEnd connectionId := by
  obtain ⟨hlive, pending, hpending, hat⟩ := hguarded.covers connectionId hmem
  refine ⟨pending, hpending, fun nowMs hdue => ?_⟩
  have hroot := hguarded.forest.contains_root hlive hat
  obtain ⟨origin, horigin⟩ := contains_iff_origin.mp hroot
  have hends : ∀ {next : App}, next.hierarchy = app.hierarchy → ∃ app',
      next.endTmuxConnection pending.connectionId = some app' ∧
        app'.hierarchy.contains connectionId = false := by
    intro next hsame
    obtain ⟨_, _, -, -, hsome⟩ := @App.endTmuxConnection_eq next (hsame ▸ hguarded.forest) pending.connectionId
    obtain ⟨-, -, hgone⟩ := App.endTmuxConnection_ends hsome (hsame ▸ hguarded.forest)
    refine ⟨_, hsome, eq_false_of_ne_true fun hlive' => ?_⟩
    exact hgone connectionId hlive' (hsame ▸ hat)
  rw [App.step, App.whenIdle, if_pos hidle, App.expireTmuxForceAbandon, hpending]
  dsimp only
  rw [if_neg (Nat.not_lt.mpr hdue)]
  cases origin with
  | direct =>
    simp only [horigin]
    exact hends rfl
  | pane parent s w p =>
    simp only [horigin]
    exact hends rfl

end Idle

namespace Watched

/-- **No connection is left wedged in a run that does not share the deadline**: whenever nothing is
left to handle, a deadline is armed for every connection that recovers or was abandoned, and ends
it. -/
theorem run_willEnd {events : List Step} {s : Watched} (unshared : PartialRun.Meets step Unshared new events)
    (h : run step new events = some s) (hidle : s.app.idle) :
    ∀ connectionId, s.app.hierarchy.contains connectionId →
      s.app.Recovering connectionId ∨ connectionId ∈ s.armed → s.app.WillEnd connectionId := by
  have hkeeps : ∀ s event s', Guarded s.app s.armed → Unshared s event → step s event = some s' →
      Guarded s'.app s'.armed := by
    intro s event s' hs hmeets hstep
    simp only [step, bind_eq_bind, bind_eq_some_iff, some.injEq] at hstep
    obtain ⟨app', hstep, rfl⟩ := hstep
    exact hs.step hmeets hstep
  have hguarded := run_invariant_of_meets hkeeps .new unshared h
  intro connectionId _ hwaits
  exact hguarded.willEnd hidle (hwaits.elim (hguarded.recovering hidle) id)

end Watched

/-! ## Protocol failures -/

/-- The end of a command that never began: the parser fails and the router recovers. -/
def strayEnd : Bytes := ascii "%end 1 2 0\n"

/-- Connection 2 fails, and then an abandon of connection 1, which carries it, is confirmed. -/
def abandonedCarrier : List Step :=
  nestedStart ++ paneBytes 0 strayEnd 1 ++ [.request 1 .forceAbandon, .answer 0 true]

/-- Connection 1 carries the connections 2 and 3, and first the one fails, then the other. -/
def neighboursFail : List Step :=
  nestedStart ++ paneBytes 1 startMarker 2 ++ paneBytes 0 strayEnd 1 ++ paneBytes 1 strayEnd 1

namespace Watched

/-- A condition that implies `Unshared`, for hierarchies of two levels. -/
def quiet (s : Watched) (event : Step) : Bool :=
  ((s.app.arms event).all fun connectionId => s.armed.all fun id =>
      id == connectionId || (s.app.hierarchy.origin id).any (isChildOf connectionId)) &&
    ((s.app.begun event).isNone || s.armed.isEmpty)

theorem unshared_of_quiet (s : Watched) (event : Step) (h : s.quiet event) : s.Unshared event := by
  rw [quiet, and_eq_true] at h
  refine ⟨fun connectionId harms id hmem => ?_, fun hbegun => ?_⟩
  · have hall := h.1
    rw [harms, all_some, all_eq_true] at hall
    rcases or_eq_true_iff.mp (hall id hmem) with heq | hchild
    · rw [eq_of_beq heq]
    · obtain ⟨origin, horigin, hkeep⟩ := (any_eq_true _ _).mp hchild
      have hparent := child_iff.mp (mem_select.mpr ⟨origin, horigin, hkeep⟩)
      exact ReflTransGen.single hparent
  · rcases or_eq_true_iff.mp h.2 with hnone | hempty
    · rw [isNone_iff_eq_none.mp hnone] at hbegun
      cases hbegun
    · exact isEmpty_iff.mp hempty

set_option maxRecDepth 4000 in
theorem run_willEnd_carrier : ∃ s, run step new abandonedCarrier = some s ∧ s.armed = [1, 2] ∧
      s.app.WillEnd 1 ∧ s.app.WillEnd 2 := by
  have hrun : (run step new abandonedCarrier).any fun s =>
      s.app.idle && s.armed = [1, 2] && s.app.hierarchy.contains 1 && s.app.hierarchy.contains 2 := by
    decide +kernel
  obtain ⟨s, hs, hstate⟩ := (any_eq_true _ _).mp hrun
  simp only [and_eq_true, decide_eq_true_eq] at hstate
  obtain ⟨⟨⟨hidle, harmed⟩, hfirst⟩, hsecond⟩ := hstate
  have hall := run_willEnd (meets_of_checks quiet unshared_of_quiet (by decide +kernel)) hs hidle
  refine ⟨s, hs, harmed, hall 1 hfirst (.inr ?_), hall 2 hsecond (.inr ?_)⟩
  · rw [harmed]
    decide
  · rw [harmed]
    decide

set_option maxRecDepth 4000 in
/-- The second failure takes the deadline: connection 2 recovers, and nothing ends it. -/
theorem neighboursFail_wedges : ¬ ∀ s, run step new neighboursFail = some s → s.app.idle →
      ∀ connectionId, s.app.hierarchy.contains connectionId →
        s.app.Recovering connectionId ∨ connectionId ∈ s.armed → s.app.WillEnd connectionId := by
  intro hall
  have hrun : (run step new neighboursFail).any fun s =>
      s.app.idle && s.app.hierarchy.contains 2 && s.armed.contains 2 &&
        s.app.pendingForceAbandon.any fun pending =>
          (s.app.step (.expireForceAbandon pending.deadlineMs)).any (·.hierarchy.contains 2) := by
    decide +kernel
  obtain ⟨s, hs, hstate⟩ := (any_eq_true _ _).mp hrun
  simp only [and_eq_true] at hstate
  obtain ⟨⟨⟨hidle, hlive⟩, harmed⟩, hkept⟩ := hstate
  obtain ⟨pending, hpending, hkept⟩ := (any_eq_true _ _).mp hkept
  obtain ⟨app', hstep, hlive'⟩ := (any_eq_true _ _).mp hkept
  obtain ⟨pending', hpending', hends⟩ := hall s hs hidle 2 hlive (.inr (contains_iff_mem.mp harmed))
  obtain rfl : pending = pending' := some.inj (hpending.symm.trans hpending')
  obtain ⟨last, hlast, hgone⟩ := hends pending.deadlineMs (le_rfl)
  obtain rfl : app' = last := some.inj (hstep.symm.trans hlast)
  rw [hlive'] at hgone
  cases hgone

end Watched

end Lector.Lifecycle
