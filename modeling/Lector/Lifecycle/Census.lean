import Lector.Lifecycle.Accounts

/-! Whom the gateways of panes belong to: the panes that each connection knows, the gateways and the
connections that nested ones hang from. What starting, ending and recovering do to them. -/
namespace Lector.Lifecycle
open List hiding contains_iff
open Std SortedMap Lector.Topology Gateway Tmux Output Option Bool

/-! ## Censuses -/

abbrev Known := (PaneId → Bool) × Bool

structure Census where
  hierarchy : ConnectionHierarchy
  known : UInt64 → Option Known
  gateways : GatewayKey → Bool

def knownBy (connection : TmuxConnectionState) : Known :=
  ((connection.topology.panes.contains ·), connection.hasInventory)

def census (app : App) : Census where
  hierarchy := app.hierarchy
  known id := (app.tmux.connection id).map knownBy
  gateways key := app.nestedTmuxGateways.contains key

namespace Census

variable {c : Census} {h : ConnectionHierarchy} {removed : List UInt64} {id : UInt64}

/-- The connection lives, and it knows the pane or waits for its first inventory. -/
def Backed (c : Census) (key : GatewayKey) : Prop :=
  ∃ known, c.known key.parentConnectionId = some known ∧ (known.1 ⟨key.paneId⟩ = true ∨ known.2 = false)

def Knows (c : Census) (connectionId paneId : UInt64) : Prop :=
  ∃ known, c.known connectionId = some known ∧ known.1 ⟨paneId⟩ = true

/-- Every gateway is backed, and nested connections hang from panes that are known. -/
structure Tidy (c : Census) : Prop where
  forest : c.hierarchy.Forest
  placed : ∀ id parent session window pane,
    c.hierarchy.origin id = some (.pane parent session window pane) → c.Knows parent pane
  backed : ∀ key, c.gateways key = true → c.Backed key

theorem Knows.backed {key : GatewayKey} (hknows : c.Knows key.parentConnectionId key.paneId) :
    c.Backed key := by
  obtain ⟨known, hknown, hpane⟩ := hknows
  exact ⟨known, hknown, .inl hpane⟩

/-! ## Changes -/

def fresh : Known := (fun _ => false, false)

def starting (c : Census) (h : ConnectionHierarchy) (id : UInt64) : Census where
  hierarchy := h
  known x := (c.known x).or (if x = id then some fresh else none)
  gateways := c.gateways

def ending (c : Census) (h : ConnectionHierarchy) (removed : List UInt64) : Census where
  hierarchy := h
  known x := if x ∈ removed then none else c.known x
  gateways key := c.gateways key && decide (key.parentConnectionId ∉ removed)

def opening (c : Census) (key : GatewayKey) : Census := { c with gateways := fun x => x == key || c.gateways x }

def learning (c : Census) (id : UInt64) (known : Known) : Census :=
  { c with known := fun x => if x = id then (c.known id).map fun _ => known else c.known x }

def closing (c : Census) (id : UInt64) (panes : List UInt64) : Census :=
  { c with gateways := fun key =>
      c.gateways key && !(key.parentConnectionId == id && panes.contains key.paneId) }

theorem known_starting {x : UInt64} {known : Known} (hknown : c.known x = some known) :
    (c.starting h id).known x = some known := by
  show (c.known x).or _ = _
  rw [hknown, some_or]

theorem known_learning {lost : List UInt64} {known after : Known} {x : UInt64}
    (hknown : c.known id = some known) (hstays : x ∉ removed) :
    (((c.learning id after).closing id lost).ending h removed).known x =
      if x = id then some after else c.known x := by
  refine (if_neg hstays).trans ?_
  show (if x = id then (c.known id).map fun _ => after else c.known x) = _
  rw [hknown, map_some]

theorem Tidy.starts (htidy : c.Tidy) {origin : GatewayOrigin} (hgrows : c.hierarchy.Grows id origin h)
    (hplace : ∀ parent session window pane, origin = .pane parent session window pane →
      c.Knows parent pane) : (c.starting h id).Tidy where
  forest := hgrows.forest
  placed x parent session window pane horigin := by
    have hknows : c.Knows parent pane := by
      rw [starting, hgrows.rest x] at horigin
      split at horigin
      · exact hplace parent session window pane (some.inj horigin)
      · exact htidy.placed x parent session window pane horigin
    obtain ⟨known, hknown, hpane⟩ := hknows
    exact ⟨known, known_starting hknown, hpane⟩
  backed key hkey := by
    obtain ⟨known, hknown, hpane⟩ := htidy.backed key hkey
    exact ⟨known, known_starting hknown, hpane⟩

theorem Tidy.ends (htidy : c.Tidy) (hshrinks : c.hierarchy.Shrinks removed h) :
    (c.ending h removed).Tidy where
  forest := hshrinks.forest
  placed x parent session window pane horigin := by
    obtain ⟨hparent, hout⟩ := hshrinks.parent ⟨session, window, pane, horigin⟩
    have hbefore : c.hierarchy.origin x = some (.pane parent session window pane) := by
      rw [← horigin]
      exact ((hshrinks.rest x).trans (if_neg hout)).symm
    obtain ⟨known, hknown, hpane⟩ := htidy.placed x parent session window pane hbefore
    have hstays : parent ∉ removed := fun hmem => hout (hshrinks.closed x parent hparent hmem)
    exact ⟨known, (if_neg hstays).trans hknown, hpane⟩
  backed key hkey := by
    obtain ⟨hkey, hout⟩ := (and_eq_true _ _).mp hkey
    obtain ⟨known, hknown, hpane⟩ := htidy.backed key hkey
    exact ⟨known, (if_neg (of_decide_eq_true hout)).trans hknown, hpane⟩

theorem Tidy.opens (htidy : c.Tidy) {key : GatewayKey} (hbacked : c.Backed key) : (c.opening key).Tidy where
  forest := htidy.forest
  placed := htidy.placed
  backed x hx := by
    rcases (or_eq_true _ _).mp hx with hx | hx
    · obtain rfl := eq_of_beq hx
      exact hbacked
    · exact htidy.backed x hx

/-- **A change of what a connection knows** keeps the order if the panes that it loses go with their
gateways and with the connections that hang from them, and if a first inventory has the panes of the other
gateways. -/
theorem Tidy.learns (htidy : c.Tidy) {known after : Known} {lost : List UInt64}
    (hknown : c.known id = some known)
    (hlost : ∀ pane, known.1 pane = true → after.1 pane = true ∨ pane.value ∈ lost)
    (hgateways : ∀ pane, c.gateways ⟨id, pane⟩ = true → known.2 = false → after.2 = true →
      known.1 ⟨pane⟩ = true ∨ after.1 ⟨pane⟩ = true)
    (hshrinks : c.hierarchy.Shrinks removed h)
    (hclear : ∀ pane ∈ lost, h.Clear (ConnectionHierarchy.isInPane id pane)) :
    (((c.learning id after).closing id lost).ending h removed).Tidy where
  forest := hshrinks.forest
  placed x parent session window pane horigin := by
    obtain ⟨hparent, hout⟩ := hshrinks.parent ⟨session, window, pane, horigin⟩
    have hbefore : c.hierarchy.origin x = some (.pane parent session window pane) := by
      rw [← horigin]
      exact ((hshrinks.rest x).trans (if_neg hout)).symm
    obtain ⟨before, hbefore, hpane⟩ := htidy.placed x parent session window pane hbefore
    have hstays : parent ∉ removed := fun hmem => hout (hshrinks.closed x parent hparent hmem)
    by_cases hid : parent = id
    · subst hid
      obtain rfl := some.inj (hknown.symm.trans hbefore)
      refine ⟨after, (known_learning hknown hstays).trans (if_pos rfl),
        (hlost ⟨pane⟩ hpane).resolve_right fun hmem => ?_⟩
      have hfree := hclear pane hmem x _ horigin
      rw [ConnectionHierarchy.isInPane, beq_self_eq_true, beq_self_eq_true] at hfree
      cases hfree
    · exact ⟨before, ((known_learning hknown hstays).trans (if_neg hid)).trans hbefore, hpane⟩
  backed key hkey := by
    obtain ⟨hkey, hout⟩ := (and_eq_true _ _).mp hkey
    obtain ⟨hkey, hopen⟩ := (and_eq_true _ _).mp hkey
    have hstays := of_decide_eq_true hout
    obtain ⟨before, hbefore, hpane⟩ := htidy.backed key hkey
    by_cases hid : key.parentConnectionId = id
    · subst hid
      obtain rfl := some.inj (hknown.symm.trans hbefore)
      refine ⟨after, (known_learning hknown hstays).trans (if_pos rfl), ?_⟩
      have hremains : key.paneId ∉ lost := by
        intro hmem
        rw [beq_self_eq_true, contains_iff_mem.mpr hmem] at hopen
        cases hopen
      have hstill : known.1 ⟨key.paneId⟩ = true → after.1 ⟨key.paneId⟩ = true := fun hpane =>
        (hlost ⟨key.paneId⟩ hpane).resolve_right hremains
      rcases hpane with hpane | hwaits
      · exact .inl (hstill hpane)
      · cases hafter : after.2 with
        | false => exact .inr rfl
        | true => exact .inl ((hgateways key.paneId hkey hwaits hafter).elim hstill fun h => h)
    · exact ⟨before, ((known_learning hknown hstays).trans (if_neg hid)).trans hbefore, hpane⟩

end Census

/-! ## Commands -/

section Commands

variable {tmux tmux' : TmuxApp}

def knowledge (tmux : TmuxApp) (id : UInt64) : Option Known := (tmux.connection id).map knownBy

theorem knowledge_withConnection {f : TmuxConnectionState → TmuxConnectionState}
    (hid : ∀ connection, (f connection).id = connection.id)
    (hknown : ∀ connection, knownBy (f connection) = knownBy connection) (id : UInt64) :
    knowledge (tmux.withConnection id f) = knowledge tmux := by
  funext x
  exact TmuxApp.map_connection_withConnection hid hknown tmux id x

theorem connections_startCommands (connectionId : UInt64) (geometry : TerminalGeometry) :
    (App.startCommands connectionId geometry tmux).connections = tmux.connections := by
  rw [App.startCommands, TmuxApp.queueTmuxResize]
  split
  · rfl
  · rfl

theorem knowledge_of_connections (h : tmux'.connections = tmux.connections) :
    knowledge tmux' = knowledge tmux := by
  funext x
  rw [knowledge, knowledge, TmuxApp.connection, TmuxApp.connection, h]

theorem asks_knowledge :
    Asks fun tmux tmux' => tmux'.hierarchy = tmux.hierarchy ∧ knowledge tmux' = knowledge tmux where
  refl _ := ⟨rfl, rfl⟩
  trans h h' := ⟨h'.1.trans h.1, h'.2.trans h.2⟩
  push _ _ _ _ := ⟨rfl, rfl⟩
  join _ _ _ _ _ _ _ := ⟨rfl, rfl⟩
  resume _ id paneId := ⟨rfl, knowledge_withConnection
    (f := (·.withFlow paneId ({ · with resumeRequested := true }))) (fun _ => rfl) (fun _ => rfl) id⟩

end Commands

namespace App

variable {app app' : App}

theorem census_eq (htmux : app'.hierarchy = app.hierarchy ∧ knowledge app'.tmux = knowledge app.tmux)
    (hgateways : app'.nestedTmuxGateways = app.nestedTmuxGateways) : census app' = census app := by
  show Census.mk app'.hierarchy (knowledge app'.tmux) _ = Census.mk app.hierarchy (knowledge app.tmux) _
  rw [htmux.1, htmux.2, hgateways]

theorem census_modifyGateway (key : GatewayKey) (f : NestedTmuxGatewayState → NestedTmuxGatewayState) :
    census (app.modifyGateway key f) = census app := by
  refine congrArg (Census.mk _ _) ?_
  funext x
  exact ExtTreeMap.contains_modify

theorem census_insert (app : App) (key : GatewayKey) (gateway : NestedTmuxGatewayState) :
    census { app with nestedTmuxGateways := app.nestedTmuxGateways.insert key gateway } =
      (census app).opening key := by
  refine congrArg (Census.mk _ _) ?_
  funext x
  rw [ExtTreeMap.contains_insert, Bool.eq_iff_iff, or_eq_true, or_eq_true, beq_iff_eq,
    beq_iff_eq, LawfulEqCmp.compare_eq_iff_eq, eq_comm]
  rfl

theorem census_advance (app : App) : census app.advanceGracefulTmuxTeardown = census app :=
  census_eq (asks_advance asks_knowledge app) (sameGateways_advance app).nested

theorem census_afterRemoval (removed : List UInt64) (hierarchy : ConnectionHierarchy) :
    census (app.afterRemoval removed hierarchy) = (census app).ending hierarchy removed := by
  refine congrArg₂ (Census.mk hierarchy) ?_ ?_
  · funext x
    exact map_connection_afterRemoval knownBy removed hierarchy x
  · funext key
    show ((app.nestedTmuxGateways.map _).filter _).contains key = _
    rw [Bool.eq_iff_iff, contains_iff, and_eq_true]
    show _ ↔ app.nestedTmuxGateways.contains key = true ∧ _
    rw [contains_iff]
    simp only [ExtTreeMap.getElem?_filter', ExtTreeMap.getElem?_map, filter_eq_some_iff, map_eq_some_iff]
    constructor
    · rintro ⟨_, ⟨gateway, hgateway, -⟩, hstays⟩
      exact ⟨⟨gateway, hgateway⟩, hstays⟩
    · rintro ⟨⟨gateway, hgateway⟩, hstays⟩
      exact ⟨_, ⟨gateway, hgateway, rfl⟩, hstays⟩

theorem census_withoutPanes (parentConnectionId : UInt64) (paneIds : List UInt64) :
    census (app.withoutPanes parentConnectionId paneIds) =
      (census app).closing parentConnectionId paneIds := by
  refine congrArg (Census.mk _ _) ?_
  funext key
  show (paneIds.foldl (fun gateways paneId => gateways.erase ⟨parentConnectionId, paneId⟩)
    app.nestedTmuxGateways).contains key = (app.nestedTmuxGateways.contains key && _)
  generalize app.nestedTmuxGateways = gateways
  induction paneIds generalizing gateways with
  | nil => rw [foldl_nil, contains_nil, Bool.and_false, Bool.not_false, Bool.and_true]
  | cons paneId rest ih =>
    rw [foldl_cons, ih, ExtTreeMap.contains_erase, contains_cons]
    have hsame : (compare (⟨parentConnectionId, paneId⟩ : GatewayKey) key == .eq) =
        (key.parentConnectionId == parentConnectionId && key.paneId == paneId) := by
      rw [Bool.eq_iff_iff, beq_iff_eq, LawfulEqCmp.compare_eq_iff_eq, and_eq_true, beq_iff_eq, beq_iff_eq]
      exact ⟨fun heq => heq ▸ ⟨rfl, rfl⟩, fun ⟨hparent, hpane⟩ => hparent ▸ hpane ▸ rfl⟩
    rw [bne, hsame]
    cases key.parentConnectionId == parentConnectionId
    · simp
    · cases key.paneId == paneId
      · simp
      · simp

theorem census_destroyed {parentConnectionId : UInt64} {paneIds windowIds : List UInt64}
    (forest : app.hierarchy.Forest)
    (h : app.resolveDestroyedTmuxGateways parentConnectionId paneIds windowIds = some app') :
    ∃ removed hierarchy, app.hierarchy.Shrinks removed hierarchy ∧
      (∀ paneId ∈ paneIds, hierarchy.Clear (ConnectionHierarchy.isInPane parentConnectionId paneId)) ∧
      census app' = ((census app).closing parentConnectionId paneIds).ending hierarchy removed := by
  obtain ⟨heq, hclear⟩ := resolveDestroyed_eq forest h
  rcases heq with rfl | ⟨removed, hierarchy, hshrinks, rfl⟩
  · refine ⟨[], app.hierarchy, .refl forest, hclear, ?_⟩
    rw [census_withoutPanes]
    refine congrArg₂ (Census.mk _) ?_ ?_
    · funext x
      exact (if_neg not_mem_nil).symm
    · funext key
      exact (Bool.and_true _).symm
  · refine ⟨removed, hierarchy, hshrinks, hclear, ?_⟩
    rw [census_afterRemoval, census_withoutPanes]

/-! ## Steps -/

variable {connectionId : UInt64} {geometry : TerminalGeometry}

theorem tidy_start {origin : GatewayOrigin} {portal : Bool} (htidy : (census app).Tidy)
    (hplace : ∀ parent session window pane, origin = .pane parent session window pane → (census app).Knows parent pane)
    (h : app.startTmuxConnection connectionId origin geometry portal = some app') : (census app').Tidy := by
  obtain ⟨hgrows, -⟩ := startTmuxConnection_some h htidy.forest
  have hcensus : census app' = (census app).starting app'.hierarchy connectionId := by
    rw [startTmuxConnection] at h
    split at h
    · cases h
    · split at h
      · cases h
      · cases h
        refine congrArg₂ (Census.mk _) ?_ rfl
        refine (knowledge_of_connections (connections_startCommands connectionId geometry)).trans ?_
        funext x
        exact map_connection_start knownBy app.tmux (startedConnection connectionId inventoryReplyCount) x
  rw [hcensus]
  exact htidy.starts hgrows hplace

theorem tidy_end (htidy : (census app).Tidy)
    (h : app.endTmuxConnection connectionId = some app') : (census app').Tidy := by
  obtain ⟨removed, hierarchy, hshrinks, -, heq⟩ := endTmuxConnection_eq htidy.forest connectionId
  obtain rfl := some.inj (heq.symm.trans h)
  rw [census_advance, census_afterRemoval]
  exact htidy.ends hshrinks

theorem tidy_fail (htidy : (census app).Tidy)
    (h : app.failTmuxConnection connectionId = some app') : (census app').Tidy := by
  rw [failTmuxConnection] at h
  split at h
  · exact tidy_end htidy h
  · cases h
    exact htidy

variable {nowMs : Nat}

theorem census_recover
    (h : app.beginTmuxProtocolRecovery nowMs connectionId = some app') : census app' = census app := by
  rw [beginTmuxProtocolRecovery] at h
  split at h
  · simp only [bind_eq_bind, bind_eq_some_iff, some.injEq] at h
    obtain ⟨affected, -, next, hnext, rfl⟩ := h
    obtain ⟨htmux, hnested⟩ := asks_transportInput asks_knowledge hnext
    exact (census_eq htmux hnested :)
  · cases h
    rfl

theorem tidy_handle (htidy : (census app).Tidy)
    (h : app.handleNext nowMs geometry = some app') : (census app').Tidy := by
  rw [handleNext] at h
  split at h
  · cases h
  · rename_i event rest hevents
    have hrest : (census { app with gatewayEvents := rest }).Tidy := htidy
    rw [handleTmuxGatewayEvent.eq_def] at h
    split at h
    · cases h
      exact htidy
    · cases h
      exact htidy
    · exact tidy_start hrest (fun _ _ _ _ horigin => by cases horigin) h
    · exact tidy_end hrest h
    · split at h
      · have hcensus : census app' = census app := (census_recover h :)
        rw [hcensus]
        exact htidy
      · exact tidy_fail hrest h

variable {key : GatewayKey}

theorem knows_gatewayPlace {place : SessionId × WindowId} (h : app.gatewayPlace key = some place) :
    (census app).Knows key.parentConnectionId key.paneId := by
  simp only [gatewayPlace, bind_eq_bind, bind_eq_some_iff] at h
  obtain ⟨connection, hconnection, pane, hpane, -⟩ := h
  refine ⟨knownBy connection, congrArg (Option.map knownBy) hconnection, ?_⟩
  exact contains_iff.mpr ⟨pane, hpane⟩

section

variable (htidy : (census app).Tidy)
include htidy

theorem tidy_handleNested {portal : Bool}
    (h : app.handleNextNested nowMs geometry portal key = some app') : (census app').Tidy := by
  have hmodify : ∀ {next : App} {f : NestedTmuxGatewayState → NestedTmuxGatewayState},
      (census next).Tidy → (census (next.modifyGateway key f)).Tidy := by
    intro next f hnext
    rw [census_modifyGateway]
    exact hnext
  simp only [handleNextNested, bind_eq_bind, bind_eq_some_iff] at h
  obtain ⟨gateway, -, h⟩ := h
  split at h
  · cases h
  · rename_i event rest hevents
    cases event with
    | directOutput bytes =>
      cases h
      exact hmodify htidy
    | control id control =>
      rw [handleNestedGatewayEvent] at h
      split at h
      · cases h
      · cases h
        exact hmodify htidy
    | connectionStarted id =>
      simp only [handleNestedGatewayEvent, bind_eq_bind, bind_eq_some_iff] at h
      obtain ⟨connectionId, -, place, hplace, hstart⟩ := h
      refine tidy_start (hmodify (hmodify htidy)) (fun parent session window pane horigin => ?_) hstart
      cases horigin
      exact knows_gatewayPlace hplace
    | connectionEnded id =>
      simp only [handleNestedGatewayEvent, bind_eq_bind, bind_eq_some_iff, some.injEq] at h
      obtain ⟨connectionId, -, next, hend, rfl⟩ := h
      exact hmodify (tidy_end (hmodify htidy) hend)
    | connectionFailed id reason =>
      have hkept : ∀ {next : App}, (census next).Tidy →
          (if gateway.router.lifecycleState = .recovering then some next
            else some (next.modifyGateway key ({ · with
              activeLocalConnectionId := none
              activeGlobalConnectionId := none
              terminationDeadlineMs := none }))) = some app' → (census app').Tidy := by
        intro next hnext h
        split at h
        · cases h
          exact hnext
        · cases h
          exact hmodify hnext
      simp only [handleNestedGatewayEvent] at h
      split at h
      · exact hkept (hmodify htidy) h
      · split at h
        · obtain ⟨next, hnext, h⟩ := bind_eq_some_iff.mp h
          refine hkept ?_ h
          rw [census_recover hnext]
          exact hmodify htidy
        · obtain ⟨next, hnext, h⟩ := bind_eq_some_iff.mp h
          exact hkept (tidy_fail (hmodify htidy) hnext) h

theorem tidy_expireNested (h : app.expireNestedTerminator nowMs key = some app') : (census app').Tidy := by
  have hexpired : ∀ gateway, (census (app.withExpired key gateway)).Tidy := by
    intro gateway
    rw [withExpired, census_modifyGateway]
    exact htidy
  rcases expireNestedTerminator_some h with
    rfl | ⟨gateway, next, -, -, rfl, ⟨rfl, -⟩ | ⟨connectionId, -, hfail⟩⟩
  · exact htidy
  · rw [withoutActive, census_modifyGateway]
    exact hexpired gateway
  · rw [withoutActive, census_modifyGateway]
    exact tidy_fail (hexpired gateway) hfail

theorem tidy_expireAbandon (h : app.expireTmuxForceAbandon nowMs = some app') : (census app').Tidy := by
  rw [expireTmuxForceAbandon] at h
  split at h
  · cases h
    exact htidy
  · split at h
    · cases h
      exact htidy
    · dsimp only at h
      split at h
      · cases h
        exact htidy
      · have hroot : (census { app with
            pendingForceAbandon := none, tmuxGateway := .new, tmuxTerminationDeadlineMs := none }).Tidy :=
          htidy
        exact tidy_end hroot h
      · rename_i parent session window pane horigin
        refine tidy_end ?_ h
        have hbacked : (census app).Backed ⟨parent, pane⟩ :=
          (htidy.placed _ parent session window pane horigin).backed
        rw [census_insert { app with pendingForceAbandon := none }]
        exact htidy.opens hbacked

theorem tidy_receiveNested {bytes : Bytes}
    (hkey : app.nestedTmuxGateways.contains key ∨ (census app).Backed key)
    (h : app.receiveNested nowMs key bytes = some app') : (census app').Tidy := by
  rw [receiveNested] at h
  split at h
  · cases h
  · dsimp only at h
    split at h
    · cases h
    · cases h
      rw [census_insert]
      exact htidy.opens (hkey.elim (htidy.backed key) fun hbacked => hbacked)

end

def changesPanes : Step → Bool
  | .topology _ _ | .destroyed _ _ _ | .receiveNested _ _ _ => true
  | _ => false

/-- **The other steps of the app keep the order.** -/
theorem tidy_step {event : Step} (htidy : (census app).Tidy) (hevent : changesPanes event = false)
    (h : app.step event = some app') : (census app').Tidy := by
  have hidle : ∀ {result : Option App}, app.whenIdle result = some app' → result = some app' :=
    fun hresult => (ite_none_right_eq_some.mp hresult).2
  have hkeeps : census app' = census app → (census app').Tidy := fun heq => heq ▸ htidy
  cases event with
  | receive nowMs bytes =>
    have hreceive := hidle h
    rw [receive] at hreceive
    split at hreceive
    · cases hreceive
    · cases hreceive
      exact htidy
  | eof =>
    cases hidle h
    exact htidy
  | request connectionId action =>
    obtain ⟨htmux, hnested⟩ := asks_request asks_knowledge (hidle h)
    exact hkeeps (census_eq htmux hnested)
  | answer nowMs confirmed =>
    obtain ⟨htmux, hnested⟩ := asks_answer asks_knowledge (hidle h)
    exact hkeeps (census_eq htmux hnested)
  | dismiss =>
    cases hidle h
    exact htidy
  | expireRootTerminator nowMs =>
    cases hidle h
    rw [expireRootTerminator]
    split
    · exact htidy
    · exact htidy
  | expireNestedTerminator nowMs key => exact tidy_expireNested htidy (hidle h)
  | expireForceAbandon nowMs => exact tidy_expireAbandon htidy (hidle h)
  | handle nowMs geometry => exact tidy_handle htidy h
  | handleNested nowMs geometry portal key => exact tidy_handleNested htidy h
  | pending commands input =>
    cases h
    exact htidy
  | topology connectionId topology => cases hevent
  | destroyed parentConnectionId paneIds windowIds => cases hevent
  | receiveNested nowMs key bytes => cases hevent

end App

end Lector.Lifecycle
