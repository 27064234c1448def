import Lector.Lifecycle.Effects
import Lector.Tmux.Transparency

/-! A graceful teardown asks the leaves first, and what disturbs it. -/
namespace Lector.Lifecycle
open Bytes Std Lector.Topology Gateway Tmux Output Relation List PartialRun
open Option hiding any_eq_true mem_map

/-! ## What a run shows -/

namespace App

variable (app : App)

def begun : Step → Option UInt64
  | .request connectionId .gracefulDetach =>
    if (app.tmux.connection connectionId).isSome then some connectionId else none
  | _ => none

/-- The nested connection that a step starts, and the connection that carries its transport. -/
def nests : Step → Option (UInt64 × UInt64)
  | .handleNested _ _ _ key => do
    let gateway ← app.nestedTmuxGateways[key]?
    match gateway.events with
    | .connectionStarted _ :: _ =>
      app.nextAvailableTmuxConnectionId.map fun connectionId => (connectionId, key.parentConnectionId)
    | _ => none
  | _ => none

end App

/-- What a teardown queues and a tick writes. -/
def detachClient (connectionId : UInt64) : PendingTmuxCommand :=
  ⟨connectionId, utf8 "detach-client" ++ [lf], [.userCommand "detach-client" false], .ordinary⟩

inductive Sight
  | logged (event : LogEvent)
  | wroteDetach (connectionId : UInt64)
deriving DecidableEq

/-- With the connections at that time, and the connection whose teardown began last. -/
structure Entry where
  event : Sight
  hierarchy : ConnectionHierarchy
  target : Option UInt64

/-- A detach is asked for and written for a leaf, and a teardown completes when its whole subtree is gone. -/
def Entry.LeafFirst (entry : Entry) : Prop :=
  match entry.event with
  | .logged (.requestedDetach connectionId) | .wroteDetach connectionId =>
    entry.hierarchy.contains connectionId ∧ ∀ id, ¬ entry.hierarchy.Below id connectionId
  | .logged .completedTeardown =>
    ∃ root, entry.target = some root ∧
      ∀ id, entry.hierarchy.AtOrBelow id root → entry.hierarchy.contains id = false

/-- `unsent` are the connections whose detach a teardown has queued, as long as it is in the queue. -/
structure Observed where
  app : App
  target : Option UInt64
  unsent : List UInt64
  history : List Entry

/-- A step of the app, or the part of `handle_tick` that writes to the root transport. -/
inductive Act
  | app (event : Step)
  | drain (nowMs : Nat)

def LogEvent.asked : LogEvent → Option UInt64
  | .requestedDetach connectionId => some connectionId
  | .completedTeardown => none

namespace Observed

def new : Observed := ⟨.new, none, [], []⟩

def queued (app : App) (ids : List UInt64) : List UInt64 :=
  ids.filter fun id => app.hierarchy.contains id && decide (detachClient id ∈ app.tmux.pendingTmuxCommands)

def step (s : Observed) : Act → Option Observed
  | .app event => do
    let app ← s.app.step event
    let target := (s.app.begun event).or s.target
    let lines := app.log.drop s.app.log.length
    some ⟨app, target, queued app (s.unsent ++ lines.filterMap LogEvent.asked),
      s.history ++ lines.map fun line => ⟨.logged line, app.hierarchy, target⟩⟩
  | .drain nowMs =>
    match s.app.tmuxGateway.activeConnection with
    | none => some s
    | some root =>
      match s.app.tmux.drainTmuxCommandsFor nowMs root with
      | .error _ => none
      | .ok (outcomes, tmux) =>
        let app := { s.app with tmux := tmux }
        let wrote := s.unsent.filter fun id => detachClient id ∈ TmuxApp.writtenCommands outcomes
        some ⟨app, s.target, queued app s.unsent,
          s.history ++ wrote.map fun id => ⟨.wroteDetach id, app.hierarchy, s.target⟩⟩

end Observed

/-! ## The order of a teardown -/

/-- What lies below a connection of the order comes before it, or below the connection that is waited
for. -/
def Ordered (h : ConnectionHierarchy) (pending : PendingGracefulTeardown) : Prop :=
  ∀ before root rest, pending.order = before ++ root :: rest → ∀ id, h.Below id root →
    id ∈ before ∨ ∃ awaited ∈ pending.awaiting, h.AtOrBelow id awaited

namespace App.Teardown

/-- The teardown still has to see all that lies below its target. -/
structure Cascade (t : Teardown) (target : Option UInt64) : Prop where
  forest : t.hierarchy.Forest
  ordered : ∀ pending ∈ t.pending, Ordered t.hierarchy pending
  aims : ∀ pending ∈ t.pending, ∃ root, target = some root ∧ pending.order.getLast? = some root

/-- A nested connection starts only where the order has its id earlier, or what is waited for
carries it. -/
def Undisturbed (t : Teardown) (started : Option (UInt64 × UInt64)) : Prop :=
  ∀ pending ∈ t.pending, ∀ connectionId parentConnectionId,
    started = some (connectionId, parentConnectionId) →
    ∀ before root rest, pending.order = before ++ root :: rest →
      t.hierarchy.AtOrBelow parentConnectionId root →
      connectionId ∈ before ∨ ∃ awaited ∈ pending.awaiting, t.hierarchy.AtOrBelow parentConnectionId awaited

end App.Teardown

section Order

variable {h h' : ConnectionHierarchy} {pending : PendingGracefulTeardown}

theorem Ordered.shrinks {removed : List UInt64} (hordered : Ordered h pending)
    (hshrinks : h.Shrinks removed h') : Ordered h' pending := by
  intro before root rest hsplit id hbelow
  rcases hordered before root rest hsplit id (hshrinks.below hbelow) with hbefore | ⟨a, ha, hat⟩
  · exact .inl hbefore
  · obtain ⟨_, hparent, -⟩ := TransGen.head'_iff.mp hbelow
    exact .inr ⟨a, ha, (hshrinks.atOrBelow (hshrinks.parent hparent).2 hat).1⟩

theorem Ordered.grows {id : UInt64} {origin : GatewayOrigin} (hordered : Ordered h pending)
    (forest : h.Forest) (hgrows : h.Grows id origin h')
    (undisturbed : ∀ parent s w p, origin = .pane parent s w p →
      ∀ before root rest, pending.order = before ++ root :: rest → h.AtOrBelow parent root →
      id ∈ before ∨ ∃ awaited ∈ pending.awaiting, h.AtOrBelow parent awaited) :
    Ordered h' pending := by
  intro before root rest hsplit x hbelow
  rcases hgrows.below_cases forest hbelow with hold | ⟨rfl, parent, s, w, p, horigin, hat⟩
  · rcases hordered before root rest hsplit x hold with hbefore | ⟨a, ha, hat⟩
    · exact .inl hbefore
    · exact .inr ⟨a, ha, hgrows.atOrBelow hat⟩
  · rcases undisturbed parent s w p horigin before root rest hsplit hat with hbefore | ⟨a, ha, hat⟩
    · exact .inl hbefore
    · have hparent : h'.Parent x parent := ⟨s, w, p, by rw [hgrows.rest x, if_pos rfl, horigin]⟩
      exact .inr ⟨a, ha, (hgrows.atOrBelow hat).head hparent⟩

theorem teardownOrder_spec (forest : h.Forest) {root : UInt64} {order : List UInt64}
    (horder : h.teardownOrder root = some order) : Ordered h ⟨order, none⟩ ∧
      (order.getLast? = some root ∨ (order = [] ∧ h.contains root = false)) := by
  obtain ⟨removed, after, hremoved, -, hremoves⟩ := forest.removeConnection root
  obtain rfl : removed = order := some.inj (hremoved.symm.trans horder)
  have hexact : ∀ id, id ∈ removed ↔ h.contains id ∧ h.AtOrBelow id root := by
    intro id
    rw [hremoves.exact]
    simp only [exists_eq_left]
  constructor
  · intro before x rest hsplit id hbelow
    change removed = before ++ x :: rest at hsplit
    have hx := (hexact x).mp (hsplit ▸ mem_append_right _ mem_cons_self)
    have hid : id ∈ removed :=
      (hexact id).mpr ⟨ConnectionHierarchy.Below.contains hbelow, hbelow.to_reflTransGen.trans hx.2⟩
    rw [hsplit] at hid
    rcases mem_append.mp hid with hbefore | hbehind
    · exact .inl hbefore
    · rcases mem_cons.mp hbehind with rfl | hrest
      · exact absurd hbelow (forest.acyclic id)
      · have hbottom := hremoves.bottomUp
        rw [hsplit] at hbottom
        have hnot := rel_of_pairwise_cons (pairwise_append.mp hbottom).2.1 hrest
        exact absurd hbelow hnot
  · by_cases hlive : h.contains root
    · refine .inl ?_
      obtain ⟨before, rest, hsplit⟩ := append_of_mem ((hexact root).mpr ⟨hlive, .refl⟩)
      have honce := hremoves.once
      have hbottom := hremoves.bottomUp
      rw [hsplit] at honce hbottom
      obtain rfl : rest = [] := by
        refine eq_nil_iff_forall_not_mem.mpr fun y hy => ?_
        have hne : root ≠ y := rel_of_pairwise_cons (nodup_append.mp honce).2.1 hy
        have hnot := rel_of_pairwise_cons (pairwise_append.mp hbottom).2.1 hy
        have hyin : y ∈ removed := hsplit ▸ mem_append_right _ (mem_cons_of_mem _ hy)
        rcases reflTransGen_iff_eq_or_transGen.mp ((hexact y).mp hyin).2 with heq | hbelow
        · exact hne heq
        · exact hnot hbelow
      rw [hsplit, getLast?_append, getLast?_singleton, some_or]
    · refine .inr ⟨eq_nil_iff_forall_not_mem.mpr fun y hy => ?_, eq_false_of_ne_true hlive⟩
      obtain ⟨hcontains, hat⟩ := (hexact y).mp hy
      exact hlive (forest.contains_root hcontains hat)

end Order

namespace App

/-! ## One step -/

namespace Teardown

variable {t t' : Teardown} {target : Option UInt64}

def Logs (t : Teardown) (target : Option UInt64) (t' : Teardown) : Prop :=
  ∃ lines, t'.log = t.log ++ lines ∧ ∀ event ∈ lines, (Entry.mk (.logged event) t'.hierarchy target).LeafFirst

theorem Logs.none (h : t'.log = t.log) : t.Logs target t' := ⟨[], h.trans (append_nil _).symm, forall_mem_nil _⟩

theorem Logs.one {event : LogEvent} (h : t'.log = t.log ++ [event])
    (hleaf : (Entry.mk (.logged event) t'.hierarchy target).LeafFirst) : t.Logs target t' := by
  refine ⟨[event], h, fun e hmem => ?_⟩
  rw [mem_singleton.mp hmem]
  exact hleaf

theorem Cascade.rest {t : Teardown} {target : Option UInt64} (forest : t.hierarchy.Forest)
    (hnone : t.pending = none) : t.Cascade target where
  forest := forest
  ordered pending hpending := by
    rw [hnone] at hpending
    cases hpending
  aims pending hpending := by
    rw [hnone] at hpending
    cases hpending

theorem advances_leafFirst (forest : t.hierarchy.Forest)
    (ordered : ∀ pending ∈ t.pending, Ordered t.hierarchy pending)
    (aims : ∀ pending ∈ t.pending, ∃ root, target = some root ∧
      (pending.order.getLast? = some root ∨ (pending.order = [] ∧ t.hierarchy.contains root = false)))
    (h : Advances t t') : t'.Cascade target ∧ t.Logs target t' := by
  cases h with
  | rests hrests =>
    refine ⟨⟨forest, ordered, fun pending hpending => ?_⟩, .none rfl⟩
    obtain ⟨root, htarget, haim⟩ := aims pending hpending
    refine ⟨root, htarget, haim.resolve_right ?_⟩
    rintro ⟨hempty, -⟩
    rcases hrests with hnone | ⟨pending', awaited, hpending', hawaited, -⟩
    · rw [hnone] at hpending
      cases hpending
    · rw [hpending'] at hpending
      cases hpending
      rw [PendingGracefulTeardown.order, hawaited] at hempty
      cases hempty
  | @completes pending hpending hgone =>
    refine ⟨.rest forest rfl, .one rfl ?_⟩
    obtain ⟨root, htarget, haim⟩ := aims pending hpending
    have hroot : t.hierarchy.contains root = false := by
      rcases haim with hlast | ⟨-, hdead⟩
      · exact hgone root (mem_of_getLast? hlast)
      · exact hdead
    refine ⟨root, htarget, fun id hat => ?_⟩
    refine eq_false_of_ne_true fun hlive => ?_
    rw [forest.contains_root hlive hat] at hroot
    cases hroot
  | @detaches pending skipped rest next hpending hawaiting hsplit hskipped hlive =>
    have hleaf : ∀ id root after before, next :: rest = before ++ root :: after →
        t.hierarchy.Below id root → id ∈ before := by
      intro id root after before hrest hbelow
      have hcontains := ConnectionHierarchy.Below.contains hbelow
      have hsplit' : pending.order = (skipped ++ before) ++ root :: after := by
        rw [hsplit, hrest, append_assoc]
      rcases ordered pending hpending _ _ _ hsplit' id hbelow with hbefore | ⟨a, ha, hat⟩
      · refine (mem_append.mp hbefore).resolve_left fun hmem => ?_
        rw [hskipped id hmem] at hcontains
        cases hcontains
      · have hroot := forest.contains_root hcontains hat
        rw [hawaiting a ha] at hroot
        cases hroot
    refine ⟨⟨forest, ?_, ?_⟩, .one rfl ⟨hlive, fun id hbelow => ?_⟩⟩
    · intro pending' hpending'
      cases hpending'
      exact fun before root after hrest id hbelow => .inl (hleaf id root after before hrest hbelow)
    · intro pending' hpending'
      cases hpending'
      obtain ⟨root, htarget, haim⟩ := aims pending hpending
      refine ⟨root, htarget, ?_⟩
      rw [hsplit] at haim
      rcases haim with hlast | ⟨hempty, -⟩
      · rw [getLast?_append_of_ne_nil _ (cons_ne_nil _ _)] at hlast
        exact hlast
      · exact absurd hempty (append_ne_nil_of_right_ne_nil _ (cons_ne_nil _ _))
    · exact absurd (hleaf id next rest [] rfl hbelow) not_mem_nil
  | blocked => exact ⟨.rest forest rfl, .none rfl⟩

inductive Turns (t : Teardown) : Option (UInt64 × UInt64) → Option UInt64 → Teardown → Prop
  | keeps {started : Option (UInt64 × UInt64)} : Turns t started none t
  | cancels {started : Option (UInt64 × UInt64)} : Turns t started none ⟨t.hierarchy, none, t.log⟩
  | opens {started : Option (UInt64 × UInt64)} {id : UInt64} {h : ConnectionHierarchy} :
      t.hierarchy.Grows id .direct h → Turns t started none ⟨h, t.pending, t.log⟩
  | nests {id parent s w p : UInt64} {h : ConnectionHierarchy} : t.hierarchy.Grows id (.pane parent s w p) h →
      Turns t (some (id, parent)) none ⟨h, t.pending, t.log⟩
  | shrinks {started : Option (UInt64 × UInt64)} {removed : List UInt64} {h : ConnectionHierarchy} :
      t.hierarchy.Shrinks removed h → Turns t started none ⟨h, t.pending, t.log⟩
  | ends {started : Option (UInt64 × UInt64)} {removed : List UInt64} {h : ConnectionHierarchy}
      {t' : Teardown} : t.hierarchy.Shrinks removed h → Advances ⟨h, t.pending, t.log⟩ t' →
      Turns t started none t'
  | begins {started : Option (UInt64 × UInt64)} {root : UInt64} {order : List UInt64} {t' : Teardown} :
      t.hierarchy.teardownOrder root = some order →
      Advances ⟨t.hierarchy, some ⟨order, none⟩, t.log⟩ t' → Turns t started (some root) t'

/-- **One step that does not disturb the cascade** keeps it, and what it logs is leaf first. -/
theorem Cascade.turns {started : Option (UInt64 × UInt64)} {begun : Option UInt64}
    (cascade : t.Cascade target) (undisturbed : t.Undisturbed started) (h : t.Turns started begun t') :
    t'.Cascade (begun.or target) ∧ t.Logs (begun.or target) t' := by
  obtain ⟨forest, ordered, aims⟩ := cascade
  cases h with
  | keeps => exact ⟨⟨forest, ordered, aims⟩, .none rfl⟩
  | cancels => exact ⟨.rest forest rfl, .none rfl⟩
  | @opens _ id hierarchy hgrows =>
    refine ⟨⟨hgrows.forest, fun pending hpending => ?_, aims⟩, .none rfl⟩
    exact (ordered pending hpending).grows forest hgrows fun parent s w p horigin => nomatch horigin
  | @nests id parent s w p hierarchy hgrows =>
    refine ⟨⟨hgrows.forest, fun pending hpending => ?_, aims⟩, .none rfl⟩
    refine (ordered pending hpending).grows forest hgrows fun parent' s' w' p' horigin => ?_
    cases horigin
    exact undisturbed pending hpending id parent rfl
  | shrinks hshrinks =>
    exact ⟨⟨hshrinks.forest, fun pending hpending => (ordered pending hpending).shrinks hshrinks, aims⟩,
      .none rfl⟩
  | @ends _ removed hierarchy _ hshrinks hadvances =>
    refine advances_leafFirst (t := ⟨hierarchy, t.pending, t.log⟩) hshrinks.forest
      (fun pending hpending => (ordered pending hpending).shrinks hshrinks)
      (fun pending hpending => ?_) hadvances
    obtain ⟨root, htarget, hlast⟩ := aims pending hpending
    exact ⟨root, htarget, .inl hlast⟩
  | @begins _ root order _ horder hadvances =>
    obtain ⟨hordered, hlast⟩ := teardownOrder_spec forest horder
    refine advances_leafFirst (t := ⟨t.hierarchy, some ⟨order, none⟩, t.log⟩) forest
      (fun pending hpending => ?_) (fun pending hpending => ?_) hadvances
    · cases hpending
      exact hordered
    · cases hpending
      exact ⟨root, rfl, hlast⟩

/-- A leaf stays one unless a nested connection starts at or below it. -/
theorem Turns.leaf {started : Option (UInt64 × UInt64)} {begun : Option UInt64} (h : t.Turns started begun t')
    (forest : t.hierarchy.Forest) {id : UInt64} (hleaf : ∀ x, ¬ t.hierarchy.Below x id)
    (apart : ∀ connectionId parentConnectionId, started = some (connectionId, parentConnectionId) →
      ¬ t.hierarchy.AtOrBelow parentConnectionId id) : ∀ x, ¬ t'.hierarchy.Below x id := by
  have hadvance : ∀ {a b : Teardown}, Advances a b → b.hierarchy = a.hierarchy := by
    intro a b h
    cases h <;> rfl
  intro x hbelow
  cases h with
  | keeps | cancels => exact hleaf x hbelow
  | opens hgrows =>
    obtain hold | ⟨-, _, _, _, _, horigin, -⟩ := hgrows.below_cases forest hbelow
    · exact hleaf x hold
    · cases horigin
  | nests hgrows =>
    obtain hold | ⟨rfl, _, _, _, _, horigin, hat⟩ := hgrows.below_cases forest hbelow
    · exact hleaf x hold
    · cases horigin
      exact apart _ _ rfl hat
  | shrinks hshrinks => exact hleaf x (hshrinks.below hbelow)
  | ends hshrinks hadvances =>
    rw [hadvance hadvances] at hbelow
    exact hleaf x (hshrinks.below hbelow)
  | begins _ hadvances =>
    rw [hadvance hadvances] at hbelow
    exact hleaf x hbelow

end Teardown

variable {app app' : App} {started : Option (UInt64 × UInt64)}

variable {connectionId : UInt64}

theorem turns_end (h : app.endTmuxConnection connectionId = some app')
    (forest : app.hierarchy.Forest) : app.teardown.Turns started none app'.teardown := by
  obtain ⟨removed, hierarchy, hshrinks, -, heq⟩ := endTmuxConnection_eq forest connectionId
  obtain rfl := some.inj (heq.symm.trans h)
  have hadvances := advances (afterRemoval
    { app with pendingForceAbandon := app.pendingForceAbandon.filter (·.connectionId ∉ removed) }
    removed hierarchy)
  exact .ends hshrinks hadvances

theorem turns_fail (h : app.failTmuxConnection connectionId = some app')
    (forest : app.hierarchy.Forest) : app.teardown.Turns started none app'.teardown := by
  rw [failTmuxConnection] at h
  split at h
  · exact turns_end h forest
  · cases h
    exact .keeps

variable {nowMs : Nat}

theorem turns_recover (h : app.beginTmuxProtocolRecovery nowMs connectionId = some app') :
    app.teardown.Turns started none app'.teardown := by
  rcases beginTmuxProtocolRecovery_some h with ⟨-, rfl⟩ | ⟨-, tmux, input, htmux, rfl⟩
  · exact .keeps
  · have hview : ∀ abandon, teardown { app with
        tmux := tmux, pendingDirectGatewayInput := input, pendingForceAbandon := abandon } = app.teardown :=
      fun _ => congrArg (Teardown.mk · _ _) htmux
    rw [hview]
    exact .keeps

theorem nextAvailableFrom_congr (htmux : app'.tmux = app.tmux) (rounds : Nat) (candidate : UInt64) :
    app'.nextAvailableFrom rounds candidate = app.nextAvailableFrom rounds candidate := by
  induction rounds generalizing candidate with
  | zero => rfl
  | succ rounds ih =>
    rw [nextAvailableFrom, nextAvailableFrom, isFree, isFree, htmux]
    split
    · rfl
    · rw [funext ih]

theorem nextAvailableTmuxConnectionId_congr (htmux : app'.tmux = app.tmux) :
    app'.nextAvailableTmuxConnectionId = app.nextAvailableTmuxConnectionId := by
  rw [nextAvailableTmuxConnectionId, nextAvailableTmuxConnectionId, nextAvailableFrom_congr htmux, htmux]

theorem turns_request {action : GatewayControlAction}
    (h : app.requestTmuxGatewayActionFor connectionId action = some app') :
    app.teardown.Turns started (app.begun (.request connectionId action)) app'.teardown := by
  rw [requestTmuxGatewayActionFor.eq_def] at h
  split at h
  · rename_i hnone
    cases h
    have hbegun : app.begun (.request connectionId action) = none := by
      cases action with
      | gracefulDetach => rw [begun, if_neg (by simp [isNone_iff_eq_none.mp hnone])]
      | forceAbandon => rfl
    rw [hbegun]
    exact .keeps
  · cases action with
    | gracefulDetach =>
      simp only [beginGracefulTmuxTeardown, bind_eq_bind, bind_eq_some_iff, some.injEq] at h
      obtain ⟨order, horder, rfl⟩ := h
      have hbegun : app.begun (.request connectionId .gracefulDetach) = some connectionId := by
        rw [begun, if_pos]
        rwa [isSome_iff_ne_none, ne_eq, ← isNone_iff_eq_none]
      have hadvances := advances { app with
        pendingForceAbandon := none, pendingGracefulTeardown := some ⟨order, none⟩ }
      rw [hbegun]
      exact .begins horder hadvances
    | forceAbandon =>
      simp only [bind_eq_bind, bind_eq_some_iff, some.injEq] at h
      obtain ⟨-, -, rfl⟩ := h
      exact .keeps

theorem turns_answer {confirmed : Bool} (h : app.answerGatewayConfirmation nowMs confirmed = some app') :
    app.teardown.Turns started none app'.teardown := by
  rw [answerGatewayConfirmation] at h
  split at h
  · cases h
    exact .keeps
  · split at h
    · rcases acceptGatewayConfirmation_some h with ⟨-, rfl⟩ | ⟨-, tmux, input, htmux, rfl⟩
      · exact .keeps
      · have hview : ∀ confirming abandon, teardown { app with
            tmux := tmux
            pendingDirectGatewayInput := input
            pendingGatewayConfirmation := confirming
            pendingGracefulTeardown := none
            pendingForceAbandon := abandon } = ⟨app.hierarchy, none, app.log⟩ :=
          fun _ _ => congrArg (Teardown.mk · _ _) htmux
        rw [hview]
        exact .cancels
    · cases h
      exact .keeps

theorem whenIdle_some {result : Option App} (h : app.whenIdle result = some app') :
    app.idle ∧ result = some app' := by
  rwa [whenIdle, ite_none_right_eq_some] at h

variable (forest : app.hierarchy.Forest)
include forest

theorem turns_handle {geometry : TerminalGeometry} (h : app.handleNext nowMs geometry = some app') :
    app.teardown.Turns started none app'.teardown := by
  rw [handleNext] at h
  split at h
  · cases h
  · rw [handleTmuxGatewayEvent.eq_def] at h
    split at h
    · cases h
      exact .keeps
    · cases h
      exact .keeps
    · obtain ⟨hgrows, tmux, rfl⟩ := startTmuxConnection_some h forest
      exact .opens hgrows
    · exact (turns_end h forest :)
    · split at h
      · exact (turns_recover h :)
      · exact (turns_fail h forest :)

theorem turns_handleNested {geometry : TerminalGeometry} {portal : Bool} {key : GatewayKey}
    (h : app.handleNextNested nowMs geometry portal key = some app') :
    app.teardown.Turns (app.nests (.handleNested nowMs geometry portal key)) none app'.teardown := by
  simp only [handleNextNested, bind_eq_bind, bind_eq_some_iff] at h
  obtain ⟨gateway, hgateway, h⟩ := h
  split at h
  · cases h
  · rename_i event rest hevents
    cases event with
    | directOutput bytes =>
      cases h
      exact .keeps
    | control id control =>
      rw [handleNestedGatewayEvent] at h
      split at h
      · cases h
      · cases h
        exact .keeps
    | connectionStarted id =>
      simp only [handleNestedGatewayEvent, bind_eq_bind, bind_eq_some_iff] at h
      obtain ⟨connectionId, hnext, place, -, hstart⟩ := h
      obtain ⟨hgrows, tmux, rfl⟩ := startTmuxConnection_some hstart forest
      have hfree : app.nextAvailableTmuxConnectionId = some connectionId := by
        rw [← hnext]
        exact nextAvailableTmuxConnectionId_congr rfl
      have hstarted : app.nests (.handleNested nowMs geometry portal key) =
          some (connectionId, key.parentConnectionId) := by
        simp only [App.nests, hgateway, bind_eq_bind, bind_some, hevents, hfree, map_some]
      rw [hstarted]
      exact .nests hgrows
    | connectionEnded id =>
      simp only [handleNestedGatewayEvent, bind_eq_bind, bind_eq_some_iff, some.injEq] at h
      obtain ⟨connectionId, -, next, hend, rfl⟩ := h
      exact (turns_end hend forest :)
    | connectionFailed id reason =>
      have hkept : ∀ {next : App}, (if gateway.router.lifecycleState = .recovering then some next
          else some (next.modifyGateway key ({ · with
            activeLocalConnectionId := none
            activeGlobalConnectionId := none
            terminationDeadlineMs := none }))) = some app' → app'.teardown = next.teardown := by
        intro next h
        split at h
        · cases h
          rfl
        · cases h
          rfl
      simp only [handleNestedGatewayEvent] at h
      split at h
      · rw [hkept h]
        exact .keeps
      · split at h
        · obtain ⟨next, hnext, h⟩ := bind_eq_some_iff.mp h
          rw [hkept h]
          exact (turns_recover hnext :)
        · obtain ⟨next, hnext, h⟩ := bind_eq_some_iff.mp h
          rw [hkept h]
          exact (turns_fail hnext forest :)

theorem turns_expireNested {key : GatewayKey} (h : app.expireNestedTerminator nowMs key = some app') :
    app.teardown.Turns started none app'.teardown := by
  rcases expireNestedTerminator_some h with rfl | ⟨gateway, next, -, -, rfl, hnext⟩
  · exact .keeps
  · rcases hnext with ⟨rfl, -⟩ | ⟨connectionId, -, hfail⟩
    · exact .keeps
    · exact (turns_fail hfail forest :)

theorem turns_abandon (h : app.expireTmuxForceAbandon nowMs = some app') :
    app.teardown.Turns started none app'.teardown := by
  rw [expireTmuxForceAbandon] at h
  split at h
  · cases h
    exact .keeps
  · split at h
    · cases h
      exact .keeps
    · dsimp only at h
      split at h
      · cases h
        exact .keeps
      · exact (turns_end h forest :)
      · exact (turns_end h forest :)

theorem turns_destroyed {parentConnectionId : UInt64} {paneIds windowIds : List UInt64}
    (h : app.resolveDestroyedTmuxGateways parentConnectionId paneIds windowIds = some app') :
    app.teardown.Turns started none app'.teardown := by
  rcases (resolveDestroyed_eq forest h).1 with rfl | ⟨removed, hierarchy, hshrinks, rfl⟩
  · exact .keeps
  · exact .shrinks hshrinks

/-- **What each step does to a teardown.** -/
theorem step_turns {event : Step} (h : app.step event = some app') :
    app.teardown.Turns (app.nests event) (app.begun event) app'.teardown := by
  cases event with
  | receive nowMs bytes =>
    obtain ⟨-, h⟩ := whenIdle_some h
    rw [receive] at h
    split at h
    · cases h
    · cases h
      exact .keeps
  | eof =>
    obtain ⟨-, h⟩ := whenIdle_some h
    cases h
    exact .keeps
  | request connectionId action => exact turns_request (whenIdle_some h).2
  | answer nowMs confirmed => exact turns_answer (whenIdle_some h).2
  | dismiss =>
    obtain ⟨-, h⟩ := whenIdle_some h
    cases h
    exact .keeps
  | expireRootTerminator nowMs =>
    obtain ⟨-, h⟩ := whenIdle_some h
    cases h
    have hview : (app.expireRootTerminator nowMs).teardown = app.teardown := by
      rw [expireRootTerminator]
      split
      · rfl
      · rfl
    rw [hview]
    exact .keeps
  | expireNestedTerminator nowMs key => exact turns_expireNested forest (whenIdle_some h).2
  | expireForceAbandon nowMs => exact turns_abandon forest (whenIdle_some h).2
  | handle nowMs geometry => exact turns_handle forest h
  | handleNested nowMs geometry portal key => exact turns_handleNested forest h
  | receiveNested nowMs key bytes =>
    rw [step] at h
    split at h
    · rw [receiveNested] at h
      split at h
      · cases h
      · dsimp only at h
        split at h
        · cases h
        · cases h
          exact .keeps
    · cases h
  | topology connectionId topology =>
    cases h
    exact .keeps
  | destroyed parentConnectionId paneIds windowIds => exact turns_destroyed forest h
  | pending commands input =>
    cases h
    exact .keeps

end App

/-! ## Runs -/

namespace Observed

/-- Nor does a nested connection start at or below a connection whose detach is still queued. -/
def Undisturbed (s : Observed) : Act → Prop
  | .app event => s.app.teardown.Undisturbed (s.app.nests event) ∧
    ∀ connectionId parentConnectionId, s.app.nests event = some (connectionId, parentConnectionId) →
      ∀ id ∈ s.unsent, ¬ s.app.hierarchy.AtOrBelow parentConnectionId id
  | .drain _ => True

/-- The state of a run, with what it has shown so far. -/
structure LeafFirst (s : Observed) : Prop where
  cascade : s.app.teardown.Cascade s.target
  unsent : ∀ id ∈ s.unsent, s.app.hierarchy.contains id ∧ ∀ x, ¬ s.app.hierarchy.Below x id
  history : ∀ entry ∈ s.history, entry.LeafFirst

theorem LeafFirst.new : new.LeafFirst where
  cascade := .rest ConnectionHierarchy.Forest.new rfl
  unsent := nofun
  history := nofun

variable {s s' : Observed}

theorem LeafFirst.app {event : Step} (hs : s.LeafFirst) (undisturbed : s.Undisturbed (.app event))
    (h : s.step (.app event) = some s') : s'.LeafFirst := by
  simp only [Observed.step, bind_eq_bind, bind_eq_some_iff, some.injEq] at h
  obtain ⟨app', hstep, rfl⟩ := h
  have hturns := App.step_turns hs.cascade.forest hstep
  obtain ⟨hcascade, lines, hlog, hleaf⟩ := hs.cascade.turns undisturbed.1 hturns
  change app'.log = s.app.log ++ lines at hlog
  refine ⟨hcascade, fun id hid => ?_, fun entry hmem => ?_⟩
  · obtain ⟨hmem, hqueued⟩ := mem_filter.mp hid
    rw [hlog, drop_left] at hmem
    refine ⟨(Bool.and_eq_true_iff.mp hqueued).1, ?_⟩
    rcases mem_append.mp hmem with hold | hasked
    · exact hturns.leaf hs.cascade.forest (hs.unsent id hold).2 fun connectionId parent hnests =>
        undisturbed.2 connectionId parent hnests id hold
    · obtain ⟨line, hline, hid⟩ := mem_filterMap.mp hasked
      cases line with
      | requestedDetach asked =>
        cases hid
        exact (hleaf _ hline).2
      | completedTeardown => cases hid
  · rcases mem_append.mp hmem with hold | hnew
    · exact hs.history entry hold
    · obtain ⟨line, hline, rfl⟩ := mem_map.mp hnew
      rw [hlog, drop_left] at hline
      exact hleaf line hline

/-- A drain leaves the hierarchy alone, and writes for connections that are leaves still. -/
theorem LeafFirst.drain {nowMs : Nat} (hs : s.LeafFirst) (h : s.step (.drain nowMs) = some s') : s'.LeafFirst := by
  rw [Observed.step] at h
  split at h
  · cases h
    exact hs
  · rename_i root _
    obtain ⟨outcomes, tmux, hdrain, -, written, hall⟩ :=
      TmuxApp.drainRounds_spec nowMs root hs.cascade.forest le_rfl
    have hhierarchy : tmux.hierarchy = s.app.hierarchy := hall.hierarchy
    rw [TmuxApp.drainTmuxCommandsFor, hdrain] at h
    cases h
    have hteardown : App.teardown { s.app with tmux := tmux } = s.app.teardown :=
      congrArg (App.Teardown.mk · _ _) hhierarchy
    refine ⟨?_, fun id hid => ?_, fun entry hmem => ?_⟩
    · rw [hteardown]
      exact hs.cascade
    · rw [App.hierarchy, hhierarchy]
      exact hs.unsent id (mem_of_mem_filter hid)
    · rcases mem_append.mp hmem with hold | hnew
      · exact hs.history entry hold
      · obtain ⟨id, hid, rfl⟩ := mem_map.mp hnew
        rw [Entry.LeafFirst, App.hierarchy, hhierarchy]
        exact hs.unsent id (mem_of_mem_filter hid)

theorem LeafFirst.step {act : Act} (hs : s.LeafFirst) (undisturbed : s.Undisturbed act)
    (h : s.step act = some s') : s'.LeafFirst := by
  cases act with
  | app event => exact hs.app undisturbed h
  | drain nowMs => exact hs.drain h

/-- **A graceful teardown is leaf first in every run that does not disturb it**: every detach is asked for and
written while its connection exists and has nothing below it, and a teardown completes when nothing is left of
its subtree. -/
theorem run_leafFirst {acts : List Act} {s : Observed} (undisturbed : PartialRun.Meets step Undisturbed new acts)
    (h : run step new acts = some s) : ∀ entry ∈ s.history, entry.LeafFirst := by
  have hkeeps : ∀ s act s', LeafFirst s → Undisturbed s act → step s act = some s' → LeafFirst s' :=
    fun s act s' hs hmeets hstep => hs.step hmeets hstep
  exact (run_invariant_of_meets hkeeps .new undisturbed h).history

end Observed

/-! ## A nested connection in a pane, and a second one beside it -/

def carrierPane (paneId : UInt64) : Pane where
  id := ⟨paneId⟩
  windowId := ⟨0⟩
  index := 0
  title := ""
  left := 0
  top := 0
  width := 80
  height := 24
  dead := false
  cursorX := 0
  cursorY := 0
  cursorVisible := true
  cursorShape := ""
  alternateOn := false
  paneInMode := 0
  mode := ""
  historySize := 0

def carrierTopology : TmuxTopology :=
  { TmuxTopology.new 1 with
    sessions := (∅ : ExtTreeMap SessionId Session).insert ⟨0⟩
      ⟨⟨0⟩, "", (∅ : ExtTreeMap UInt32 WindowId).insert 0 ⟨0⟩, some ⟨0⟩⟩
    windows := (∅ : ExtTreeMap WindowId Topology.Window).insert ⟨0⟩
      ⟨⟨0⟩, "", (∅ : ExtTreeSet WindowLink).insert ⟨⟨0⟩, 0⟩, some ⟨0⟩, "", "", ""⟩
    panes := ((∅ : ExtTreeMap PaneId Pane).insert ⟨0⟩ (carrierPane 0)).insert ⟨1⟩ (carrierPane 1)
    attachedSession := some ⟨0⟩ }

def exitRecord : Bytes := ascii "%exit\n" ++ [esc, backslash]

def rootBytes (bytes : Bytes) (events : Nat) : List Step :=
  .receive 0 bytes :: List.replicate events (.handle 0 ⟨24, 80, 0, 0⟩)

def paneBytes (paneId : UInt64) (bytes : Bytes) (events : Nat) : List Step :=
  .receiveNested 0 ⟨1, paneId⟩ bytes ::
    List.replicate events (.handleNested 0 ⟨24, 80, 0, 0⟩ true ⟨1, paneId⟩)

def nestedStart : List Step :=
  rootBytes startMarker 2 ++ .topology 1 carrierTopology :: paneBytes 0 startMarker 2

def acts (steps : List Step) : List Act := steps.map .app

def nestedTeardown : List Act := acts (nestedStart ++ [.request 1 .gracefulDetach]) ++ [.drain 0]

def quietTeardown : List Act :=
  nestedTeardown ++ acts (paneBytes 0 exitRecord 3) ++ .drain 0 :: acts (rootBytes exitRecord 3)

def disturbedTeardown : List Act :=
  nestedTeardown ++ acts (paneBytes 1 startMarker 2 ++ paneBytes 0 exitRecord 3) ++ [.drain 0]

namespace Observed

set_option maxRecDepth 4000 in
theorem run_leafFirst_nested : ∃ s, run step new quietTeardown = some s ∧
      s.history.map (·.event) = [.logged (.requestedDetach 2), .wroteDetach 2, .logged (.requestedDetach 1),
        .wroteDetach 1, .logged .completedTeardown] ∧
      ∀ entry ∈ s.history, entry.LeafFirst := by
  have hrun : (run step new quietTeardown).any (·.history.map (·.event) = [.logged (.requestedDetach 2),
      .wroteDetach 2, .logged (.requestedDetach 1), .wroteDetach 1, .logged .completedTeardown]) := by
    decide +kernel
  obtain ⟨s, hs, hevents⟩ := (Option.any_eq_true _ _).mp hrun
  have hmeets : PartialRun.Meets step Undisturbed new quietTeardown := by
    refine meets_of_checks
      (fun s act => match act with
        | .app event => (s.app.nests event).isNone || (s.app.pendingGracefulTeardown.isNone && s.unsent.isEmpty)
        | .drain _ => true) ?_ (by decide +kernel)
    intro s act hcheck
    cases act with
    | drain nowMs => trivial
    | app event =>
      rcases Bool.or_eq_true_iff.mp hcheck with hnests | hrest
      · have hnone := isNone_iff_eq_none.mp hnests
        refine ⟨fun _ _ _ _ hstarted => ?_, fun _ _ hstarted => ?_⟩
        · cases hnone.symm.trans hstarted
        · cases hnone.symm.trans hstarted
      · obtain ⟨hpending, hunsent⟩ := Bool.and_eq_true_iff.mp hrest
        refine ⟨fun pending hpending' => ?_, fun _ _ _ id hid => ?_⟩
        · cases (isNone_iff_eq_none.mp hpending).symm.trans hpending'
        · rw [isEmpty_iff.mp hunsent] at hid
          cases hid
  exact ⟨s, hs, of_decide_eq_true hevents, run_leafFirst hmeets hs⟩

set_option maxRecDepth 4000 in
/-- Connection 1 is sent a detach while it carries connection 3, which started meanwhile. -/
theorem disturbedTeardown_sends : ¬ ∀ s, run step new disturbedTeardown = some s →
      ∀ entry ∈ s.history, entry.LeafFirst := by
  intro hall
  have hrun : (run step new disturbedTeardown).any fun s => s.history.any fun entry =>
      entry.event = .wroteDetach 1 ∧ entry.hierarchy.origin 3 = some (.pane 1 0 0 1) := by
    decide +kernel
  obtain ⟨s, hs, hentry⟩ := (Option.any_eq_true _ _).mp hrun
  obtain ⟨entry, hmem, hentry⟩ := any_eq_true.mp hentry
  obtain ⟨hevent, horigin⟩ := of_decide_eq_true hentry
  have hleaf := hall s hs entry hmem
  rw [Entry.LeafFirst, hevent] at hleaf
  exact hleaf.2 3 (TransGen.single ⟨0, 0, 1, horigin⟩)

end Observed

end Lector.Lifecycle
