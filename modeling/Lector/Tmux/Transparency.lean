import Lector.Lifecycle.Forest
import Lector.Tmux.Routing

/-! What nested connections receive of the commands that are written to their root transport. -/
namespace Lector.Tmux
open Std Lector.Topology Lifecycle ConnectionHierarchy Relation List Fallible Function Option

/-! ## Carriage -/

def bytesOf (encoded : List Encoded) : Bytes := encoded.flatMap (·.1)

/-- The transport of `child` is this pane of `parent`. -/
def Hosted (h : ConnectionHierarchy) (child parent : UInt64) (pane : PaneId) : Prop :=
  ∃ s w, h.origin child = some (.pane parent s w pane.value)

/-- Commands one level up only send the keys of the level below, and expect nothing of the answers. -/
structure Carries (pane : PaneId) (below above : List Encoded) : Prop where
  lines : ∀ command ∈ above, ∃ chunk, command = (sendKeysCommand pane chunk, [.ignored])
  input : paneInput pane (bytesOf above) = bytesOf below

/-- The keys of the level below on all levels above `target`, and nothing elsewhere. -/
structure Levels (h : ConnectionHierarchy) (target : UInt64) (levels : UInt64 → List Encoded) : Prop where
  up : ∀ child parent pane, h.AtOrBelow target child → Hosted h child parent pane →
    Carries pane (levels child) (levels parent)
  other : ∀ id, ¬ h.AtOrBelow target id → levels id = []

/-- What a command is written as: as itself where it is addressed. -/
structure Delivery (h : ConnectionHierarchy) (command : PendingTmuxCommand)
    (levels : UInt64 → List Encoded) : Prop extends Levels h command.connectionId levels where
  own : encodeCommand command = .ok (levels command.connectionId)

theorem Hosted.parent {h : ConnectionHierarchy} {child parent : UInt64} {pane : PaneId}
    (hosted : Hosted h child parent pane) : h.Parent child parent := by
  obtain ⟨s, w, horigin⟩ := hosted
  exact ⟨s, w, pane.value, horigin⟩

theorem Hosted.pane_unique {h : ConnectionHierarchy} {child parent : UInt64} {pane pane' : PaneId}
    (hosted : Hosted h child parent pane) (hosted' : Hosted h child parent pane') : pane = pane' := by
  obtain ⟨s, w, horigin⟩ := hosted
  obtain ⟨s', w', horigin'⟩ := hosted'
  rw [horigin] at horigin'
  cases pane
  cases pane'
  cases horigin'
  rfl

theorem bytesOf_append (a b : List Encoded) : bytesOf (a ++ b) = bytesOf a ++ bytesOf b := flatMap_append

theorem closed_bytesOf {encoded : List Encoded} (h : ∀ command ∈ encoded, Lines.Closed command.1) :
    Lines.Closed (bytesOf encoded) := by
  refine Lines.closed_flatten fun part hmem => ?_
  obtain ⟨command, hcommand, rfl⟩ := mem_map.mp hmem
  exact h command hcommand

theorem Carries.closed {pane : PaneId} {below above : List Encoded} (h : Carries pane below above) :
    Lines.Closed (bytesOf above) := by
  refine closed_bytesOf fun command hmem => ?_
  obtain ⟨chunk, rfl⟩ := h.lines command hmem
  exact closed_sendKeysCommand pane chunk

theorem encodeKeys_spec (pane : PaneId) (input : Bytes) : ∃ above, encodeKeys pane input = .ok above ∧
      (∀ command ∈ above, ∃ chunk, command = (sendKeysCommand pane chunk, [.ignored])) ∧
      paneInput pane (bytesOf above) = input := by
  obtain ⟨commands, hencode, hlines, hinput⟩ := encodeSendKeys_spec pane input
  refine ⟨ignoredReplies commands, by rw [encodeKeys, hencode], fun command hmem => ?_, ?_⟩
  · obtain ⟨bytes, hbytes, rfl⟩ := mem_map.mp hmem
    obtain ⟨chunk, rfl⟩ := hlines bytes hbytes
    exact ⟨chunk, rfl⟩
  · have hbytes : bytesOf (ignoredReplies commands) = commands.flatten := by
      rw [bytesOf, ignoredReplies, flatMap_map, ← flatMap_id]
      rfl
    rw [hbytes, hinput]

/-- **A level is always carried.** -/
theorem carry_spec (pane : PaneId) (below : List Encoded) :
    ∃ above, carry pane below = .ok above ∧ Carries pane below above := by
  induction below with
  | nil => exact ⟨[], rfl, forall_mem_nil _, rfl⟩
  | cons command rest ih =>
    obtain ⟨above, hcarry, habove⟩ := ih
    obtain ⟨first, hfirst, hlines, hinput⟩ := encodeKeys_spec pane command.1
    obtain ⟨parts, hparts, hflat⟩ := bind_eq_ok.mp hcarry
    refine ⟨first ++ above, ?_, fun c hmem => ?_, ?_⟩
    · rw [carry, mapM_cons, hfirst, bind_eq_ok]
      refine ⟨first :: parts, ?_, ?_⟩
      · exact bind_eq_ok.mpr ⟨first, rfl, bind_eq_ok.mpr ⟨parts, hparts, rfl⟩⟩
      · rw [pure_eq_ok] at hflat
        rw [flatten_cons, hflat]
        rfl
    · rcases mem_append.mp hmem with hmem | hmem
      · exact hlines c hmem
      · exact habove.lines c hmem
    · have hclosed : Lines.Closed (bytesOf first) := by
        refine closed_bytesOf fun c hc => ?_
        obtain ⟨chunk, rfl⟩ := hlines c hc
        exact closed_sendKeysCommand pane chunk
      rw [bytesOf_append, paneInput_append hclosed, hinput, habove.input]
      rfl

/-! ## Routes -/

section Chains

variable {h : ConnectionHierarchy} {id parent root : UInt64}

theorem atOrBelow_cases (hbelow : h.AtOrBelow id root) (hparent : h.Parent id parent) :
    root = id ∨ h.AtOrBelow parent root := by
  rcases ReflTransGen.cases_head hbelow with rfl | ⟨p, hp, hrest⟩
  · exact .inl rfl
  · exact .inr (hparent.unique hp ▸ hrest)

theorem atOrBelow_direct (horigin : h.origin id = some .direct) (hbelow : h.AtOrBelow id root) : root = id := by
  rcases ReflTransGen.cases_head hbelow with rfl | ⟨p, ⟨s, w, pane, hpane⟩, -⟩
  · rfl
  · rw [horigin] at hpane
    cases hpane

theorem atOrBelow_total {a b : UInt64} (ha : h.AtOrBelow id a) (hb : h.AtOrBelow id b) :
    h.AtOrBelow a b ∨ h.AtOrBelow b a :=
  ReflTransGen.total_of_right_unique (fun _ _ _ hp hp' => hp.unique hp') ha hb

end Chains

namespace TmuxApp

variable {app app' : TmuxApp}

def repliesTo (additions : List ReplyAddition) (id : UInt64) : List ExpectedTmuxReply :=
  (additions.filter (·.1 = id)).flatMap (·.2)

theorem repliesTo_cons (addition : ReplyAddition) (rest : List ReplyAddition) (id : UInt64) :
    repliesTo (addition :: rest) id = (if addition.1 = id then addition.2 else []) ++ repliesTo rest id := by
  rw [repliesTo, filter_cons]
  by_cases hid : addition.1 = id
  · rw [if_pos (decide_eq_true hid), if_pos hid]
    rfl
  · rw [if_neg (by simpa using hid), if_neg hid]
    rfl

variable {f : TmuxConnectionState → TmuxConnectionState}

theorem connection_withConnection
    (hf : ∀ connection, (f connection).id = connection.id) (app : TmuxApp) (id c : UInt64) :
    (app.withConnection c f).connection id =
      (app.connection id).map fun connection => if c = id then f connection else connection := by
  rw [connection, withConnection, connection]
  induction app.connections with
  | nil => rfl
  | cons first rest ih =>
    have hid : (if first.id = c then f first else first).id = first.id := by
      split
      · exact hf first
      · rfl
    rw [map_cons, find?_cons, find?_cons, hid]
    by_cases hfirst : first.id = id
    · rw [decide_eq_true hfirst]
      simp only [map_some, hfirst, eq_comm]
    · rw [decide_eq_false hfirst]
      exact ih

theorem map_connection_withConnection {β : Type}
    {g : TmuxConnectionState → β} (hid : ∀ connection, (f connection).id = connection.id)
    (hg : ∀ connection, g (f connection) = g connection) (app : TmuxApp) (c id : UInt64) :
    ((app.withConnection c f).connection id).map g = (app.connection id).map g := by
  rw [connection_withConnection hid, Option.map_map]
  congr 1
  funext connection
  split
  · exact hg connection
  · rfl

theorem connection_expectReplies (app : TmuxApp) (additions : List ReplyAddition) (id : UInt64) :
    (app.expectReplies additions).connection id =
      (app.connection id).map (·.expect (repliesTo additions id)) := by
  induction additions generalizing app with
  | nil =>
    have hnone : ∀ connection : TmuxConnectionState, connection.expect [] = connection := fun c => by
      rw [TmuxConnectionState.expect, append_nil]
    show app.connection id = (app.connection id).map fun connection => connection.expect []
    simp only [hnone, Option.map_id']
  | cons addition rest ih =>
    refine (ih _).trans ?_
    rw [connection_withConnection (f := (·.expect addition.2)) (fun _ => rfl), Option.map_map, repliesTo_cons]
    congr 1
    funext connection
    by_cases hid : addition.1 = id
    · rw [comp_apply, if_pos hid, if_pos hid, TmuxConnectionState.expect,
        TmuxConnectionState.expect, TmuxConnectionState.expect, append_assoc]
    · rw [comp_apply, if_neg hid, if_neg hid, nil_append]

variable {id root parent : UInt64}

theorem routeFrom_expects {rounds : Nat} {encoded : List Encoded} {additions : List ReplyAddition}
    {lines : List Bytes} (h : app.routeFrom rounds id encoded additions = .ok (some (root, lines, app'))) :
    ∃ all, app' = app.expectReplies all := by
  induction rounds generalizing id encoded additions with
  | zero => cases h
  | succ rounds ih =>
    rw [routeFrom] at h
    split at h
    · cases h
    · dsimp only at h
      split at h
      · split at h
        · cases h
        · cases h
          exact ⟨_, rfl⟩
      · obtain ⟨above, -, h⟩ := bind_eq_ok.mp h
        split at h
        · exact ih h
        · cases h
      · cases h

theorem hierarchy_expectReplies (app : TmuxApp) (additions : List ReplyAddition) :
    (app.expectReplies additions).hierarchy = app.hierarchy ∧
      (app.expectReplies additions).pendingTmuxCommands = app.pendingTmuxCommands := by
  induction additions generalizing app with
  | nil => exact ⟨rfl, rfl⟩
  | cons addition rest ih => exact ih _

variable {levels levels' : UInt64 → List Encoded}

theorem levels_update {h : ConnectionHierarchy} (forest : h.Forest) {pane : PaneId} {encoded : List Encoded}
    (hosted : Hosted h id parent pane) (hcarry : Carries pane encoded (levels parent))
    (hlevels : Levels h parent levels) : Levels h id (update levels id encoded) := by
  have hne : ∀ c, h.AtOrBelow parent c → c ≠ id := by
    rintro _ hbelow rfl
    exact forest.acyclic _ (TransGen.head' hosted.parent hbelow)
  refine ⟨fun child p q hbelow hchild => ?_, fun c hc => ?_⟩
  · rcases atOrBelow_cases hbelow hosted.parent with rfl | hbelow
    · obtain rfl := hosted.parent.unique hchild.parent
      obtain rfl := hosted.pane_unique hchild
      rw [update_self, update_of_ne (hne _ .refl)]
      exact hcarry
    · rw [update_of_ne (hne _ hbelow), update_of_ne (hne _ (hbelow.tail hchild.parent))]
      exact hlevels.up child p q hbelow hchild
  · have hid : c ≠ id := by
      rintro rfl
      exact hc .refl
    rw [update_of_ne hid]
    exact hlevels.other c fun hbelow => hc (hbelow.head hosted.parent)

theorem levels_direct {h : ConnectionHierarchy} (horigin : h.origin id = some .direct)
    (encoded : List Encoded) : Levels h id (update (fun _ => []) id encoded) := by
  refine ⟨fun child parent pane hbelow hosted => ?_, fun c hc => ?_⟩
  · obtain rfl := atOrBelow_direct horigin hbelow
    obtain ⟨s, w, hpane⟩ := hosted
    rw [horigin] at hpane
    cases hpane
  · have hid : c ≠ id := by
      rintro rfl
      exact hc .refl
    exact update_of_ne hid _ _

theorem repliesTo_update {route : List ReplyAddition} (hid : levels id = [])
    (hroute : ∀ c, repliesTo route c = repliesOf (levels c)) (encoded : List Encoded) (c : UInt64) :
    repliesTo ((id, repliesOf encoded) :: route) c = repliesOf (update levels id encoded c) := by
  rw [repliesTo_cons, hroute]
  by_cases hc : c = id
  · rw [hc, if_pos rfl, hid, update_self]
    exact append_nil _
  · rw [if_neg (Ne.symm hc), update_of_ne hc]
    rfl

/-- **A route ends**, and what it writes and announces at each level. -/
theorem routeFrom_spec (forest : app.hierarchy.Forest) {rounds d : Nat}
    (hdepth : app.hierarchy.Depth id d) (hrounds : d ≤ rounds) (encoded : List Encoded)
    (additions : List ReplyAddition) : ∃ result, app.routeFrom rounds id encoded additions = .ok result ∧
      ∀ root lines app', result = some (root, lines, app') →
        app.hierarchy.origin root = some .direct ∧ app.hierarchy.AtOrBelow id root ∧
        ∃ levels route, Levels app.hierarchy id levels ∧ levels id = encoded ∧
          lines = (levels root).map (·.1) ∧ app' = app.expectReplies (additions ++ route) ∧
          ∀ c, repliesTo route c = repliesOf (levels c) := by
  induction rounds generalizing id d encoded additions with
  | zero => cases hdepth <;> omega
  | succ rounds ih =>
    rw [routeFrom]
    split
    · exact ⟨none, rfl, fun _ _ _ h => by cases h⟩
    · cases hdepth with
      | direct horigin =>
        rw [horigin]
        dsimp only
        split
        · exact ⟨none, rfl, fun _ _ _ h => by cases h⟩
        · refine ⟨_, rfl, fun root lines app' h => ?_⟩
          cases h
          exact ⟨horigin, .refl, update (fun _ => []) id encoded,
            [(id, repliesOf encoded)], levels_direct horigin encoded, update_self _ _ _,
            by rw [update_self], rfl, repliesTo_update rfl (fun _ => rfl) encoded⟩
      | pane hparent hup =>
        rename_i parent d
        obtain ⟨s, w, pane, horigin⟩ := hparent
        have hosted : Hosted app.hierarchy id parent ⟨pane⟩ := ⟨s, w, horigin⟩
        have hid : ∀ c, app.hierarchy.AtOrBelow parent c → c ≠ id := by
          rintro _ hc rfl
          exact forest.acyclic _ (TransGen.head' hosted.parent hc)
        obtain ⟨above, hcarry, hcarries⟩ := carry_spec ⟨pane⟩ encoded
        rw [horigin]
        dsimp only
        rw [hcarry]
        show ∃ result, (if routeIsBounded above then _ else _) = _ ∧ _
        split
        · obtain ⟨result, hroute, hspec⟩ := ih hup (by omega) above
            (additions ++ [(id, repliesOf encoded)])
          refine ⟨result, hroute, fun root lines app' hresult => ?_⟩
          obtain ⟨hroot, hbelow, levels, route, hlevels, rfl, hlines, happ, hreplies⟩ :=
            hspec root lines app' hresult
          refine ⟨hroot, hbelow.head hosted.parent, update levels id encoded,
            (id, repliesOf encoded) :: route, levels_update forest hosted hcarries hlevels,
            update_self _ _ _, ?_, ?_, repliesTo_update ?_ hreplies encoded⟩
          · rw [update_of_ne (hid _ hbelow), hlines]
          · rw [happ, append_assoc]
            rfl
          · exact hlevels.other _ fun hbelow => hid _ hbelow rfl
        · exact ⟨none, rfl, fun _ _ _ h => by cases h⟩

/-! ## Draining -/

def awaited (app : TmuxApp) (id : UInt64) : Option (List ExpectedTmuxReply) :=
  (app.connection id).map (·.expectedReplies)

theorem awaited_withConnection (hid : ∀ connection, (f connection).id = connection.id)
    (hreplies : ∀ connection, (f connection).expectedReplies = connection.expectedReplies)
    (app : TmuxApp) (c : UInt64) : (app.withConnection c f).awaited = app.awaited := by
  funext id
  exact map_connection_withConnection hid hreplies app c id

theorem awaited_expectReplies (app : TmuxApp) (additions : List ReplyAddition) (id : UInt64) :
    (app.expectReplies additions).awaited id = (app.awaited id).map (· ++ repliesTo additions id) := by
  rw [awaited, awaited, connection_expectReplies, Option.map_map, Option.map_map]
  rfl

theorem foldl_same {α β : Type} {f : TmuxConnectionState → α → TmuxConnectionState}
    {g : TmuxConnectionState → β} (hf : ∀ connection a, g (f connection a) = g connection) (as : List α)
    (connection : TmuxConnectionState) : g (as.foldl f connection) = g connection := by
  induction as generalizing connection with
  | nil => rfl
  | cons a rest ih => exact (ih _).trans (hf connection a)

theorem foldl_keeps {α : Type} {f : TmuxConnectionState → α → TmuxConnectionState}
    (hf : ∀ connection a, (f connection a).id = connection.id ∧
      (f connection a).expectedReplies = connection.expectedReplies)
    (as : List α) (connection : TmuxConnectionState) :
    (as.foldl f connection).id = connection.id ∧
      (as.foldl f connection).expectedReplies = connection.expectedReplies :=
  ⟨foldl_same (fun c a => (hf c a).1) as connection, foldl_same (fun c a => (hf c a).2) as connection⟩

/-- What a connection tells apart from its panes and from the replies that it expects. -/
structure Apart {β : Type} (g : TmuxConnectionState → β) : Prop where
  flow : ∀ connection paneFlow, g { connection with paneFlow := paneFlow } = g connection
  captures : ∀ connection captures, g { connection with pendingPaneCaptures := captures } = g connection
  replies : ∀ connection replies, g { connection with expectedReplies := replies } = g connection

theorem apart_id : Apart fun connection => connection.id := ⟨fun _ _ => rfl, fun _ _ => rfl, fun _ _ => rfl⟩

section Apart

variable {β : Type} {g : TmuxConnectionState → β}

theorem Apart.mark (hg : Apart g) (app : TmuxApp) (id : UInt64) (replies : List ExpectedTmuxReply)
    (x : UInt64) : ((app.markTmuxFlowCommandsInFlight id replies).connection x).map g =
      (app.connection x).map g := by
  refine map_connection_withConnection (fun c => ?_) (fun c => ?_) app id x
  · exact foldl_same (f := fun connection paneId =>
      connection.withFlow paneId ({ · with resyncInFlight := true })) (g := (·.id)) (fun _ _ => rfl) _ c
  · exact foldl_same (f := fun connection paneId =>
      connection.withFlow paneId ({ · with resyncInFlight := true })) (fun c _ => hg.flow c _) _ c

theorem Apart.undoPane (hg : Apart g) (nowMs : Nat) (connection : TmuxConnectionState)
    (action : PaneId × Undo) : g (undoPane nowMs connection action) = g connection := by
  rw [TmuxApp.undoPane]
  split
  · exact (hg.flow _ _).trans (hg.captures _ _)
  · exact hg.flow _ _

theorem Apart.recover (hg : Apart g) (app : TmuxApp) (nowMs : Nat) (id : UInt64)
    (replies : List ExpectedTmuxReply) (x : UInt64) :
    ((app.recoverDiscardedTmuxFlowCommand nowMs id replies).connection x).map g =
      (app.connection x).map g := by
  refine map_connection_withConnection (fun c => ?_) (fun c => ?_) app id x
  · exact foldl_same (apart_id.undoPane nowMs) _ c
  · exact foldl_same (hg.undoPane nowMs) _ c

theorem Apart.route (hg : Apart g) {app app' : TmuxApp} {command : PendingTmuxCommand} {root : UInt64}
    {lines : List Bytes} (h : app.routeTmuxCommand command = .ok (some (root, lines, app')))
    (x : UInt64) : (app'.connection x).map g = (app.connection x).map g := by
  rw [routeTmuxCommand] at h
  split at h
  · cases h
  · obtain ⟨encoded, -, h⟩ := bind_eq_ok.mp h
    split at h
    · obtain ⟨-, rfl⟩ := routeFrom_expects h
      rw [connection_expectReplies, Option.map_map]
      congr 1
      funext connection
      exact hg.replies connection _
    · cases h

/-- **A drain changes the panes of connections and the replies that they expect**, and nothing else of
them. -/
theorem Apart.drain (hg : Apart g) {app app' : TmuxApp} {nowMs : Nat} {root : UInt64}
    {command : PendingTmuxCommand} {outcome : Outcome}
    (h : app.drainCommand nowMs root command = .ok (outcome, app')) (x : UInt64) :
    (app'.connection x).map g = (app.connection x).map g := by
  rw [drainCommand] at h
  split at h
  · cases h
    rfl
  · obtain ⟨route, hroute, h⟩ := bind_eq_ok.mp h
    cases route with
    | none =>
      cases h
      exact hg.recover app nowMs _ _ x
    | some route =>
      obtain ⟨root', lines, next⟩ := route
      cases h
      exact (hg.mark next _ _ x).trans (hg.route hroute x)

end Apart

theorem awaited_mark (app : TmuxApp) (id : UInt64) (replies : List ExpectedTmuxReply) :
    (app.markTmuxFlowCommandsInFlight id replies).awaited = app.awaited := by
  have hfold := foldl_keeps (f := fun connection paneId =>
    connection.withFlow paneId ({ · with resyncInFlight := true })) (fun _ _ => ⟨rfl, rfl⟩)
    (replies.filterMap resyncPane)
  exact awaited_withConnection (fun c => (hfold c).1) (fun c => (hfold c).2) app id

theorem awaited_recover (app : TmuxApp) (nowMs : Nat) (id : UInt64) (replies : List ExpectedTmuxReply) :
    (app.recoverDiscardedTmuxFlowCommand nowMs id replies).awaited = app.awaited := by
  have hpane : ∀ connection action, (undoPane nowMs connection action).id = connection.id ∧
      (undoPane nowMs connection action).expectedReplies = connection.expectedReplies := by
    intro connection action
    rw [undoPane]
    split <;> exact ⟨rfl, rfl⟩
  have hfold := foldl_keeps hpane (undoActions replies).toList
  exact awaited_withConnection (fun c => (hfold c).1) (fun c => (hfold c).2) app id

theorem directTransportFrom_spec {rounds : Nat} (h : app.directTransportFrom rounds id = some root) :
    app.hierarchy.origin root = some .direct ∧ app.hierarchy.AtOrBelow id root := by
  induction rounds generalizing id with
  | zero => cases h
  | succ rounds ih =>
    rw [directTransportFrom] at h
    split at h
    · rename_i horigin
      cases h
      exact ⟨horigin, .refl⟩
    · rename_i parent s w p horigin
      obtain ⟨hroot, hbelow⟩ := ih h
      exact ⟨hroot, hbelow.head ⟨s, w, p, horigin⟩⟩
    · cases h

theorem contains_of_directTransport
    (h : app.directTransportFor id = some root) : app.hierarchy.contains id := by
  rw [directTransportFor, directTransportFrom] at h
  split at h
  · exact contains_iff_origin.mpr ⟨_, ‹_›⟩
  · exact contains_iff_origin.mpr ⟨_, ‹_›⟩
  · cases h

/-- A level waits for what it waited for, and for the answers to what was written there. -/
def Grows (before after : UInt64 → Option (List ExpectedTmuxReply))
    (levels : UInt64 → List Encoded) : Prop :=
  ∀ id, after id = (before id).map (· ++ repliesOf (levels id))

structure Drained (app : TmuxApp) (root : UInt64) (command : PendingTmuxCommand) (outcome : Outcome)
    (app' : TmuxApp) : Prop where
  hierarchy : app'.hierarchy = app.hierarchy
  pending : ∃ more, app'.pendingTmuxCommands = app.pendingTmuxCommands ++ more
  unwritten : (∀ encoded, outcome ≠ .written encoded) → app'.awaited = app.awaited
  written : ∀ encoded, outcome = .written encoded → ∃ levels,
    Delivery app.hierarchy command levels ∧ encoded = (levels root).map (·.1) ∧
      Grows app.awaited app'.awaited levels

variable {command : PendingTmuxCommand}

theorem routeTmuxCommand_spec (forest : app.hierarchy.Forest)
    (hcontains : app.hierarchy.contains command.connectionId) :
    ∃ result, app.routeTmuxCommand command = .ok result ∧
      ∀ root lines app', result = some (root, lines, app') → app.hierarchy.origin root = some .direct ∧
        app.hierarchy.AtOrBelow command.connectionId root ∧
        app'.hierarchy = app.hierarchy ∧ app'.pendingTmuxCommands = app.pendingTmuxCommands ∧
        ∃ levels, Delivery app.hierarchy command levels ∧ lines = (levels root).map (·.1) ∧
          Grows app.awaited app'.awaited levels := by
  obtain ⟨d, hdepth, hle⟩ := forest.depth _ hcontains
  have hrounds : d ≤ 65 := hle.trans (by decide)
  have hencode : ∃ encoded, encodeCommand command = .ok encoded := by
    rw [encodeCommand]
    split
    · obtain ⟨above, habove, -⟩ := encodeKeys_spec _ command.bytes
      exact ⟨above, habove⟩
    · exact ⟨_, rfl⟩
    · exact ⟨_, rfl⟩
  obtain ⟨encoded, hencoded⟩ := hencode
  rw [routeTmuxCommand]
  split
  · exact ⟨none, rfl, fun _ _ _ h => by cases h⟩
  rw [hencoded]
  show ∃ result, (if routeIsBounded encoded then
    app.routeFrom 65 command.connectionId encoded [] else .ok none) = .ok result ∧ _
  split
  · obtain ⟨result, hroute, hspec⟩ := routeFrom_spec forest hdepth hrounds encoded []
    refine ⟨result, hroute, fun root lines app' hresult => ?_⟩
    obtain ⟨hroot, hbelow, levels, route, hlevels, hown, hlines, rfl, hreplies⟩ := hspec root lines app' hresult
    refine ⟨hroot, hbelow, (hierarchy_expectReplies app _).1, (hierarchy_expectReplies app _).2,
      levels, ⟨hlevels, by rw [hown, hencoded]⟩, hlines, fun id => ?_⟩
    rw [awaited_expectReplies, nil_append, hreplies]
  · exact ⟨none, rfl, fun _ _ _ h => by cases h⟩

theorem drainCommand_spec (forest : app.hierarchy.Forest) (nowMs : Nat) (root : UInt64)
    (command : PendingTmuxCommand) :
    ∃ outcome app', app.drainCommand nowMs root command = .ok (outcome, app') ∧
      Drained app root command outcome app' := by
  rw [drainCommand]
  split
  · exact ⟨_, _, rfl, rfl, ⟨[command], rfl⟩, fun _ => rfl, fun _ h => by cases h⟩
  · rename_i hdirect
    have hdirect := of_not_not hdirect
    obtain ⟨result, hroute, hspec⟩ := routeTmuxCommand_spec forest (contains_of_directTransport hdirect)
    rw [hroute]
    cases result with
    | none =>
      refine ⟨_, _, rfl, rfl, ⟨[], (append_nil _).symm⟩, fun _ => ?_, fun _ h => by cases h⟩
      exact awaited_recover _ _ _ _
    | some route =>
      obtain ⟨root', lines, app'⟩ := route
      obtain ⟨hroot', hbelow', hhierarchy, hpending, levels, hdelivery, hlines, hgrows⟩ :=
        hspec root' lines app' rfl
      obtain ⟨hroot, hbelow⟩ := directTransportFrom_spec hdirect
      have hsame : root' = root := by
        rcases atOrBelow_total hbelow hbelow' with hle | hle
        · exact atOrBelow_direct hroot hle
        · exact (atOrBelow_direct hroot' hle).symm
      subst hsame
      refine ⟨_, _, rfl, hhierarchy, ⟨[], ?_⟩, fun h => absurd rfl (h lines), fun encoded h => ?_⟩
      · rw [append_nil]
        exact hpending
      · cases h
        refine ⟨levels, hdelivery, hlines, fun id => ?_⟩
        rw [awaited_mark]
        exact hgrows id

abbrev Written := PendingTmuxCommand × (UInt64 → List Encoded)

def levelOf (written : List Written) (id : UInt64) : List Encoded := written.flatMap (·.2 id)

def writtenCommands (outcomes : List (PendingTmuxCommand × Outcome)) : List PendingTmuxCommand :=
  outcomes.filterMap fun
    | (command, .written _) => some command
    | _ => none

structure DrainedAll (app : TmuxApp) (root : UInt64) (outcomes : List (PendingTmuxCommand × Outcome))
    (written : List Written) (app' : TmuxApp) : Prop where
  hierarchy : app'.hierarchy = app.hierarchy
  commands : written.map (·.1) = writtenCommands outcomes
  deliveries : ∀ w ∈ written, Delivery app.hierarchy w.1 w.2
  bytes : writtenBytes outcomes = bytesOf (levelOf written root)
  grows : Grows app.awaited app'.awaited (levelOf written)

theorem grows_refl (before : UInt64 → Option (List ExpectedTmuxReply)) : Grows before before fun _ => [] := by
  intro id
  cases before id with
  | none => rfl
  | some replies => exact congrArg some (append_nil replies).symm

theorem Grows.trans {a b c : UInt64 → Option (List ExpectedTmuxReply)}
    (h : Grows a b levels) (h' : Grows b c levels') : Grows a c fun id => levels id ++ levels' id := by
  intro id
  have hreplies : repliesOf (levels id ++ levels' id) =
      repliesOf (levels id) ++ repliesOf (levels' id) := flatMap_append
  rw [h' id, h id, Option.map_map, hreplies]
  congr 1
  funext replies
  exact append_assoc _ _ _

theorem DrainedAll.cons {outcome : Outcome}
    {outcomes : List (PendingTmuxCommand × Outcome)} {written : List Written} {app'' : TmuxApp}
    (hfirst : Drained app root command outcome app') (hrest : DrainedAll app' root outcomes written app'') :
    ∃ written, DrainedAll app root ((command, outcome) :: outcomes) written app'' := by
  have hhierarchy := hrest.hierarchy.trans hfirst.hierarchy
  have hkept : (∀ encoded, outcome ≠ .written encoded) → Outcome.bytes outcome = [] →
      writtenCommands ((command, outcome) :: outcomes) = writtenCommands outcomes →
      ∃ written, DrainedAll app root ((command, outcome) :: outcomes) written app'' := by
    intro hunwritten hbytes hcommands
    refine ⟨written, hhierarchy, hrest.commands.trans hcommands.symm,
      hfirst.hierarchy ▸ hrest.deliveries, ?_, hfirst.unwritten hunwritten ▸ hrest.grows⟩
    rw [writtenBytes, flatMap_cons, hbytes]
    exact hrest.bytes
  cases outcome with
  | rotated => exact hkept (fun _ h => by cases h) rfl rfl
  | discarded => exact hkept (fun _ h => by cases h) rfl rfl
  | written encoded =>
    obtain ⟨levels, hdelivery, rfl, hgrows⟩ := hfirst.written encoded rfl
    refine ⟨(command, levels) :: written, hhierarchy, ?_, fun w hmem => ?_, ?_, hgrows.trans hrest.grows⟩
    · rw [map_cons, hrest.commands]
      rfl
    · rcases mem_cons.mp hmem with rfl | hmem
      · exact hdelivery
      · exact hfirst.hierarchy ▸ hrest.deliveries w hmem
    · rw [writtenBytes, flatMap_cons, levelOf, flatMap_cons, bytesOf_append]
      exact congrArg₂ (· ++ ·) flatMap_def.symm hrest.bytes

theorem drainRounds_spec (nowMs : Nat) (root : UInt64) {queued : Nat} {app : TmuxApp}
    (forest : app.hierarchy.Forest) (hqueued : queued ≤ app.pendingTmuxCommands.length) :
    ∃ outcomes app', drainRounds nowMs root queued app = .ok (outcomes, app') ∧
      outcomes.map (·.1) = app.pendingTmuxCommands.take queued ∧
      ∃ written, DrainedAll app root outcomes written app' := by
  induction queued generalizing app with
  | zero => exact ⟨[], app, rfl, rfl, [], rfl, rfl, forall_mem_nil _, rfl, grows_refl _⟩
  | succ queued ih =>
    cases hpending : app.pendingTmuxCommands with
    | nil =>
      rw [hpending] at hqueued
      cases hqueued
    | cons command rest =>
      rw [hpending] at hqueued
      obtain ⟨outcome, next, hcommand, hdrained⟩ :=
        @drainCommand_spec { app with pendingTmuxCommands := rest } forest nowMs root command
      obtain ⟨more, hmore⟩ := hdrained.pending
      have hlength : queued ≤ rest.length := Nat.le_of_succ_le_succ hqueued
      obtain ⟨outcomes, app', hrounds, hcommands, written, hrest⟩ := @ih next
        (hdrained.hierarchy ▸ forest) (by
          rw [hmore, length_append]
          exact hlength.trans (Nat.le_add_right _ _))
      obtain ⟨written', hall⟩ := hrest.cons hdrained
      refine ⟨(command, outcome) :: outcomes, app', ?_, ?_, written', hall.hierarchy, hall.commands,
        hall.deliveries, hall.bytes, hall.grows⟩
      · rw [drainRounds, hpending]
        exact bind_eq_ok.mpr ⟨_, hcommand, bind_eq_ok.mpr ⟨_, hrounds, rfl⟩⟩
      · rw [map_cons, hcommands, hmore, take_succ_cons, take_append_of_le_length hlength]

/-! ## Transparency -/

/-- A command whose text is made of whole lines. Keys are no text. -/
def WholeLines (command : PendingTmuxCommand) : Prop :=
  match command.kind with
  | .input _ => True
  | .ordinary | .resize => Lines.Closed command.bytes

/-- A command that does not send keys to a pane itself. -/
def SendsNoKeys (command : PendingTmuxCommand) (pane : PaneId) : Prop :=
  ∀ own, encodeCommand command = .ok own → paneInput pane (bytesOf own) = []

theorem closed_encodeCommand {own : List Encoded} (hlines : WholeLines command)
    (hown : encodeCommand command = .ok own) : Lines.Closed (bytesOf own) := by
  have hordinary : encodeCommand command = .ok [(command.bytes, command.expectedReplies)] →
      Lines.Closed command.bytes → Lines.Closed (bytesOf own) := by
    intro hcommand hclosed
    rw [hcommand] at hown
    cases hown
    refine closed_bytesOf fun c hc => ?_
    rw [mem_singleton.mp hc]
    exact hclosed
  rw [WholeLines] at hlines
  split at hlines
  · rename_i pane hkind
    obtain ⟨above, habove, hkeys, -⟩ := encodeKeys_spec pane command.bytes
    rw [encodeCommand, hkind] at hown
    rw [← Except.ok.inj (habove.symm.trans hown)]
    refine closed_bytesOf fun c hc => ?_
    obtain ⟨chunk, rfl⟩ := hkeys c hc
    exact closed_sendKeysCommand pane chunk
  · rename_i hkind
    exact hordinary (by rw [encodeCommand, hkind]) hlines
  · rename_i hkind
    exact hordinary (by rw [encodeCommand, hkind]) hlines

section Chain

variable {h : ConnectionHierarchy} {leaf target child parent : UInt64} {pane : PaneId}

theorem not_atOrBelow_child (forest : h.Forest) (hparent : h.Parent child parent)
    (htarget : h.AtOrBelow parent target) : ¬ h.AtOrBelow target child := fun hbelow =>
  forest.acyclic child ((TransGen.head' hparent htarget).trans_left hbelow)

theorem chain_cases (forest : h.Forest) (hleaf : h.AtOrBelow leaf target)
    (hchild : h.AtOrBelow leaf child) (hparent : h.Parent child parent) :
    h.AtOrBelow target child ∨ ¬ h.AtOrBelow target child ∧
      (target = parent ∨ ¬ h.AtOrBelow target parent) := by
  rcases atOrBelow_total hleaf hchild with hbelow | habove
  · exact .inl hbelow
  rcases atOrBelow_cases habove hparent with rfl | habove
  · exact .inl .refl
  refine .inr ⟨not_atOrBelow_child forest hparent habove, ?_⟩
  rcases ReflTransGen.cases_head habove with rfl | ⟨next, hnext, hrest⟩
  · exact .inl rfl
  · exact .inr (not_atOrBelow_child forest hnext hrest)

/-- **One command and two neighbours of a chain**: what the pane reads is what is written below. -/
theorem delivery_input {command : PendingTmuxCommand} {levels : UInt64 → List Encoded}
    (hdelivery : Delivery h command levels) (forest : h.Forest)
    (hleaf : h.AtOrBelow leaf command.connectionId) (hchild : h.AtOrBelow leaf child)
    (hosted : Hosted h child parent pane) (hlines : WholeLines command)
    (hkeys : command.connectionId = parent → SendsNoKeys command pane) :
    Lines.Closed (bytesOf (levels parent)) ∧
      paneInput pane (bytesOf (levels parent)) = bytesOf (levels child) := by
  rcases chain_cases forest hleaf hchild hosted.parent with hbelow | ⟨hnot, rfl | habove⟩
  · have hcarries := hdelivery.up child parent pane hbelow hosted
    exact ⟨hcarries.closed, hcarries.input⟩
  · rw [hdelivery.other child hnot]
    exact ⟨closed_encodeCommand hlines hdelivery.own, hkeys rfl _ hdelivery.own⟩
  · rw [hdelivery.other parent habove, hdelivery.other child hnot]
    exact ⟨Lines.closed_nil, rfl⟩

theorem levelOf_input {written : List Written} (forest : h.Forest)
    (hdeliveries : ∀ w ∈ written, Delivery h w.1 w.2)
    (hleaf : ∀ w ∈ written, h.AtOrBelow leaf w.1.connectionId) (hchild : h.AtOrBelow leaf child)
    (hosted : Hosted h child parent pane) (hlines : ∀ w ∈ written, WholeLines w.1)
    (hkeys : ∀ w ∈ written, w.1.connectionId = parent → SendsNoKeys w.1 pane) :
    paneInput pane (bytesOf (levelOf written parent)) = bytesOf (levelOf written child) := by
  induction written with
  | nil => rfl
  | cons w rest ih =>
    have hrest := ih (fun v hv => hdeliveries v (mem_cons_of_mem _ hv))
      (fun v hv => hleaf v (mem_cons_of_mem _ hv))
      (fun v hv => hlines v (mem_cons_of_mem _ hv))
      (fun v hv => hkeys v (mem_cons_of_mem _ hv))
    obtain ⟨hclosed, hinput⟩ := delivery_input (hdeliveries w mem_cons_self) forest
      (hleaf w mem_cons_self) hchild hosted (hlines w mem_cons_self)
      (hkeys w mem_cons_self)
    rw [levelOf, flatMap_cons, bytesOf_append, paneInput_append hclosed, hinput]
    rw [levelOf, flatMap_cons, bytesOf_append]
    exact congrArg _ hrest

end Chain

end TmuxApp

end Lector.Tmux
