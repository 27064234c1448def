import Lector.Lifecycle.Active
import Lector.Lifecycle.Effects

/-! The size that the active connection was told last, over every run. -/
namespace Lector.Lifecycle
open List hiding max replace
open Std Tmux Output Latest TmuxApp Function
open Option hiding all filter_map map_id map_map max mem_map mem_map_of_mem

/-! ## Sizes that wait -/

section Waiting

variable {tmux tmux' : TmuxApp} {commands : List PendingTmuxCommand}

theorem sizesOf_append (commands more : List PendingTmuxCommand) :
    sizesOf (commands ++ more) = sizesOf commands ++ sizesOf more := filterMap_append

theorem sizeOf_eq_none {command : PendingTmuxCommand} (h : command.kind ≠ .resize) :
    sizeOf command = none := if_neg h

theorem sizesOf_eq_nil (h : ∀ command ∈ commands, command.kind ≠ .resize) : sizesOf commands = [] :=
  filterMap_eq_nil_iff.mpr fun command hmem => sizeOf_eq_none (h command hmem)

section Queue

variable {connectionId : UInt64} {geometry : TerminalGeometry} {command : PendingTmuxCommand}
  {rest : List PendingTmuxCommand}

theorem queueTmuxResize_first (hid : command.connectionId = connectionId) (hkind : command.kind = .resize) :
    ({ tmux with pendingTmuxCommands := command :: rest }.queueTmuxResize connectionId
        geometry).pendingTmuxCommands =
      { command with bytes := refreshClientCommand geometry } :: rest := by
  rw [queueTmuxResize]
  rw [findIdx?_cons, if_pos (decide_eq_true ⟨hid, hkind⟩)]
  rfl

theorem queueTmuxResize_later (h : ¬ (command.connectionId = connectionId ∧ command.kind = .resize)) :
    ({ tmux with pendingTmuxCommands := command :: rest }.queueTmuxResize connectionId
        geometry).pendingTmuxCommands =
      command :: ({ tmux with pendingTmuxCommands := rest }.queueTmuxResize connectionId
        geometry).pendingTmuxCommands := by
  rw [queueTmuxResize, queueTmuxResize]
  rw [findIdx?_cons, if_neg (by simpa using h)]
  cases rest.findIdx? fun command => command.connectionId = connectionId ∧ command.kind = .resize with
  | none => rfl
  | some index => rfl

theorem sizesOf_queueTmuxResize (commands : List PendingTmuxCommand) :
    sizesOf ({ tmux with pendingTmuxCommands := commands }.queueTmuxResize connectionId
        geometry).pendingTmuxCommands =
      replace connectionId (refreshClientCommand geometry) (sizesOf commands) := by
  induction commands with
  | nil => rfl
  | cons command rest ih =>
    by_cases hkind : command.kind = .resize
    · have hsize : sizeOf command = some (command.connectionId, command.bytes) := if_pos hkind
      rw [sizesOf, sizesOf, filterMap_cons_some hsize, replace]
      by_cases hid : command.connectionId = connectionId
      · have hfirst : sizeOf { command with bytes := refreshClientCommand geometry } =
            some (connectionId, refreshClientCommand geometry) := by
          rw [sizeOf, if_pos hkind, hid]
        rw [queueTmuxResize_first hid hkind, filterMap_cons_some hfirst, if_pos hid]
      · rw [queueTmuxResize_later fun h => hid h.1, filterMap_cons_some hsize, if_neg hid]
        exact congrArg _ ih
    · have hnone := sizeOf_eq_none hkind
      rw [queueTmuxResize_later fun h => hkind h.2, sizesOf, sizesOf, filterMap_cons_none hnone,
        filterMap_cons_none hnone]
      exact ih

end Queue

/-- Sizes that wait may be lost, and connections may end; nothing else happens to either. -/
structure Quiet (tmux tmux' : TmuxApp) : Prop where
  ids : tmux'.connections.map (·.id) = tmux.connections.map (·.id)
  sizes : (sizesOf tmux'.pendingTmuxCommands).Subperm (sizesOf tmux.pendingTmuxCommands)

theorem Quiet.refl (tmux : TmuxApp) : Quiet tmux tmux := ⟨rfl, Subperm.refl _⟩

theorem Quiet.trans {tmux'' : TmuxApp} (h : Quiet tmux tmux') (h' : Quiet tmux' tmux'') :
    Quiet tmux tmux'' := ⟨h'.ids.trans h.ids, h'.sizes.trans h.sizes⟩

theorem quiet_pushAll (h : ∀ command ∈ commands, command.kind ≠ .resize) :
    Quiet tmux (tmux.pushAll commands) := by
  refine ⟨rfl, ?_⟩
  rw [TmuxApp.pushAll, sizesOf_append, sizesOf_eq_nil h, append_nil]

theorem quiet_push {command : PendingTmuxCommand} (h : command.kind ≠ .resize) :
    Quiet tmux (tmux.push command) := quiet_pushAll fun _ hmem => mem_singleton.mp hmem ▸ h

theorem quiet_withConnection {f : TmuxConnectionState → TmuxConnectionState}
    (hid : ∀ connection, (f connection).id = connection.id) (id : UInt64) :
    Quiet tmux (tmux.withConnection id f) := by
  refine ⟨?_, Subperm.refl _⟩
  rw [withConnection, map_map]
  refine map_congr_left fun connection _ => ?_
  rw [comp_apply]
  split
  · exact hid connection
  · rfl

theorem quiet_foldl {α : Type} {f : TmuxApp → α → TmuxApp} (hf : ∀ tmux a, Quiet tmux (f tmux a))
    (as : List α) : Quiet tmux (as.foldl f tmux) := by
  induction as generalizing tmux with
  | nil => exact .refl tmux
  | cons a rest ih => exact (hf tmux a).trans ih

theorem asks_quiet : Asks Quiet where
  refl := .refl
  trans := .trans
  push _ _ _ hkind := quiet_push hkind
  join tmux front command paneId input hlast hsame := by
    have hkind : command.kind ≠ .resize := by
      rw [hsame]
      exact fun h => by cases h
    have hnone : ∀ c : PendingTmuxCommand, c.kind = command.kind → sizesOf [c] = [] :=
      fun c hc => sizesOf_eq_nil fun _ hmem => mem_singleton.mp hmem ▸ hc ▸ hkind
    refine ⟨rfl, ?_⟩
    rw [hlast, sizesOf_append, sizesOf_append, hnone command rfl,
      hnone { command with bytes := command.bytes ++ input } rfl]
  resume tmux id paneId :=
    quiet_withConnection (f := (·.withFlow paneId ({ · with resumeRequested := true }))) (fun _ => rfl) id

end Waiting

/-! ## What each operation does -/

/-- Connections end, and sizes that wait may be lost. -/
structure Loses (removed : List UInt64) (tmux tmux' : TmuxApp) : Prop where
  ids : tmux'.connections.map (·.id) = (tmux.connections.map (·.id)).filter (· ∉ removed)
  sizes : (sizesOf tmux'.pendingTmuxCommands).Subperm (sizesOf tmux.pendingTmuxCommands)

theorem Loses.quiet {removed : List UInt64} {tmux tmux' tmux'' : TmuxApp} (h : Loses removed tmux tmux')
    (h' : Quiet tmux' tmux'') : Loses removed tmux tmux'' :=
  ⟨h'.ids.trans h.ids, h'.sizes.trans h.sizes⟩

theorem sizesOf_filter (keep : PendingTmuxCommand → Bool) (commands : List PendingTmuxCommand) :
    (sizesOf (commands.filter keep)).Subperm (sizesOf commands) :=
  ((commands.filter_sublist).filterMap sizeOf).subperm

namespace App

variable {app app' : App}

theorem loses_afterRemoval (removed : List UInt64) (hierarchy : ConnectionHierarchy) :
    Loses removed app.tmux (app.afterRemoval removed hierarchy).tmux := by
  refine ⟨?_, sizesOf_filter _ _⟩
  rw [filter_map]
  rfl

theorem loses_end {connectionId : UInt64} (h : app.endTmuxConnection connectionId = some app') :
    ∃ removed hierarchy, app.hierarchy.removeConnection connectionId = some (removed, hierarchy) ∧
      Loses (if removed.isEmpty then [connectionId] else removed) app.tmux app'.tmux := by
  simp only [endTmuxConnection, bind_eq_bind, bind_eq_some_iff, some.injEq] at h
  obtain ⟨⟨removed, hierarchy⟩, hremove, rfl⟩ := h
  refine ⟨removed, hierarchy, hremove, Loses.quiet ?_ (asks_advance asks_quiet _)⟩
  exact loses_afterRemoval _ _

theorem loses_destroyed {parentConnectionId : UInt64} {paneIds windowIds : List UInt64}
    (h : app.resolveDestroyedTmuxGateways parentConnectionId paneIds windowIds = some app') :
    ∃ removed hierarchy, app.removeGateways parentConnectionId paneIds windowIds = some (removed, hierarchy) ∧
      Loses removed app.tmux app'.tmux := by
  simp only [resolveDestroyedTmuxGateways, bind_eq_bind, bind_eq_some_iff] at h
  obtain ⟨⟨removed, hierarchy⟩, hremove, h⟩ := h
  refine ⟨removed, hierarchy, hremove, ?_⟩
  split at h
  · rename_i hempty
    obtain rfl : removed = [] := isEmpty_iff.mp hempty
    cases h
    refine ⟨?_, Subperm.refl _⟩
    exact (filter_eq_self.mpr (by simp)).symm
  · cases h
    exact loses_afterRemoval _ _

theorem quiet_recover {nowMs : Nat} {connectionId : UInt64}
    (h : app.beginTmuxProtocolRecovery nowMs connectionId = some app') : Quiet app.tmux app'.tmux := by
  rw [beginTmuxProtocolRecovery] at h
  split at h
  · simp only [bind_eq_bind, bind_eq_some_iff, some.injEq] at h
    obtain ⟨affected, -, next, hnext, rfl⟩ := h
    have hinput := (asks_transportInput asks_quiet hnext).1
    have hfilter : Quiet app.tmux { app.tmux with
        pendingTmuxCommands := app.tmux.pendingTmuxCommands.filter (·.connectionId ∉ affected) } :=
      ⟨rfl, sizesOf_filter _ _⟩
    exact hfilter.trans hinput
  · cases h
    exact .refl _

end App

/-! ## Draining -/

section Draining


variable {tmux tmux' : TmuxApp} {nowMs : Nat} {root : UInt64}

theorem quiet_route {command : PendingTmuxCommand} {lines : List Bytes}
    (h : tmux.routeTmuxCommand command = .ok (some (root, lines, tmux'))) : Quiet tmux tmux' := by
  rw [routeTmuxCommand] at h
  split at h
  · cases h
  · obtain ⟨encoded, -, h⟩ := Fallible.bind_eq_ok.mp h
    split at h
    · obtain ⟨all, rfl⟩ := routeFrom_expects h
      exact quiet_foldl (fun _ addition => quiet_withConnection (f := (·.expect addition.2))
        (fun _ => rfl) _) all
    · cases h

theorem quiet_mark (id : UInt64) (replies : List ExpectedTmuxReply) :
    Quiet tmux (tmux.markTmuxFlowCommandsInFlight id replies) := by
  have hfold := foldl_keeps (f := fun connection paneId =>
    connection.withFlow paneId ({ · with resyncInFlight := true })) (fun _ _ => ⟨rfl, rfl⟩)
    (replies.filterMap resyncPane)
  exact quiet_withConnection (fun connection => (hfold connection).1) id

theorem quiet_recoverDiscarded (id : UInt64) (replies : List ExpectedTmuxReply) :
    Quiet tmux (tmux.recoverDiscardedTmuxFlowCommand nowMs id replies) := by
  have hpane : ∀ connection action, (undoPane nowMs connection action).id = connection.id ∧
      (undoPane nowMs connection action).expectedReplies = connection.expectedReplies := by
    intro connection action
    rw [undoPane]
    split <;> exact ⟨rfl, rfl⟩
  have hfold := foldl_keeps hpane (undoActions replies).toList
  exact quiet_withConnection (fun connection => (hfold connection).1) id

theorem sizesOf_rest (command : PendingTmuxCommand) (rest : List PendingTmuxCommand) :
    (sizesOf rest).Subperm (sizesOf (command :: rest)) :=
  ((sublist_cons_self command rest).filterMap sizeOf).subperm

theorem quiet_drainCommand {command : PendingTmuxCommand} {rest : List PendingTmuxCommand}
    {outcome : TmuxApp.Outcome}
    (h : { tmux with pendingTmuxCommands := rest }.drainCommand nowMs root command = .ok (outcome, tmux')) :
    Quiet { tmux with pendingTmuxCommands := command :: rest } tmux' := by
  have hrest : Quiet { tmux with pendingTmuxCommands := command :: rest }
      { tmux with pendingTmuxCommands := rest } := ⟨rfl, sizesOf_rest command rest⟩
  rw [drainCommand] at h
  split at h
  · cases h
    refine ⟨rfl, Perm.subperm ?_⟩
    exact (perm_append_singleton command rest).filterMap sizeOf
  · obtain ⟨route, hroute, h⟩ := Fallible.bind_eq_ok.mp h
    cases route with
    | none =>
      cases h
      exact hrest.trans (quiet_recoverDiscarded _ _)
    | some route =>
      cases h
      exact hrest.trans ((quiet_route hroute).trans (quiet_mark _ _))

/-- **A drain writes only sizes that waited**, and leaves the others waiting. -/
theorem quiet_drainRounds {queued : Nat} {outcomes : List (PendingTmuxCommand × TmuxApp.Outcome)}
    {tmux last : TmuxApp} (h : drainRounds nowMs root queued tmux = .ok (outcomes, last)) :
    Quiet tmux last ∧ ∀ size ∈ Shown.writtenSizes outcomes, size ∈ sizesOf tmux.pendingTmuxCommands := by
  induction queued generalizing tmux outcomes with
  | zero =>
    cases h
    exact ⟨.refl _, forall_mem_nil _⟩
  | succ queued ih =>
    cases hpending : tmux.pendingTmuxCommands with
    | nil =>
      rw [drainRounds, hpending] at h
      cases h
      exact ⟨.refl _, forall_mem_nil _⟩
    | cons command rest =>
      rw [drainRounds, hpending] at h
      obtain ⟨⟨outcome, next⟩, hcommand, h⟩ := Fallible.bind_eq_ok.mp h
      obtain ⟨⟨more, final⟩, hrounds, h⟩ := Fallible.bind_eq_ok.mp h
      obtain ⟨houtcomes, hfinal⟩ := Prod.mk.inj (Except.ok.inj h)
      rw [← houtcomes]
      rw [hfinal] at hrounds
      have hfirst := quiet_drainCommand hcommand
      rw [← hpending] at hfirst
      obtain ⟨hlast, hsizes⟩ := ih hrounds
      refine ⟨hfirst.trans hlast, fun size hmem => ?_⟩
      rw [← hpending]
      have hlater : size ∈ Shown.writtenSizes more → size ∈ sizesOf tmux.pendingTmuxCommands :=
        fun hmore => hfirst.sizes.subset (hsizes size hmore)
      cases outcome with
      | rotated => exact hlater hmem
      | discarded => exact hlater hmem
      | written encoded =>
        have hwritten : Shown.writtenSizes ((command, .written encoded) :: more) =
            (sizeOf command).toList ++ Shown.writtenSizes more := by
          show sizesOf (command :: writtenCommands more) = _
          rw [sizesOf, filterMap_cons]
          cases sizeOf command with
          | none => rfl
          | some first => rfl
        rw [hwritten] at hmem
        rcases mem_append.mp hmem with hmem | hmem
        · rw [hpending]
          exact mem_filterMap.mpr ⟨command, mem_cons_self, mem_toList.mp hmem⟩
        · exact hlater hmem

end Draining

/-! ## The text of a size -/

variable (geometry : TerminalGeometry)

def grid : Nat × Nat := (max geometry.cols.toNat 1, max geometry.rows.toNat 1)

theorem grid_endpointGeometry : grid (endpointGeometry geometry) = grid geometry := by
  have hone : ∀ n : UInt16, max (if n = 0 then (1 : UInt16) else n).toNat 1 = max n.toNat 1 := by
    intro n
    split
    · rename_i hzero
      rw [hzero]
      rfl
    · rfl
  exact congrArg₂ Prod.mk (hone geometry.cols) (hone geometry.rows)

def decimal (n : Nat) : Bytes := (Nat.toDigits 10 n).map fun c => UInt8.ofNat c.toNat

theorem decimal_range {n : Nat} {c : Char} (h : c ∈ Nat.toDigits 10 n) : 48 ≤ c.toNat ∧ c.toNat ≤ 57 := by
  have hdigit := Nat.isDigit_of_mem_toDigits (by decide) (by decide) h
  rw [Char.isDigit, Bool.and_eq_true, decide_eq_true_eq, decide_eq_true_eq] at hdigit
  exact hdigit

theorem decimal_injective : Injective decimal := by
  intro m n h
  have hmap : ∀ k, (decimal k).map (fun b => Char.ofNat b.toNat) = Nat.toDigits 10 k := by
    intro k
    rw [decimal, map_map]
    conv_rhs => rw [← map_id (Nat.toDigits 10 k)]
    refine map_congr_left fun c hc => ?_
    have hrange := decimal_range hc
    have hbyte : (UInt8.ofNat c.toNat).toNat = c.toNat := by
      rw [UInt8.toNat_ofNat']
      omega
    rw [comp_apply, hbyte, Char.ofNat_toNat]
    rfl
  have hdigits : Nat.toDigits 10 m = Nat.toDigits 10 n := by rw [← hmap, ← hmap, h]
  have hvalue := congrArg (Nat.ofDigitChars 10 · 0) hdigits
  simpa using hvalue

theorem not_mem_decimal {n : Nat} {b : UInt8} (hb : b.toNat < 48 ∨ 57 < b.toNat) : b ∉ decimal n := by
  intro hmem
  obtain ⟨c, hc, rfl⟩ := mem_map.mp hmem
  have hrange := decimal_range hc
  rw [UInt8.toNat_ofNat'] at hb
  omega

theorem refreshClientCommand_eq : refreshClientCommand geometry = ascii "refresh-client -C " ++
      (decimal (grid geometry).1 ++ 0x78 :: (decimal (grid geometry).2 ++ [0x0a])) := by
  have hdecimal : ∀ n : Nat, ascii (toString n) = decimal n := by
    intro n
    rw [Nat.toString_eq_repr, Nat.repr_eq_ofList_toDigits, ascii, String.toList_ofList]
    rfl
  rw [refreshClientCommand, Lines.ascii_append, Lines.ascii_append, Lines.ascii_append,
    Lines.ascii_append, hdecimal, hdecimal, append_assoc, append_assoc]
  rfl

theorem refreshClientCommand_eq_iff {geometry geometry' : TerminalGeometry} :
    refreshClientCommand geometry = refreshClientCommand geometry' ↔ grid geometry = grid geometry' := by
  rw [refreshClientCommand_eq, refreshClientCommand_eq, append_cancel_left_eq]
  constructor
  · intro h
    have hx : ∀ n, (0x78 : UInt8) ∉ decimal n := fun n => not_mem_decimal (.inr (by decide))
    have hrest : (0x78 : UInt8) ∉ decimal (grid geometry).2 ++ [0x0a] := by
      rw [mem_append]
      exact fun hmem => hmem.elim (hx _) (by decide)
    obtain ⟨hcols, -, hrows⟩ := (append_cons_inj_of_notMem (hx _) hrest).mp h
    exact Prod.ext (decimal_injective hcols) (decimal_injective (append_cancel_right hrows))
  · intro h
    rw [h]

/-! ## Steps -/

namespace Shown

variable {self next : Shown}

def starts : SizeEvent → Option UInt64
  | .started connectionId _ _ => some connectionId
  | _ => none

/-- **Who takes over finds the outer size as it was**: a connection that a step makes active, without
starting it, was last active when the outer terminal had as many columns and rows as now. -/
def Suits (self : Shown) (event : SizeEvent) : Prop :=
  ∀ connectionId, (self.after event).activeTmuxConnection = some connectionId →
    self.activeTmuxConnection ≠ some connectionId → starts event ≠ some connectionId →
    (self.lastSeen connectionId).map grid = some (grid self.geometry)

structure Sound (shown : Shown) : Prop where
  views : shown.connectionViews = shown.tmux.connections.map (·.id)
  active : ∀ id, shown.activeTmuxConnection = some id → id ∈ shown.connectionViews
  current : Current shown.lastSize (sizesOf shown.tmux.pendingTmuxCommands)
  known : ∀ id ∈ shown.connectionViews, ∃ geometry, shown.lastSeen id = some geometry ∧
    shown.lastSize id = some (refreshClientCommand geometry)
  seen : ∀ id, shown.activeTmuxConnection = some id → shown.lastSeen id = some shown.geometry

theorem Sound.told (hsound : self.Sound) : self.Told := by
  intro id hactive
  obtain ⟨geometry, hseen, hsize⟩ := hsound.known id (hsound.active id hactive)
  rw [hsound.seen id hactive] at hseen
  rw [hsize, some.inj hseen]

structure Still (shown next : Shown) : Prop where
  geometry : next.geometry = shown.geometry
  lastSize : next.lastSize = shown.lastSize
  lastSeen : next.lastSeen = shown.lastSeen
  views : next.connectionViews = next.tmux.connections.map (·.id)
  subset : ∀ id ∈ next.connectionViews, id ∈ shown.connectionViews
  active : ∀ id, next.activeTmuxConnection = some id → id ∈ next.connectionViews
  sizes : (sizesOf next.tmux.pendingTmuxCommands).Subperm (sizesOf shown.tmux.pendingTmuxCommands)

variable {id : UInt64}

theorem connection_mem {tmux : TmuxApp} (h : (tmux.connection id).isSome) :
    id ∈ tmux.connections.map (·.id) := by
  obtain ⟨connection, hfind⟩ := isSome_iff_exists.mp h
  have hid := of_decide_eq_true (find?_some (p := fun c : TmuxConnectionState => c.id = id) hfind)
  exact hid ▸ mem_map_of_mem (mem_of_find?_eq_some hfind)

theorem lastConnection_mem {app : App} (h : app.lastConnection = some id) :
    id ∈ app.tmux.connections.map (·.id) := by
  obtain ⟨connection, hlast, rfl⟩ := map_eq_some_iff.mp h
  exact mem_map_of_mem (mem_of_getLast? hlast)

section

variable (hsound : self.Sound)
include hsound

theorem Sound.quiet {app : App} (h : Quiet self.tmux app.tmux) : self.Still (self.withApp app) where
  geometry := rfl
  lastSize := rfl
  lastSeen := rfl
  views := hsound.views.trans h.ids.symm
  subset _ hmem := hmem
  active := hsound.active
  sizes := h.sizes

theorem Sound.loses {app : App} {removed : List UInt64}
    {active : Option UInt64} (h : Loses removed self.tmux app.tmux)
    (hactive : ∀ id, active = some id → id ∈ app.tmux.connections.map (·.id)) :
    self.Still ({ self with app := app, activeTmuxConnection := active }.removeViews removed) := by
  have hviews : self.connectionViews.filter (· ∉ removed) = app.tmux.connections.map (·.id) := by
    rw [hsound.views, ← h.ids]
  refine ⟨rfl, rfl, rfl, hviews, fun id hmem => (mem_filter.mp hmem).1, fun id hid => ?_, h.sizes⟩
  show id ∈ self.connectionViews.filter (· ∉ removed)
  rw [hviews]
  exact hactive id hid

theorem Sound.hands (hid : id ∈ self.connectionViews) :
    self.Still { self with activeTmuxConnection := some id } :=
  ⟨rfl, rfl, rfl, hsound.views, fun _ hmem => hmem, fun _ h => some.inj h ▸ hid, Subperm.refl _⟩

theorem Sound.rests : self.Still self := hsound.quiet (.refl self.tmux)

theorem still_end (h : self.endTmuxConnection id = some next) : self.Still next := by
  simp only [endTmuxConnection, bind_eq_bind, bind_eq_some_iff, some.injEq] at h
  obtain ⟨⟨removed, hierarchy⟩, hremove, app, hend, rfl⟩ := h
  obtain ⟨removed', hierarchy', hremove', hloses⟩ := App.loses_end hend
  obtain ⟨rfl, -⟩ := Prod.mk.inj (some.inj (hremove.symm.trans hremove'))
  refine hsound.loses hloses fun active hactive => ?_
  rcases or_eq_some_iff.mp hactive with hkept | ⟨-, hlast⟩
  · obtain ⟨-, hsome⟩ := filter_eq_some_iff.mp hkept
    exact connection_mem hsome
  · obtain ⟨_, -, hlast⟩ := bind_eq_some_iff.mp hlast
    exact lastConnection_mem hlast

theorem still_destroyed {parentConnectionId : UInt64} {paneIds windowIds : List UInt64}
    (h : self.resolveDestroyedTmuxGateways parentConnectionId paneIds windowIds = some next) :
    self.Still next := by
  simp only [resolveDestroyedTmuxGateways, bind_eq_bind, bind_eq_some_iff] at h
  obtain ⟨⟨removed, hierarchy⟩, hremove, app, hdestroyed, h⟩ := h
  obtain ⟨removed', hierarchy', hremove', hloses⟩ := App.loses_destroyed hdestroyed
  obtain ⟨rfl, -⟩ := Prod.mk.inj (some.inj (hremove.symm.trans hremove'))
  split at h
  · rename_i hempty
    obtain rfl : removed = [] := isEmpty_iff.mp hempty
    cases h
    refine hsound.quiet ⟨?_, hloses.sizes⟩
    rw [hloses.ids]
    exact filter_eq_self.mpr (by simp)
  · cases h
    refine hsound.loses hloses fun active hactive => ?_
    unfold activeAfter at hactive
    split at hactive
    · split at hactive
      · rename_i hparent
        exact some.inj hactive ▸ connection_mem hparent
      · exact lastConnection_mem hactive
    · rename_i hkept
      rw [hactive, any_some, decide_eq_true_eq] at hkept
      rw [hloses.ids]
      refine mem_filter.mpr ⟨?_, decide_eq_true hkept⟩
      exact hsound.views ▸ hsound.active active hactive

theorem still_showGateway (id : UInt64) : self.Still (self.showTmuxGateway id) := by
  unfold showTmuxGateway
  split
  · exact hsound.rests
  · split
    · split
      · rename_i hparent
        exact hsound.hands hparent
      · exact hsound.rests
    · split
      · rename_i hview
        exact hsound.hands hview
      · exact hsound.rests
    · split
      · rename_i hview
        exact hsound.hands hview
      · exact hsound.rests

theorem still_activate (id : UInt64) : self.Still (self.activateTmuxConnection id) := by
  unfold activateTmuxConnection
  split
  · exact hsound.rests
  · rename_i hknown
    have hview : id ∈ self.connectionViews := by
      by_contra hview
      exact hknown (.inr hview)
    have hhands := hsound.hands hview
    have hquiet : Quiet self.tmux ((self.tmux.queueTmuxGatewayPathResumes id).getD self.tmux) := by
      cases hresumes : self.tmux.queueTmuxGatewayPathResumes id with
      | none => exact .refl _
      | some tmux => exact asks_quiet.queueTmuxGatewayPathResumes hresumes
    exact { hhands with views := hhands.views.trans hquiet.ids.symm, sizes := hquiet.sizes }

theorem still_drain {nowMs : Nat} {root : UInt64}
    (h : self.drainTmuxCommandsFor nowMs root = some next) : self.Still next := by
  unfold drainTmuxCommandsFor at h
  split at h
  · rename_i outcomes tmux hdrain
    cases h
    obtain ⟨hquiet, hwritten⟩ := quiet_drainRounds hdrain
    have hstill := @Sound.quiet self hsound { self.app with tmux := tmux } hquiet
    refine { hstill with lastSize := ?_ }
    exact publish_again fun size hmem => hsound.current.latest size (hwritten size hmem)
  · cases h

end

variable {event : SizeEvent}

/-- **A step resizes, starts a connection, or tells no size.** -/
theorem Sound.cases (hsound : self.Sound) (h : self.perform event = some next) :
    (∃ geometry, next = self.onResizeWithGeometry geometry) ∨
      (∃ id origin portal, event = .started id origin portal ∧
        self.startTmuxConnection id origin portal = some next) ∨
      self.Still next := by
  have happ : ∀ {result : Option App}, result.map self.withApp = some next →
      (∀ app, result = some app → Quiet self.tmux app.tmux) → self.Still next := by
    intro result hresult hquiet
    obtain ⟨app, happ, rfl⟩ := map_eq_some_iff.mp hresult
    exact hsound.quiet (hquiet app happ)
  cases event with
  | resize geometry => exact .inl ⟨geometry, (some.inj h).symm⟩
  | started id origin portal => exact .inr (.inl ⟨id, origin, portal, rfl, h⟩)
  | ended id => exact .inr (.inr (still_end hsound h))
  | destroyed parent panes windows => exact .inr (.inr (still_destroyed hsound h))
  | showGateway id => exact .inr (.inr (some.inj h ▸ still_showGateway hsound id))
  | activate id => exact .inr (.inr (some.inj h ▸ still_activate hsound id))
  | request id action => exact .inr (.inr (happ h fun _ h => (App.asks_request asks_quiet h).1))
  | answer nowMs confirmed => exact .inr (.inr (happ h fun _ h => (App.asks_answer asks_quiet h).1))
  | recover nowMs id => exact .inr (.inr (happ h fun _ => App.quiet_recover))
  | input id pane bytes =>
    cases h
    exact .inr (.inr (hsound.quiet (asks_quiet.queueTmuxInput id pane bytes)))
  | commands commands =>
    cases h
    refine .inr (.inr (hsound.quiet (quiet_pushAll fun command hmem => ?_)))
    obtain ⟨other, -, rfl⟩ := mem_map.mp hmem
    exact other.2
  | topology id topology =>
    cases h
    have hquiet : Quiet self.tmux (self.tmux.withConnection id ({ · with topology := topology })) :=
      quiet_withConnection (f := ({ · with topology := topology })) (fun _ => rfl) id
    exact .inr (.inr (hsound.quiet hquiet))
  | drain nowMs root => exact .inr (.inr (still_drain hsound h))

theorem note_active (h : self.activeTmuxConnection = some id) :
    self.note = { self with lastSeen := update self.lastSeen id (some self.geometry) } := by
  rw [note, h]

theorem note_none (h : self.activeTmuxConnection = none) : self.note = self := by
  rw [note, h]

theorem Sound.tells (hviews : self.connectionViews = self.tmux.connections.map (·.id))
    (hcurrent : Current self.lastSize (sizesOf self.tmux.pendingTmuxCommands))
    (hactive : self.activeTmuxConnection = some id) (hid : id ∈ self.connectionViews)
    (hsize : self.lastSize id = some (refreshClientCommand self.geometry))
    (hknown : ∀ x ∈ self.connectionViews, x ≠ id → ∃ geometry, self.lastSeen x = some geometry ∧
      self.lastSize x = some (refreshClientCommand geometry)) : self.note.Sound := by
  have hsame : ∀ x, self.activeTmuxConnection = some x → x = id := fun x hx => some.inj (hx.symm.trans hactive)
  rw [note_active hactive]
  refine ⟨hviews, fun x hx => (hsame x hx) ▸ hid, hcurrent, fun x hx => ?_, fun x hx => ?_⟩
  · by_cases hxid : x = id
    · subst hxid
      exact ⟨self.geometry, update_self _ _ _, hsize⟩
    · obtain ⟨geometry, hseen, hold⟩ := hknown x hx hxid
      exact ⟨geometry, (update_of_ne hxid _ _).trans hseen, hold⟩
  · obtain rfl := hsame x hx
    exact update_self _ _ _

theorem Sound.resize (hsound : self.Sound) (geometry : TerminalGeometry) :
    (self.onResizeWithGeometry geometry).note.Sound := by
  unfold onResizeWithGeometry
  dsimp only
  split
  · rename_i id hactive
    have hid := hsound.active id hactive
    have hpending : sizesOf (self.tmux.queueTmuxResize id geometry).pendingTmuxCommands =
        replace id (refreshClientCommand geometry) (sizesOf self.tmux.pendingTmuxCommands) :=
      sizesOf_queueTmuxResize _
    rw [if_pos hid]
    refine Sound.tells ?_ ?_ hactive hid ?_ fun x hx hxid => ?_
    · refine hsound.views.trans ?_
      rw [queueTmuxResize]
      split
      · rfl
      · rfl
    · show Current (publish self.lastSize [(id, refreshClientCommand geometry)])
        (sizesOf (self.tmux.queueTmuxResize id geometry).pendingTmuxCommands)
      rw [hpending]
      exact hsound.current.replace id (refreshClientCommand geometry)
    · refine publish_self.trans (congrArg some ?_)
      exact refreshClientCommand_eq_iff.mpr (grid_endpointGeometry geometry).symm
    · obtain ⟨old, hseen, hsize⟩ := hsound.known x hx
      exact ⟨old, hseen, (publish_of_ne hxid).trans hsize⟩
  · rename_i hactive
    refine (congrArg Sound (note_none ?_)).mpr ?_
    · exact hactive
    · exact ⟨hsound.views, fun id h => absurd (hactive.symm.trans h) (by simp), hsound.current,
        hsound.known, fun id h => absurd (hactive.symm.trans h) (by simp)⟩

theorem connections_startCommands (tmux : TmuxApp) (id : UInt64) (geometry : TerminalGeometry) :
    (App.startCommands id geometry tmux).connections = tmux.connections := by
  rw [App.startCommands, queueTmuxResize]
  split
  · rfl
  · rfl

theorem sizesOf_startCommands (tmux : TmuxApp) (id : UInt64) (geometry : TerminalGeometry) :
    sizesOf (App.startCommands id geometry tmux).pendingTmuxCommands =
      replace id (refreshClientCommand geometry) (sizesOf tmux.pendingTmuxCommands) := by
  have hinventory : sizesOf (inventoryRequest id) = [] := by
    refine sizesOf_eq_nil fun command hmem => ?_
    obtain ⟨-, -, rfl⟩ := mem_map.mp hmem
    exact fun h => by cases h
  rw [App.startCommands, queueTmuxInventory, TmuxApp.pushAll, sizesOf_append, hinventory, append_nil]
  refine (sizesOf_queueTmuxResize _).trans (congrArg _ ?_)
  rw [sizesOf_append]
  exact append_nil _

theorem Sound.start (hsound : self.Sound) {origin : GatewayOrigin} {portal : Bool}
    (h : self.startTmuxConnection id origin portal = some next) :
    next.note.Sound ∧ next.activeTmuxConnection = some id := by
  simp only [startTmuxConnection, bind_eq_bind, bind_eq_some_iff, some.injEq] at h
  obtain ⟨app, hstart, rfl⟩ := h
  refine ⟨?_, rfl⟩
  unfold App.startTmuxConnection at hstart
  split at hstart
  · cases hstart
  · split at hstart
    · cases hstart
    · cases hstart
      refine Sound.tells ?_ ?_ rfl (mem_append_right _ mem_cons_self) publish_self fun x hx hxid => ?_
      · show self.connectionViews ++ [id] = map _ (App.startCommands id self.geometry _).connections
        rw [connections_startCommands, map_append, hsound.views]
        rfl
      · show Current (publish self.lastSize [(id, refreshClientCommand self.geometry)])
          (sizesOf (App.startCommands id self.geometry _).pendingTmuxCommands)
        rw [sizesOf_startCommands]
        exact hsound.current.replace id (refreshClientCommand self.geometry)
      · have hold : x ∈ self.connectionViews := by
          refine (mem_append.mp hx).resolve_right fun hmem => ?_
          exact hxid (mem_singleton.mp hmem)
        obtain ⟨geometry, hseen, hsize⟩ := hsound.known x hold
        exact ⟨geometry, hseen, (publish_of_ne hxid).trans hsize⟩

theorem Sound.still (hsound : self.Sound) (hstill : self.Still next)
    (hsuits : ∀ id, next.activeTmuxConnection = some id → self.activeTmuxConnection ≠ some id →
      (self.lastSeen id).map grid = some (grid self.geometry)) : next.note.Sound := by
  have hcurrent := hstill.lastSize ▸ hsound.current.subperm hstill.sizes
  have hknown : ∀ x ∈ next.connectionViews, ∃ geometry, next.lastSeen x = some geometry ∧
      next.lastSize x = some (refreshClientCommand geometry) := by
    rw [hstill.lastSeen, hstill.lastSize]
    exact fun x hx => hsound.known x (hstill.subset x hx)
  cases hactive : next.activeTmuxConnection with
  | none =>
    rw [note_none hactive]
    exact ⟨hstill.views, hstill.active, hcurrent, hknown, fun id h => absurd (hactive.symm.trans h) (by simp)⟩
  | some id =>
    have hid := hstill.active id hactive
    refine Sound.tells hstill.views hcurrent hactive hid ?_ fun x hx _ => hknown x hx
    obtain ⟨geometry, hseen, hsize⟩ := hknown id hid
    rw [hsize, hstill.geometry]
    refine congrArg some (refreshClientCommand_eq_iff.mpr ?_)
    rw [hstill.lastSeen] at hseen
    by_cases hsame : self.activeTmuxConnection = some id
    · rw [hsound.seen id hsame] at hseen
      rw [some.inj hseen]
    · have hgrid := hsuits id hactive hsame
      rw [hseen] at hgrid
      exact some.inj hgrid

theorem note_activeTmuxConnection : self.note.activeTmuxConnection = self.activeTmuxConnection := by
  unfold note
  split
  · rfl
  · rfl

theorem after_some (h : self.perform event = some next) : self.after event = next.note := by
  rw [after, h]
  rfl

theorem after_none (h : self.perform event = none) : self.after event = self := by
  rw [after, h]
  rfl

/-- **A step that suits keeps all sound.** -/
theorem Sound.after (hsound : self.Sound) (hsuits : self.Suits event) : (self.after event).Sound := by
  cases hperform : self.perform event with
  | none =>
    rw [after_none hperform]
    exact hsound
  | some next =>
    have hafter := after_some hperform
    rw [hafter]
    rcases hsound.cases hperform with ⟨geometry, rfl⟩ | ⟨id, origin, portal, -, hstart⟩ | hstill
    · exact hsound.resize geometry
    · exact (hsound.start hstart).1
    · by_cases hstarts : starts event = none
      · refine hsound.still hstill fun id hactive hnew => hsuits id ?_ hnew (by simp [hstarts])
        rw [hafter, note_activeTmuxConnection, hactive]
      · cases event with
        | started id origin portal => exact (hsound.start hperform).1
        | _ => exact absurd rfl hstarts

/-- **A step after which the active connection knows the size suits.** -/
theorem Sound.suits (hsound : self.Sound) (htold : (self.after event).Told) : self.Suits event := by
  intro id hactive hnew hstarts
  cases hperform : self.perform event with
  | none =>
    rw [after_none hperform] at hactive
    exact absurd hactive hnew
  | some next =>
    have hsize := htold id hactive
    rw [after_some hperform] at hactive hsize
    have hnote : next.note.lastSize = next.lastSize ∧ next.note.geometry = next.geometry := by
      unfold note
      split
      · exact ⟨rfl, rfl⟩
      · exact ⟨rfl, rfl⟩
    rw [note_activeTmuxConnection] at hactive
    rw [hnote.1, hnote.2] at hsize
    rcases hsound.cases hperform with ⟨geometry, rfl⟩ | ⟨x, origin, portal, rfl, hstart⟩ | hstill
    · refine absurd ?_ hnew
      unfold onResizeWithGeometry at hactive
      dsimp only at hactive
      split at hactive
      · split at hactive
        · exact hactive
        · exact hactive
      · exact hactive
    · rw [(hsound.start hstart).2] at hactive
      exact absurd hactive hstarts
    · obtain ⟨geometry, hseen, hold⟩ := hsound.known id (hstill.subset id (hstill.active id hactive))
      rw [hstill.lastSize, hstill.geometry, hold] at hsize
      rw [hseen, map_some, refreshClientCommand_eq_iff.mp (some.inj hsize)]

/-! ## Runs -/

theorem Sound.new (geometry : TerminalGeometry) : (new geometry).Sound where
  views := rfl
  active _ h := by cases h
  current := .nil
  known _ hmem := absurd hmem not_mem_nil
  seen _ h := by cases h

theorem run_append (events : List SizeEvent) (event : SizeEvent) :
    self.run (events ++ [event]) = (self.run events).after event := by
  rw [run, foldl_append]
  rfl

/-- **In every run the active connection has been told the outer size last, in every state that is reached,
if and only if every step suits.** -/
theorem run_told_iff (geometry : TerminalGeometry) (events : List SizeEvent) :
    (∀ before, before <+: events → ((new geometry).run before).Told) ↔
      ∀ before event, before ++ [event] <+: events → ((new geometry).run before).Suits event := by
  constructor
  · intro htold before
    suffices h : ∀ event, before ++ [event] <+: events → ((new geometry).run before).Sound by
      intro event hprefix
      refine (h event hprefix).suits ?_
      rw [← run_append]
      exact htold _ hprefix
    induction before using reverseRecOn with
    | nil => exact fun _ _ => .new geometry
    | append_singleton before event ih =>
      intro next hprefix
      have hbefore : before ++ [event] <+: events := (prefix_append _ _).trans hprefix
      have hsound := ih event hbefore
      rw [run_append]
      refine hsound.after (hsound.suits ?_)
      rw [← run_append]
      exact htold _ hbefore
  · intro hsuits before
    suffices h : before <+: events → ((new geometry).run before).Sound from fun hprefix => (h hprefix).told
    induction before using reverseRecOn with
    | nil => exact fun _ => .new geometry
    | append_singleton before event ih =>
      intro hprefix
      rw [run_append]
      exact (ih ((prefix_append _ _).trans hprefix)).after (hsuits before event hprefix)

/-- The inner connection ends after a resize: the outer one was told the size from before. -/
theorem resized_behind :
    ¬ ∀ (geometry : TerminalGeometry) (events : List SizeEvent), ((new geometry).run events).Told := by
  intro h
  have htold := h ⟨24, 80, 0, 0⟩ [.started 1 .direct true, .started 2 (.pane 1 0 0 5) true,
    .resize ⟨40, 120, 0, 0⟩, .ended 2] 1 (by decide +kernel)
  exact absurd htold (by decide +kernel)

end Shown

end Lector.Lifecycle
