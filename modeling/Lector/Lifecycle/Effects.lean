import Lector.Lifecycle.Forest
import Lector.Lifecycle.Gateways

/-! What each operation on connections changes. -/
namespace Lector.Lifecycle
open Std Lector.Topology Gateway Tmux Output Relation List ConnectionHierarchy TmuxApp
open Option hiding all

/-! ## Hierarchies -/

namespace ConnectionHierarchy

variable {h h' h'' : ConnectionHierarchy} {id root : UInt64} {removed more : List UInt64}

/-- Connections are gone, with all that lay below them. -/
structure Shrinks (h : ConnectionHierarchy) (removed : List UInt64) (h' : ConnectionHierarchy) : Prop where
  forest : h'.Forest
  rest : ∀ id, h'.origin id = if id ∈ removed then none else h.origin id
  closed : ∀ id parent, h.Parent id parent → parent ∈ removed → id ∈ removed

theorem Shrinks.refl (forest : h.Forest) : h.Shrinks [] h where
  forest := forest
  rest _ := rfl
  closed _ _ _ hmem := absurd hmem not_mem_nil

theorem Removes.shrinks {roots : UInt64 → Prop} (forest : h.Forest)
    (hremoves : h.Removes roots removed h') : h.Shrinks removed h' where
  forest := forest.removes hremoves
  rest := hremoves.rest
  closed id parent hparent hmem := by
    obtain ⟨-, root, hroot, hbelow⟩ := (hremoves.exact parent).mp hmem
    exact (hremoves.exact id).mpr ⟨hparent.contains, root, hroot, hbelow.head hparent⟩

theorem Shrinks.parent (hshrinks : h.Shrinks removed h') (hparent : h'.Parent id root) :
    h.Parent id root ∧ id ∉ removed := by
  obtain ⟨s, w, p, horigin⟩ := hparent
  rw [hshrinks.rest id] at horigin
  split at horigin
  · cases horigin
  · rename_i hout
    exact ⟨⟨s, w, p, horigin⟩, hout⟩

/-- No connection hangs from what `keep` selects. -/
def Clear (h : ConnectionHierarchy) (keep : GatewayOrigin → Bool) : Prop :=
  ∀ id origin, h.origin id = some origin → keep origin = false

theorem Shrinks.clear {keep : GatewayOrigin → Bool} (hshrinks : h.Shrinks removed h')
    (hclear : h.Clear keep) : h'.Clear keep := by
  intro x origin horigin
  rw [hshrinks.rest x] at horigin
  split at horigin
  · cases horigin
  · exact hclear x origin horigin

theorem Removes.clear {keep : GatewayOrigin → Bool}
    (hremoves : h.Removes (fun root => ∃ origin, h.origin root = some origin ∧ keep origin) removed h') :
    h'.Clear keep := by
  intro x origin horigin
  rw [hremoves.rest x] at horigin
  split at horigin
  · cases horigin
  · rename_i hout
    refine eq_false_of_ne_true fun hkeep => hout ((hremoves.exact x).mpr ⟨?_, x, ?_, .refl⟩)
    · exact contains_iff_origin.mpr ⟨origin, horigin⟩
    · exact ⟨origin, horigin, hkeep⟩

theorem Shrinks.trans (hfirst : h.Shrinks removed h') (hsecond : h'.Shrinks more h'') :
    h.Shrinks (removed ++ more) h'' where
  forest := hsecond.forest
  rest id := by
    rw [hsecond.rest id, hfirst.rest id]
    by_cases hmore : id ∈ more
    · rw [if_pos hmore, if_pos (mem_append_right _ hmore)]
    · by_cases hremoved : id ∈ removed
      · rw [if_neg hmore, if_pos hremoved, if_pos (mem_append_left _ hremoved)]
      · rw [if_neg hmore, if_neg hremoved, if_neg]
        exact fun hmem => (mem_append.mp hmem).elim hremoved hmore
  closed id parent hparent hmem := by
    by_cases hremoved : id ∈ removed
    · exact mem_append_left _ hremoved
    · refine mem_append_right _ ?_
      have hout : parent ∉ removed := fun hin => hremoved (hfirst.closed id parent hparent hin)
      obtain ⟨s, w, p, horigin⟩ := hparent
      have hparent' : h'.Parent id parent := ⟨s, w, p, by rw [hfirst.rest id, if_neg hremoved, horigin]⟩
      exact hsecond.closed id parent hparent' ((mem_append.mp hmem).resolve_left hout)

theorem Shrinks.contains_iff (hshrinks : h.Shrinks removed h') :
    h'.contains id = true ↔ h.contains id = true ∧ id ∉ removed := by
  rw [contains_iff_origin, contains_iff_origin, hshrinks.rest id]
  by_cases hmem : id ∈ removed
  · simp [hmem]
  · simp [hmem]

theorem Shrinks.below (hshrinks : h.Shrinks removed h') (hbelow : h'.Below id root) :
    h.Below id root := TransGen.mono (fun _ _ hparent => (hshrinks.parent hparent).1) _ _ hbelow

theorem Shrinks.atOrBelow (hshrinks : h.Shrinks removed h') (hout : id ∉ removed)
    (hbelow : h.AtOrBelow id root) : h'.AtOrBelow id root ∧ root ∉ removed := by
  induction hbelow with
  | refl => exact ⟨.refl, hout⟩
  | @tail b c _ hparent ih =>
    obtain ⟨hat, hb⟩ := ih
    obtain ⟨s, w, p, horigin⟩ := hparent
    refine ⟨hat.tail ⟨s, w, p, by rw [hshrinks.rest b, if_neg hb, horigin]⟩, fun hc => ?_⟩
    exact hb (hshrinks.closed b c ⟨s, w, p, horigin⟩ hc)

theorem Below.contains (hbelow : h.Below id root) : h.contains id := by
  obtain ⟨_, hparent, -⟩ := TransGen.head'_iff.mp hbelow
  exact hparent.contains

/-- A new connection hangs where its origin says, and nothing else moves. -/
structure Grows (h : ConnectionHierarchy) (id : UInt64) (origin : GatewayOrigin)
    (h' : ConnectionHierarchy) : Prop where
  forest : h'.Forest
  fresh : h.contains id = false
  rest : ∀ x, h'.origin x = if id = x then some origin else h.origin x

theorem Forest.grows (forest : h.Forest) {origin : GatewayOrigin} (hok : h.insert id origin = .ok h') :
    h.Grows id origin h' := by
  obtain ⟨hnew, -, -, hins⟩ := insert_ok hok
  refine ⟨forest.insert hok, hnew, fun x => ?_⟩
  rw [hins]
  exact origin_insert h id x origin

variable {origin : GatewayOrigin}

variable {x p y : UInt64}

section

variable (hgrows : h.Grows id origin h')
include hgrows

theorem Grows.contains_iff : h'.contains x = true ↔ x = id ∨ h.contains x = true := by
  rw [contains_iff_origin, contains_iff_origin, hgrows.rest x]
  by_cases hx : id = x
  · simp [hx]
  · simp [hx, Ne.symm hx]

theorem Grows.parent (hparent : h.Parent x p) : h'.Parent x p := by
  have hx : id ≠ x := by
    rintro rfl
    have hcontains := hparent.contains
    rw [hgrows.fresh] at hcontains
    cases hcontains
  obtain ⟨s, w, pane, horigin⟩ := hparent
  exact ⟨s, w, pane, by rw [hgrows.rest x, if_neg hx, horigin]⟩

theorem Grows.atOrBelow (hbelow : h.AtOrBelow x y) :
    h'.AtOrBelow x y := ReflTransGen.mono (fun _ _ => hgrows.parent) _ _ hbelow

theorem Grows.atOrBelow_cases (forest : h.Forest)
    (hbelow : h'.AtOrBelow x y) (hx : h.contains x) : h.AtOrBelow x y := by
  induction hbelow using ReflTransGen.head_induction_on with
  | refl => exact .refl
  | @head a b hparent _ ih =>
    have ha : id ≠ a := by
      rintro rfl
      rw [hgrows.fresh] at hx
      cases hx
    obtain ⟨s, w, p, horigin⟩ := hparent
    rw [hgrows.rest a, if_neg ha] at horigin
    have hparent : h.Parent a b := ⟨s, w, p, horigin⟩
    exact .head hparent (ih (forest.parents a b hparent))

theorem Grows.below_cases (forest : h.Forest) (hbelow : h'.Below x y) :
    h.Below x y ∨ (x = id ∧ ∃ parent s w p, origin = .pane parent s w p ∧ h.AtOrBelow parent y) := by
  obtain ⟨b, hparent, hrest⟩ := TransGen.head'_iff.mp hbelow
  obtain ⟨s, w, p, horigin⟩ := hparent
  rw [hgrows.rest x] at horigin
  split at horigin
  · rename_i hid
    have horigin := some.inj horigin
    refine .inr ⟨hid.symm, b, s, w, p, horigin, ?_⟩
    have hparent : h'.Parent x b := ⟨s, w, p, by rw [hgrows.rest x, if_pos hid, horigin]⟩
    rcases hgrows.contains_iff.mp (hgrows.forest.parents x b hparent) with heq | hb
    · rw [heq, ← hid] at hparent
      exact absurd (TransGen.single hparent) (hgrows.forest.acyclic id)
    · exact hgrows.atOrBelow_cases forest hrest hb
  · have hparent : h.Parent x b := ⟨s, w, p, horigin⟩
    exact .inl (TransGen.head'_iff.mpr
      ⟨b, hparent, hgrows.atOrBelow_cases forest hrest (forest.parents x b hparent)⟩)

end

end ConnectionHierarchy

/-! ## Commands -/

def isWork : ExpectedTmuxReply → Bool
  | .inventory | .bootstrap _ _ => true
  | _ => false

def announces (command : PendingTmuxCommand) : Bool := command.expectedReplies.any isWork

/-- What the app asks on its own: commands without work or sizes, more input, panes that are to go
on. -/
structure Asks (R : TmuxApp → TmuxApp → Prop) : Prop where
  refl (tmux : TmuxApp) : R tmux tmux
  trans {a b c : TmuxApp} (h : R a b) (h' : R b c) : R a c
  push (tmux : TmuxApp) (command : PendingTmuxCommand) (hquiet : announces command = false)
    (hkind : command.kind ≠ .resize) : R tmux (tmux.push command)
  join (tmux : TmuxApp) (front : List PendingTmuxCommand) (command : PendingTmuxCommand)
    (paneId : PaneId) (input : Bytes) (hlast : tmux.pendingTmuxCommands = front ++ [command])
    (hkind : command.kind = .input paneId) :
    R tmux { tmux with
      pendingTmuxCommands := front ++ [{ command with bytes := command.bytes ++ input }] }
  resume (tmux : TmuxApp) (id : UInt64) (paneId : PaneId) :
    R tmux (tmux.withConnection id (·.withFlow paneId ({ · with resumeRequested := true })))

section Commands

variable {R : TmuxApp → TmuxApp → Prop} {tmux tmux' : TmuxApp}

theorem Asks.pushAll (hasks : Asks R) {commands : List PendingTmuxCommand}
    (h : ∀ command ∈ commands, announces command = false ∧ command.kind ≠ .resize) :
    R tmux (tmux.pushAll commands) := by
  induction commands generalizing tmux with
  | nil =>
    rw [pushAll, append_nil]
    exact hasks.refl tmux
  | cons command rest ih =>
    obtain ⟨⟨hquiet, hkind⟩, hrest⟩ := forall_mem_cons.mp h
    have hall : tmux.pushAll (command :: rest) = (tmux.push command).pushAll rest := by
      rw [pushAll, append_cons]
      rfl
    rw [hall]
    exact hasks.trans (hasks.push tmux command hquiet hkind) (ih hrest)

theorem Asks.queueTmuxInput (hasks : Asks R) (connectionId : UInt64) (paneId : PaneId) (input : Bytes) :
    R tmux (tmux.queueTmuxInput connectionId paneId input) := by
  have hpush := hasks.push tmux ⟨connectionId, input, [], .input paneId⟩ rfl fun h => by cases h
  rw [TmuxApp.queueTmuxInput]
  split
  · exact hasks.refl tmux
  · split
    · rename_i command hlast
      split
      · rename_i hsame
        obtain ⟨front, hfront⟩ := getLast?_eq_some_iff.mp hlast
        have hjoin := hasks.join tmux front command paneId input hfront hsame.2
        rw [hfront, dropLast_concat]
        exact hjoin
      · exact hpush
    · exact hpush

theorem Asks.queueTmuxCommand (hasks : Asks R) {connectionId : UInt64} {command : String} {showSuccess : Bool}
    (h : tmux.queueTmuxCommand connectionId command showSuccess = some tmux') : R tmux tmux' := by
  rw [TmuxApp.queueTmuxCommand, ite_none_right_eq_some] at h
  rw [← some.inj h.2]
  exact hasks.push _ _ rfl fun h => by cases h

theorem hopRestores_quiet {hop : TmuxGatewayHop} {commands : List PendingTmuxCommand}
    (h : tmux.hopRestores hop = some commands) :
    ∀ command ∈ commands, announces command = false ∧ command.kind ≠ .resize := by
  simp only [hopRestores, bind_eq_bind, bind_eq_some_iff] at h
  obtain ⟨connection, -, session, -, window, -, pane, -, h⟩ := h
  have hone : ∀ (p : Prop) [Decidable p] (text : String), ∀ command ∈ (if p then [restore hop text] else []),
        announces command = false ∧ command.kind ≠ .resize := by
    intro p _ text command hmem
    split at hmem
    · rw [mem_singleton.mp hmem]
      exact ⟨rfl, fun h => by cases h⟩
    · cases hmem
  split at h
  · cases h
  · cases h
    intro command hmem
    rcases mem_append.mp hmem with hmem | hmem
    · rcases mem_append.mp hmem with hmem | hmem
      · exact hone _ _ command hmem
      · exact hone _ _ command hmem
    · exact hone _ _ command hmem

theorem Asks.queueTmuxGatewayPathResumes (hasks : Asks R) {connectionId : UInt64}
    (h : tmux.queueTmuxGatewayPathResumes connectionId = some tmux') : R tmux tmux' := by
  simp only [TmuxApp.queueTmuxGatewayPathResumes, bind_eq_bind, bind_eq_some_iff, some.injEq] at h
  obtain ⟨path, -, restores, hrestores, rfl⟩ := h
  have hfold : ∀ (hops : List TmuxGatewayHop) (tmux : TmuxApp), R tmux (hops.foldl TmuxApp.resumeHop tmux) := by
    intro hops
    induction hops with
    | nil => exact hasks.refl
    | cons hop rest ih =>
      intro tmux
      have hpush := hasks.push (tmux.withConnection hop.parentConnectionId
        (·.withFlow hop.paneId ({ · with resumeRequested := true })))
        (TmuxApp.continuePane hop.parentConnectionId hop.paneId) rfl fun h => by cases h
      exact hasks.trans (hasks.trans (hasks.resume tmux hop.parentConnectionId hop.paneId) hpush) (ih _)
  refine hasks.trans (hasks.pushAll fun command hmem => ?_) (hfold path _)
  obtain ⟨part, hpart, hmem⟩ := mem_flatten.mp hmem
  obtain ⟨hop, -, hhop⟩ := Fallible.exists_of_mem_mapM hrestores hpart
  exact hopRestores_quiet hhop command hmem

theorem asks_hierarchy : Asks fun tmux tmux' => tmux'.hierarchy = tmux.hierarchy where
  refl _ := rfl
  trans h h' := h'.trans h
  push _ _ _ _ := rfl
  join _ _ _ _ _ _ _ := rfl
  resume _ _ _ := rfl

theorem startCommands_hierarchy (connectionId : UInt64) (geometry : TerminalGeometry) :
    (App.startCommands connectionId geometry tmux).hierarchy = tmux.hierarchy := by
  rw [App.startCommands, queueTmuxResize]
  split
  · rfl
  · rfl

end Commands

def PendingGracefulTeardown.order (pending : PendingGracefulTeardown) : List UInt64 :=
  pending.awaiting.toList ++ pending.remaining

namespace App

variable {app app' : App}

variable {connectionId : UInt64}

theorem queueAccessibleTmuxDetach_some (h : app.queueAccessibleTmuxDetach connectionId = some app') :
    ∃ tmux, app' = { app with tmux := tmux } ∧ tmux.hierarchy = app.hierarchy := by
  simp only [queueAccessibleTmuxDetach, bind_eq_bind, bind_eq_some_iff, some.injEq] at h
  obtain ⟨first, hfirst, tmux, htmux, rfl⟩ := h
  exact ⟨tmux, rfl, (asks_hierarchy.queueTmuxCommand htmux).trans
    (asks_hierarchy.queueTmuxGatewayPathResumes hfirst)⟩

/-! ## Advancing a teardown -/

theorem nextRemaining_none {remaining : List UInt64} (h : app.nextRemaining remaining = none) :
    ∀ id ∈ remaining, app.hierarchy.contains id = false := by
  induction remaining with
  | nil => exact forall_mem_nil _
  | cons id rest ih =>
    rw [nextRemaining] at h
    split at h
    · cases h
    · rename_i hgone
      intro x hx
      rcases mem_cons.mp hx with rfl | hx
      · exact eq_false_of_ne_true hgone
      · exact ih h x hx

theorem nextRemaining_some {remaining rest : List UInt64} {next : UInt64}
    (h : app.nextRemaining remaining = some (next, rest)) :
    ∃ skipped, remaining = skipped ++ next :: rest ∧
      (∀ id ∈ skipped, app.hierarchy.contains id = false) ∧ app.hierarchy.contains next := by
  induction remaining with
  | nil => cases h
  | cons id more ih =>
    rw [nextRemaining] at h
    split at h
    · rename_i hlive
      cases h
      exact ⟨[], rfl, forall_mem_nil _, hlive⟩
    · rename_i hgone
      obtain ⟨skipped, rfl, hskipped, hlive⟩ := ih h
      refine ⟨id :: skipped, rfl, fun x hx => ?_, hlive⟩
      rcases mem_cons.mp hx with rfl | hx
      · exact eq_false_of_ne_true hgone
      · exact hskipped x hx

structure Teardown where
  hierarchy : ConnectionHierarchy
  pending : Option PendingGracefulTeardown
  log : List LogEvent

def teardown (app : App) : Teardown := ⟨app.hierarchy, app.pendingGracefulTeardown, app.log⟩

inductive Advances (t : Teardown) : Teardown → Prop
  | rests : (t.pending = none ∨ ∃ pending connectionId, t.pending = some pending ∧
      pending.awaiting = some connectionId ∧ t.hierarchy.contains connectionId) → Advances t t
  | completes {pending : PendingGracefulTeardown} : t.pending = some pending →
      (∀ id ∈ pending.order, t.hierarchy.contains id = false) →
      Advances t ⟨t.hierarchy, none, t.log ++ [.completedTeardown]⟩
  | detaches {pending : PendingGracefulTeardown} {skipped rest : List UInt64} {next : UInt64} :
      t.pending = some pending → (∀ id ∈ pending.awaiting, t.hierarchy.contains id = false) →
      pending.order = skipped ++ next :: rest →
      (∀ id ∈ skipped, t.hierarchy.contains id = false) → t.hierarchy.contains next →
      Advances t ⟨t.hierarchy, some ⟨rest, some next⟩, t.log ++ [.requestedDetach next]⟩
  | blocked : Advances t ⟨t.hierarchy, none, t.log⟩

theorem advances (app : App) : Advances app.teardown app.advanceGracefulTmuxTeardown.teardown := by
  rw [advanceGracefulTmuxTeardown]
  split
  · rename_i hnone
    exact .rests (.inl hnone)
  · rename_i pending hpending
    split
    · rename_i hany
      obtain ⟨connectionId, hsome, hlive⟩ := (any_eq_true _ _).mp hany
      exact .rests (.inr ⟨pending, connectionId, hpending, hsome, hlive⟩)
    · rename_i hany
      have hgone : ∀ id ∈ pending.awaiting.toList, app.hierarchy.contains id = false := by
        intro id hmem
        rw [mem_toList.mp hmem] at hany
        exact eq_false_of_ne_true hany
      split
      · rename_i hnone
        refine .completes hpending fun id hmem => ?_
        exact (mem_append.mp hmem).elim (hgone id) (nextRemaining_none hnone id)
      · rename_i next rest hsome
        obtain ⟨skipped, hsplit, hskipped, hlive⟩ := nextRemaining_some hsome
        split
        · rename_i detached hdetach
          obtain ⟨tmux, rfl, htmux⟩ := queueAccessibleTmuxDetach_some hdetach
          have hview : teardown { app with
              tmux := tmux
              pendingGracefulTeardown := some ⟨rest, some next⟩
              log := app.log ++ [.requestedDetach next] } =
            ⟨app.hierarchy, some ⟨rest, some next⟩, app.log ++ [.requestedDetach next]⟩ := by
            exact congrArg (Teardown.mk · _ _) htmux
          rw [hview]
          refine @Advances.detaches app.teardown pending (pending.awaiting.toList ++ skipped) rest next
            hpending (fun id hmem => hgone id (mem_toList.mpr hmem)) ?_ (fun id hmem => ?_) hlive
          · rw [PendingGracefulTeardown.order, hsplit, append_assoc]
          · exact (mem_append.mp hmem).elim (hgone id) (hskipped id)
        · exact .blocked

structure SameGateways (app app' : App) : Prop where
  hierarchy : app'.hierarchy = app.hierarchy
  tmuxGateway : app'.tmuxGateway = app.tmuxGateway
  gatewayEvents : app'.gatewayEvents = app.gatewayEvents
  nested : app'.nestedTmuxGateways = app.nestedTmuxGateways
  abandon : app'.pendingForceAbandon = app.pendingForceAbandon

theorem sameGateways_advance (app : App) : SameGateways app app.advanceGracefulTmuxTeardown := by
  rw [advanceGracefulTmuxTeardown]
  split
  · exact ⟨rfl, rfl, rfl, rfl, rfl⟩
  · split
    · exact ⟨rfl, rfl, rfl, rfl, rfl⟩
    · split
      · exact ⟨rfl, rfl, rfl, rfl, rfl⟩
      · split
        · rename_i detached hdetach
          obtain ⟨tmux, rfl, htmux⟩ := queueAccessibleTmuxDetach_some hdetach
          exact ⟨htmux, rfl, rfl, rfl, rfl⟩
        · exact ⟨rfl, rfl, rfl, rfl, rfl⟩

/-! ## Removals -/

theorem endTmuxConnection_eq (forest : app.hierarchy.Forest) (connectionId : UInt64) :
    ∃ removed hierarchy, app.hierarchy.Shrinks removed hierarchy ∧
      (∀ x, x ∈ removed ↔ app.hierarchy.AtOrBelow x connectionId) ∧
      app.endTmuxConnection connectionId = some (afterRemoval
          { app with
            pendingForceAbandon := app.pendingForceAbandon.filter (·.connectionId ∉ removed) }
          removed hierarchy).advanceGracefulTmuxTeardown := by
  obtain ⟨removed, hierarchy, -, hremove, hremoves⟩ := forest.removeConnection connectionId
  have hroot : ∀ x, app.hierarchy.AtOrBelow x connectionId → x = connectionId ∨
      (app.hierarchy.contains connectionId ∧ app.hierarchy.contains x) := by
    intro x hx
    rcases ReflTransGen.cases_head hx with rfl | ⟨_, hparent, -⟩
    · exact .inl rfl
    · exact .inr ⟨forest.contains_root hparent.contains hx, hparent.contains⟩
  by_cases hlive : app.hierarchy.contains connectionId
  · have hexact : ∀ x, x ∈ removed ↔ app.hierarchy.AtOrBelow x connectionId := by
      intro x
      rw [hremoves.exact]
      constructor
      · rintro ⟨-, _, rfl, hx⟩
        exact hx
      · intro hx
        rcases hroot x hx with rfl | ⟨-, hcontains⟩
        · exact ⟨hlive, x, rfl, hx⟩
        · exact ⟨hcontains, connectionId, rfl, hx⟩
    have hsome : removed.isEmpty = false := by
      cases removed with
      | nil => exact absurd ((hexact connectionId).mpr .refl) not_mem_nil
      | cons _ _ => rfl
    refine ⟨removed, hierarchy, hremoves.shrinks forest, hexact, ?_⟩
    rw [endTmuxConnection, hremove]
    show some (App.advanceGracefulTmuxTeardown _) = _
    rw [hsome]
    rfl
  · have hnone : ∀ x, x ∉ removed := by
      intro x hx
      obtain ⟨hcontains, _, rfl, hbelow⟩ := (hremoves.exact x).mp hx
      exact hlive (forest.contains_root hcontains hbelow)
    obtain rfl : removed = [] := eq_nil_iff_forall_not_mem.mpr hnone
    have hexact : ∀ x, x ∈ [connectionId] ↔ app.hierarchy.AtOrBelow x connectionId := by
      intro x
      rw [mem_singleton]
      constructor
      · rintro rfl
        exact .refl
      · intro hx
        rcases hroot x hx with rfl | ⟨hcontains, -⟩
        · rfl
        · exact absurd hcontains hlive
    refine ⟨[connectionId], hierarchy, ⟨forest.removes hremoves, fun x => ?_, fun x p hparent hp => ?_⟩,
      hexact, ?_⟩
    · rw [hremoves.rest x, if_neg not_mem_nil]
      split
      · rename_i hmem
        cases horigin : app.hierarchy.origin x with
        | none => rfl
        | some origin =>
          rw [mem_singleton.mp hmem] at horigin
          exact absurd (contains_iff_origin.mpr ⟨origin, horigin⟩) hlive
      · rfl
    · rw [mem_singleton.mp hp] at hparent
      exact absurd (forest.parents x connectionId hparent) hlive
    · rw [endTmuxConnection, hremove]
      rfl

theorem foldlM_shrinks {α : Type} {keep : α → GatewayOrigin → Bool}
    {remove : ConnectionHierarchy → α → Option (List UInt64 × ConnectionHierarchy)}
    (hremove : ∀ h x, h.Forest → ∃ removed h', remove h x = some (removed, h') ∧ h.Shrinks removed h' ∧
      h'.Clear (keep x))
    (items : List α) {first h : ConnectionHierarchy} {removed : List UInt64}
    (hshrinks : first.Shrinks removed h) :
    ∃ all h', items.foldlM (fun (state : List UInt64 × ConnectionHierarchy) x => do
        let (more, hierarchy) ← remove state.2 x
        some (state.1 ++ more, hierarchy)) (removed, h) = some (all, h') ∧ first.Shrinks all h' ∧
      (∀ item, h.Clear (keep item) → h'.Clear (keep item)) ∧ ∀ item ∈ items, h'.Clear (keep item) := by
  induction items generalizing h removed with
  | nil => exact ⟨removed, h, rfl, hshrinks, fun _ hclear => hclear, fun _ hmem => by cases hmem⟩
  | cons item rest ih =>
    obtain ⟨more, next, hnext, hmore, hitem⟩ := hremove h item hshrinks.forest
    obtain ⟨all, h', hall, hshrinks', hstays, hclear⟩ := ih (hshrinks.trans hmore)
    refine ⟨all, h', ?_, hshrinks', fun x hx => hstays x (hmore.clear hx), fun x hx => ?_⟩
    · rw [foldlM_cons]
      simp only [hnext]
      exact hall
    · rcases mem_cons.mp hx with rfl | hx
      · exact hstays x hitem
      · exact hclear x hx

theorem removeGateways_shrinks (forest : app.hierarchy.Forest) (parentConnectionId : UInt64)
    (paneIds windowIds : List UInt64) : ∃ removed hierarchy,
      app.removeGateways parentConnectionId paneIds windowIds = some (removed, hierarchy) ∧
      app.hierarchy.Shrinks removed hierarchy ∧
      ∀ paneId ∈ paneIds, hierarchy.Clear (isInPane parentConnectionId paneId) := by
  have hwindow : ∀ (h : ConnectionHierarchy) windowId, h.Forest → ∃ removed h',
      h.removeGatewayWindow parentConnectionId windowId = some (removed, h') ∧ h.Shrinks removed h' ∧
        h'.Clear (isInWindow parentConnectionId windowId) := by
    intro h windowId hforest
    obtain ⟨removed, h', hremove, hremoves⟩ := hforest.removeSelected (isInWindow parentConnectionId windowId)
    exact ⟨removed, h', hremove, hremoves.shrinks hforest, hremoves.clear⟩
  have hpane : ∀ (h : ConnectionHierarchy) paneId, h.Forest → ∃ removed h',
      h.removeGatewayPane parentConnectionId paneId = some (removed, h') ∧ h.Shrinks removed h' ∧
        h'.Clear (isInPane parentConnectionId paneId) := by
    intro h paneId hforest
    obtain ⟨removed, h', hremove, hremoves⟩ := hforest.removeSelected (isInPane parentConnectionId paneId)
    exact ⟨removed, h', hremove, hremoves.shrinks hforest, hremoves.clear⟩
  obtain ⟨removed, middle, hwindows, hshrinks, -⟩ :=
    foldlM_shrinks hwindow windowIds (ConnectionHierarchy.Shrinks.refl forest)
  obtain ⟨all, hierarchy, hpanes, hshrinks', -, hclear⟩ := foldlM_shrinks hpane paneIds hshrinks
  refine ⟨all, hierarchy, ?_, hshrinks', hclear⟩
  rw [removeGateways]
  rw [hwindows]
  exact hpanes

def withoutPanes (app : App) (parentConnectionId : UInt64) (paneIds : List UInt64) : App :=
  { app with
    nestedTmuxGateways := paneIds.foldl
      (fun gateways paneId => gateways.erase ⟨parentConnectionId, paneId⟩) app.nestedTmuxGateways }

theorem resolveDestroyed_eq (forest : app.hierarchy.Forest) {parentConnectionId : UInt64}
    {paneIds windowIds : List UInt64}
    (h : app.resolveDestroyedTmuxGateways parentConnectionId paneIds windowIds = some app') :
    (app' = app.withoutPanes parentConnectionId paneIds ∨
      ∃ removed hierarchy, app.hierarchy.Shrinks removed hierarchy ∧
        app' = (app.withoutPanes parentConnectionId paneIds).afterRemoval removed hierarchy) ∧
    ∀ paneId ∈ paneIds, app'.hierarchy.Clear (isInPane parentConnectionId paneId) := by
  have hforest : (app.withoutPanes parentConnectionId paneIds).hierarchy.Forest := forest
  obtain ⟨removed, hierarchy, hremove, hshrinks, hclear⟩ :=
    removeGateways_shrinks hforest parentConnectionId paneIds windowIds
  change ((app.withoutPanes parentConnectionId paneIds).removeGateways parentConnectionId paneIds
    windowIds).bind _ = some app' at h
  rw [hremove, bind_some] at h
  dsimp only at h
  split at h
  · rename_i hempty
    cases h
    refine ⟨.inl rfl, fun paneId hmem x origin horigin => hclear paneId hmem x origin ?_⟩
    rw [hshrinks.rest x, isEmpty_iff.mp hempty]
    exact horigin
  · cases h
    exact ⟨.inr ⟨removed, hierarchy, hshrinks, rfl⟩, hclear⟩

/-! ## Starting and recovering -/

theorem startTmuxConnection_some {origin : GatewayOrigin} {geometry : TerminalGeometry} {portal : Bool}
    (h : app.startTmuxConnection connectionId origin geometry portal = some app')
    (forest : app.hierarchy.Forest) : app.hierarchy.Grows connectionId origin app'.hierarchy ∧
      ∃ tmux, app' = { app with pendingGatewayConfirmation := none, tmux := tmux } := by
  rw [startTmuxConnection] at h
  split at h
  · cases h
  · rename_i hierarchy hinsert
    split at h
    · cases h
    · cases h
      refine ⟨?_, _, rfl⟩
      show app.hierarchy.Grows connectionId origin (startCommands connectionId geometry _).hierarchy
      rw [startCommands_hierarchy]
      exact forest.grows hinsert

theorem queueGatewayTransportInput_some {action : GatewayControlAction}
    (h : app.queueGatewayTransportInput connectionId action = some app') :
    ∃ tmux input, tmux.hierarchy = app.hierarchy ∧
      app' = { app with tmux := tmux, pendingDirectGatewayInput := input } := by
  simp only [queueGatewayTransportInput, bind_eq_bind, bind_eq_some_iff] at h
  obtain ⟨bytes, -, h⟩ := h
  split at h
  · cases h
    exact ⟨app.tmux, _, rfl, rfl⟩
  · cases h
    exact ⟨_, app.pendingDirectGatewayInput, asks_hierarchy.queueTmuxInput _ _ _, rfl⟩
  · cases h
    exact ⟨app.tmux, app.pendingDirectGatewayInput, rfl, rfl⟩

theorem beginTmuxProtocolRecovery_some {nowMs : Nat}
    (h : app.beginTmuxProtocolRecovery nowMs connectionId = some app') :
    (app.hierarchy.contains connectionId = false ∧ app' = app) ∨
      (app.hierarchy.contains connectionId ∧ ∃ tmux input, tmux.hierarchy = app.hierarchy ∧ app' = { app with
          tmux := tmux
          pendingDirectGatewayInput := input
          pendingForceAbandon := some ⟨connectionId, after nowMs tmuxForceAbandonGraceMs⟩ }) := by
  rw [beginTmuxProtocolRecovery] at h
  split at h
  · rename_i hlive
    simp only [bind_eq_bind, bind_eq_some_iff, some.injEq] at h
    obtain ⟨affected, -, next, hnext, rfl⟩ := h
    obtain ⟨tmux, input, htmux, rfl⟩ := queueGatewayTransportInput_some hnext
    exact .inr ⟨hlive, tmux, input, htmux, rfl⟩
  · rename_i hgone
    cases h
    exact .inl ⟨eq_false_of_ne_true hgone, rfl⟩

theorem acceptGatewayConfirmation_some {nowMs : Nat} {confirmation : PendingGatewayConfirmation}
    (h : app.acceptGatewayConfirmation nowMs confirmation = some app') :
    (app.hierarchy.contains confirmation.connectionId = false ∧ app' = app) ∨
      (app.hierarchy.contains confirmation.connectionId ∧ ∃ tmux input, tmux.hierarchy = app.hierarchy ∧
        app' = { app with
          tmux := tmux
          pendingDirectGatewayInput := input
          pendingGracefulTeardown := none
          pendingForceAbandon := some ⟨confirmation.connectionId, after nowMs tmuxForceAbandonGraceMs⟩ }) := by
  rw [acceptGatewayConfirmation] at h
  split at h
  · rename_i hlive
    simp only [bind_eq_bind, bind_eq_some_iff, some.injEq] at h
    obtain ⟨next, hnext, rfl⟩ := h
    obtain ⟨tmux, input, htmux, rfl⟩ := queueGatewayTransportInput_some hnext
    exact .inr ⟨hlive, tmux, input, htmux, rfl⟩
  · rename_i hgone
    cases h
    exact .inl ⟨eq_false_of_ne_true hgone, rfl⟩

/-! ## Requests -/

section Requests

variable {R : TmuxApp → TmuxApp → Prop}

theorem asks_advance (hasks : Asks R) (app : App) : R app.tmux app.advanceGracefulTmuxTeardown.tmux := by
  rw [advanceGracefulTmuxTeardown]
  split
  · exact hasks.refl _
  · split
    · exact hasks.refl _
    · split
      · exact hasks.refl _
      · split
        · rename_i detached hdetach
          simp only [queueAccessibleTmuxDetach, bind_eq_bind, bind_eq_some_iff, some.injEq] at hdetach
          obtain ⟨first, hfirst, tmux, htmux, rfl⟩ := hdetach
          exact hasks.trans (hasks.queueTmuxGatewayPathResumes hfirst) (hasks.queueTmuxCommand htmux)
        · exact hasks.refl _

theorem asks_transportInput (hasks : Asks R) {connectionId : UInt64} {action : GatewayControlAction}
    (h : app.queueGatewayTransportInput connectionId action = some app') :
    R app.tmux app'.tmux ∧ app'.nestedTmuxGateways = app.nestedTmuxGateways := by
  simp only [queueGatewayTransportInput, bind_eq_bind, bind_eq_some_iff] at h
  obtain ⟨bytes, -, h⟩ := h
  split at h
  · cases h
    exact ⟨hasks.refl _, rfl⟩
  · cases h
    exact ⟨hasks.queueTmuxInput _ _ _, rfl⟩
  · cases h
    exact ⟨hasks.refl _, rfl⟩

theorem asks_answer (hasks : Asks R) {nowMs : Nat} {confirmed : Bool}
    (h : app.answerGatewayConfirmation nowMs confirmed = some app') :
    R app.tmux app'.tmux ∧ app'.nestedTmuxGateways = app.nestedTmuxGateways := by
  rw [answerGatewayConfirmation] at h
  split at h
  · cases h
    exact ⟨hasks.refl _, rfl⟩
  · split at h
    · rw [acceptGatewayConfirmation] at h
      split at h
      · simp only [bind_eq_bind, bind_eq_some_iff, some.injEq] at h
        obtain ⟨next, hnext, rfl⟩ := h
        exact (asks_transportInput hasks hnext :)
      · cases h
        exact ⟨hasks.refl _, rfl⟩
    · cases h
      exact ⟨hasks.refl _, rfl⟩

theorem asks_request (hasks : Asks R) {connectionId : UInt64} {action : GatewayControlAction}
    (h : app.requestTmuxGatewayActionFor connectionId action = some app') :
    R app.tmux app'.tmux ∧ app'.nestedTmuxGateways = app.nestedTmuxGateways := by
  rw [requestTmuxGatewayActionFor.eq_def] at h
  split at h
  · cases h
    exact ⟨hasks.refl _, rfl⟩
  · cases action with
    | gracefulDetach =>
      simp only [beginGracefulTmuxTeardown, bind_eq_bind, bind_eq_some_iff, some.injEq] at h
      obtain ⟨order, -, rfl⟩ := h
      have hadvance := asks_advance hasks { app with
        pendingForceAbandon := none, pendingGracefulTeardown := some ⟨order, none⟩ }
      exact ⟨hadvance, (sameGateways_advance _).nested⟩
    | forceAbandon =>
      simp only [bind_eq_bind, bind_eq_some_iff, some.injEq] at h
      obtain ⟨-, -, rfl⟩ := h
      exact ⟨hasks.refl _, rfl⟩

end Requests

/-! ## Terminators -/

theorem expireTermination_events (router : TmuxGatewayRouter) :
    router.expireTermination.2.filter isFailure = [] ∨
      ∃ failure, router.expireTermination.2.filter isFailure = [failure] := by
  rw [TmuxGatewayRouter.expireTermination]
  split
  · exact .inl rfl
  · split
    · exact .inl rfl
    · exact .inr ⟨_, rfl⟩

def withExpired (app : App) (key : GatewayKey) (gateway : NestedTmuxGatewayState) : App :=
  app.modifyGateway key ({ · with
    router := gateway.router.expireTermination.1
    terminationDeadlineMs := none })

def withoutActive (app : App) (key : GatewayKey) : App :=
  app.modifyGateway key ({ · with
    activeLocalConnectionId := none
    activeGlobalConnectionId := none })

theorem expireNestedTerminator_some {nowMs : Nat} {key : GatewayKey}
    (h : app.expireNestedTerminator nowMs key = some app') :
    app' = app ∨ ∃ gateway next, app.nestedTmuxGateways[key]? = some gateway ∧
      gateway.terminationDeadlineMs.any (· ≤ nowMs) ∧ app' = next.withoutActive key ∧
      ((next = app.withExpired key gateway ∧ (gateway.router.expireTermination.2.filter isFailure = [] ∨
            gateway.activeGlobalConnectionId = none)) ∨
        ∃ connectionId, gateway.activeGlobalConnectionId = some connectionId ∧
          (app.withExpired key gateway).failTmuxConnection connectionId = some next) := by
  cases hgateway : app.nestedTmuxGateways[key]? with
  | none =>
    rw [expireNestedTerminator, hgateway] at h
    exact .inl (some.inj h).symm
  | some gateway =>
    by_cases hdue : gateway.terminationDeadlineMs.any (· ≤ nowMs)
    · have heq : app.expireNestedTerminator nowMs key =
          ((gateway.router.expireTermination.2.filter isFailure).foldlM
            (fun app _ => gateway.activeGlobalConnectionId.elim (some app) app.failTmuxConnection)
            (app.withExpired key gateway)).bind fun next => some (next.withoutActive key) := by
        rw [expireNestedTerminator, hgateway]
        exact if_pos hdue
      rw [heq, bind_eq_some_iff] at h
      obtain ⟨next, hnext, h⟩ := h
      refine .inr ⟨gateway, next, rfl, hdue, (some.inj h).symm, ?_⟩
      rcases expireTermination_events gateway.router with hempty | ⟨failure, hone⟩
      · rw [hempty] at hnext
        exact .inl ⟨(some.inj hnext).symm, .inl hempty⟩
      · rw [hone, foldlM_cons, bind_eq_bind, bind_eq_some_iff] at hnext
        obtain ⟨middle, hfail, hnext⟩ := hnext
        cases hnext
        cases hactive : gateway.activeGlobalConnectionId with
        | none =>
          rw [hactive] at hfail
          exact .inl ⟨(some.inj hfail).symm, .inr rfl⟩
        | some connectionId =>
          rw [hactive] at hfail
          exact .inr ⟨connectionId, rfl, hfail⟩
    · rw [expireNestedTerminator, hgateway] at h
      simp only [if_neg hdue, some.injEq] at h
      exact .inl h.symm

end App

end Lector.Lifecycle
