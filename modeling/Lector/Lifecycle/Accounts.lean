import Lector.Lifecycle.Abandon
import Lector.Tmux.Records
import Lector.Tmux.Transparency

/-! What the app still owes to its connections: parts of inventories and bootstraps that are pending or
expected. What starting, ending and recovering do to it. -/
namespace Lector.Lifecycle
open Std Gateway Tmux Output List
open Option hiding filter_filter filter_map

/-! ## Accounts -/

def workOf (commands : List PendingTmuxCommand) : List PendingTmuxCommand :=
  (commands.filter announces).map ({ · with bytes := [] })

def announced (commands : List PendingTmuxCommand) (id : UInt64) : List ExpectedTmuxReply :=
  (commands.filter (·.connectionId = id)).flatMap (·.expectedReplies)

/-- The parts of an inventory that a connection waits for, and the replies that it expects. -/
abbrev Owed := Nat × List ExpectedTmuxReply

structure Account where
  hierarchy : ConnectionHierarchy
  owed : UInt64 → Option Owed
  work : List PendingTmuxCommand

def owedBy (connection : TmuxConnectionState) : Owed :=
  (connection.inventoryRepliesRemaining, connection.expectedReplies)

def account (tmux : TmuxApp) : Account where
  hierarchy := tmux.hierarchy
  owed id := (tmux.connection id).map owedBy
  work := workOf tmux.pendingTmuxCommands

def inventoryWork (id : UInt64) : List PendingTmuxCommand := workOf (TmuxApp.inventoryRequest id)

section Work

variable {tmux tmux' : TmuxApp} {commands more : List PendingTmuxCommand}

theorem workOf_append (commands more : List PendingTmuxCommand) :
    workOf (commands ++ more) = workOf commands ++ workOf more := by
  rw [workOf, filter_append, map_append]
  rfl

theorem workOf_quiet (hquiet : ∀ command ∈ commands, announces command = false) : workOf commands = [] := by
  rw [workOf, filter_eq_nil_iff.mpr, map_nil]
  exact fun command hmem => ne_true_of_eq_false (hquiet command hmem)

theorem workOf_filter (keep : UInt64 → Bool) (commands : List PendingTmuxCommand) :
    workOf (commands.filter fun command => keep command.connectionId) =
      (workOf commands).filter fun command => keep command.connectionId := by
  rw [workOf, workOf, filter_map, filter_filter, filter_filter]
  congr 1
  refine filter_congr fun command _ => ?_
  rw [Bool.and_comm]
  rfl

theorem account_pushAll_quiet (hquiet : ∀ command ∈ commands, announces command = false) :
    account (tmux.pushAll commands) = account tmux := by
  rw [account, TmuxApp.pushAll, workOf_append, workOf_quiet hquiet, append_nil]
  rfl

theorem account_push_quiet {command : PendingTmuxCommand} (hquiet : announces command = false) :
    account (tmux.push command) = account tmux :=
  account_pushAll_quiet fun _ hmem => mem_singleton.mp hmem ▸ hquiet

theorem account_pushAll (commands : List PendingTmuxCommand) : account (tmux.pushAll commands) =
      { account tmux with work := (account tmux).work ++ workOf commands } := by
  rw [account, TmuxApp.pushAll, workOf_append]
  rfl

theorem account_withConnection {f : TmuxConnectionState → TmuxConnectionState}
    (hid : ∀ connection, (f connection).id = connection.id)
    (howed : ∀ connection, owedBy (f connection) = owedBy connection) (id : UInt64) :
    account (tmux.withConnection id f) = account tmux := by
  have hsame : (fun x => ((tmux.withConnection id f).connection x).map owedBy) =
      fun x => (tmux.connection x).map owedBy := by
    funext x
    exact TmuxApp.map_connection_withConnection hid howed tmux id x
  rw [account, hsame]
  rfl

theorem workOf_modify {f : PendingTmuxCommand → PendingTmuxCommand}
    (hf : ∀ command, { f command with bytes := [] } = ({ command with bytes := [] } : PendingTmuxCommand))
    (commands : List PendingTmuxCommand) (index : Nat) :
    workOf (commands.modify index f) = workOf commands := by
  have hannounces : ∀ command, announces (f command) = announces command := by
    intro command
    exact congrArg (fun command => command.expectedReplies.any isWork) (hf command)
  induction commands generalizing index with
  | nil => rw [modify_nil]
  | cons command rest ih =>
    have hcons : ∀ (first : PendingTmuxCommand) (others : List PendingTmuxCommand), workOf (first :: others) =
          (if announces first then [{ first with bytes := [] }] else []) ++ workOf others := by
      intro first others
      rw [workOf, filter_cons]
      split
      · rfl
      · rfl
    cases index with
    | zero => rw [modify_zero_cons, hcons, hcons, hannounces, hf]
    | succ index => rw [modify_succ_cons, hcons, hcons, ih]

theorem account_queueTmuxResize (connectionId : UInt64) (geometry : TerminalGeometry) :
    account (tmux.queueTmuxResize connectionId geometry) = account tmux := by
  rw [TmuxApp.queueTmuxResize]
  split
  · rename_i index _
    exact congrArg (Account.mk _ _) (workOf_modify
      (f := fun command => { command with bytes := refreshClientCommand geometry }) (fun _ => rfl)
      tmux.pendingTmuxCommands index)
  · exact account_push_quiet (by rfl)

theorem asks_account : Asks fun tmux tmux' => account tmux' = account tmux where
  refl _ := rfl
  trans h h' := h'.trans h
  push _ _ hquiet _ := account_push_quiet hquiet
  join tmux front command paneId input hlast _ := by
    rw [account, account, hlast, workOf_append, workOf_append]
    refine congrArg (Account.mk _ _) (congrArg (workOf front ++ ·) ?_)
    exact workOf_modify (f := fun command => { command with bytes := command.bytes ++ input })
      (fun _ => rfl) [command] 0
  resume tmux id paneId :=
    account_withConnection (f := (·.withFlow paneId ({ · with resumeRequested := true })))
      (fun _ => rfl) (fun _ => rfl) id

end Work

/-! ## Turns -/

namespace Account

inductive Turns (a : Account) (recovering : Option UInt64) : Account → Prop
  | keeps : Turns a recovering a
  | starts {id : UInt64} {origin : GatewayOrigin} {h : ConnectionHierarchy}
      (hgrows : a.hierarchy.Grows id origin h) :
      Turns a recovering
        ⟨h, fun x => (a.owed x).or (if x = id then some (inventoryReplyCount, []) else none),
          a.work ++ inventoryWork id⟩
  | ends {removed : List UInt64} {h : ConnectionHierarchy} (hshrinks : a.hierarchy.Shrinks removed h) :
      Turns a recovering
        ⟨h, fun x => if x ∈ removed then none else a.owed x, a.work.filter (·.connectionId ∉ removed)⟩
  | recovers {root : UInt64} {affected : List UInt64} (hroot : recovering = some root)
      (haffected : a.hierarchy.teardownOrder root = some affected) :
      Turns a recovering ⟨a.hierarchy, a.owed, a.work.filter (·.connectionId ∉ affected)⟩

end Account

namespace App

variable {app app' : App} {recovering : Option UInt64}

def recovers (app : App) (event : Step) : Option UInt64 :=
  match event with
  | .handle _ _ | .handleNested _ _ _ _ => app.arms event
  | _ => none

theorem connection_afterRemoval (removed : List UInt64) (hierarchy : ConnectionHierarchy) (x : UInt64) :
    (app.afterRemoval removed hierarchy).tmux.connection x =
      if x ∈ removed then none else app.tmux.connection x := by
  show (app.tmux.connections.filter _).find? _ = _
  rw [find?_filter]
  split
  · rename_i hmem
    rw [find?_eq_none]
    intro connection _ h
    obtain ⟨hkept, hid⟩ := of_decide_eq_true h
    rw [of_decide_eq_true hid] at hkept
    exact of_decide_eq_true hkept hmem
  · rename_i hout
    congr 1
    funext connection
    by_cases hid : connection.id = x
    · simp [hid, hout]
    · simp [hid]

theorem map_connection_afterRemoval {β : Type} (g : TmuxConnectionState → β) (removed : List UInt64)
    (hierarchy : ConnectionHierarchy) (x : UInt64) :
    ((app.afterRemoval removed hierarchy).tmux.connection x).map g =
      if x ∈ removed then none else (app.tmux.connection x).map g := by
  rw [connection_afterRemoval]
  split
  · rfl
  · rfl

theorem account_afterRemoval (removed : List UInt64) (hierarchy : ConnectionHierarchy) :
    account (app.afterRemoval removed hierarchy).tmux =
      ⟨hierarchy, fun x => if x ∈ removed then none else (account app.tmux).owed x,
        (account app.tmux).work.filter (·.connectionId ∉ removed)⟩ := by
  refine congrArg₂ (Account.mk hierarchy) ?_ ?_
  · funext x
    exact map_connection_afterRemoval owedBy removed hierarchy x
  · exact workOf_filter (fun id => decide (id ∉ removed)) _

theorem map_connection_start {β : Type} (g : TmuxConnectionState → β) (tmux : TmuxApp)
    (started : TmuxConnectionState) (x : UInt64) :
    (({ tmux with connections := tmux.connections ++ [started] } : TmuxApp).connection x).map g =
      ((tmux.connection x).map g).or (if x = started.id then some (g started) else none) := by
  show ((tmux.connections ++ [started]).find? _).map g = _
  rw [find?_append, map_or]
  congr 1
  rw [find?_singleton]
  by_cases hx : x = started.id
  · rw [if_pos hx, hx]
    exact congrArg (Option.map g) (if_pos (decide_eq_true rfl))
  · rw [if_neg hx]
    exact congrArg (Option.map g) (if_neg fun hid => hx (of_decide_eq_true hid).symm)

variable {connectionId : UInt64} {geometry : TerminalGeometry}

theorem account_start {origin : GatewayOrigin}
    {portal : Bool} (h : app.startTmuxConnection connectionId origin geometry portal = some app')
    (forest : app.hierarchy.Forest) : (account app.tmux).Turns recovering (account app'.tmux) := by
  rw [startTmuxConnection] at h
  split at h
  · cases h
  · rename_i hierarchy hinsert
    split at h
    · cases h
    · cases h
      have heq : account (startCommands connectionId geometry { app.tmux with
            hierarchy := hierarchy
            connections := app.tmux.connections ++ [startedConnection connectionId inventoryReplyCount] }) =
          ⟨hierarchy, fun x => ((account app.tmux).owed x).or
              (if x = connectionId then some (inventoryReplyCount, []) else none),
            (account app.tmux).work ++ inventoryWork connectionId⟩ := by
        rw [startCommands, TmuxApp.queueTmuxInventory, account_pushAll, account_queueTmuxResize,
          account_pushAll_quiet (by simp [announces, isWork])]
        refine congrArg₂ (Account.mk hierarchy) ?_ rfl
        funext x
        exact map_connection_start owedBy app.tmux (startedConnection connectionId inventoryReplyCount) x
      rw [heq]
      exact .starts (forest.grows hinsert)

theorem account_end (h : app.endTmuxConnection connectionId = some app')
    (forest : app.hierarchy.Forest) : (account app.tmux).Turns recovering (account app'.tmux) := by
  obtain ⟨removed, hierarchy, hshrinks, -, heq⟩ := endTmuxConnection_eq forest connectionId
  obtain rfl := some.inj (heq.symm.trans h)
  rw [asks_advance asks_account, account_afterRemoval]
  exact .ends hshrinks

theorem account_fail (h : app.failTmuxConnection connectionId = some app')
    (forest : app.hierarchy.Forest) : (account app.tmux).Turns recovering (account app'.tmux) := by
  rw [failTmuxConnection] at h
  split at h
  · exact account_end h forest
  · cases h
    exact .keeps

variable {nowMs : Nat}

theorem account_recover (hrecovering : app.hierarchy.contains connectionId → recovering = some connectionId)
    (h : app.beginTmuxProtocolRecovery nowMs connectionId = some app') :
    (account app.tmux).Turns recovering (account app'.tmux) := by
  rw [beginTmuxProtocolRecovery] at h
  split at h
  · rename_i hlive
    simp only [bind_eq_bind, bind_eq_some_iff, some.injEq] at h
    obtain ⟨affected, haffected, next, hnext, rfl⟩ := h
    have hwork := workOf_filter (fun id => decide (id ∉ affected)) app.tmux.pendingTmuxCommands
    rw [(asks_transportInput asks_account hnext).1]
    show Account.Turns _ _ (Account.mk _ _ (workOf _))
    rw [hwork]
    exact .recovers (hrecovering hlive) haffected
  · cases h
    exact .keeps

variable (forest : app.hierarchy.Forest)
include forest

theorem account_handle (h : app.handleNext nowMs geometry = some app') :
    (account app.tmux).Turns (app.recovers (.handle nowMs geometry)) (account app'.tmux) := by
  rw [handleNext] at h
  split at h
  · cases h
  · rename_i event rest hevents
    rw [handleTmuxGatewayEvent.eq_def] at h
    split at h
    · cases h
      exact .keeps
    · cases h
      exact .keeps
    · exact (account_start h forest :)
    · exact (account_end h forest :)
    · split at h
      · rename_i hrecovering
        refine (account_recover (fun hlive => ?_) h :)
        rw [recovers, arms, hevents]
        exact if_pos ⟨hrecovering.1, hrecovering.2, hlive⟩
      · exact (account_fail h forest :)

theorem account_handleNested {portal : Bool} {key : GatewayKey}
    (h : app.handleNextNested nowMs geometry portal key = some app') :
    (account app.tmux).Turns (app.recovers (.handleNested nowMs geometry portal key))
      (account app'.tmux) := by
  simp only [handleNextNested, bind_eq_bind, bind_eq_some_iff] at h
  obtain ⟨gateway, hgateway, h⟩ := h
  split at h
  · cases h
  · rename_i event rest hevents
    cases event with
    | directOutput bytes =>
      cases h
      exact .keeps
    | control id control =>
      rw [handleNestedGatewayEvent] at h
      split at h
      · cases h
      · cases h
        exact .keeps
    | connectionStarted id =>
      simp only [handleNestedGatewayEvent, bind_eq_bind, bind_eq_some_iff] at h
      obtain ⟨connectionId, -, place, -, hstart⟩ := h
      exact (account_start hstart forest :)
    | connectionEnded id =>
      simp only [handleNestedGatewayEvent, bind_eq_bind, bind_eq_some_iff, some.injEq] at h
      obtain ⟨connectionId, -, next, hend, rfl⟩ := h
      exact (account_end hend forest :)
    | connectionFailed id reason =>
      have hkept : ∀ {next : App}, (if gateway.router.lifecycleState = .recovering then some next
          else some (next.modifyGateway key ({ · with
            activeLocalConnectionId := none
            activeGlobalConnectionId := none
            terminationDeadlineMs := none }))) = some app' →
          account app'.tmux = account next.tmux := by
        intro next h
        split at h
        · cases h
          rfl
        · cases h
          rfl
      simp only [handleNestedGatewayEvent] at h
      split at h
      · rw [hkept h]
        exact .keeps
      · rename_i connectionId hconnection
        split at h
        · rename_i hrecovering
          obtain ⟨next, hnext, h⟩ := bind_eq_some_iff.mp h
          rw [hkept h]
          refine (account_recover (fun hlive => ?_) hnext :)
          simp only [recovers, arms, hgateway, bind_eq_bind, bind_some, hevents, hconnection]
          exact if_pos ⟨hrecovering.1, hrecovering.2, hlive⟩
        · obtain ⟨next, hnext, h⟩ := bind_eq_some_iff.mp h
          rw [hkept h]
          exact (account_fail hnext forest :)

theorem account_expireNested {key : GatewayKey} (h : app.expireNestedTerminator nowMs key = some app') :
    (account app.tmux).Turns recovering (account app'.tmux) := by
  rcases expireNestedTerminator_some h with
    rfl | ⟨gateway, next, -, -, rfl, ⟨rfl, -⟩ | ⟨connectionId, -, hfail⟩⟩
  · exact .keeps
  · exact .keeps
  · exact (account_fail hfail forest :)

theorem account_expireAbandon (h : app.expireTmuxForceAbandon nowMs = some app') :
    (account app.tmux).Turns recovering (account app'.tmux) := by
  rw [expireTmuxForceAbandon] at h
  split at h
  · cases h
    exact .keeps
  · split at h
    · cases h
      exact .keeps
    · dsimp only at h
      split at h
      · cases h
        exact .keeps
      · exact (account_end h forest :)
      · exact (account_end h forest :)

theorem account_destroyed {parentConnectionId : UInt64} {paneIds windowIds : List UInt64}
    (h : app.resolveDestroyedTmuxGateways parentConnectionId paneIds windowIds = some app') :
    (account app.tmux).Turns recovering (account app'.tmux) := by
  rcases (resolveDestroyed_eq forest h).1 with rfl | ⟨removed, hierarchy, hshrinks, rfl⟩
  · exact .keeps
  · rw [account_afterRemoval]
    exact .ends hshrinks

def keepsQueue : Step → Bool
  | .pending _ _ => false
  | _ => true

/-- **What a step of the app does to its account.** -/
theorem account_step {event : Step} (h : app.step event = some app') (hqueue : keepsQueue event) :
    (account app.tmux).Turns (app.recovers event) (account app'.tmux) := by
  have hidle : ∀ {result : Option App}, app.whenIdle result = some app' → result = some app' :=
    fun hresult => (ite_none_right_eq_some.mp hresult).2
  have hkeeps : ∀ {recovering : Option UInt64}, account app'.tmux = account app.tmux →
      (account app.tmux).Turns recovering (account app'.tmux) := fun heq => heq ▸ .keeps
  cases event with
  | receive nowMs bytes =>
    have hreceive := hidle h
    rw [receive] at hreceive
    split at hreceive
    · cases hreceive
    · cases hreceive
      exact .keeps
  | eof =>
    cases hidle h
    exact .keeps
  | request connectionId action => exact hkeeps (asks_request asks_account (hidle h)).1
  | answer nowMs confirmed => exact hkeeps (asks_answer asks_account (hidle h)).1
  | dismiss =>
    cases hidle h
    exact .keeps
  | expireRootTerminator nowMs =>
    cases hidle h
    rw [expireRootTerminator]
    split
    · exact .keeps
    · exact .keeps
  | expireNestedTerminator nowMs key => exact account_expireNested forest (hidle h)
  | expireForceAbandon nowMs => exact account_expireAbandon forest (hidle h)
  | handle nowMs geometry => exact account_handle forest h
  | handleNested nowMs geometry portal key => exact account_handleNested forest h
  | receiveNested nowMs key bytes =>
    rw [step, ite_none_right_eq_some, receiveNested] at h
    have hreceive := h.2
    split at hreceive
    · cases hreceive
    · dsimp only at hreceive
      split at hreceive
      · cases hreceive
      · cases hreceive
        exact .keeps
  | topology connectionId topology =>
    cases h
    exact hkeeps (account_withConnection (f := ({ · with topology := topology })) (fun _ => rfl)
      (fun _ => rfl) _)
  | destroyed parentConnectionId paneIds windowIds => exact account_destroyed forest h
  | pending commands input => cases hqueue

end App

end Lector.Lifecycle
