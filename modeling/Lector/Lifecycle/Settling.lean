import Lector.Lifecycle.Outstanding
import Lector.Tmux.Room

/-! Drains and the records of a transport settle what is owed: a command that is written turns from pending to
expected, and an answer is counted off. -/
namespace Lector.Lifecycle
open Std Lector.Topology Control Tmux Output Relation List TmuxApp TmuxConnectionState

/-! ## Draining -/

section Drains

variable {tmux tmux' : TmuxApp} {command : PendingTmuxCommand} {rest : List PendingTmuxCommand}
  {requested : Requests} {nowMs : Nat} {root : UInt64} {outcome : TmuxApp.Outcome}

theorem outstanding_account (tmux : TmuxApp) (id : UInt64) : (account tmux).outstanding id =
      announced (workOf tmux.pendingTmuxCommands) id ++ (tmux.awaited id).getD [] := by
  have howed : ((account tmux).owed id).elim [] (·.2) = (tmux.awaited id).getD [] := by
    show ((tmux.connection id).map owedBy).elim [] (·.2) = _
    rw [awaited]
    cases tmux.connection id with
    | none => rfl
    | some connection => rfl
  rw [Account.outstanding, howed]
  rfl

def remaining (tmux : TmuxApp) (id : UInt64) : Option Nat :=
  (tmux.connection id).map (·.inventoryRepliesRemaining)

theorem remaining_account (tmux : TmuxApp) (id : UInt64) :
    ((account tmux).owed id).map (·.1) = remaining tmux id := by
  rw [account, Option.map_map]
  rfl

theorem apart_remaining : TmuxApp.Apart fun connection => connection.inventoryRepliesRemaining :=
  ⟨fun _ _ => rfl, fun _ _ => rfl, fun _ _ => rfl⟩

theorem undoPane_keeps (nowMs : Nat) (connection : TmuxConnectionState) (action : PaneId × TmuxApp.Undo) :
    owedBy (TmuxApp.undoPane nowMs connection action) = owedBy connection := by
  rw [TmuxApp.undoPane]
  split
  · rfl
  · rfl

theorem account_recoverDiscarded (tmux : TmuxApp) (nowMs : Nat) (id : UInt64)
    (replies : List ExpectedTmuxReply) :
    account (tmux.recoverDiscardedTmuxFlowCommand nowMs id replies) = account tmux := by
  refine account_withConnection (fun c => ?_) (fun c => ?_) id
  · exact foldl_same (apart_id.undoPane nowMs) _ c
  · exact foldl_same (undoPane_keeps nowMs) _ c

/-- **The replies that a written command adds to the expected ones are those that it announced**, as far
as they are work. -/
theorem delivery_work {h : ConnectionHierarchy} {levels : UInt64 → List Encoded}
    (hdelivery : Delivery h command levels)
    (hkind : announces command → ∀ paneId, command.kind ≠ .input paneId) (id : UInt64) :
    (repliesOf (levels id)).filter isWork = (announced [command] id).filter isWork := by
  have hquiet : ∀ encoded : List Encoded, (∀ part ∈ encoded, part.2 = [.ignored]) →
      (repliesOf encoded).filter isWork = [] := by
    intro encoded hignored
    refine filter_eq_nil_iff.mpr fun reply hmem => ?_
    obtain ⟨part, hpart, hreply⟩ := mem_flatMap.mp hmem
    rw [hignored part hpart, mem_singleton] at hreply
    rw [hreply]
    exact Bool.false_ne_true
  by_cases hid : command.connectionId = id
  · subst hid
    have hannounced : announced [command] command.connectionId = command.expectedReplies := by
      rw [announced_of_forall_eq fun _ hmem => congrArg _ (mem_singleton.mp hmem), flatMap_singleton]
    rw [hannounced]
    have hown := hdelivery.own
    rw [encodeCommand] at hown
    split at hown
    · rename_i paneId hinput
      have hnone : command.expectedReplies.filter isWork = [] := by
        refine filter_eq_nil_iff.mpr fun reply hmem hwork => ?_
        exact hkind (any_eq_true.mpr ⟨reply, hmem, hwork⟩) paneId hinput
      obtain ⟨above, habove, hlines, -⟩ := encodeKeys_spec paneId command.bytes
      obtain rfl := Except.ok.inj (habove.symm.trans hown)
      rw [hnone]
      refine hquiet _ fun part hpart => ?_
      obtain ⟨chunk, hpart⟩ := hlines part hpart
      rw [hpart]
    · rw [← Except.ok.inj hown, repliesOf, flatMap_singleton]
    · rw [← Except.ok.inj hown, repliesOf, flatMap_singleton]
  · rw [announced_of_forall_ne fun _ hmem => mem_singleton.mp hmem ▸ hid]
    by_cases habove : h.AtOrBelow command.connectionId id
    · rcases ReflTransGen.cases_tail habove with heq | ⟨child, hbelow, session, window, pane, horigin⟩
      · exact absurd heq.symm hid
      · have hcarries := hdelivery.up child id ⟨pane⟩ hbelow ⟨session, window, horigin⟩
        refine hquiet _ fun part hpart => ?_
        obtain ⟨chunk, rfl⟩ := hcarries.lines part hpart
        rfl
    · rw [hdelivery.other id habove]
      rfl

/-- **A round of a drain loses no work**, if there is room for the command or nothing waits for it. -/
theorem serves_drain (hsound : (account tmux).Sound requested)
    (hpending : tmux.pendingTmuxCommands = command :: rest)
    (hlost : tmux.directTransportFor command.connectionId = some root →
      ¬ { tmux with pendingTmuxCommands := rest }.HasRoom command →
      (account tmux).Dispensable requested (workOf [command]) (workOf rest))
    (h : { tmux with pendingTmuxCommands := rest }.drainCommand nowMs root command = .ok (outcome, tmux')) :
    (account tmux).Serves requested (account tmux') := by
  have hwork : (account tmux).work = workOf [command] ++ workOf rest := by
    rw [account, hpending, ← workOf_append]
    rfl
  have hkind : announces command → ∀ paneId, command.kind ≠ .input paneId := by
    intro hannounces
    refine (hsound.owned { command with bytes := [] } ?_).2
    rw [hwork]
    refine mem_append_left _ (mem_map.mpr ⟨command, ?_, rfl⟩)
    exact mem_filter.mpr ⟨mem_singleton_self _, hannounces⟩
  have hforest : { tmux with pendingTmuxCommands := rest }.hierarchy.Forest := hsound.forest
  have hlive : ∀ id, tmux.hierarchy.contains id → (tmux.connection id).isSome := by
    intro id hcontains
    have howed := (hsound.live id).mpr hcontains
    rwa [account, Option.isSome_map] at howed
  rw [drainCommand] at h
  split at h
  · cases h
    have hperm : (workOf (rest ++ [command])).Perm (account tmux).work := by
      rw [hwork, workOf_append]
      exact perm_append_comm
    exact Account.serves_perm hperm
  · rename_i hdirect
    have hdirect := of_not_not hdirect
    have hcontains := contains_of_directTransport hdirect
    obtain ⟨result, hroute, hspec⟩ := routeTmuxCommand_spec hforest hcontains
    rw [hroute] at h
    cases result with
    | none =>
      have hroom : ¬ { tmux with pendingTmuxCommands := rest }.HasRoom command := by
        intro hroom
        obtain ⟨other, hother⟩ := (routeTmuxCommand_iff hforest hlive hcontains).mpr hroom
        cases Except.ok.inj (hroute.symm.trans hother)
      cases h
      have hloss := Account.serves_loss (by rw [hwork]) (hlost hdirect hroom)
      rw [account_recoverDiscarded]
      exact hloss
    | some route =>
      obtain ⟨root', lines, next⟩ := route
      obtain ⟨-, -, hhierarchy, hnext, levels, hdelivery, -, hgrows⟩ := hspec root' lines next rfl
      cases h
      have hafter : (next.markTmuxFlowCommandsInFlight command.connectionId
          command.expectedReplies).pendingTmuxCommands = rest := hnext
      have hperm : ∀ id, tmux.hierarchy.contains id → (((account (next.markTmuxFlowCommandsInFlight
          command.connectionId command.expectedReplies)).outstanding id).filter isWork).Perm
          (((account tmux).outstanding id).filter isWork) := by
        intro id hid
        obtain ⟨connection, hconnection⟩ := Option.isSome_iff_exists.mp (hlive id hid)
        have hawaited : tmux.awaited id = some connection.expectedReplies := by
          rw [awaited, hconnection]
          rfl
        have hgrown : next.awaited id = (tmux.awaited id).map (· ++ repliesOf (levels id)) := hgrows id
        have hsplit : workOf (command :: rest) = workOf [command] ++ workOf rest := workOf_append [command] rest
        rw [outstanding_account, hafter, awaited_mark, hgrown, outstanding_account, hpending,
          hsplit, hawaited, Option.map_some, Option.getD_some, announced_append,
          ← append_assoc, filter_append, delivery_work hdelivery hkind, append_assoc,
          filter_append (announced (workOf [command]) id), filter_announced]
        exact perm_append_comm
      refine ⟨hhierarchy, fun id => ?_, fun c hmem => ?_, fun id hid => ?_,
        fun id paneId hid _ hbootstraps => ?_⟩
      · rw [remaining_account, remaining_account]
        exact (apart_remaining.mark next _ _ id).trans (apart_remaining.route hroute id)
      · rw [hwork]
        refine mem_append_right _ ?_
        rwa [account, hafter] at hmem
      · have hcount := (hperm id hid).count_eq .inventory
        exact (inventories_filter _).symm.trans (hcount.trans (inventories_filter _))
      · rw [← bootstraps_filter] at hbootstraps ⊢
        exact (bootstraps_perm (hperm id hid)).mpr hbootstraps

end Drains

/-! ## Records -/

section Records

variable {connection : TmuxConnectionState} {handled : Handled}

/-- What a record does to its connection, however many parts of inventories are pending besides. -/
structure Settles (connection : TmuxConnectionState) (handled : Handled) : Prop where
  id : handled.connection.id = connection.id
  commands : ∀ command ∈ handled.commands, command.connectionId = connection.id ∧ command.kind = .ordinary
  counted : ∀ pending,
    connection.inventoryRepliesRemaining = pending + inventories connection.expectedReplies →
    handled.connection.inventoryRepliesRemaining =
      pending + inventories (handled.commands.flatMap (·.expectedReplies)) +
        inventories handled.connection.expectedReplies
  covered : ∀ paneId, Bootstraps connection.expectedReplies paneId →
    Bootstraps (handled.commands.flatMap (·.expectedReplies) ++ handled.connection.expectedReplies)
      paneId ∨ handled.bootstrap = some paneId

variable {after : TmuxConnectionState}

theorem settles_idle (hid : after.id = connection.id)
    (hremaining : after.inventoryRepliesRemaining = connection.inventoryRepliesRemaining)
    (hreplies : after.expectedReplies = connection.expectedReplies) : Settles connection after.idle where
  id := hid
  commands _ hmem := absurd hmem not_mem_nil
  counted pending hcount := by
    show after.inventoryRepliesRemaining = pending + 0 + inventories after.expectedReplies
    rw [hremaining, hreplies]
    exact hcount
  covered paneId hbootstraps := .inl (hreplies.symm ▸ hbootstraps)

theorem inventoryRequest_ordinary {id : UInt64} : ∀ command ∈ inventoryRequest id,
    command.connectionId = id ∧ command.kind = .ordinary := by
  intro command hmem
  obtain ⟨-, -, rfl⟩ := mem_map.mp hmem
  exact ⟨rfl, rfl⟩

theorem inventories_inventoryRequest (id : UInt64) :
    inventories ((inventoryRequest id).flatMap (·.expectedReplies)) = inventoryReplyCount := by
  rfl

theorem settles_request (hid : after.id = connection.id)
    (hreplies : after.expectedReplies = connection.expectedReplies)
    (hremaining : after.inventoryRepliesRemaining = inventoryReplyCount)
    (hnone : connection.inventoryRepliesRemaining = 0) :
    Settles connection ⟨after, inventoryRequest connection.id, none⟩ where
  id := hid
  commands := inventoryRequest_ordinary
  counted pending hcount := by
    have hpending : pending = 0 ∧ inventories connection.expectedReplies = 0 := by
      omega
    rw [hremaining, hreplies, inventories_inventoryRequest, hpending.1, hpending.2, zero_add, add_zero]
  covered paneId hbootstraps := by
    refine .inl (bootstraps_append.mpr (.inr ?_))
    exact hreplies.symm ▸ hbootstraps

variable {rest : List ExpectedTmuxReply}

theorem Settles.take {reply : ExpectedTmuxReply}
    (hreplies : connection.expectedReplies = reply :: rest) (hwork : isWork reply = false)
    (hsettles : Settles { connection with expectedReplies := rest } handled) :
    Settles connection handled where
  id := hsettles.id
  commands := hsettles.commands
  counted pending hcount := by
    refine hsettles.counted pending ?_
    rw [hcount, hreplies, inventories, count_cons_of_ne]
    rintro rfl
    cases hwork
  covered paneId hbootstraps := by
    refine hsettles.covered paneId ?_
    obtain ⟨lineFlags, hmem⟩ := hbootstraps
    rw [hreplies] at hmem
    rcases mem_cons.mp hmem with rfl | hmem
    · cases hwork
    · exact ⟨lineFlags, hmem⟩

theorem collectInventory_keeps (connection : TmuxConnectionState) (status : CommandStatus)
    (output : List Bytes) : (connection.collectInventory status output).id = connection.id ∧
      (connection.collectInventory status output).expectedReplies = connection.expectedReplies ∧
      (connection.collectInventory status output).inventoryRepliesRemaining =
        connection.inventoryRepliesRemaining := by
  cases status with
  | success =>
    rw [collectInventory, appendInventory]
    split
    · exact ⟨rfl, rfl, rfl⟩
    · dsimp only
      split
      · exact ⟨rfl, rfl, rfl⟩
      · exact ⟨rfl, rfl, rfl⟩
  | error => exact ⟨rfl, rfl, rfl⟩

theorem settles_finish (hnone : connection.inventoryRepliesRemaining = 0) :
    Settles connection connection.finishInventory := by
  rw [finishInventory]
  split
  · rename_i topology _
    have hquiet : inventories (((nativeCopyModePanes topology).map
        (leaveCopyMode connection.id)).flatMap (·.expectedReplies)) = 0 := by
      refine inventories_quiet fun reply hmem => ?_
      rw [flatMap_map] at hmem
      obtain ⟨paneId, -, hreply⟩ := mem_flatMap.mp hmem
      rw [mem_singleton.mp hreply]
      rfl
    refine ⟨rfl, fun command hmem => ?_, fun pending hcount => ?_, fun paneId hbootstraps => ?_⟩
    · obtain ⟨paneId, -, rfl⟩ := mem_map.mp hmem
      exact ⟨rfl, rfl⟩
    · rw [hquiet]
      exact hcount
    · exact .inl (bootstraps_append.mpr (.inr hbootstraps))
  · dsimp only
    split
    · refine settles_request ?_ ?_ ?_ hnone <;> rfl
    · exact settles_idle rfl rfl rfl

theorem Settles.count (hid : after.id = connection.id)
    (hreplies : connection.expectedReplies = .inventory :: after.expectedReplies)
    (hremaining : after.inventoryRepliesRemaining = connection.inventoryRepliesRemaining - 1)
    (hsettles : Settles after handled) : Settles connection handled where
  id := hsettles.id.trans hid
  commands command hmem := hid ▸ hsettles.commands command hmem
  counted pending hcount := by
    refine hsettles.counted pending ?_
    rw [hreplies, inventories, count_cons_self] at hcount
    rw [hremaining, hcount]
    exact Nat.add_sub_cancel (pending + inventories after.expectedReplies) 1
  covered paneId hbootstraps := by
    refine hsettles.covered paneId ?_
    obtain ⟨lineFlags, hmem⟩ := hbootstraps
    rw [hreplies] at hmem
    exact ⟨lineFlags, (mem_cons.mp hmem).resolve_left fun h => by cases h⟩

theorem settles_inventory
    (hreplies : connection.expectedReplies = .inventory :: rest) (status : CommandStatus)
    (output : List Bytes) : Settles connection
      (({ connection with expectedReplies := rest } : TmuxConnectionState).handleInventory status
        output) := by
  obtain ⟨hid, hrest, hremaining⟩ := collectInventory_keeps { connection with
    expectedReplies := rest
    inventoryRepliesRemaining := connection.inventoryRepliesRemaining - 1 } status output
  rw [handleInventory]
  split
  · rename_i hnone
    refine Settles.count hid ?_ hremaining (settles_finish hnone)
    rw [hrest, hreplies]
  · refine Settles.count hid ?_ hremaining (settles_idle rfl rfl rfl)
    rw [hrest, hreplies]

theorem settles_bootstrap {paneId : PaneId} {lineFlags : Bool}
    (hreplies : connection.expectedReplies = .bootstrap paneId lineFlags :: rest)
    (status : CommandStatus) (output : List Bytes) : Settles connection
      (({ connection with expectedReplies := rest } : TmuxConnectionState).handleBootstrap paneId
        lineFlags status output) := by
  have hcount : inventories connection.expectedReplies = inventories rest := by
    rw [hreplies]
    exact count_cons_of_ne fun h => by cases h
  have hcovered : ∀ other, Bootstraps connection.expectedReplies other →
      other = paneId ∨ Bootstraps rest other := by
    rintro other ⟨flags, hmem⟩
    rw [hreplies] at hmem
    rcases mem_cons.mp hmem with heq | hmem
    · cases heq
      exact .inl rfl
    · exact .inr ⟨flags, hmem⟩
  rw [handleBootstrap]
  split
  · refine ⟨rfl, fun command hmem => ?_, fun pending h => ?_, fun other hother => .inl ?_⟩
    · rw [mem_singleton.mp hmem]
      exact ⟨rfl, rfl⟩
    · rw [hcount] at h
      exact h
    · rcases hcovered other hother with rfl | hother
      · exact ⟨false, mem_append_left _ (mem_singleton_self _)⟩
      · exact bootstraps_append.mpr (.inr hother)
  · refine ⟨rfl, fun command hmem => absurd hmem not_mem_nil, fun pending h => ?_, fun other hother => ?_⟩
    · rw [hcount] at h
      exact h
    · rcases hcovered other hother with rfl | hother
      · exact .inr rfl
      · exact .inl hother

theorem settles_userCommand (description : String) :
    Settles connection (connection.handleUserCommand description) := by
  rw [handleUserCommand]
  split
  · rename_i hrequest
    refine settles_request ?_ ?_ ?_ hrequest.2 <;> rfl
  · exact settles_idle rfl rfl rfl

/-- **Every answer settles its own account.** -/
theorem settles_command (connection : TmuxConnectionState) (status : CommandStatus)
    (output : List Bytes) : Settles connection (connection.handleCommand status output) := by
  rw [TmuxConnectionState.handleCommand]
  split
  · exact settles_idle rfl rfl rfl
  · split
    · exact settles_idle rfl rfl rfl
    · rename_i reply rest hreplies
      cases reply with
      | inventory => exact settles_inventory hreplies status output
      | bootstrap paneId lineFlags => exact settles_bootstrap hreplies status output
      | userCommand description showSuccess => exact .take hreplies rfl (settles_userCommand description)
      | _ => exact .take hreplies rfl (settles_idle rfl rfl rfl)

theorem settles_notification {name arguments : Bytes}
    (h : connection.handleNotification name arguments = some handled) : Settles connection handled := by
  rw [handleNotification] at h
  split at h
  · cases h
    exact settles_idle rfl rfl rfl
  · split at h
    · cases h
    · dsimp only at h
      split at h
      · rename_i hrequest
        cases h
        refine settles_request ?_ ?_ ?_ hrequest.2 <;> rfl
      · cases h
        exact settles_idle rfl rfl rfl

end Records

namespace Account

variable {a : Account} {requested requested' : Requests}

/-- **A record that settles its connection keeps the account sound.** -/
theorem Sound.settles (hsound : a.Sound requested) {id : UInt64} {owed : Owed}
    {commands : List PendingTmuxCommand} (hid : a.hierarchy.contains id)
    (hcommands : ∀ command ∈ commands, command.connectionId = id ∧ command.kind = .ordinary)
    (hcounted : owed.1 = inventories (announced a.work id) +
      inventories (commands.flatMap (·.expectedReplies)) + inventories owed.2)
    (hcovered : ∀ paneId, requested' id paneId →
      Bootstraps (announced a.work id) paneId ∨
      Bootstraps (commands.flatMap (·.expectedReplies) ++ owed.2) paneId)
    (hothers : ∀ x paneId, x ≠ id → requested' x paneId → requested x paneId) :
    Sound ⟨a.hierarchy, fun x => if x = id then some owed else a.owed x, a.work ++ workOf commands⟩
      requested' := by
  have hown := announced_of_forall_eq fun command hmem => (hcommands command hmem).1
  have hother : ∀ x, x ≠ id → announced (a.work ++ workOf commands) x = announced a.work x := by
    intro x hx
    have hnone : announced (workOf commands) x = [] := by
      refine announced_of_forall_ne fun command hmem hcommand => ?_
      obtain ⟨before, hbefore, rfl⟩ := mem_map.mp hmem
      exact hx (hcommand.symm.trans (hcommands before (mem_filter.mp hbefore).1).1)
    rw [announced_append, hnone, append_nil]
  refine ⟨hsound.forest, fun x => ?_, fun command hmem => ?_, fun x owed' howed => ?_,
    fun x paneId hlive hrequested => ?_⟩
  · dsimp only
    by_cases hx : x = id
    · rw [if_pos hx, hx]
      exact iff_of_true rfl hid
    · rw [if_neg hx]
      exact hsound.live x
  · rcases mem_append.mp hmem with hmem | hmem
    · exact hsound.owned command hmem
    · obtain ⟨before, hbefore, rfl⟩ := mem_map.mp hmem
      obtain ⟨heq, hkind⟩ := hcommands before (mem_filter.mp hbefore).1
      refine ⟨heq ▸ hid, fun paneId h => ?_⟩
      rw [show before.kind = _ from h] at hkind
      cases hkind
  · dsimp only at howed
    rw [outstanding]
    dsimp only
    by_cases hx : x = id
    · rw [if_pos hx] at howed ⊢
      cases howed
      have hnew : (announced (workOf commands) id).count .inventory =
          inventories (commands.flatMap (·.expectedReplies)) :=
        (inventories_announced commands id).trans (congrArg inventories hown)
      rw [hx, announced_append, inventories, count_append, count_append, hnew]
      exact hcounted
    · rw [if_neg hx] at howed ⊢
      rw [hother x hx]
      exact hsound.counted x owed' howed
  · rw [outstanding]
    dsimp only
    by_cases hx : x = id
    · rw [if_pos hx, hx, announced_append, append_assoc, bootstraps_append, bootstraps_append,
        bootstraps_announced, hown, ← bootstraps_append]
      exact hcovered paneId (hx ▸ hrequested)
    · rw [if_neg hx, hother x hx]
      exact hsound.covered x paneId hlive (hothers x paneId hx hrequested)

end Account

end Lector.Lifecycle
