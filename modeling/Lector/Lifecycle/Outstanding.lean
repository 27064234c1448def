import Lector.Lifecycle.Accounts

/-! Work that is announced is neither lost nor counted twice: which changes of an account keep the counter of
each inventory, and a bootstrap for every pane that asked for one. -/
namespace Lector.Lifecycle
open Std Lector.Topology Tmux Output List

/-! ## Replies -/

/-- A bootstrap of the pane, with line flags or without. -/
def Bootstraps (replies : List ExpectedTmuxReply) (paneId : PaneId) : Prop :=
  ∃ lineFlags, .bootstrap paneId lineFlags ∈ replies

abbrev inventories (replies : List ExpectedTmuxReply) : Nat := replies.count .inventory

section Replies

variable {replies more : List ExpectedTmuxReply} {commands kept : List PendingTmuxCommand} {id : UInt64}
  {paneId : PaneId}

theorem inventories_quiet (hquiet : ∀ reply ∈ replies, isWork reply = false) : inventories replies = 0 := by
  refine count_eq_zero.mpr fun hmem => ?_
  cases hquiet _ hmem

theorem bootstraps_append :
    Bootstraps (replies ++ more) paneId ↔ Bootstraps replies paneId ∨ Bootstraps more paneId := by
  constructor
  · rintro ⟨lineFlags, hmem⟩
    exact (mem_append.mp hmem).imp (fun h => ⟨lineFlags, h⟩) (fun h => ⟨lineFlags, h⟩)
  · rintro (⟨lineFlags, hmem⟩ | ⟨lineFlags, hmem⟩)
    · exact ⟨lineFlags, mem_append_left _ hmem⟩
    · exact ⟨lineFlags, mem_append_right _ hmem⟩

theorem bootstraps_perm (hperm : replies.Perm more) : Bootstraps replies paneId ↔ Bootstraps more paneId :=
  exists_congr fun _ => hperm.mem_iff

theorem announced_append (commands more : List PendingTmuxCommand) (id : UInt64) :
    announced (commands ++ more) id = announced commands id ++ announced more id := by
  rw [announced, filter_append, flatMap_append]
  rfl

theorem announced_perm (hperm : commands.Perm kept) (id : UInt64) :
    (announced commands id).Perm (announced kept id) := (hperm.filter _).flatMap_right _

theorem announced_of_forall_ne (hne : ∀ command ∈ commands, command.connectionId ≠ id) :
    announced commands id = [] := by
  rw [announced, filter_eq_nil_iff.mpr, flatMap_nil]
  exact fun command hmem => by simpa using hne command hmem

theorem announced_of_forall_eq (heq : ∀ command ∈ commands, command.connectionId = id) :
    announced commands id = commands.flatMap (·.expectedReplies) := by
  rw [announced, filter_eq_self.mpr]
  exact fun command hmem => decide_eq_true (heq command hmem)

theorem filter_announced (commands : List PendingTmuxCommand) (id : UInt64) :
    (announced (workOf commands) id).filter isWork = (announced commands id).filter isWork := by
  induction commands with
  | nil => rfl
  | cons command rest ih =>
    have hcons : ∀ (first : PendingTmuxCommand) (others : List PendingTmuxCommand),
        (announced (first :: others) id).filter isWork =
          (if first.connectionId = id then first.expectedReplies.filter isWork else []) ++
            (announced others id).filter isWork := by
      intro first others
      rw [announced, filter_cons]
      by_cases hid : first.connectionId = id
      · rw [if_pos (decide_eq_true hid), if_pos hid, flatMap_cons, filter_append]
        rfl
      · rw [if_neg (by simpa using hid), if_neg hid]
        rfl
    rw [hcons, ← ih]
    by_cases hannounces : announces command = true
    · have hwork : workOf (command :: rest) = { command with bytes := [] } :: workOf rest := by
        rw [workOf, filter_cons, if_pos hannounces]
        rfl
      rw [hwork, hcons]
    · have hwork : workOf (command :: rest) = workOf rest := by
        rw [workOf, filter_cons, if_neg hannounces]
        rfl
      have hnone : command.expectedReplies.filter isWork = [] := by
        refine filter_eq_nil_iff.mpr fun reply hmem hwork => hannounces ?_
        exact any_eq_true.mpr ⟨reply, hmem, hwork⟩
      rw [hwork, hnone, ite_self, nil_append]

theorem inventories_filter (replies : List ExpectedTmuxReply) :
    inventories (replies.filter isWork) = inventories replies := count_filter rfl

theorem bootstraps_filter : Bootstraps (replies.filter isWork) paneId ↔ Bootstraps replies paneId := by
  refine exists_congr fun lineFlags => ?_
  rw [mem_filter]
  exact and_iff_left rfl

theorem inventories_announced (commands : List PendingTmuxCommand) (id : UInt64) :
    inventories (announced (workOf commands) id) = inventories (announced commands id) := by
  rw [← inventories_filter, filter_announced, inventories_filter]

theorem bootstraps_announced :
    Bootstraps (announced (workOf commands) id) paneId ↔ Bootstraps (announced commands id) paneId := by
  rw [← bootstraps_filter, filter_announced, bootstraps_filter]

end Replies

/-! ## Sound accounts -/

abbrev Requests := UInt64 → PaneId → Prop

namespace Account

variable (a : Account)

def outstanding (id : UInt64) : List ExpectedTmuxReply :=
  announced a.work id ++ (a.owed id).elim [] (·.2)

structure Sound (a : Account) (requested : Requests) : Prop where
  forest : a.hierarchy.Forest
  live : ∀ id, (a.owed id).isSome ↔ a.hierarchy.contains id
  owned : ∀ command ∈ a.work, a.hierarchy.contains command.connectionId ∧
    ∀ paneId, command.kind ≠ .input paneId
  counted : ∀ id owed, a.owed id = some owed → owed.1 = inventories (a.outstanding id)
  covered : ∀ id paneId, a.hierarchy.contains id → requested id paneId → Bootstraps (a.outstanding id) paneId

variable {a b : Account} {requested requested' : Requests}

/-- No work comes, and none goes that something waits for. -/
structure Serves (requested : Requests) (a b : Account) : Prop where
  hierarchy : b.hierarchy = a.hierarchy
  remaining : ∀ id, (b.owed id).map (·.1) = (a.owed id).map (·.1)
  owned : ∀ command ∈ b.work, command ∈ a.work
  counted : ∀ id, a.hierarchy.contains id → inventories (b.outstanding id) = inventories (a.outstanding id)
  covered : ∀ id paneId, a.hierarchy.contains id → requested id paneId →
    Bootstraps (a.outstanding id) paneId → Bootstraps (b.outstanding id) paneId

theorem Sound.serves (hsound : a.Sound requested) (hserves : Serves requested a b) : b.Sound requested where
  forest := hserves.hierarchy ▸ hsound.forest
  live id := by
    rw [hserves.hierarchy, ← hsound.live, ← Option.isSome_map (f := (·.1)), hserves.remaining,
      Option.isSome_map]
  owned command hmem := by
    rw [hserves.hierarchy]
    exact hsound.owned command (hserves.owned command hmem)
  counted id owed howed := by
    have hremaining := hserves.remaining id
    rw [howed] at hremaining
    obtain ⟨before, hbefore, heq⟩ := Option.map_eq_some_iff.mp hremaining.symm
    have hlive := (hsound.live id).mp (Option.isSome_iff_exists.mpr ⟨before, hbefore⟩)
    rw [hserves.counted id hlive]
    exact heq.symm.trans (hsound.counted id before hbefore)
  covered id paneId hlive hrequested := by
    rw [hserves.hierarchy] at hlive
    exact hserves.covered id paneId hlive hrequested (hsound.covered id paneId hlive hrequested)

theorem Sound.mono (hsound : a.Sound requested)
    (hrequests : ∀ id paneId, requested' id paneId → requested id paneId) : a.Sound requested' where
  forest := hsound.forest
  live := hsound.live
  owned := hsound.owned
  counted := hsound.counted
  covered id paneId hlive hrequested := hsound.covered id paneId hlive (hrequests id paneId hrequested)

theorem serves_perm {work : List PendingTmuxCommand} (hperm : work.Perm a.work) :
    Serves requested a { a with work := work } where
  hierarchy := rfl
  remaining _ := rfl
  owned _ hmem := hperm.mem_iff.mp hmem
  counted id _ := ((announced_perm hperm id).append_right _).count_eq _
  covered id _ _ _ hbootstraps := (bootstraps_perm ((announced_perm hperm id).append_right _)).mpr hbootstraps

def Dispensable (a : Account) (requested : Requests) (lost kept : List PendingTmuxCommand) : Prop :=
  ∀ command ∈ lost, .inventory ∉ command.expectedReplies ∧
    ∀ paneId, Bootstraps command.expectedReplies paneId → requested command.connectionId paneId →
      Bootstraps ({ a with work := kept }.outstanding command.connectionId) paneId

theorem serves_loss {lost kept : List PendingTmuxCommand} (hperm : (lost ++ kept).Perm a.work)
    (hlost : a.Dispensable requested lost kept) : Serves requested a { a with work := kept } where
  hierarchy := rfl
  remaining _ := rfl
  owned _ hmem := hperm.mem_iff.mp (mem_append_right _ hmem)
  counted id _ := by
    have hnone : (announced lost id).count .inventory = 0 := by
      refine count_eq_zero.mpr fun hmem => ?_
      obtain ⟨command, hcommand, hreply⟩ := mem_flatMap.mp hmem
      exact (hlost command (mem_filter.mp hcommand).1).1 hreply
    have hall := (announced_perm hperm id).count_eq .inventory
    rw [announced_append, count_append] at hall
    show count _ (announced kept id ++ (a.owed id).elim [] (·.2)) =
      count _ (announced a.work id ++ (a.owed id).elim [] (·.2))
    rw [count_append, count_append]
    omega
  covered id paneId _ hrequested hbootstraps := by
    have hsplit := (bootstraps_perm ((announced_perm hperm id).append_right
      ((a.owed id).elim [] (·.2)))).mpr hbootstraps
    rw [announced_append, append_assoc] at hsplit
    rcases bootstraps_append.mp hsplit with ⟨lineFlags, hmem⟩ | hkept
    · obtain ⟨command, hfound, hreply⟩ := mem_flatMap.mp hmem
      obtain ⟨hcommand, hid⟩ := mem_filter.mp hfound
      obtain rfl := of_decide_eq_true hid
      exact (hlost command hcommand).2 paneId ⟨lineFlags, hreply⟩ hrequested
    · exact hkept

/-! ## Turns -/

/-- Only views of connections that lived before have panes that wait. -/
def Inherits (a : Account) (requested requested' : Requests) : Prop :=
  ∀ id paneId, requested' id paneId → a.hierarchy.contains id ∧ requested id paneId

/-- The work that is lost when a protocol recovery begins. -/
def Spares (a : Account) (requested : Requests) (recovering : Option UInt64) : Prop :=
  ∀ root affected, recovering = some root → a.hierarchy.teardownOrder root = some affected →
    a.Dispensable requested (a.work.filter (·.connectionId ∈ affected))
      (a.work.filter (·.connectionId ∉ affected))

theorem inventoryWork_id {id : UInt64} : ∀ command ∈ inventoryWork id,
    command.connectionId = id ∧ command.kind = .ordinary ∧ command.expectedReplies = [.inventory] := by
  intro command hmem
  obtain ⟨first, hfirst, rfl⟩ := mem_map.mp hmem
  obtain ⟨-, -, rfl⟩ := mem_map.mp (mem_filter.mp hfirst).1
  exact ⟨rfl, rfl, rfl⟩

theorem inventories_inventoryWork (id : UInt64) :
    inventories (announced (inventoryWork id) id) = inventoryReplyCount := by
  rw [inventoryWork, inventories_announced, announced_of_forall_eq fun command hmem => ?_]
  · rfl
  · obtain ⟨-, -, rfl⟩ := mem_map.mp hmem
    rfl

theorem Sound.starts (hsound : a.Sound requested) (hinherits : a.Inherits requested requested') {id : UInt64}
    {origin : GatewayOrigin} {h : ConnectionHierarchy} (hgrows : a.hierarchy.Grows id origin h) :
    Sound ⟨h, fun x => (a.owed x).or (if x = id then some (inventoryReplyCount, []) else none),
      a.work ++ inventoryWork id⟩ requested' := by
  have hfresh : a.owed id = none := by
    rw [← Option.not_isSome_iff_eq_none, hsound.live, hgrows.fresh]
    exact Bool.false_ne_true
  have hnone : announced a.work id = [] := by
    refine announced_of_forall_ne fun command hmem hid => ?_
    have hlive := (hsound.owned command hmem).1
    rw [hid, hgrows.fresh] at hlive
    cases hlive
  have hother : ∀ x, x ≠ id → announced (a.work ++ inventoryWork id) x = announced a.work x := by
    intro x hx
    have hwork := announced_of_forall_ne fun command hmem hid =>
      hx (hid.symm.trans (inventoryWork_id command hmem).1)
    rw [announced_append, hwork, append_nil]
  refine ⟨hgrows.forest, fun x => ?_, fun command hmem => ?_, fun x owed howed => ?_,
    fun x paneId hlive hrequested => ?_⟩
  · rw [hgrows.contains_iff, ← hsound.live]
    by_cases hx : x = id
    · simp [hx]
    · simp [hx]
  · rw [hgrows.contains_iff]
    rcases mem_append.mp hmem with hmem | hmem
    · exact ⟨.inr (hsound.owned command hmem).1, (hsound.owned command hmem).2⟩
    · obtain ⟨hid, hkind, -⟩ := inventoryWork_id command hmem
      refine ⟨.inl hid, fun paneId h => ?_⟩
      rw [hkind] at h
      cases h
  · by_cases hx : x = id
    · subst hx
      have hsame : (a.owed x).or (if x = x then some (inventoryReplyCount, []) else none) =
          some (inventoryReplyCount, []) := by rw [hfresh, if_pos rfl, Option.none_or]
      obtain rfl := Option.some.inj (hsame.symm.trans howed)
      rw [outstanding]
      dsimp only
      rw [hsame, announced_append, hnone, nil_append, Option.elim_some, append_nil, inventories_inventoryWork]
    · have hsame : (a.owed x).or (if x = id then some (inventoryReplyCount, []) else none) =
          a.owed x := by rw [if_neg hx, Option.or_none]
      rw [outstanding]
      dsimp only
      rw [hsame, hother x hx]
      exact hsound.counted x owed (hsame.symm.trans howed)
  · obtain ⟨hbefore, hrequested⟩ := hinherits x paneId hrequested
    have hx : x ≠ id := by
      rintro rfl
      rw [hgrows.fresh] at hbefore
      cases hbefore
    rw [outstanding]
    dsimp only
    rw [if_neg hx, Option.or_none, hother x hx]
    exact hsound.covered x paneId hbefore hrequested

theorem Sound.ends (hsound : a.Sound requested) (hinherits : a.Inherits requested requested')
    {removed : List UInt64} {h : ConnectionHierarchy} (hshrinks : a.hierarchy.Shrinks removed h) :
    Sound ⟨h, fun x => if x ∈ removed then none else a.owed x,
      a.work.filter (·.connectionId ∉ removed)⟩ requested' := by
  have hout : ∀ x, x ∉ removed → outstanding ⟨h, fun x => if x ∈ removed then none else a.owed x,
        a.work.filter (·.connectionId ∉ removed)⟩ x = a.outstanding x := by
    intro x hx
    rw [outstanding]
    dsimp only
    rw [if_neg hx, announced, filter_filter]
    congr 2
    refine filter_congr fun command _ => ?_
    by_cases hid : command.connectionId = x
    · simp [hid, hx]
    · simp [hid]
  refine ⟨hshrinks.forest, fun x => ?_, fun command hmem => ?_, fun x owed howed => ?_,
    fun x paneId hlive hrequested => ?_⟩
  · rw [hshrinks.contains_iff, ← hsound.live]
    by_cases hx : x ∈ removed
    · simp [hx]
    · simp [hx]
  · obtain ⟨hmem, hkept⟩ := mem_filter.mp hmem
    obtain ⟨hlive, hkind⟩ := hsound.owned command hmem
    exact ⟨hshrinks.contains_iff.mpr ⟨hlive, of_decide_eq_true hkept⟩, hkind⟩
  · dsimp only at howed
    have hx : x ∉ removed := by
      intro hx
      rw [if_pos hx] at howed
      cases howed
    rw [if_neg hx] at howed
    rw [hout x hx]
    exact hsound.counted x owed howed
  · obtain ⟨hbefore, hx⟩ := hshrinks.contains_iff.mp hlive
    rw [hout x hx]
    exact hsound.covered x paneId hbefore (hinherits x paneId hrequested).2

/-- **What the app does to its connections keeps its account sound**, unless a recovery loses work that is
waited for. -/
theorem Sound.turns (hsound : a.Sound requested) (hinherits : a.Inherits requested requested')
    {recovering : Option UInt64} (hspares : a.Spares requested recovering)
    (hturns : a.Turns recovering b) : b.Sound requested' := by
  have hmono : ∀ {c : Account}, c.Sound requested → c.Sound requested' :=
    fun hc => hc.mono fun id paneId hrequested => (hinherits id paneId hrequested).2
  cases hturns with
  | keeps => exact hmono hsound
  | starts hgrows => exact hsound.starts hinherits hgrows
  | ends hshrinks => exact hsound.ends hinherits hshrinks
  | @recovers root affected hroot haffected =>
    have hlost := hspares root affected hroot haffected
    have hperm : (a.work.filter (·.connectionId ∈ affected) ++
        a.work.filter (·.connectionId ∉ affected)).Perm a.work := by
      have hnot : (fun command : PendingTmuxCommand => decide (command.connectionId ∉ affected)) =
          fun command => !decide (command.connectionId ∈ affected) := by
        funext command
        exact decide_not
      rw [hnot]
      exact filter_append_perm _ _
    exact hmono (hsound.serves (serves_loss hperm hlost))

end Account

end Lector.Lifecycle
