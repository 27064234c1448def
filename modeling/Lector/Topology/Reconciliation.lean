import Lector.Foundations.Fallible
import Lector.Topology.Integrity

/-! Whole runs: an accepted inventory is referentially whole, and notifications keep it so until
one selects an object that does not belong where it is selected. -/
namespace Lector.Topology
open Bytes Std SortedMap Fallible Option

namespace TmuxTopology

/-! ## Inventory lines -/

section Lines

variable {t t' : TmuxTopology}

/-- What an inventory line keeps: a whole topology that asks for nothing. -/
structure Settled (t : TmuxTopology) : Prop where
  whole : t.Whole
  current : t.needsResync = false

theorem Settled.frame (h : t.Settled) (hshape : t'.shape = t.shape)
    (hresync : t'.needsResync = t.needsResync) : t'.Settled where
  whole := by rw [Whole, hshape]; exact h.whole
  current := hresync.trans h.current

theorem shape_addSession {s : SessionId} (h : t.sessions.contains s = false) (name : String) :
    shape { t with sessions := t.sessions.insert s { emptySession s with name } } = t.shape := by
  have hnone : t.sessions[s]? = none := by
    exact not_isSome_iff_eq_none.mp (by simp [h])
  have hfresh : ∀ (s' : SessionId) (P : Session → Prop), ¬ P { emptySession s with name } →
      (Holds (t.sessions.insert s { emptySession s with name }) s' P ↔ Holds t.sessions s' P) := by
    intro s' P hP
    rw [holds_insert]
    by_cases hs : s' = s
    · subst hs
      simp [hP, not_holds_of_none hnone]
    · simp [hs]
  ext
  · rfl
  · exact hfresh _ _ (by simp [emptySession])
  · rfl
  · exact hfresh _ _ (by simp [emptySession])
  · rfl
  · rfl

theorem listIn_windows {l : WindowLine} {session : Session} {i : UInt32} {w : WindowId}
    (h : session.windows.contains l.index = false) : (l.listIn session).windows[i]? = some w ↔
      session.windows[i]? = some w ∨ i = l.index ∧ w = l.windowId := by
  have hnone : session.windows[l.index]? = none := by
    exact not_isSome_iff_eq_none.mp (by simp [h])
  simp only [WindowLine.listIn, ExtTreeMap.getElem?_insert]
  by_cases hi : i = l.index
  · subst hi
    simp [hnone, eq_comm]
  · simp [hi, Ne.symm hi]

theorem link_links (l : WindowLine) {s : SessionId} {i : UInt32} :
    ⟨s, i⟩ ∈ (l.link ((t.windows[l.windowId]?).getD l.window)).links ↔
      t.shape.links l.windowId s i ∨ s = l.sessionId ∧ i = l.index := by
  have hlink : compare (⟨l.sessionId, l.index⟩ : WindowLink) ⟨s, i⟩ = .eq ↔
      s = l.sessionId ∧ i = l.index := by
    rw [LawfulEqOrd.compare_eq_iff_eq, WindowLink.mk.injEq]
    exact and_congr eq_comm eq_comm
  rw [WindowLine.link, ExtTreeSet.mem_insert, hlink, or_comm]
  refine or_congr ?_ Iff.rfl
  cases hw : t.windows[l.windowId]? with
  | none =>
    have hno : ¬ t.shape.links l.windowId s i := not_holds_of_none hw _
    simp [WindowLine.window, emptyWindow, hno]
  | some window => exact (holds_of_some hw fun window => ⟨s, i⟩ ∈ window.links).symm

theorem link_activePane (l : WindowLine) {p : PaneId} :
    (l.link ((t.windows[l.windowId]?).getD l.window)).activePane = some p ↔
      t.shape.activePane l.windowId p := by
  cases hw : t.windows[l.windowId]? with
  | none =>
    have hno : ¬ t.shape.activePane l.windowId p := not_holds_of_none hw _
    simp [WindowLine.link, WindowLine.window, emptyWindow, hno]
  | some window => exact (holds_of_some hw fun window => window.activePane = some p).symm

theorem shape_linkWindow {l : WindowLine} {session : Session}
    (hs : t.sessions[l.sessionId]? = some session) (hi : session.windows.contains l.index = false) :
    shape { t with
        sessions := t.sessions.insert l.sessionId (l.listIn session)
        windows := t.windows.insert l.windowId (l.link ((t.windows[l.windowId]?).getD l.window)) } =
      t.shape.listAt l.sessionId l.index l.windowId l.active := by
  ext
  · rename_i w
    refine holds_insert.trans ?_
    by_cases hw : w = l.windowId <;> simp [Shape.listAt, hw, shape]
  · rename_i s i w
    refine holds_insert.trans ?_
    rw [listIn_windows hi]
    by_cases hsame : s = l.sessionId
    · subst hsame
      have hold : t.shape.lists l.sessionId i w ↔ session.windows[i]? = some w := holds_of_some hs _
      simp [Shape.listAt, hold]
    · simp [Shape.listAt, hsame, shape]
  · rename_i w s i
    refine holds_insert.trans ?_
    rw [link_links]
    by_cases hw : w = l.windowId
    · subst hw
      simp [Shape.listAt]
    · simp [Shape.listAt, hw, shape]
  · rename_i s w
    refine holds_insert.trans ?_
    cases hactive : l.active with
    | true => simp [WindowLine.listIn, Shape.listAt, hactive, shape, eq_comm]
    | false =>
      by_cases hsame : s = l.sessionId
      · subst hsame
        have hold : t.shape.activeWindow l.sessionId w ↔ session.activeWindow = some w := holds_of_some hs _
        simp [WindowLine.listIn, Shape.listAt, hactive, hold]
      · simp [Shape.listAt, hsame, shape]
  · rename_i w p
    refine holds_insert.trans ?_
    rw [link_activePane]
    by_cases hw : w = l.windowId
    · subst hw
      simp [Shape.listAt]
    · simp [Shape.listAt, hw, shape]
  · rfl

theorem linkWindow_settled (h : t.Settled) {l : WindowLine} (hok : t.linkWindow l = .ok t') : t'.Settled := by
  unfold linkWindow at hok
  split at hok
  · cases hok
  rename_i session hs
  simp only at hok
  split at hok
  · cases hok
  rename_i hi
  split at hok
  · cases hok
  cases hok
  refine ⟨?_, h.current⟩
  rw [Whole, shape_linkWindow hs (eq_false_of_ne_true hi)]
  exact Shape.Whole.listAt h.whole _ _ _ _

theorem shape_addPane {pane : Pane} {window : Window} (hw : t.windows[pane.windowId]? = some window)
    {panes : ExtTreeMap PaneId Pane} (active : Bool)
    (hpanes : ∀ p w, Holds panes p (fun pane : Pane => pane.windowId = w) ↔
      t.shape.owner p w ∨ p = pane.id ∧ w = pane.windowId) :
    shape { t with
        windows := t.windows.insert pane.windowId (activate window pane.id active), panes } =
      t.shape.addPane pane.id pane.windowId active := by
  have hlinks : (activate window pane.id active).links = window.links := by
    unfold activate
    split <;> rfl
  ext
  · exact holds_insert_same hw Iff.rfl
  · rfl
  · exact holds_insert_same hw (by rw [hlinks])
  · rfl
  · cases active with
    | true =>
      refine holds_insert.trans (or_congr (and_congr Iff.rfl ?_) Iff.rfl)
      simp [activate, eq_comm]
    | false => exact holds_insert_same hw Iff.rfl
  · exact hpanes _ _

section

variable (h : t.Settled)
include h

theorem addPane_settled {pane : Pane} {active : Bool} (hok : t.addPane pane active = .ok t') : t'.Settled := by
  unfold addPane at hok
  split at hok
  · cases hok
  rename_i window hw
  have hadd := Shape.Whole.addPane h.whole (shape_window hw) pane.id active
  split at hok
  · rename_i hp
    cases hok
    refine ⟨?_, h.current⟩
    rw [Whole, shape_addPane hw active]
    · exact hadd
    · intro p w
      rw [holds_insert]
      by_cases hsame : p = pane.id
      · subst hsame
        have hno : ¬ t.shape.owner pane.id w := not_holds_of_none hp _
        simp [hno, eq_comm]
      · simp [hsame, shape]
  · rename_i existing hp
    split at hok
    · cases hok
    · rename_i hsame
      have hsame : existing = pane := not_not.mp hsame
      cases hok
      refine ⟨?_, h.current⟩
      rw [Whole, shape_addPane hw active]
      · exact hadd
      · intro p w
        refine ⟨.inl, ?_⟩
        rintro (hold | ⟨rfl, rfl⟩)
        · exact hold
        · exact ⟨existing, hp, by rw [hsame]⟩

theorem insertBinding_settled {binding : TmuxBinding}
    (hok : t.insertBinding binding = .ok t') : t'.Settled := by
  unfold insertBinding at hok
  simp only at hok
  split at hok <;> split at hok <;> cases hok
  · exact h.frame rfl rfl
  · exact h.frame rfl rfl

theorem inventorySession_settled {line : Bytes} (hok : t.inventorySession line = .ok t') : t'.Settled := by
  obtain ⟨fields, -, hok⟩ := bind_eq_ok.mp hok
  obtain ⟨id, -, hok⟩ := bind_eq_ok.mp hok
  obtain ⟨name, -, hok⟩ := bind_eq_ok.mp hok
  split at hok
  · cases hok
  · rename_i hfresh
    cases hok
    exact h.frame (shape_addSession (eq_false_of_ne_true hfresh) name) rfl

theorem inventoryAttached_settled {line : Bytes} (hok : t.inventoryAttached line = .ok t') : t'.Settled := by
  obtain ⟨fields, -, hok⟩ := bind_eq_ok.mp hok
  obtain ⟨id, -, hok⟩ := bind_eq_ok.mp hok
  split at hok
  · cases hok
  split at hok
  · obtain ⟨host, -, hok⟩ := bind_eq_ok.mp hok
    split at hok <;> cases hok
    exact h.frame rfl rfl
  · cases hok
    exact h.frame rfl rfl

theorem inventoryKeyValue_settled {line : Bytes} {option : Bool}
    (hok : t.inventoryKeyValue line option = .ok t') : t'.Settled := by
  obtain ⟨fields, -, hok⟩ := bind_eq_ok.mp hok
  split at hok
  · cases hok
  obtain ⟨key, -, hok⟩ := bind_eq_ok.mp hok
  obtain ⟨value, -, hok⟩ := bind_eq_ok.mp hok
  cases option with
  | true =>
    simp only [if_true] at hok
    split at hok <;> cases hok
    exact h.frame rfl rfl
  | false =>
    simp only [Bool.false_eq_true, if_false] at hok
    split at hok <;> cases hok
    exact h.frame rfl rfl

theorem applyInventoryLine_settled {line : Bytes} (hok : t.applyInventoryLine line = .ok t') : t'.Settled := by
  unfold applyInventoryLine at hok
  split at hok
  · exact inventorySession_settled h hok
  · obtain ⟨l, -, hok⟩ := bind_eq_ok.mp hok
    exact linkWindow_settled h hok
  · obtain ⟨⟨pane, active⟩, -, hok⟩ := bind_eq_ok.mp hok
    exact addPane_settled h hok
  · exact inventoryAttached_settled h hok
  · exact inventoryKeyValue_settled h hok
  · exact inventoryKeyValue_settled h hok
  · obtain ⟨binding, -, hok⟩ := bind_eq_ok.mp hok
    exact insertBinding_settled h hok
  · obtain ⟨binding, -, hok⟩ := bind_eq_ok.mp hok
    exact insertBinding_settled h hok
  · cases hok

theorem applyInventoryLines_settled {lines : List Bytes}
    (hok : t.applyInventoryLines lines = .ok t') : t'.Settled := by
  induction lines generalizing t with
  | nil => cases hok; exact h
  | cons line lines ih =>
    obtain ⟨next, hline, hok⟩ := bind_eq_ok.mp hok
    exact ih (applyInventoryLine_settled h hline) hok

end

theorem replaceInventory_settled {lines : List Bytes}
    (hok : t.replaceInventory lines = (t', .ok ())) : t'.Settled := by
  unfold replaceInventory at hok
  cases hread : t.readInventory lines with
  | error e => rw [hread] at hok; cases hok
  | ok next =>
    rw [hread] at hok
    cases hok
    obtain ⟨next, hlines, hok⟩ := bind_eq_ok.mp hread
    obtain ⟨-, -, hok⟩ := bind_eq_ok.mp hok
    cases hok
    have hempty : Settled { new t.connectionId with label := t.label } := ⟨whole_new t.connectionId, rfl⟩
    exact applyInventoryLines_settled hempty hlines

end Lines

/-! ## Runs -/

def runNotifications (t : TmuxTopology) : List (Bytes × Bytes) → TmuxTopology
  | [] => t
  | (name, arguments) :: rest => (t.applyNotification name arguments).1.runNotifications rest

/-- Every notification that meets a current topology selects objects that belong together. -/
def EveryStepLinked (t : TmuxTopology) : List (Bytes × Bytes) → Prop
  | [] => True
  | (name, arguments) :: rest =>
    (t.needsResync = false → NamesLinked t name arguments) ∧
      (t.applyNotification name arguments).1.EveryStepLinked rest

section Runs

variable {t : TmuxTopology}

section

variable (hr : t.needsResync = true)
include hr

theorem afterParsing_needsResync {α : Type} (parsed : Except TopologyError α)
    (update : α → TmuxTopology × ReconcileOutcome) (hupdate : ∀ a, (update a).1.needsResync = true) :
    (t.afterParsing parsed update).1.needsResync = true :=
  (afterParsing_iff (P := fun t => t.needsResync = true) hr parsed update).mpr fun a _ => hupdate a

theorem resyncIf_needsResync (missing : Bool) : (resyncIf missing t).1.needsResync = true := by
  cases missing
  · exact hr
  · rfl

theorem selection_needsResync : (∀ id name, (t.sessionChanged id name).1.needsResync = true) ∧
      (∀ s w, (t.sessionWindowChanged s w).1.needsResync = true) ∧
      (∀ w name, (t.windowRenamed w name).1.needsResync = true) ∧
      ∀ w p, (t.windowPaneChanged w p).1.needsResync = true := by
  refine ⟨fun id name => ?_, fun s w => ?_, fun w name => ?_, fun w p => ?_⟩
  all_goals
    apply resyncIf_needsResync
    exact hr

theorem closeAttachedWindow_needsResync (x : WindowId) : (t.closeAttachedWindow x).1.needsResync = true := by
  unfold closeAttachedWindow
  split
  · rfl
  · simp only
    split
    · exact hr
    · split <;> exact hr

theorem applyNotification_needsResync (name arguments : Bytes) :
    (t.applyNotification name arguments).1.needsResync = true := by
  unfold applyNotification
  cases kinds.lookup name with
  | none => exact hr
  | some kind =>
    cases kind with
    | sessionsChanged => rfl
    | sessionChanged => exact afterParsing_needsResync hr _ _ fun a => (selection_needsResync hr).1 a.1 a.2
    | sessionRenamed =>
      simp only [applyKind]
      split
      · rfl
      · refine afterParsing_needsResync hr _ _ fun _ => ?_
        split
        · exact hr
        · rfl
    | sessionWindowChanged =>
      exact afterParsing_needsResync hr _ _ fun a => (selection_needsResync hr).2.1 a.1 a.2
    | windowRenamed => exact afterParsing_needsResync hr _ _ fun a => (selection_needsResync hr).2.2.1 a.1 a.2
    | windowPaneChanged =>
      exact afterParsing_needsResync hr _ _ fun a => (selection_needsResync hr).2.2.2 a.1 a.2
    | windowAdd => exact afterParsing_needsResync hr _ _ fun _ => rfl
    | windowClose => exact afterParsing_needsResync hr _ _ fun a => closeAttachedWindow_needsResync hr a
    | unlinkedWindowClose =>
      refine afterParsing_needsResync hr _ _ fun _ => ?_
      unfold closeUnlinkedWindow
      split
      · rfl
      · exact hr
    | layoutChange => exact afterParsing_needsResync hr _ _ fun _ => rfl
    | paneModeChanged => rfl
    | paneExited => exact afterParsing_needsResync hr _ _ fun _ => hr

end

theorem applyNotification_wholeOrResync_iff (h : WholeOrResync t) (name arguments : Bytes) :
    WholeOrResync (t.applyNotification name arguments).1 ↔
      (t.needsResync = false → NamesLinked t name arguments) := by
  cases hr : t.needsResync with
  | true =>
    have hstill := applyNotification_needsResync hr name arguments
    simp [WholeOrResync, hstill]
  | false => simpa using applyNotification_iff (h hr) hr name arguments

theorem run_wholeOrResync_iff (h : WholeOrResync t) (notifications : List (Bytes × Bytes)) :
    (∀ n, WholeOrResync (t.runNotifications (notifications.take n))) ↔ t.EveryStepLinked notifications := by
  induction notifications generalizing t with
  | nil => simp [runNotifications, EveryStepLinked, h]
  | cons notification rest ih =>
    obtain ⟨name, arguments⟩ := notification
    have hstep := applyNotification_wholeOrResync_iff h name arguments
    rw [EveryStepLinked, ← hstep]
    constructor
    · intro hall
      have hnext := hall 1
      exact ⟨hnext, (ih hnext).mp fun n => hall (n + 1)⟩
    · rintro ⟨hnext, hlater⟩ n
      cases n with
      | zero => exact h
      | succ n => exact (ih hnext).mpr hlater n

end Runs

/-- **Between resyncs the topology stays whole exactly as long as selections stay linked**: no
notification of the run selects a known window that the session does not list or a known pane that
the window does not own. -/
theorem replaceInventory_run_whole_iff (t t₀ : TmuxTopology) (lines : List Bytes)
    (hinventory : t.replaceInventory lines = (t₀, .ok ())) (notifications : List (Bytes × Bytes)) :
    (∀ n, (t₀.runNotifications (notifications.take n)).needsResync = false →
        (t₀.runNotifications (notifications.take n)).Whole) ↔
      t₀.EveryStepLinked notifications :=
  run_wholeOrResync_iff (fun _ => (replaceInventory_settled hinventory).whole) notifications

def twoSessions : List Bytes :=
  [ascii "S\t$0\tmain", ascii "S\t$1\tother",
   ascii "W\t$0\t@0\t0\t1\tb\tb\t*\tshell", ascii "W\t$1\t@1\t0\t1\tb\tb\t*\tlog",
   ascii "P\t@0\t%0\t0\t1\t0\t0\t80\t24\t0\tvim", ascii "P\t@1\t%1\t0\t1\t0\t0\t80\t24\t0\ttail",
   ascii "A\t$0"]

def twoSessionsTopology : TmuxTopology := ((new 1).replaceInventory twoSessions).1

theorem replaceInventory_twoSessions :
    (new 1).replaceInventory twoSessions = (twoSessionsTopology, .ok ()) := by
  have haccepted : ((new 1).replaceInventory twoSessions).2 = .ok () := by decide +kernel
  exact Prod.ext rfl haccepted

/-- A session selects the window it lists, and the window of the other session is closed. -/
def linkedNotifications : List (Bytes × Bytes) :=
  [(ascii "session-window-changed", ascii "$0 @0"), (ascii "window-close", ascii "@1")]

theorem replaceInventory_run_whole_iff_twoSessions :
    (twoSessionsTopology.runNotifications linkedNotifications).needsResync = false ∧
      (twoSessionsTopology.runNotifications linkedNotifications).Whole := by
  have hresync : (twoSessionsTopology.runNotifications linkedNotifications).needsResync = false := by
    decide +kernel
  refine ⟨hresync, (replaceInventory_run_whole_iff (new 1) twoSessionsTopology twoSessions
    replaceInventory_twoSessions linkedNotifications).mpr ⟨fun _ => ?_, fun _ => ?_, trivial⟩ 2 hresync⟩
  · intro s w hsw _ _
    cases hsw
    have hlisted : ((twoSessionsTopology.sessions[(⟨0⟩ : SessionId)]?).bind
        fun session => session.windows[(0 : UInt32)]?) = some ⟨0⟩ := by decide +kernel
    obtain ⟨session, hsession, hwindow⟩ := bind_eq_some_iff.mp hlisted
    exact ⟨0, session, hsession, hwindow⟩
  · trivial

/-- A session that selects the window of another session stays so without a resync. -/
theorem unlisted_window_selected :
    ¬ ∀ (t t₀ : TmuxTopology) (lines : List Bytes) (notifications : List (Bytes × Bytes)),
      t.replaceInventory lines = (t₀, .ok ()) → (t₀.runNotifications notifications).needsResync = false →
          (t₀.runNotifications notifications).Whole := by
  intro h
  have hwhole := h (new 1) twoSessionsTopology twoSessions
    [(ascii "session-window-changed", ascii "$0 @1")] replaceInventory_twoSessions
    (by decide +kernel)
  have hselected : ((twoSessionsTopology.runNotifications
      [(ascii "session-window-changed", ascii "$0 @1")]).sessions[(⟨0⟩ : SessionId)]?).map
        (fun session => (session.activeWindow, session.windows.toList)) =
      some (some ⟨1⟩, [(0, ⟨0⟩)]) := by decide +kernel
  obtain ⟨session, hsession, hfields⟩ := map_eq_some_iff.mp hselected
  rw [Prod.mk.injEq] at hfields
  obtain ⟨i, session', hsession', hlisted⟩ := hwhole.activeWindow_listed ⟨session, hsession, hfields.1⟩
  rw [hsession] at hsession'
  cases hsession'
  rw [← ExtTreeMap.mem_toList_iff_getElem?_eq_some, hfields.2] at hlisted
  revert hlisted
  simp

end TmuxTopology

end Lector.Topology
