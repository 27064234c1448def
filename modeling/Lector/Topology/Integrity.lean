import Lector.Topology.Notifications
import Lector.Topology.Shape

/-! Referential integrity of the topology: the maps refine the abstract updates of their shape, so
the integrity of a run is that of its shapes. -/
namespace Lector.Topology
open Std SortedMap

namespace TmuxTopology

/-! ## The shape of the maps -/

variable (t : TmuxTopology)

def shape : Shape SessionId UInt32 WindowId PaneId where
  window w := Holds t.windows w fun _ => True
  lists s i w := Holds t.sessions s fun session => session.windows[i]? = some w
  links w s i := Holds t.windows w fun window => ⟨s, i⟩ ∈ window.links
  activeWindow s w := Holds t.sessions s fun session => session.activeWindow = some w
  activePane w p := Holds t.windows w fun window => window.activePane = some p
  owner p w := Holds t.panes p fun pane => pane.windowId = w

/-- Windows link back, active windows are listed, active panes are owned, and owners exist. -/
def Whole : Prop := t.shape.Whole

theorem shape_window {t : TmuxTopology} {w : WindowId} {window : Window}
    (h : t.windows[w]? = some window) : t.shape.window w := ⟨window, h, trivial⟩

/-! ## Updates of the maps refine updates of the shape -/

section Refinement

variable {t : TmuxTopology}

theorem whole_new (id : UInt64) : (new id).Whole where
  listed_exists := fun ⟨_, h, _⟩ => by simp [new] at h
  links_inverse := ⟨fun ⟨_, h, _⟩ => by simp [new] at h, fun ⟨_, h, _⟩ => by simp [new] at h⟩
  activeWindow_listed := fun ⟨_, h, _⟩ => by simp [new] at h
  activePane_owned := fun ⟨_, h, _⟩ => by simp [new] at h
  owner_exists := fun ⟨_, h, _⟩ => by simp [new] at h

variable {session : Session}

theorem shape_renameSession {s : SessionId} (h : t.sessions[s]? = some session) (name : String) :
    shape { t with sessions := t.sessions.insert s { session with name } } = t.shape := by
  ext
  · rfl
  · exact holds_insert_same h Iff.rfl
  · rfl
  · exact holds_insert_same h Iff.rfl
  · rfl
  · rfl

variable {w x : WindowId} {window : Window}

theorem shape_updateWindow (h : t.windows[w]? = some window) (window' : Window)
    (hlinks : window'.links = window.links) (hactive : window'.activePane = window.activePane) :
    shape { t with windows := t.windows.insert w window' } = t.shape := by
  ext
  · exact holds_insert_same h Iff.rfl
  · rfl
  · exact holds_insert_same h (by rw [hlinks])
  · rfl
  · exact holds_insert_same h (by rw [hactive])
  · rfl

theorem shape_selectWindow {s : SessionId} (h : t.sessions[s]? = some session) (w : WindowId) :
    shape { t with sessions := t.sessions.insert s { session with activeWindow := some w } } =
      t.shape.selectWindow s w := by
  ext s' w'
  · rfl
  · exact holds_insert_same h Iff.rfl
  · rfl
  · exact holds_insert.trans (or_congr (and_congr Iff.rfl (by simp [eq_comm])) Iff.rfl)
  · rfl
  · rfl

theorem shape_selectPane (h : t.windows[w]? = some window) (p : PaneId) :
    shape { t with windows := t.windows.insert w { window with activePane := some p } } =
      t.shape.selectPane w p := by
  ext w' p'
  · exact holds_insert_same h Iff.rfl
  · rfl
  · exact holds_insert_same h Iff.rfl
  · rfl
  · exact holds_insert.trans (or_congr (and_congr Iff.rfl (by simp [eq_comm])) Iff.rfl)
  · rfl

theorem unlist_windows {i : UInt32} :
    (session.unlist x).windows[i]? = some w ↔ session.windows[i]? = some w ∧ w ≠ x := by
  simp [Session.unlist, retain]

theorem unlist_activeWindow :
    (session.unlist x).activeWindow = some w ↔ session.activeWindow = some w ∧ w ≠ x := by
  unfold Session.unlist
  split
  · rename_i h
    simp [h, eq_comm]
  · rename_i h
    refine ⟨fun hw => ⟨hw, ?_⟩, fun hw => hw.1⟩
    rintro rfl
    exact h hw

theorem shape_removeWindow (x : WindowId) : (t.removeWindow x).shape = t.shape.removeWindow x := by
  ext
  · exact holds_erase
  · exact holds_map.trans ((holds_congr fun _ => unlist_windows).trans holds_and)
  · exact holds_erase
  · exact holds_map.trans ((holds_congr fun _ => unlist_activeWindow).trans holds_and)
  · exact holds_erase
  · refine holds_retain.trans ((holds_congr fun pane => ?_).trans holds_and)
    constructor
    · rintro ⟨rfl, hkeep⟩
      exact ⟨rfl, by simpa using hkeep⟩
    · rintro ⟨rfl, hne⟩
      exact ⟨rfl, by simpa using hne⟩

theorem deactivate_activePane {x p : PaneId} :
    (window.deactivate x).activePane = some p ↔ window.activePane = some p ∧ p ≠ x := by
  unfold Window.deactivate
  split
  · rename_i h
    simp [h, eq_comm]
  · rename_i h
    refine ⟨fun hp => ⟨hp, ?_⟩, fun hp => hp.1⟩
    rintro rfl
    exact h hp

theorem shape_removePane (x : PaneId) : (t.removePane x).shape = t.shape.removePane x := by
  ext
  · exact holds_map
  · rfl
  · exact holds_map
  · rfl
  · exact holds_map.trans ((holds_congr fun _ => deactivate_activePane).trans holds_and)
  · exact holds_erase

theorem unlink_links {s s' : SessionId} {i : UInt32} :
    ⟨s', i⟩ ∈ (window.unlink s).links ↔ ⟨s', i⟩ ∈ window.links ∧ s' ≠ s := by
  simp [Window.unlink]

theorem shape_unlist {s : SessionId} {windows : ExtTreeMap WindowId Window}
    (hwindow : ∀ w, Holds windows w (fun _ => True) ↔ t.shape.window w)
    (hpane : ∀ w p, Holds windows w (fun window : Window => window.activePane = some p) ↔
      t.shape.activePane w p)
    (hlinks : ∀ w s' i, Holds windows w (fun window : Window => (⟨s', i⟩ : WindowLink) ∈ window.links) ↔
        t.shape.links w s' i ∧ ¬(s' = s ∧ w = x)) :
    shape { t with sessions := t.sessions.modify s (·.unlist x), windows } = t.shape.unlist s x := by
  ext
  · exact hwindow _
  · rename_i s' i w
    refine holds_modify.trans ?_
    rw [holds_congr fun _ => unlist_windows, holds_and]
    by_cases hs : s' = s <;> simp [Shape.unlist, shape, hs]
  · exact hlinks _ _ _
  · rename_i s' w
    refine holds_modify.trans ?_
    rw [holds_congr fun _ => unlist_activeWindow, holds_and]
    by_cases hs : s' = s <;> simp [Shape.unlist, shape, hs]
  · exact hpane _ _
  · rfl

theorem whole_unlisted (h : t.Whole) (s : SessionId) (x : WindowId)
    (hx : t.windows[x]? = some window) : Whole { t with
      sessions := t.sessions.modify s (·.unlist x)
      windows := t.windows.insert x (window.unlink s) } := by
  rw [Whole, shape_unlist (x := x) (s := s)]
  · exact Shape.Whole.unlist h s x
  · exact fun w => holds_insert_same hx Iff.rfl
  · exact fun w p => holds_insert_same hx Iff.rfl
  · intro w s' i
    rw [holds_insert, unlink_links]
    by_cases hw : w = x
    · subst hw
      have hlinks : t.shape.links w s' i ↔ ⟨s', i⟩ ∈ window.links := holds_of_some hx _
      simp [hlinks]
    · simp only [hw, and_false, not_false_eq_true, and_true, false_and, false_or, ne_eq, true_and]
      exact Iff.rfl

theorem whole_unlistMissing (h : t.Whole) (s : SessionId) (x : WindowId) (hx : t.windows[x]? = none) :
    Whole { t with sessions := t.sessions.modify s (·.unlist x) } := by
  rw [Whole, shape_unlist (x := x) (s := s)]
  · exact Shape.Whole.unlist h s x
  · exact fun w => Iff.rfl
  · exact fun w p => Iff.rfl
  · intro w s' i
    refine ⟨fun hl => ⟨hl, ?_⟩, And.left⟩
    rintro ⟨-, rfl⟩
    exact not_holds_of_none hx _ hl

theorem whole_removeWindow (h : t.Whole) (x : WindowId) : (t.removeWindow x).Whole := by
  rw [Whole, shape_removeWindow]
  exact Shape.Whole.removeWindow h x

end Refinement

/-! ## Notifications -/

/-- The topology is whole unless it asks to be read again. -/
def WholeOrResync : Prop := t.needsResync = false → t.Whole

/-- A selected window that exists is listed by the session, and a selected pane owned by the window.
-/
def NamesLinked (name arguments : Bytes) : Prop :=
  match kinds.lookup name with
  | some .sessionWindowChanged => ∀ s w, sessionWindowArguments arguments = .ok (s, w) →
      t.sessions.contains s = true → t.windows.contains w = true → ∃ i, t.shape.lists s i w
  | some .windowPaneChanged => ∀ w p, windowPaneArguments arguments = .ok (w, p) →
      t.windows.contains w = true → t.panes.contains p = true → t.shape.owner p w
  | _ => True

section Steps

variable {t : TmuxTopology}

theorem wholeOrResync_requireResync (t : TmuxTopology) : WholeOrResync t.requireResync.1 := by
  intro h
  cases h

theorem wholeOrResync_resyncIf {missing : Bool} :
    WholeOrResync (resyncIf missing t).1 ↔ (missing = false → WholeOrResync t) := by
  cases missing with
  | true => simp [resyncIf, wholeOrResync_requireResync]
  | false => simp [resyncIf]

theorem afterParsing_iff {α : Type} {P : TmuxTopology → Prop} (ht : P t)
    (parsed : Except TopologyError α) (update : α → TmuxTopology × ReconcileOutcome) :
    P (t.afterParsing parsed update).1 ↔ ∀ a, parsed = .ok a → P (update a).1 := by
  cases parsed with
  | error e => simp [afterParsing, ht]
  | ok a => simp [afterParsing]

theorem upsert_id {w : WindowId} (hw : t.windows.contains w = true) :
    upsert t.windows w (emptyWindow w) id = t.windows := by
  obtain ⟨window, hwindow⟩ := contains_iff.mp hw
  rw [upsert_of_some hwindow]
  exact insert_same hwindow

theorem upsert_pane_id {p : PaneId} (w : WindowId) (hp : t.panes.contains p = true) :
    upsert t.panes p (emptyPane p w) id = t.panes := by
  obtain ⟨pane, hpane⟩ := contains_iff.mp hp
  rw [upsert_of_some hpane]
  exact insert_same hpane

section

variable (h : t.Whole)
include h

theorem sessionChanged_whole (id : SessionId) (name : String) : WholeOrResync (t.sessionChanged id name).1 := by
  rw [sessionChanged, wholeOrResync_resyncIf, Bool.not_eq_false']
  intro hcontains _
  obtain ⟨session, hsession⟩ := contains_iff.mp hcontains
  rw [Whole, upsert_of_some hsession]
  exact (shape_renameSession (t := { t with attachedSession := some id }) hsession name) ▸ h

theorem windowRenamed_whole (w : WindowId) (name : String) : WholeOrResync (t.windowRenamed w name).1 := by
  rw [windowRenamed, wholeOrResync_resyncIf, Bool.not_eq_false']
  intro hcontains _
  obtain ⟨window, hwindow⟩ := contains_iff.mp hcontains
  rw [Whole, upsert_of_some hwindow, shape_updateWindow hwindow { window with name } rfl rfl]
  exact h

theorem sessionWindowChanged_iff (hr : t.needsResync = false) (s : SessionId)
    (w : WindowId) : WholeOrResync (t.sessionWindowChanged s w).1 ↔
      (t.sessions.contains s = true → t.windows.contains w = true → ∃ i, t.shape.lists s i w) := by
  rw [sessionWindowChanged, wholeOrResync_resyncIf, Bool.or_eq_false_iff, Bool.not_eq_false',
    Bool.not_eq_false', and_imp]
  refine forall_congr' fun hs => forall_congr' fun hw => ?_
  obtain ⟨session, hsession⟩ := contains_iff.mp hs
  rw [upsert_of_some hsession, upsert_id hw, ← Shape.Whole.selectWindow_iff h s w,
    ← shape_selectWindow hsession w]
  exact ⟨fun hwhole => hwhole hr, fun hwhole _ => hwhole⟩

theorem windowPaneChanged_iff (hr : t.needsResync = false) (w : WindowId)
    (p : PaneId) : WholeOrResync (t.windowPaneChanged w p).1 ↔
      (t.windows.contains w = true → t.panes.contains p = true → t.shape.owner p w) := by
  rw [windowPaneChanged, wholeOrResync_resyncIf, Bool.or_eq_false_iff, Bool.not_eq_false',
    Bool.not_eq_false', and_imp]
  refine forall_congr' fun hw => forall_congr' fun hp => ?_
  obtain ⟨window, hwindow⟩ := contains_iff.mp hw
  rw [upsert_of_some hwindow, upsert_pane_id w hp, ← Shape.Whole.selectPane_iff h w p,
    ← shape_selectPane hwindow p]
  exact ⟨fun hwhole => hwhole hr, fun hwhole _ => hwhole⟩

theorem closeAttachedWindow_whole (x : WindowId) : WholeOrResync (t.closeAttachedWindow x).1 := by
  cases hs : t.attachedSession with
  | none =>
    simp only [closeAttachedWindow, hs]
    exact wholeOrResync_requireResync t
  | some s =>
    intro _
    cases hx : t.windows[x]? with
    | none =>
      simp only [closeAttachedWindow, hs, hx]
      exact whole_unlistMissing h s x hx
    | some window =>
      have hunlisted := whole_unlisted h s x hx
      simp only [closeAttachedWindow, hs, hx]
      split
      · exact whole_removeWindow hunlisted x
      · exact hunlisted

theorem closeUnlinkedWindow_whole (x : WindowId) : WholeOrResync (t.closeUnlinkedWindow x).1 := by
  unfold closeUnlinkedWindow
  split
  · exact wholeOrResync_requireResync t
  · exact fun _ => whole_removeWindow h x

theorem removePane_whole (x : PaneId) : WholeOrResync (t.removePane x) := by
  intro _
  rw [Whole, shape_removePane]
  exact Shape.Whole.removePane h x

theorem renameAttached_whole (id : SessionId) (name : String) : WholeOrResync (if t.sessions.contains id then
        ({ t with sessions := t.sessions.modify id ({ · with name }) }, ReconcileOutcome.applied)
      else t.requireResync).1 := by
  split
  · rename_i hcontains
    intro _
    obtain ⟨session, hsession⟩ := contains_iff.mp hcontains
    have hmodify : t.sessions.modify id ({ · with name }) =
        t.sessions.insert id { session with name } := modify_of_some hsession _
    rw [Whole]
    simp only [hmodify]
    exact (shape_renameSession hsession name) ▸ h
  · exact wholeOrResync_requireResync t

theorem applyNotification_iff (hr : t.needsResync = false) (name arguments : Bytes) :
    WholeOrResync (t.applyNotification name arguments).1 ↔ NamesLinked t name arguments := by
  have ht : WholeOrResync t := fun _ => h
  unfold applyNotification NamesLinked
  cases hkind : kinds.lookup name with
  | none => exact iff_of_true ht trivial
  | some kind =>
    cases kind with
    | sessionsChanged => exact iff_of_true (wholeOrResync_requireResync t) trivial
    | sessionChanged =>
      refine iff_of_true ((afterParsing_iff ht _ _).mpr fun a _ => ?_) trivial
      exact sessionChanged_whole h a.1 a.2
    | sessionRenamed =>
      refine iff_of_true ?_ trivial
      simp only [applyKind]
      split
      · exact wholeOrResync_requireResync t
      · exact (afterParsing_iff ht _ _).mpr fun a _ => renameAttached_whole h _ a
    | sessionWindowChanged =>
      refine (afterParsing_iff ht _ _).trans ?_
      rw [Prod.forall]
      exact forall₂_congr fun s w => forall_congr' fun _ => sessionWindowChanged_iff h hr s w
    | windowRenamed =>
      refine iff_of_true ((afterParsing_iff ht _ _).mpr fun a _ => ?_) trivial
      exact windowRenamed_whole h a.1 a.2
    | windowPaneChanged =>
      refine (afterParsing_iff ht _ _).trans ?_
      rw [Prod.forall]
      exact forall₂_congr fun w p => forall_congr' fun _ => windowPaneChanged_iff h hr w p
    | windowAdd =>
      refine iff_of_true ((afterParsing_iff ht _ _).mpr fun a _ => ?_) trivial
      exact wholeOrResync_requireResync _
    | windowClose =>
      refine iff_of_true ((afterParsing_iff ht _ _).mpr fun a _ => ?_) trivial
      exact closeAttachedWindow_whole h a
    | unlinkedWindowClose =>
      refine iff_of_true ((afterParsing_iff ht _ _).mpr fun a _ => ?_) trivial
      exact closeUnlinkedWindow_whole h a
    | layoutChange =>
      refine iff_of_true ((afterParsing_iff ht _ _).mpr fun a _ => ?_) trivial
      exact wholeOrResync_requireResync _
    | paneModeChanged => exact iff_of_true (wholeOrResync_requireResync t) trivial
    | paneExited =>
      refine iff_of_true ((afterParsing_iff ht _ _).mpr fun a _ => ?_) trivial
      exact removePane_whole h a

end

end Steps

end TmuxTopology

end Lector.Topology
