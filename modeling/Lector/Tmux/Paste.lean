import Lector.Layout.Parser
import Lector.Tmux.Queueing

/-! Pasting into a pane of a tmux connection (`views/tmux_connection.rs`). -/
namespace Lector.Tmux
open Bytes Std SortedMap Lector.Topology Layout Output Markers List

/-! ## The view of a connection -/

/-- What a paste reads of the active window, once its layout is known. -/
structure ActiveWindow where
  layout : TmuxLayout
  activePane : Option PaneId

structure PastedPane where
  bootstrapped : Bool
  portal : Option UInt64
  bracketedPaste : Bool
deriving DecidableEq

structure TmuxConnectionView where
  connectionId : UInt64
  panes : ExtTreeMap PaneId PastedPane
  topology : TmuxTopology
  activeWindow : Option ActiveWindow
  showingPortal : Bool

inductive ViewAction
  | none
  | tmuxInput (connectionId : UInt64) (paneId : PaneId) (bytes : Bytes)
deriving DecidableEq

def pasteStart : Bytes := [0x1b, 0x5b, 0x32, 0x30, 0x30, 0x7e]

def pasteEnd : Bytes := [0x1b, 0x5b, 0x32, 0x30, 0x31, 0x7e]

namespace TmuxConnectionView

variable (view : TmuxConnectionView)

def activePane : Option PaneId := view.activeWindow.bind (·.activePane)

def paneIsBootstrapped (paneId : PaneId) : Bool := view.panes[paneId]?.any (·.bootstrapped)

def isReady : Bool :=
  view.activeWindow.any fun active =>
    !active.layout.panes.isEmpty && (active.layout.panes.all fun pane =>
        view.topology.panes.contains pane.paneId && view.paneIsBootstrapped pane.paneId) &&
      active.activePane.isSome

def activePanePortalTarget : Option UInt64 :=
  view.activePane.bind fun paneId => view.panes[paneId]?.bind (·.portal)

def isShowingPortal : Bool := view.showingPortal || view.activePanePortalTarget.isSome

def inputAction (paneId : PaneId) (bytes : Bytes) : ViewAction := .tmuxInput view.connectionId paneId bytes

/-- `speak` is the screen reader's. -/
def handlePaste (speak : String → Bool → Except String Unit) (contents : String) : Except String ViewAction :=
  if view.isShowingPortal || !view.isReady then .ok .none
  else
    match view.activePane with
    | none => .ok .none
    | some paneId =>
      match view.panes[paneId]? with
      | none => .ok .none
      | some pane =>
        let bytes :=
          if pane.bracketedPaste then pasteStart ++ utf8 contents ++ pasteEnd else utf8 contents
        match speak "pasted" false with
        | .error error => .error error
        | .ok () => .ok (view.inputAction paneId bytes)

/-- The pane takes pastes, and its application has asked for brackets. -/
structure Brackets (paneId : PaneId) : Prop where
  portal : view.isShowingPortal = false
  ready : view.isReady = true
  active : view.activePane = some paneId
  brackets : Holds view.panes paneId (·.bracketedPaste = true)

end TmuxConnectionView

namespace TmuxApp

variable (app : TmuxApp)

def handleViewAction : ViewAction → TmuxApp
  | .none => app
  | .tmuxInput connectionId paneId bytes => app.queueTmuxInput connectionId paneId bytes

def paste (view : TmuxConnectionView) (speak : String → Bool → Except String Unit) (contents : String) :
    Except String TmuxApp :=
  (view.handlePaste speak contents).map app.handleViewAction

def inputFor (connectionId : UInt64) (paneId : PaneId) : Bytes :=
  app.pendingTmuxCommands.flatMap fun command =>
    if command.connectionId = connectionId ∧ command.kind = .input paneId then command.bytes else []

theorem inputFor_queueTmuxInput (connectionId : UInt64) (paneId : PaneId) (input : Bytes) :
    (app.queueTmuxInput connectionId paneId input).inputFor connectionId paneId =
      app.inputFor connectionId paneId ++ input := by
  unfold queueTmuxInput
  split
  · rename_i hempty
    rw [isEmpty_iff.mp hempty, append_nil]
  · have hpush : (app.push ⟨connectionId, input, [], .input paneId⟩).inputFor connectionId paneId =
        app.inputFor connectionId paneId ++ input := by
      unfold inputFor push
      rw [flatMap_append, flatMap_cons, flatMap_nil, if_pos ⟨rfl, rfl⟩, append_nil]
    split
    · rename_i command hlast
      split
      · rename_i hsame
        have hsplit := (dropLast_append_getLast? command hlast).symm
        unfold inputFor
        conv => rhs; rw [hsplit]
        rw [flatMap_append, flatMap_append, flatMap_singleton, flatMap_singleton,
          if_pos hsame, if_pos hsame, append_assoc]
      · exact hpush
    · exact hpush

end TmuxApp

/-! ## Framing -/

/-- The start marker, data without an end marker, and exactly one end marker. -/
def Framed (bytes : Bytes) : Prop :=
  ∃ data, bytes = pasteStart ++ data ++ pasteEnd ∧ ¬ pasteEnd <:+: data ∧ OnlyLast pasteEnd bytes

theorem pasteEnd_marks : Marks pasteEnd := ⟨esc, [0x5b, 0x32, 0x30, 0x31, 0x7e], rfl, by decide⟩

theorem pasteEnd_infix_iff (data : Bytes) : pasteEnd <:+: pasteStart ++ data ↔ pasteEnd <:+: data :=
  infix_append_iff (by decide) rfl (by decide)

theorem framed_iff (contents : Bytes) :
    Framed (pasteStart ++ contents ++ pasteEnd) ↔ ¬ pasteEnd <:+: contents := by
  constructor
  · rintro ⟨data, hbytes, hnone, -⟩
    rw [append_cancel_left (append_cancel_right hbytes)]
    exact hnone
  · intro hnone
    refine ⟨contents, rfl, hnone, (pasteEnd_marks.onlyLast_iff _).mpr ?_⟩
    rw [pasteEnd_infix_iff]
    exact hnone

theorem TmuxConnectionView.Brackets.handlePaste {view : TmuxConnectionView} {paneId : PaneId}
    (h : view.Brackets paneId) {speak : String → Bool → Except String Unit}
    (hspeak : speak "pasted" false = .ok ()) (contents : String) : view.handlePaste speak contents =
      .ok (.tmuxInput view.connectionId paneId (pasteStart ++ utf8 contents ++ pasteEnd)) := by
  obtain ⟨pane, hpane, hbrackets⟩ := h.brackets
  unfold TmuxConnectionView.handlePaste
  rw [h.portal, h.ready, h.active]
  dsimp only
  rw [hpane]
  dsimp only
  rw [hspeak, hbrackets]
  rfl

theorem TmuxApp.paste_eq (app : TmuxApp) {view : TmuxConnectionView} {paneId : PaneId}
    (h : view.Brackets paneId) {speak : String → Bool → Except String Unit}
    (hspeak : speak "pasted" false = .ok ()) (contents : String) : app.paste view speak contents = .ok
      (app.queueTmuxInput view.connectionId paneId (pasteStart ++ utf8 contents ++ pasteEnd)) := by
  rw [TmuxApp.paste, h.handlePaste hspeak]
  rfl

/-- **Bracketed paste** is framed exactly if the contents hold no end marker. -/
theorem paste_framed_iff (app : TmuxApp) (view : TmuxConnectionView) (paneId : PaneId)
    (speak : String → Bool → Except String Unit) (contents : String) (h : view.Brackets paneId)
    (hspeak : speak "pasted" false = .ok ()) : ∃ app' bytes, app.paste view speak contents = .ok app' ∧
      app'.inputFor view.connectionId paneId = app.inputFor view.connectionId paneId ++ bytes ∧
      (Framed bytes ↔ ¬ pasteEnd <:+: utf8 contents) :=
  ⟨_, _, app.paste_eq h hspeak contents, app.inputFor_queueTmuxInput _ _ _, framed_iff (utf8 contents)⟩

/-! A window of one pane whose application asks for brackets. -/

def bracketedPane : Pane := ⟨⟨0⟩, ⟨0⟩, 0, "", 0, 0, 80, 24, false, 0, 0, true, "", false, 0, "", 0⟩

def bracketedView : TmuxConnectionView where
  connectionId := 0
  panes := (∅ : ExtTreeMap PaneId PastedPane).insert ⟨0⟩ ⟨true, none, true⟩
  topology := { TmuxTopology.new 0 with panes := (∅ : ExtTreeMap PaneId Pane).insert ⟨0⟩ bracketedPane }
  activeWindow := some ⟨⟨[⟨⟨0⟩, ⟨0, 0⟩, 24, 80⟩], []⟩, some ⟨0⟩⟩
  showingPortal := false

theorem bracketedView_brackets : bracketedView.Brackets ⟨0⟩ where
  portal := by decide +kernel
  ready := by decide +kernel
  active := rfl
  brackets := ⟨⟨true, none, true⟩, by decide +kernel, rfl⟩

def quietApp : TmuxApp := ⟨[], ⟨∅⟩, []⟩

theorem paste_framed_line : ∃ app' bytes, quietApp.paste bracketedView (fun _ _ => .ok ()) "line" = .ok app' ∧
      app'.inputFor bracketedView.connectionId ⟨0⟩ =
        quietApp.inputFor bracketedView.connectionId ⟨0⟩ ++ bytes ∧
      (Framed bytes ↔ ¬ pasteEnd <:+: utf8 "line") :=
  paste_framed_iff quietApp bracketedView ⟨0⟩ (fun _ _ => .ok ()) "line" bracketedView_brackets rfl

/-- Contents with an end marker leave the bracket. -/
theorem paste_escapes : ¬ ∀ (app : TmuxApp) (view : TmuxConnectionView) (paneId : PaneId)
      (speak : String → Bool → Except String Unit) (contents : String), view.Brackets paneId →
      speak "pasted" false = .ok () →
      ∃ app' bytes, app.paste view speak contents = .ok app' ∧
        app'.inputFor view.connectionId paneId = app.inputFor view.connectionId paneId ++ bytes ∧
        Framed bytes := by
  intro h
  obtain ⟨app', bytes, hpaste, hinput, hframed⟩ := h quietApp bracketedView ⟨0⟩ (fun _ _ => .ok ())
    "\x1b[201~reboot\n" bracketedView_brackets rfl
  rw [quietApp.paste_eq bracketedView_brackets rfl, Except.ok.injEq] at hpaste
  rw [← hpaste, TmuxApp.inputFor_queueTmuxInput] at hinput
  rw [← append_cancel_left hinput, framed_iff] at hframed
  exact hframed ⟨[], utf8 "reboot\n", by decide +kernel⟩

end Lector.Tmux
