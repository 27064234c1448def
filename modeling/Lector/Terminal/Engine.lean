import Lector.Terminal.Update

/-! The engine adapter (`GhosttyEngine` in `src/terminal.rs`). The native terminal behind it is known by
what it hands out: its live snapshot, its history rows, and where a tracked position is now. -/
namespace Lector.Terminal

structure NativeTerminal where
  live : TerminalSnapshot
  history : List Row
  markPosition : Nat → Option HistoryPosition
  extent : live.scrollbackExtent = history.length
  visible : live.scrollback = [] ∧ live.viewport = .live

structure GhosttyEngine where
  terminal : NativeTerminal
  viewport : Viewport

namespace GhosttyEngine

variable (engine : GhosttyEngine)

def blankRow (cols : Nat) : Row := ⟨List.replicate cols .default, false⟩

def refreshViewport : Viewport → Viewport
  | .live => .live
  | .scrollback requested =>
    let offset := min requested engine.terminal.history.length
    if offset = 0 then .live else .scrollback offset

def snapshot : TerminalSnapshot :=
  match engine.viewport with
  | .live => engine.terminal.live
  | .scrollback offset =>
    let live := engine.terminal.live
    let all := engine.terminal.history ++ live.rows
    let rows := (all.drop (engine.terminal.history.length - offset)).take live.rows.length
    let missing := live.rows.length - rows.length
    { live with
      rows := rows ++ List.replicate missing (blankRow live.geometry.cols.toNat)
      viewport := .scrollback offset }

def selectViewport (viewport : Viewport) : GhosttyEngine :=
  let viewport := if viewport = .scrollback 0 then .live else viewport
  if engine.viewport = viewport then engine
  else { engine with viewport := engine.refreshViewport viewport }

def refresh (terminal : NativeTerminal) : GhosttyEngine :=
  let engine := { engine with terminal := terminal }
  { engine with viewport := engine.refreshViewport engine.viewport }

def snapshotWithHistory : TerminalSnapshot :=
  { engine.terminal.live with
    scrollback := engine.terminal.history
    scrollbackExtent := engine.terminal.history.length }

def normalizedHistoryRowsFrom (logicalStart : Nat) : Option (List Row) :=
  if engine.terminal.history.length < logicalStart then none
  else some (engine.terminal.history.drop logicalStart)

def scrollbackExtent : Nat := engine.terminal.live.scrollbackExtent

def reviewMarkPosition (mark : Nat) : Option HistoryPosition := engine.terminal.markPosition mark

@[simp] theorem selectViewport_terminal (viewport : Viewport) :
    (engine.selectViewport viewport).terminal = engine.terminal := by
  simp only [selectViewport]
  generalize (if viewport = .scrollback 0 then Viewport.live else viewport) = target
  split
  · rfl
  · rfl

theorem snapshot_history : engine.snapshot.screen = engine.terminal.live.screen ∧
      engine.snapshot.geometry = engine.terminal.live.geometry ∧
      engine.snapshot.historyOrigin = engine.terminal.live.historyOrigin ∧
      engine.snapshot.scrollbackExtent = engine.terminal.live.scrollbackExtent := by
  rw [snapshot]
  split
  · exact ⟨rfl, rfl, rfl, rfl⟩
  · exact ⟨rfl, rfl, rfl, rfl⟩

end GhosttyEngine

end Lector.Terminal
