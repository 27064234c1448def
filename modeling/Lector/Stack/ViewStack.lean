import Mathlib.Algebra.Order.Ring.Nat
import Mathlib.Data.List.Basic

/-! The stack of views (`views/stack.rs`): the base views, of which one is active, below the overlays, and
the transitions the compositor makes between them. -/
namespace Lector.Stack

/-- What the stack asks of a view controller. Only a tmux connection has a connection id. -/
class ViewController (V : Type) where
  connectionId : V → Option UInt64
  markReviewContextActive : V → V
  enablePresentationTracking : V → V
  connectionId_mark : ∀ view, connectionId (markReviewContextActive view) = connectionId view
  connectionId_enable : ∀ view, connectionId (enablePresentationTracking view) = connectionId view

attribute [simp] ViewController.connectionId_mark ViewController.connectionId_enable

structure CompositorTransitionToken where
  value : UInt64
deriving DecidableEq

structure ViewStack (V : Type) where
  views : List V
  retiredViews : List V
  baseCount : Nat
  activeBase : Nat
  nextCompositorTransition : UInt64
  compositorTransition : Option CompositorTransitionToken
  presentationTracking : Bool
  /-- Ghost: the number of transitions begun so far. No operation reads it. -/
  begun : Nat

def following (transition : UInt64) : UInt64 := if transition + 1 = 0 then 1 else transition + 1

namespace ViewStack
open ViewController

variable {V : Type} (self : ViewStack V)

def new [ViewController V] (root : V) : ViewStack V where
  views := [markReviewContextActive root]
  retiredViews := []
  baseCount := 1
  activeBase := 0
  nextCompositorTransition := 1
  compositorTransition := none
  presentationTracking := false
  begun := 0

def hasOverlay : Bool := self.baseCount < self.views.length

def active : Option V := self.views[if self.hasOverlay then self.views.length - 1 else self.activeBase]?

def beginCompositorTransition : ViewStack V :=
  let transition : CompositorTransitionToken := ⟨self.nextCompositorTransition⟩
  { self with
    nextCompositorTransition := following self.nextCompositorTransition
    compositorTransition := some transition
    begun := self.begun + 1 }

def completeCompositorTransition (transition : CompositorTransitionToken) : Bool × ViewStack V :=
  if self.compositorTransition ≠ some transition then (false, self)
  else (true, { self with compositorTransition := none })

def clearOverlays : ViewStack V :=
  let self := if self.hasOverlay then self.beginCompositorTransition else self
  if self.presentationTracking then
    { self with
      retiredViews := self.retiredViews ++ self.views.drop self.baseCount
      views := self.views.take self.baseCount }
  else { self with views := self.views.take self.baseCount }

def push [ViewController V] (view : V) : ViewStack V :=
  let view := if self.presentationTracking then enablePresentationTracking view else view
  if (connectionId view).isSome then
    let self := self.clearOverlays
    let self :=
      { self with
        views := self.views.insertIdx self.baseCount view
        activeBase := self.baseCount
        baseCount := self.baseCount + 1 }
    self.beginCompositorTransition
  else { self with views := self.views ++ [view] }

def enableTracking [ViewController V] : ViewStack V :=
  { self with
    presentationTracking := true
    views := self.views.map enablePresentationTracking }

def pop : Bool × ViewStack V :=
  if !self.hasOverlay then (false, self)
  else
    let removed := self.views.getLast?
    let self := { self with views := self.views.dropLast }
    let self :=
      if self.presentationTracking then { self with retiredViews := self.retiredViews ++ removed.toList }
      else self
    (true, if !self.hasOverlay then self.beginCompositorTransition else self)

def tmuxConnectionIndex [ViewController V] (connectionId : UInt64) : Option Nat :=
  (self.views.take self.baseCount).findIdx? fun view => ViewController.connectionId view = some connectionId

def removes [ViewController V] (connectionIds : List UInt64) (view : V × Nat) : Bool :=
  view.2 < self.baseCount && (connectionId view.1).any connectionIds.contains

def activeConnection [ViewController V] : Option UInt64 := self.views[self.activeBase]?.bind connectionId

def removeTmuxConnections [ViewController V] (connectionIds : List UInt64) : ViewStack V :=
  let activeConnection := self.activeConnection
  let removed := (self.views.zipIdx.filter (self.removes connectionIds)).map Prod.fst
  let retained := (self.views.zipIdx.filter fun view => !self.removes connectionIds view).map Prod.fst
  let self :=
    { self with
      retiredViews :=
        if self.presentationTracking then self.retiredViews ++ removed else self.retiredViews
      views := retained
      baseCount := self.baseCount - removed.length }
  let activeBase :=
    match activeConnection with
    | some connectionId =>
      if !connectionIds.contains connectionId then
        (self.tmuxConnectionIndex connectionId).getD (self.baseCount - 1)
      else self.baseCount - 1
    | none => 0
  let self := { self with activeBase := activeBase }
  if activeConnection.any connectionIds.contains then self.beginCompositorTransition else self

def activateTerminal : ViewStack V :=
  let self := self.clearOverlays
  let self := if self.activeBase ≠ 0 then self.beginCompositorTransition else self
  { self with activeBase := 0 }

def activateTmuxConnection [ViewController V] (connectionId : UInt64) : Bool × ViewStack V :=
  match self.tmuxConnectionIndex connectionId with
  | none => (false, self)
  | some index =>
    let self := self.clearOverlays
    let self := if self.activeBase ≠ index then self.beginCompositorTransition else self
    (true, { self with activeBase := index })

end ViewStack

end Lector.Stack
