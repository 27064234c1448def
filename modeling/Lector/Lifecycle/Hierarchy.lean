import Lector.Foundations.Bytes
import Lector.Foundations.Descent
import Lector.Foundations.Fallible
import Lector.Foundations.Execution
import Lector.Foundations.SortedMap

/-! Which connection owns the transport of which (`src/tmux_lifecycle.rs`). -/
namespace Lector.Lifecycle
open Std Descent

def maxConnections : Nat := 4096
def maxConnectionDepth : Nat := 64

/-! ## Origins -/

inductive GatewayOrigin
  | direct
  | pane (parentConnectionId sessionId windowId paneId : UInt64)
deriving DecidableEq

inductive GatewayControlAction
  | gracefulDetach
  | forceAbandon
deriving DecidableEq

namespace GatewayControlAction

def transportBytes : GatewayControlAction → Option Bytes
  | gracefulDetach => none
  | forceAbandon => some [0x1c]

end GatewayControlAction

inductive LifecycleError
  | duplicateConnection
  | missingParent
  | tooManyConnections
  | tooDeep
deriving DecidableEq

structure ConnectionHierarchy where
  origins : ExtTreeMap UInt64 GatewayOrigin

namespace ConnectionHierarchy

def new : ConnectionHierarchy := ⟨∅⟩

variable (h : ConnectionHierarchy) (connectionId : UInt64)

def contains : Bool := h.origins.contains connectionId

def len : Nat := h.origins.size

def origin : Option GatewayOrigin := h.origins[connectionId]?

/-! ## Insertion -/

/-- The loop up to a direct connection. `room` is what is left of the depth. -/
def checkAncestors : (room : Nat) → (ancestor : UInt64) → Except LifecycleError Unit
  | 0, _ => .error .tooDeep
  | room + 1, ancestor =>
    match h.origin ancestor with
    | some .direct => .ok ()
    | some (.pane parentConnectionId _ _ _) => checkAncestors room parentConnectionId
    | none => .error .missingParent

def checkOrigin : GatewayOrigin → Except LifecycleError Unit
  | .direct => .ok ()
  | .pane parentConnectionId _ _ _ =>
    if parentConnectionId = connectionId ∨ h.contains parentConnectionId = false then
      .error .missingParent
    else h.checkAncestors (maxConnectionDepth - 1) parentConnectionId

def insert (origin : GatewayOrigin) : Except LifecycleError ConnectionHierarchy :=
  if h.contains connectionId then .error .duplicateConnection
  else if h.len = maxConnections then .error .tooManyConnections
  else do
    h.checkOrigin connectionId origin
    .ok ⟨h.origins.insert connectionId origin⟩

/-! ## Removal -/

def select (keep : GatewayOrigin → Bool) : List UInt64 :=
  (h.origins.toList.filter fun entry => keep entry.2).map (·.1)

variable (parent : UInt64)

def isChildOf : GatewayOrigin → Bool
  | .direct => false
  | .pane parentConnectionId _ _ _ => parentConnectionId == parent

def isInPane (parent paneId : UInt64) : GatewayOrigin → Bool
  | .direct => false
  | .pane parentConnectionId _ _ pane => parentConnectionId == parent && pane == paneId

def isInWindow (parent windowId : UInt64) : GatewayOrigin → Bool
  | .direct => false
  | .pane parentConnectionId _ window _ => parentConnectionId == parent && window == windowId

def children : List UInt64 := h.select (isChildOf parent)

/-- The result is `none` where the recursion goes deeper than any hierarchy is. -/
def collectDescendants (output : List UInt64) : Option (List UInt64) :=
  collect h.children maxConnectionDepth parent output

def teardownOrder : Option (List UInt64) :=
  if h.contains connectionId then
    (h.collectDescendants connectionId []).map (· ++ [connectionId])
  else some []

def removeAll (removed : List UInt64) : ConnectionHierarchy :=
  ⟨removed.foldl (fun origins id => origins.erase id) h.origins⟩

def removeConnection : Option (List UInt64 × ConnectionHierarchy) :=
  if h.contains connectionId then do
    let below ← h.collectDescendants connectionId []
    let removed := below ++ [connectionId]
    some (removed, h.removeAll removed)
  else some ([], h)

def collectRoot (removed : List UInt64) (root : UInt64) : Option (List UInt64) :=
  if h.contains root then (h.collectDescendants root removed).map (· ++ [root]) else some removed

def removeRoots (roots : List UInt64) : Option (List UInt64 × ConnectionHierarchy) := do
  let collected ← roots.foldlM h.collectRoot []
  let removed := keepFirst [] collected
  some (removed, h.removeAll removed)

def removeGatewayPane (parentConnectionId paneId : UInt64) : Option (List UInt64 × ConnectionHierarchy) :=
  h.removeRoots (h.select (isInPane parentConnectionId paneId))

def removeGatewayWindow (parentConnectionId windowId : UInt64) : Option (List UInt64 × ConnectionHierarchy) :=
  h.removeRoots (h.select (isInWindow parentConnectionId windowId))

end ConnectionHierarchy

end Lector.Lifecycle
