import Lector.Foundations.Fueled
import Lector.Topology.Model

/-! The layout strings of tmux (`TmuxLayout::parse` and `LayoutParser` in `src/tmux_panes.rs`). A
parser position is the bytes not read yet. The children of a split are read by a loop, whose fuel is
bounded by the caller. -/
namespace Lector.Layout
open Bytes Std Lector.Topology Fueled

def maxLayoutDepth : Nat := 64
def maxLayoutNodes : Nat := 4096

/-! ## Data -/

structure GridPoint where
  row : Int
  col : Int
deriving DecidableEq

structure LayoutPane where
  paneId : PaneId
  origin : GridPoint
  rows : UInt16
  cols : UInt16
deriving DecidableEq

inductive SplitKind
  | leftRight
  | topBottom
deriving DecidableEq

structure Divider where
  kind : SplitKind
  origin : GridPoint
  length : UInt16
deriving DecidableEq

structure TmuxLayout where
  panes : List LayoutPane
  dividers : List Divider
deriving DecidableEq

inductive LayoutError
  | malformed
  | tooComplex
  | duplicatePane (id : UInt64)
  | childOutsideParent
  | invalidPartition
deriving DecidableEq

structure NodeRect where
  x : UInt16
  y : UInt16
  width : UInt16
  height : UInt16
deriving DecidableEq

namespace NodeRect

def right (r : NodeRect) : UInt32 := r.x.toUInt32 + r.width.toUInt32

def bottom (r : NodeRect) : UInt32 := r.y.toUInt32 + r.height.toUInt32

def contains (self child : NodeRect) : Bool :=
  self.x.toUInt32 ≤ child.x.toUInt32 && self.y.toUInt32 ≤ child.y.toUInt32 &&
    child.right ≤ self.right && child.bottom ≤ self.bottom

end NodeRect

structure ParsedNode where
  rect : NodeRect
  floating : Bool
deriving DecidableEq

/-! ## Splits -/

def pairs {α : Type} (xs : List α) : List (α × α) := xs.zip xs.tail

def saturatingPred (n : UInt16) : UInt16 := if n = 0 then 0 else n - 1

variable (kind : SplitKind)

def firstFits (rect child : NodeRect) : Bool :=
  match kind with
  | .leftRight => child.x == rect.x && child.y == rect.y && child.height == rect.height
  | .topBottom => child.x == rect.x && child.y == rect.y && child.width == rect.width

def lastFits (rect child : NodeRect) : Bool :=
  match kind with
  | .leftRight => child.right == rect.right
  | .topBottom => child.bottom == rect.bottom

variable (rect : NodeRect)

def pairFits (pair : NodeRect × NodeRect) : Bool :=
  match kind with
  | .leftRight => pair.2.y == rect.y && pair.2.height == rect.height && pair.1.right + 1 == pair.2.x.toUInt32
  | .topBottom => pair.2.x == rect.x && pair.2.width == rect.width && pair.1.bottom + 1 == pair.2.y.toUInt32

def validPartition (tiled : List NodeRect) : Bool :=
  tiled.head?.any (firstFits kind rect) && tiled.getLast?.any (lastFits kind rect) &&
    (pairs tiled).all (pairFits kind rect)

/-- The border before `next`, the second of two adjacent children of `rect`. -/
def dividerBefore (rect next : NodeRect) : Divider :=
  match kind with
  | .leftRight => ⟨kind, ⟨rect.y.toNat, (saturatingPred next.x).toNat⟩, rect.height⟩
  | .topBottom => ⟨kind, ⟨(saturatingPred next.y).toNat, rect.x.toNat⟩, rect.width⟩

def tiledRects (children : List ParsedNode) : List NodeRect :=
  (children.filter fun child => !child.floating).map ParsedNode.rect

/-- `parse_children` at the closing bracket: whether the split floats, and its dividers. -/
def joinChildren (children : List ParsedNode) : Except LayoutError (Bool × List Divider) :=
  if children.length < 2 then .error .malformed
  else
    let tiled := tiledRects children
    let hasFloating := tiled.length ≠ children.length
    if ¬hasFloating ∧ tiled.length < 2 then .error .malformed
    else if hasFloating ∧ tiled.length ≤ 1 then
      if tiled.head?.any (· != rect) then .error .invalidPartition else .ok (tiled.isEmpty, [])
    else if !validPartition kind rect tiled then .error .invalidPartition
    else .ok (false, (pairs tiled).map fun pair => dividerBefore kind rect pair.2)

/-! ## LayoutParser -/

structure LayoutParser where
  rest : Bytes
  nodes : Nat
  panes : List LayoutPane
  dividers : List Divider

namespace LayoutParser

def start (bytes : Bytes) : LayoutParser := ⟨bytes, 0, [], []⟩

variable (s : LayoutParser)

def drop (rest : Bytes) : LayoutParser := { s with rest := rest }

def countNode : LayoutParser := { s with nodes := s.nodes + 1 }

def pushPane (pane : LayoutPane) : LayoutParser := { s with panes := s.panes ++ [pane] }

def pushDividers (dividers : List Divider) : LayoutParser :=
  { s with dividers := s.dividers ++ dividers }

end LayoutParser

abbrev ParseM := Run LayoutParser LayoutError

def comma : UInt8 := 0x2c
def openBrace : UInt8 := 0x7b
def closeBrace : UInt8 := 0x7d
def openBracket : UInt8 := 0x5b
def closeBracket : UInt8 := 0x5d
def cross : UInt8 := 0x78
def less : UInt8 := 0x3c
def greater : UInt8 := 0x3e

def peek : ParseM (Option UInt8) := do
  let s ← get
  return s.rest.head?

def advance : ParseM PUnit := modify fun s => s.drop s.rest.tail

def expect (expected : UInt8) : ParseM PUnit := do
  let next ← peek
  if next = some expected then advance else throw .malformed

def numberU64 : ParseM UInt64 := do
  let s ← get
  let digits := s.rest.takeWhile isDigit
  modify fun s => s.drop (s.rest.dropWhile isDigit)
  if digits = [] then throw .malformed
  else settle ((parseU64 digits).elim (.error .malformed) .ok)

def numberU16 : ParseM UInt16 := do
  let n ← numberU64
  if n.toNat < 2 ^ 16 then pure n.toUInt16 else throw .malformed

/-- `WxH,X,Y`: the part of a node that every kind of node starts with. -/
def parseRect : ParseM NodeRect := do
  let width ← numberU16
  expect cross
  let height ← numberU16
  expect comma
  let x ← numberU16
  expect comma
  let y ← numberU16
  if width = 0 ∨ height = 0 then throw .malformed else pure ⟨x, y, width, height⟩

def parseSiblings (node : ParseM ParsedNode) (close : UInt8) : Nat → ParseM (List ParsedNode)
  | 0 => outOfFuel
  | fuel + 1 => do
    let child ← node
    let next ← peek
    if next = some close then do
      advance
      return [child]
    else if next = some comma then do
      advance
      let others ← parseSiblings node close fuel
      return child :: others
    else throw .malformed

def parseChildren (node : ParseM ParsedNode) (fuel : Nat) (rect : NodeRect) (kind : SplitKind)
    (close : UInt8) : ParseM Bool := do
  advance
  let children ← parseSiblings node close fuel
  let joined ← settle (joinChildren kind rect children)
  modify fun s => s.pushDividers joined.2
  return joined.1

def parsePane (floatingIds : ExtTreeSet PaneId) (rect : NodeRect) : ParseM Bool := do
  advance
  let id ← numberU64
  modify fun s => s.pushPane ⟨⟨id⟩, ⟨rect.y.toNat, rect.x.toNat⟩, rect.height, rect.width⟩
  return floatingIds.contains ⟨id⟩

def isOutside (parent : Option NodeRect) (rect : NodeRect) : Bool :=
  parent.any fun parent => !parent.contains rect

/-- What follows the rectangle of a node: the children of a split or the id of a pane. -/
def parseBody (floatingIds : ExtTreeSet PaneId) (node : ParseM ParsedNode) (fuel : Nat)
    (rect : NodeRect) (next : Option UInt8) : ParseM Bool :=
  if next = some openBrace then parseChildren node fuel rect .leftRight closeBrace
  else if next = some openBracket then parseChildren node fuel rect .topBottom closeBracket
  else if next = some comma then parsePane floatingIds rect
  else throw .malformed

/-- `parse_node` at depth `depthLimit - depthLeft`, where `depthLimit = maxLayoutDepth + 1`. -/
def parseNode (floatingIds : ExtTreeSet PaneId) (fuel : Nat) : Nat → Option NodeRect → ParseM ParsedNode
  | 0, _ => throw .tooComplex
  | depthLeft + 1, parent => do
    let s ← get
    if s.nodes = maxLayoutNodes then throw .tooComplex
    else do
      modify LayoutParser.countNode
      let rect ← parseRect
      if isOutside parent rect then throw .childOutsideParent
      else do
        let next ← peek
        let child := parseNode floatingIds fuel depthLeft (some rect)
        let floating ← parseBody floatingIds child fuel rect next
        return ⟨rect, floating⟩

def parseRoot (floatingIds : ExtTreeSet PaneId) (fuel : Nat) : ParseM ParsedNode :=
  parseNode floatingIds fuel (maxLayoutDepth + 1) none

/-- The nodes of the `<...>` suffix, separated by commas. -/
def parseForest (node : ParseM ParsedNode) : Nat → ParseM PUnit
  | 0 => outOfFuel
  | fuel + 1 => do
    let _ ← node
    let s ← get
    if s.rest = [] then pure ⟨⟩
    else do
      expect comma
      parseForest node fuel

/-! ## TmuxLayout -/

def isHexDigit (b : UInt8) : Bool := isDigit b || (0x61 ≤ b && b ≤ 0x66) || (0x41 ≤ b && b ≤ 0x46)

def stripLast (byte : UInt8) (text : Bytes) : Option Bytes :=
  if text.getLast? = some byte then some text.dropLast else none

def splitLayout (layout : Bytes) : Except LayoutError (Bytes × Option Bytes) :=
  match splitAround [comma] layout with
  | none => .error .malformed
  | some (checksum, body) =>
    if checksum.length ≠ 4 ∨ !checksum.all isHexDigit then .error .malformed
    else
      match splitAround [less] body with
      | some (body, floating) =>
        match stripLast greater floating with
        | none => .error .malformed
        | some floating =>
          if less ∈ body ∨ greater ∈ body ∨ floating = [] ∨ less ∈ floating ∨ greater ∈ floating then
            .error .malformed
          else .ok (body, some floating)
      | none => if greater ∈ body then .error .malformed else .ok (body, none)

def collectIds : ExtTreeSet PaneId → List LayoutPane → Except LayoutError (ExtTreeSet PaneId)
  | ids, [] => .ok ids
  | ids, pane :: panes =>
    if ids.contains pane.paneId then .error (.duplicatePane pane.paneId.value)
    else collectIds (ids.insert pane.paneId) panes

def paneById (panes : List LayoutPane) : ExtTreeMap PaneId LayoutPane :=
  ExtTreeMap.ofList (panes.map fun pane => (pane.paneId, pane))

/-- The root node, the panes and dividers of the main tree, and the panes of the suffix. -/
structure LayoutParts where
  root : ParsedNode
  treePanes : List LayoutPane
  dividers : List Divider
  floatingPanes : List LayoutPane
  floatingIds : ExtTreeSet PaneId

def LayoutParts.tiled (parts : LayoutParts) : List LayoutPane :=
  parts.treePanes.filter fun pane => !parts.floatingIds.contains pane.paneId

def LayoutParts.layout (parts : LayoutParts) : TmuxLayout :=
  ⟨parts.tiled ++ parts.floatingPanes.reverse, parts.dividers⟩

def parseFloatingPanes (fuel : Nat) : Option Bytes → Run PUnit LayoutError (List LayoutPane)
  | none => pure []
  | some text => do
    let ended ← isolated (parseForest (parseRoot ∅ fuel) fuel) (.start text)
    if ended.2.panes = [] then throw .malformed else pure ended.2.panes

def parseParts (fuel : Nat) (layout : Bytes) : Run PUnit LayoutError LayoutParts := do
  let (body, floatingBody) ← settle (splitLayout layout)
  let floatingPanes ← parseFloatingPanes fuel floatingBody
  let floatingIds ← settle (collectIds ∅ floatingPanes)
  let (root, parser) ← isolated (parseRoot floatingIds fuel) (.start body)
  if parser.rest ≠ [] ∨ parser.panes = [] then throw .malformed
  else do
    let _ ← settle (collectIds ∅ parser.panes)
    if floatingPanes.all fun pane => (paneById parser.panes)[pane.paneId]? = some pane then
      pure ⟨root, parser.panes, parser.dividers, floatingPanes, floatingIds⟩
    else throw .malformed

namespace TmuxLayout

/-- `TmuxLayout::parse` with `fuel` rounds for each loop over siblings. -/
def parseWith (fuel : Nat) (layout : Bytes) : Option (Except LayoutError LayoutParts) :=
  (exec (parseParts fuel layout) ⟨⟩).map (Except.map Prod.fst)

def parse (layout : Bytes) : Option (Except LayoutError TmuxLayout) :=
  (parseWith (maxLayoutNodes + 1) layout).map (Except.map LayoutParts.layout)

end TmuxLayout

end Lector.Layout
