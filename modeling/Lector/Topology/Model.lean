import Lector.Foundations.Bytes
import Lector.Foundations.SortedMap

/-! The topology of one tmux connection (`src/tmux_model.rs`): ids, records, the three maps, and the
text parsers that inventory lines and notifications share. -/
namespace Lector.Topology
open Bytes Std

/-! ## Ids -/

inductive IdKind
  | session
  | window
  | pane
deriving DecidableEq

/-- `SessionId`, `WindowId` and `PaneId`: one number each, ordered by it. -/
structure TmuxId (kind : IdKind) where
  value : UInt64
deriving DecidableEq

abbrev SessionId := TmuxId .session
abbrev WindowId := TmuxId .window
abbrev PaneId := TmuxId .pane

section Order

variable {kind : IdKind}

instance : Ord (TmuxId kind) := ⟨compareOn TmuxId.value⟩

instance : TransOrd (TmuxId kind) := inferInstanceAs (TransCmp (compareOn TmuxId.value))

instance : LawfulEqOrd (TmuxId kind) where
  eq_of_compare {a b} h := by
    have hvalue : a.value = b.value := LawfulEqOrd.eq_of_compare h
    obtain ⟨x⟩ := a
    obtain ⟨y⟩ := b
    exact congrArg TmuxId.mk hvalue

end Order

structure WindowLink where
  sessionId : SessionId
  index : UInt32
deriving DecidableEq

instance : Ord WindowLink := ⟨compareLex (compareOn WindowLink.sessionId) (compareOn WindowLink.index)⟩

instance : TransOrd WindowLink :=
  inferInstanceAs (TransCmp (compareLex (compareOn WindowLink.sessionId)
    (compareOn WindowLink.index)))

instance : LawfulEqOrd WindowLink where
  eq_of_compare {a b} h := by
    obtain ⟨hsession, hindex⟩ := compareLex_eq_eq.mp h
    have hs : a.sessionId = b.sessionId := LawfulEqOrd.eq_of_compare hsession
    have hi : a.index = b.index := LawfulEqOrd.eq_of_compare hindex
    obtain ⟨s, i⟩ := a
    obtain ⟨s', i'⟩ := b
    exact congrArg₂ WindowLink.mk hs hi

/-! ## Records -/

structure Session where
  id : SessionId
  name : String
  windows : ExtTreeMap UInt32 WindowId
  activeWindow : Option WindowId

structure Window where
  id : WindowId
  name : String
  links : ExtTreeSet WindowLink
  activePane : Option PaneId
  layout : String
  visibleLayout : String
  flags : String

structure Pane where
  id : PaneId
  windowId : WindowId
  index : UInt32
  title : String
  left : UInt32
  top : UInt32
  width : UInt32
  height : UInt32
  dead : Bool
  cursorX : UInt32
  cursorY : UInt32
  cursorVisible : Bool
  cursorShape : String
  alternateOn : Bool
  paneInMode : UInt32
  mode : String
  historySize : UInt32
deriving DecidableEq

structure TmuxBinding where
  table : String
  key : String
  repeatable : Bool
  command : String
deriving DecidableEq

inductive ReconcileOutcome
  | applied
  | ignored
  | resyncRequired
deriving DecidableEq

inductive TopologyError
  | malformedInventory
  | invalidId (kind : String)
  | invalidNumber (field : String)
  | invalidUtf8 (field : String)
  | contradictoryInventory (reason : String)
  | invalidLabel
  | malformedNotification
deriving DecidableEq

structure TmuxTopology where
  connectionId : UInt64
  label : String
  host : Option String
  sessions : ExtTreeMap SessionId Session
  windows : ExtTreeMap WindowId Window
  panes : ExtTreeMap PaneId Pane
  attachedSession : Option SessionId
  options : ExtTreeMap String String
  clientInfo : ExtTreeMap String String
  bindings : ExtTreeMap String TmuxBinding
  keyTables : ExtTreeMap String (ExtTreeMap String TmuxBinding)
  needsResync : Bool

def TmuxTopology.new (connectionId : UInt64) : TmuxTopology where
  connectionId
  label := s!"tmux {connectionId}"
  host := none
  sessions := ∅
  windows := ∅
  panes := ∅
  attachedSession := none
  options := ∅
  clientInfo := ∅
  bindings := ∅
  keyTables := ∅
  needsResync := false

def emptySession (id : SessionId) : Session where
  id
  name := ""
  windows := ∅
  activeWindow := none

def emptyWindow (id : WindowId) : Window where
  id
  name := ""
  links := ∅
  activePane := none
  layout := ""
  visibleLayout := ""
  flags := ""

def emptyPane (id : PaneId) (windowId : WindowId) : Pane where
  id
  windowId
  index := 0
  title := ""
  left := 0
  top := 0
  width := 0
  height := 0
  dead := false
  cursorX := 0
  cursorY := 0
  cursorVisible := true
  cursorShape := "default"
  alternateOn := false
  paneInMode := 0
  mode := ""
  historySize := 0

/-! ## Fields -/

def tab : UInt8 := 0x09

def splitn (sep : UInt8) : Nat → Bytes → List Bytes
  | 0, _ => []
  | 1, bs => [bs]
  | n + 2, bs =>
    match splitAround [sep] bs with
    | none => [bs]
    | some (before, rest) => before :: splitn sep (n + 1) rest

/-- The fields of an inventory line: as many as asked for, after a one-byte record kind. -/
def splitInventory (line : Bytes) (fields : Nat) : Except TopologyError (List Bytes) :=
  let parts := splitn tab fields line
  if parts.length ≠ fields || (parts.getD 0 []).length ≠ 1 then .error .malformedInventory
  else .ok parts

variable (bs : Bytes)

def splitFirst : Except TopologyError (Bytes × Bytes) :=
  match splitAround [space] bs with
  | none => .error .malformedNotification
  | some (before, rest) =>
    if before.isEmpty || rest.isEmpty then .error .malformedNotification else .ok (before, rest)

def singleField : Except TopologyError Bytes :=
  if bs.isEmpty || bs.contains space then .error .malformedNotification else .ok bs

def text (field : String) : Except TopologyError String :=
  match String.fromUTF8? ⟨bs.toArray⟩ with
  | some s => .ok s
  | none => .error (.invalidUtf8 field)

def number (field : String) : Except TopologyError UInt32 := do
  let _ ← text bs field
  match parseUnsigned (2 ^ 32) bs with
  | some n => .ok (UInt32.ofNat n)
  | none => .error (.invalidNumber field)

def boolean (field : String) : Except TopologyError Bool :=
  if bs = ascii "0" then .ok false
  else if bs = ascii "1" then .ok true
  else .error (.invalidNumber field)

def parseCursorShape : Except TopologyError String := do
  let shape ← text bs "cursor shape"
  return if shape.isEmpty then "default" else shape

def parseId (sigil : UInt8) (kind : String) : Except TopologyError UInt64 :=
  match stripPrefix [sigil] bs with
  | none => .error (.invalidId kind)
  | some digits =>
    if digits.isEmpty || !digits.all isDigit then .error (.invalidId kind)
    else
      match parseU64 digits with
      | some v => .ok v
      | none => .error (.invalidId kind)

def parseSessionId : Except TopologyError SessionId := (parseId bs 0x24 "session").map TmuxId.mk

def parseWindowId : Except TopologyError WindowId := (parseId bs 0x40 "window").map TmuxId.mk

def parsePaneId : Except TopologyError PaneId := (parseId bs 0x25 "pane").map TmuxId.mk

/-! ## Legacy key bindings -/

def isAsciiWhitespace (b : UInt8) : Bool := b == space || b == tab || b == lf || b == cr || b == 0x0c

def isQuote (b : UInt8) : Bool := b == 0x27 || b == 0x22

/-- Up to unquoted whitespace or the end, with the quote left open and the rest. -/
def lexToken (quote : Option UInt8) (token : Bytes) :
    Bytes → Except TopologyError (Option UInt8 × Bytes × Bytes)
  | [] => .ok (quote, token, [])
  | byte :: rest =>
    if quote.isNone && isAsciiWhitespace byte then .ok (quote, token, byte :: rest)
    else if byte = backslash then
      match rest with
      | [] => .error .malformedInventory
      | escaped :: rest => lexToken quote (token ++ [escaped]) rest
    else if isQuote byte && quote == some byte then lexToken none token rest
    else if isQuote byte && quote.isNone then lexToken (some byte) token rest
    else lexToken quote (token ++ [byte]) rest

def lexNext (input : Bytes) : Except TopologyError (Option (Bytes × Bytes)) :=
  let input := input.dropWhile isAsciiWhitespace
  if input.isEmpty then .ok none
  else
    match lexToken none [] input with
    | .error e => .error e
    | .ok (quote, token, rest) =>
      if quote.isSome || token.isEmpty then .error .malformedInventory
      else .ok (some (token, rest))

def lexRequired (input : Bytes) : Except TopologyError (Bytes × Bytes) := do
  match ← lexNext input with
  | some token => .ok token
  | none => .error .malformedInventory

def lexRemainder (input : Bytes) : Except TopologyError Bytes :=
  let rest := input.dropWhile isAsciiWhitespace
  if rest.isEmpty then .error .malformedInventory else .ok rest

def validateBinding (table key command : String) : Except TopologyError Unit :=
  let breaks (c : Char) : Bool := c == '\x00' || c == '\r' || c == '\n'
  if table.isEmpty || table.utf8ByteSize > 128 || key.isEmpty || key.utf8ByteSize > 128 ||
      command.isEmpty || command.utf8ByteSize > 64 * 1024 ||
      table.toList.any (fun c => breaks c || c == '\t') || key.toList.any breaks ||
      command.toList.any breaks then
    .error .malformedInventory
  else .ok ()

def isControl (c : Char) : Bool := c.val < 0x20 || (0x7f ≤ c.val && c.val ≤ 0x9f)

end Lector.Topology
