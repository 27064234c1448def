import Mathlib.Data.List.Basic
import Mathlib.Algebra.Order.Ring.Nat

/-! The key parser of review mode (`src/review/parser.rs`). -/
namespace Lector.Review

def maxCount : Nat := 10000

inductive ClipboardRegister
  | internal | system
deriving DecidableEq

inductive WordStyle
  | word | bigWord
deriving DecidableEq

inductive WordMove
  | forwardStart | backwardStart | forwardEnd
deriving DecidableEq

inductive SearchDirection
  | forward | backward
deriving DecidableEq

inductive FindDirection
  | forward | backward
deriving DecidableEq

inductive Motion
  | left | down | up | right
  | lineStart | firstNonblank | lineEnd
  | word (move : WordMove) (style : WordStyle)
  | documentStart | documentEnd
  | matchingBrace
  | find (direction : FindDirection) (till : Bool) (target : Char)
  | repeatFind (reverse : Bool)
  | prompt (forward : Bool)
deriving DecidableEq

inductive TextObject
  | word (style : WordStyle) (around : Bool)
deriving DecidableEq

inductive VisualKind
  | character | line
deriving DecidableEq

inductive ViewportPlacement
  | top | center | bottom
deriving DecidableEq

inductive Command
  | none
  | bell
  | exit
  | move (motion : Motion) (count : Nat)
  | scrollPage (forward : Bool) (count : Nat)
  | repositionViewport (placement : ViewportPlacement) (line : Option Nat) (firstNonblank : Bool)
  | yankMotion (motion : Motion) (count : Nat) (register : Option ClipboardRegister)
  | yankLine (count : Nat) (register : Option ClipboardRegister)
  | yankTextObject (object : TextObject) (count : Nat) (register : Option ClipboardRegister)
  | startVisual (kind : VisualKind)
  | cancelVisual
  | moveVisual (motion : Motion) (count : Nat)
  | yankVisual (register : Option ClipboardRegister)
  | startSearch (direction : SearchDirection)
  | repeatSearch (reverse : Bool) (count : Nat)
deriving DecidableEq

inductive Key
  | char (c : Char)
  | escape | enter | backspace
  | left | down | up | right
  | ctrl (c : Char)
  | unknown
deriving DecidableEq

inductive KeyPrefix
  | none
  | g
  | z
  | bracket (forward : Bool)
  | find (direction : FindDirection) (till : Bool)
deriving DecidableEq

inductive OperatorState
  | none
  | yank (count : Nat) (register : Option ClipboardRegister) (keyPrefix : KeyPrefix)
      (motionCount : Option Nat) (textObjectAround : Option Bool)
deriving DecidableEq

structure Parser where
  count : Option Nat
  keyPrefix : KeyPrefix
  operator : OperatorState
  visual : Option VisualKind
  register : Option ClipboardRegister
  awaitingRegister : Bool
deriving DecidableEq

def Parser.default : Parser where
  count := none
  keyPrefix := .none
  operator := .none
  visual := none
  register := none
  awaitingRegister := false

def multiplyCounts (left right : Nat) : Nat := min (left * right) maxCount

def motionForKey : Key → Option Motion
  | .char 'h' | .left => some .left
  | .char 'j' | .down => some .down
  | .char 'k' | .up => some .up
  | .char 'l' | .right => some .right
  | .char '0' => some .lineStart
  | .char '^' => some .firstNonblank
  | .char '$' => some .lineEnd
  | .char 'w' => some (.word .forwardStart .word)
  | .char 'W' => some (.word .forwardStart .bigWord)
  | .char 'b' => some (.word .backwardStart .word)
  | .char 'B' => some (.word .backwardStart .bigWord)
  | .char 'e' => some (.word .forwardEnd .word)
  | .char 'E' => some (.word .forwardEnd .bigWord)
  | .char 'G' => some .documentEnd
  | .char '%' => some .matchingBrace
  | .char ';' => some (.repeatFind false)
  | .char ',' => some (.repeatFind true)
  | _ => none

def countDigit (count : Option Nat) : Key → Option Nat
  | .char digit => if digit.isDigit ∧ (digit ≠ '0' ∨ count.isSome) then some (digit.toNat - 48) else none
  | _ => none

def pushDigit (count : Option Nat) (digit : Nat) : Nat := min (count.getD 0 * 10 + digit) maxCount

def motionAfterPrefix : KeyPrefix → Key → Option Motion
  | .g, .char 'g' => some .documentStart
  | .bracket forward, .char 'p' => some (.prompt forward)
  | .find direction till, .char target => some (.find direction till target)
  | _, _ => none

namespace Parser

variable (parser : Parser)

def resetPending : Parser :=
  { parser with
    count := none, keyPrefix := .none, operator := .none, register := none, awaitingRegister := false }

def finish (command : Command) : Parser × Command := (parser.resetPending, command)

def takeCount : Nat := max (parser.count.getD 1) 1

def startFind (direction : FindDirection) (till : Bool) : Parser × Command :=
  ({ parser with keyPrefix := .find direction till }, .none)

def page (forward : Bool) : Parser × Command := parser.finish (.scrollPage forward parser.takeCount)

def escape : Parser × Command :=
  if parser.visual.isSome then ({ parser with visual := none }.resetPending, .cancelVisual)
  else if parser.count.isSome ∨ parser.keyPrefix ≠ .none ∨ parser.operator ≠ .none ∨
      parser.register.isSome ∨ parser.awaitingRegister = true then (parser.resetPending, .none)
  else (parser, .bell)

variable (key : Key)

def feedNormal : Parser × Command :=
  match countDigit parser.count key with
  | some digit => ({ parser with count := some (pushDigit parser.count digit) }, .none)
  | none =>
    match key with
    | .char 'q' => parser.finish .exit
    | .char '"' => ({ parser with awaitingRegister := true }, .none)
    | .char 'y' =>
      ({ parser with
        count := none
        register := none
        operator := .yank parser.takeCount parser.register .none none none }, .none)
    | .char 'v' => { parser with visual := some .character }.finish (.startVisual .character)
    | .char 'V' => { parser with visual := some .line }.finish (.startVisual .line)
    | .char 'g' => ({ parser with keyPrefix := .g }, .none)
    | .char 'z' => ({ parser with keyPrefix := .z }, .none)
    | .char '[' => ({ parser with keyPrefix := .bracket false }, .none)
    | .char ']' => ({ parser with keyPrefix := .bracket true }, .none)
    | .char 'f' => parser.startFind .forward false
    | .char 'F' => parser.startFind .backward false
    | .char 't' => parser.startFind .forward true
    | .char 'T' => parser.startFind .backward true
    | .char '/' => parser.finish (.startSearch .forward)
    | .char '?' => parser.finish (.startSearch .backward)
    | .char 'n' => parser.finish (.repeatSearch false parser.takeCount)
    | .char 'N' => parser.finish (.repeatSearch true parser.takeCount)
    | .ctrl 'b' => parser.page false
    | .ctrl 'f' => parser.page true
    | .ctrl 'u' => parser.page false
    | .ctrl 'd' => parser.page true
    | key =>
      match motionForKey key with
      | some motion => parser.finish (.move motion parser.takeCount)
      | none => parser.finish .bell

def feedVisual : Parser × Command :=
  match countDigit parser.count key with
  | some digit => ({ parser with count := some (pushDigit parser.count digit) }, .none)
  | none =>
    match key with
    | .char 'y' => { parser with visual := none }.finish (.yankVisual parser.register)
    | .char '"' => ({ parser with awaitingRegister := true }, .none)
    | .char 'v' | .char 'V' => { parser with visual := none }.finish .cancelVisual
    | .char 'g' => ({ parser with keyPrefix := .g }, .none)
    | .char 'z' => ({ parser with keyPrefix := .z }, .none)
    | .char '[' => ({ parser with keyPrefix := .bracket false }, .none)
    | .char ']' => ({ parser with keyPrefix := .bracket true }, .none)
    | .char 'f' => parser.startFind .forward false
    | .char 'F' => parser.startFind .backward false
    | .char 't' => parser.startFind .forward true
    | .char 'T' => parser.startFind .backward true
    | key =>
      match motionForKey key with
      | some motion => parser.finish (.moveVisual motion parser.takeCount)
      | none => parser.finish .bell

def feedPrefix : Parser × Command :=
  let parser' := { parser with keyPrefix := .none, count := none }
  if parser.keyPrefix = .z then
    let reposition := fun placement firstNonblank =>
      parser'.finish (.repositionViewport placement parser.count firstNonblank)
    match key with
    | .char 't' => reposition .top false
    | .enter => reposition .top true
    | .char 'z' => reposition .center false
    | .char '.' => reposition .center true
    | .char 'b' => reposition .bottom false
    | .char '-' => reposition .bottom true
    | _ => (parser'.resetPending, .bell)
  else
    match motionAfterPrefix parser.keyPrefix key with
    | none => (parser'.resetPending, .bell)
    | some motion =>
      if parser'.visual.isSome then parser'.finish (.moveVisual motion parser.takeCount)
      else parser'.finish (.move motion parser.takeCount)

def feedOperator : Parser × Command :=
  match parser.operator with
  | .none => (parser, .none)  -- unreachable: `feed` looks first
  | .yank count register keyPrefix motionCount textObjectAround =>
    let total := multiplyCounts count (motionCount.getD 1)
    let await := fun keyPrefix textObjectAround =>
      ({ parser with operator := .yank count register keyPrefix motionCount textObjectAround }, Command.none)
    match countDigit motionCount key with
    | some digit =>
      let motionCount := some (pushDigit motionCount digit)
      ({ parser with operator := .yank count register keyPrefix motionCount textObjectAround }, .none)
    | none =>
      match textObjectAround with
      | some around =>
        match key with
        | .char 'w' => parser.finish (.yankTextObject (.word .word around) total register)
        | .char 'W' => parser.finish (.yankTextObject (.word .bigWord around) total register)
        | _ => (parser.resetPending, .bell)
      | none =>
        if keyPrefix ≠ .none then
          match motionAfterPrefix keyPrefix key with
          | none => (parser.resetPending, .bell)
          | some motion => parser.finish (.yankMotion motion total register)
        else
          match key with
          | .char 'y' => parser.finish (.yankLine total register)
          | .char 'i' => await keyPrefix (some false)
          | .char 'a' => await keyPrefix (some true)
          | .char 'g' => await .g none
          | .char '[' => await (.bracket false) none
          | .char ']' => await (.bracket true) none
          | .char 'f' => await (.find .forward false) none
          | .char 'F' => await (.find .backward false) none
          | .char 't' => await (.find .forward true) none
          | .char 'T' => await (.find .backward true) none
          | key =>
            match motionForKey key with
            | none => (parser.resetPending, .bell)
            | some motion => parser.finish (.yankMotion motion total register)

def feedRegister : Parser × Command :=
  let parser := { parser with awaitingRegister := false }
  match key with
  | .char '"' => ({ parser with register := some .internal }, .none)
  | .char '+' => ({ parser with register := some .system }, .none)
  | _ => (parser.resetPending, .bell)

def feed : Parser × Command :=
  if key = .escape then parser.escape
  else if parser.awaitingRegister then parser.feedRegister key
  else if parser.operator ≠ .none then parser.feedOperator key
  else if parser.keyPrefix ≠ .none then parser.feedPrefix key
  else if parser.visual.isSome then parser.feedVisual key
  else parser.feedNormal key

def commands : Parser → List Key → List Command
  | _, [] => []
  | parser, key :: rest => (parser.feed key).2 :: commands (parser.feed key).1 rest

end Parser

end Lector.Review
