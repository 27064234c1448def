import Lector.Foundations.Bytes

/-! The streaming parser of the tmux control-mode wire protocol (`src/tmux_control.rs`): its limits,
events, errors and states, and the byte step that `push` iterates. -/
namespace Lector.Control
open Bytes

def controlStart : Bytes := [0x1b, 0x50, 0x31, 0x30, 0x30, 0x30, 0x70]

/-- The limits are `usize` values; only the bound of the output limit is needed, in `process_line`.
-/
structure ParserLimits where
  maxLineBytes : Nat
  maxCommandOutputBytes : Nat
  maxCommandOutputLines : Nat
  maxNotificationBytes : Nat
  maxCommandOutputBytes_lt : maxCommandOutputBytes < 2 ^ 64
deriving DecidableEq

def ParserLimits.default : ParserLimits where
  maxLineBytes := 64 * 1024
  maxCommandOutputBytes := 4 * 1024 * 1024
  maxCommandOutputLines := 65536
  maxNotificationBytes := 64 * 1024
  maxCommandOutputBytes_lt := by decide

inductive CommandStatus
  | success
  | error
deriving DecidableEq

inductive ControlEvent
  | started
  | command (timestamp number flags : UInt64) (status : CommandStatus) (output : List Bytes)
  | output (paneId : UInt64) (bytes : Bytes)
  | extendedOutput (paneId ageMs : UInt64) (futureFields : List Bytes) (bytes : Bytes)
  | pause (paneId : UInt64)
  | continue (paneId : UInt64)
  | exit (reason : Option Bytes)
  | notification (name arguments : Bytes)
  | ended
deriving DecidableEq

inductive UnterminatedState
  | startMarker
  | record
  | command
  | controlStream
  | stringTerminator
deriving DecidableEq

inductive ControlParseError
  | invalidStartMarker (offset : Nat)
  | invalidStringTerminator
  | trailingData
  | parserPoisoned
  | malformedRecord
  | invalidNumber (field : String)
  | unexpectedCommandTerminator
  | invalidPaneId
  | invalidOctalEscape
  | lineTooLong (limit : Nat)
  | commandOutputTooLong (limit : Nat)
  | tooManyCommandOutputLines (limit : Nat)
  | notificationTooLong (limit : Nat)
  | unterminated (state : UnterminatedState)
deriving DecidableEq

def UnterminatedState.debug : UnterminatedState → String
  | .startMarker => "StartMarker"
  | .record => "Record"
  | .command => "Command"
  | .controlStream => "ControlStream"
  | .stringTerminator => "StringTerminator"

/-- The `Display` text of an error. -/
def ControlParseError.toText : ControlParseError → String
  | .invalidStartMarker offset => s!"invalid tmux control-mode start marker at byte {offset}"
  | .invalidStringTerminator => "invalid tmux control-mode string terminator"
  | .trailingData => "bytes followed the tmux control-mode string terminator"
  | .parserPoisoned => "the parser must be reset after an error"
  | .malformedRecord => "malformed tmux control record"
  | .invalidNumber field => s!"invalid numeric {field} in tmux control record"
  | .unexpectedCommandTerminator => "tmux command terminator appeared without a command block"
  | .invalidPaneId => "invalid tmux pane id"
  | .invalidOctalEscape => "invalid tmux octal escape"
  | .lineTooLong limit => s!"tmux control line exceeded {limit} bytes"
  | .commandOutputTooLong limit => s!"tmux command output exceeded {limit} bytes"
  | .tooManyCommandOutputLines limit => s!"tmux command output exceeded {limit} lines"
  | .notificationTooLong limit => s!"tmux notification exceeded {limit} bytes"
  | .unterminated state => s!"unterminated tmux control-mode {state.debug}"

structure CommandTag where
  timestamp : UInt64
  number : UInt64
  flags : UInt64
deriving DecidableEq

structure PendingCommand where
  tag : CommandTag
  output : List Bytes
  outputBytes : Nat
deriving DecidableEq

/-- The count of matched marker bytes indexes the marker. -/
inductive ParseState
  | start (matched : Fin controlStart.length)
  | records
  | possibleStringTerminator
  | ended
  | failed
deriving DecidableEq

structure TmuxControlParser where
  limits : ParserLimits
  state : ParseState
  line : Bytes
  pendingCommand : Option PendingCommand
deriving DecidableEq

/-! ## Fields of a record -/

def parseU64Field (bytes : Option Bytes) (field : String) : Except ControlParseError UInt64 :=
  match bytes with
  | none => .error .malformedRecord
  | some bs =>
    if bs.isEmpty || !bs.all isDigit then .error (.invalidNumber field)
    else
      match parseU64 bs with
      | some v => .ok v
      | none => .error (.invalidNumber field)

variable (bs : Bytes)

def parseCommandTag : Except ControlParseError CommandTag := do
  let fs := fields space bs
  let timestamp ← parseU64Field fs[0]? "command timestamp"
  let number ← parseU64Field fs[1]? "command number"
  let flags ← parseU64Field fs[2]? "command flags"
  if fs[3]?.isSome then .error .malformedRecord else return { timestamp, number, flags }

def parsePaneId : Except ControlParseError UInt64 :=
  match stripPrefix (ascii "%") bs with
  | none => .error .invalidPaneId
  | some digits =>
    if digits.isEmpty || !digits.all isDigit then .error .invalidPaneId
    else
      match parseU64 digits with
      | some v => .ok v
      | none => .error .invalidPaneId

def parseSinglePane : Except ControlParseError UInt64 :=
  if bs.contains space then .error .malformedRecord else parsePaneId bs

def splitOnceSpace : Except ControlParseError (Bytes × Bytes) :=
  match splitAround [space] bs with
  | some halves => .ok halves
  | none => .error .malformedRecord

def isOctalDigit (b : UInt8) : Bool := 0x30 ≤ b && b ≤ 0x37

def decodeOctal : Bytes → Except ControlParseError Bytes
  | [] => .ok []
  | b :: rest =>
    if b ≠ backslash then (decodeOctal rest).map (b :: ·)
    else
      match rest with
      | d₀ :: d₁ :: d₂ :: rest =>
        if !(isOctalDigit d₀ && isOctalDigit d₁ && isOctalDigit d₂) then
          .error .invalidOctalEscape
        else
          let value := (d₀.toNat - 0x30) * 64 + (d₁.toNat - 0x30) * 8 + (d₂.toNat - 0x30)
          if value < 256 then (decodeOctal rest).map (UInt8.ofNat value :: ·)
          else .error .invalidOctalEscape
      | _ => .error .invalidOctalEscape

def parseExtendedOutput : Except ControlParseError ControlEvent :=
  match splitAround (ascii " : ") bs with
  | none => .error .malformedRecord
  | some (header, value) =>
    let fs := fields space header
    match fs[0]? with
    | none => .error .malformedRecord
    | some pane =>
      if (fs.drop 2).any List.isEmpty then .error .malformedRecord
      else do
        let paneId ← parsePaneId pane
        let ageMs ← parseU64Field fs[1]? "extended-output age"
        let bytes ← decodeOctal value
        return .extendedOutput paneId ageMs (fs.drop 2) bytes

/-! ## Lines and bytes -/

namespace TmuxControlParser

def withLimits (limits : ParserLimits) : TmuxControlParser where
  limits := limits
  state := .start ⟨0, by decide⟩
  line := []
  pendingCommand := none

def new : TmuxControlParser := withLimits .default

def reset (p : TmuxControlParser) : TmuxControlParser := withLimits p.limits

def poison (p : TmuxControlParser) : TmuxControlParser :=
  { p with state := .failed, line := [], pendingCommand := none }

end TmuxControlParser

/-- Whether a line of an open block is the `keyword` record with the block's own tag. -/
def PendingCommand.closes (pending : PendingCommand) (keyword line : Bytes) : Bool :=
  match stripPrefix keyword line with
  | none => false
  | some rest =>
    match parseCommandTag rest with
    | .ok tag => tag == pending.tag
    | .error _ => false

def PendingCommand.finish (pending : PendingCommand) (status : CommandStatus) : ControlEvent :=
  .command pending.tag.timestamp pending.tag.number pending.tag.flags status pending.output

namespace TmuxControlParser

def processBlockLine (p : TmuxControlParser) (pending : PendingCommand) (line : Bytes) :
    Except ControlParseError (TmuxControlParser × List ControlEvent) :=
  if pending.closes (ascii "%end ") line then
    .ok ({ p with pendingCommand := none }, [pending.finish .success])
  else if pending.closes (ascii "%error ") line then
    .ok ({ p with pendingCommand := none }, [pending.finish .error])
  else if pending.output.length = p.limits.maxCommandOutputLines then
    .error (.tooManyCommandOutputLines p.limits.maxCommandOutputLines)
  else
    match checkedAdd pending.outputBytes line.length with
    | none => .error (.commandOutputTooLong p.limits.maxCommandOutputBytes)
    | some outputBytes =>
      if outputBytes > p.limits.maxCommandOutputBytes then
        .error (.commandOutputTooLong p.limits.maxCommandOutputBytes)
      else
        let pending := { pending with outputBytes, output := pending.output ++ [line] }
        .ok ({ p with pendingCommand := some pending }, [])

def recordEvent (line : Bytes) : Except ControlParseError ControlEvent :=
  if let some rest := stripPrefix (ascii "%output ") line then do
    let (pane, value) ← splitOnceSpace rest
    return .output (← parsePaneId pane) (← decodeOctal value)
  else if let some rest := stripPrefix (ascii "%extended-output ") line then
    parseExtendedOutput rest
  else if let some rest := stripPrefix (ascii "%pause ") line then do
    return .pause (← parseSinglePane rest)
  else if let some rest := stripPrefix (ascii "%continue ") line then do
    return .continue (← parseSinglePane rest)
  else if line = ascii "%exit" then .ok (.exit none)
  else if let some reason := stripPrefix (ascii "%exit ") line then
    .ok (.exit (if reason.isEmpty then none else some reason))
  else
    let body := line.tail
    let (name, arguments) := (splitAround [space] body).getD (body, [])
    if name.isEmpty || !name.all (fun b => (0x61 ≤ b && b ≤ 0x7a) || isDigit b || b == 0x2d) then
      .error .malformedRecord
    else .ok (.notification name arguments)

def processRecord (p : TmuxControlParser) (line : Bytes) :
    Except ControlParseError (TmuxControlParser × List ControlEvent) :=
  if let some rest := stripPrefix (ascii "%begin ") line then do
    let tag ← parseCommandTag rest
    return ({ p with pendingCommand := some { tag, output := [], outputBytes := 0 } }, [])
  else if (ascii "%end ").isPrefixOf line || (ascii "%error ").isPrefixOf line then
    .error .unexpectedCommandTerminator
  else if [ascii "%begin", ascii "%end", ascii "%error", ascii "%output", ascii "%extended-output",
      ascii "%pause", ascii "%continue"].contains line then
    .error .malformedRecord
  else if !(ascii "%").isPrefixOf line then .error .malformedRecord
  else if line.length > p.limits.maxNotificationBytes then
    .error (.notificationTooLong p.limits.maxNotificationBytes)
  else do
    let event ← recordEvent line
    return (p, [event])

def processLine (p : TmuxControlParser) (line : Bytes) :
    Except ControlParseError (TmuxControlParser × List ControlEvent) :=
  match p.pendingCommand with
  | some pending => p.processBlockLine pending line
  | none => p.processRecord line

def pushByte (p : TmuxControlParser) (byte : UInt8) :
    Except ControlParseError (TmuxControlParser × List ControlEvent) :=
  match p.state with
  | .start matched =>
    if byte ≠ controlStart.get matched then .error (.invalidStartMarker matched)
    else if h : matched.val + 1 < controlStart.length then
      .ok ({ p with state := .start ⟨matched + 1, h⟩ }, [])
    else .ok ({ p with state := .records }, [.started])
  | .records =>
    if p.line.isEmpty && byte == esc && p.pendingCommand.isNone then
      .ok ({ p with state := .possibleStringTerminator }, [])
    else if byte = lf then
      { p with line := [] }.processLine (p.line.rdropWhile (· == cr))
    else if p.line.length = p.limits.maxLineBytes then
      .error (.lineTooLong p.limits.maxLineBytes)
    else .ok ({ p with line := p.line ++ [byte] }, [])
  | .possibleStringTerminator =>
    if byte ≠ backslash then .error .invalidStringTerminator
    else .ok ({ p with state := .ended }, [.ended])
  | .ended => .error .trailingData
  | .failed => .error .parserPoisoned

def pushLoop (p : TmuxControlParser) (events : List ControlEvent) :
    Bytes → TmuxControlParser × Except ControlParseError (List ControlEvent)
  | [] => (p, .ok events)
  | byte :: bytes =>
    match p.pushByte byte with
    | .error error => (p.poison, .error error)
    | .ok (p, new) => p.pushLoop (events ++ new) bytes

def push (p : TmuxControlParser) (bytes : Bytes) :
    TmuxControlParser × Except ControlParseError (List ControlEvent) :=
  if p.state = .failed then (p, .error .parserPoisoned) else p.pushLoop [] bytes

def finish (p : TmuxControlParser) : TmuxControlParser × Except ControlParseError (List ControlEvent) :=
  match p.state with
  | .ended => (p, .ok [])
  | .failed => (p.poison, .error .parserPoisoned)
  | .start _ => (p.poison, .error (.unterminated .startMarker))
  | .possibleStringTerminator => (p.poison, .error (.unterminated .stringTerminator))
  | .records =>
    if !p.line.isEmpty then (p.poison, .error (.unterminated .record))
    else if p.pendingCommand.isSome then (p.poison, .error (.unterminated .command))
    else (p.poison, .error (.unterminated .controlStream))

end TmuxControlParser

end Lector.Control
