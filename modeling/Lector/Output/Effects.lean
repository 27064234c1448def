import Lector.Foundations.Bytes

/-! Terminal effects (`TerminalEvent` in `src/terminal.rs` and the effect functions of
`src/output_scheduler.rs`): what an effect writes to the terminal, what it retains in memory, and
how it is cut to the memory limit. -/
namespace Lector.Output

/-! ## Events -/

inductive ClipboardLocation
  | standard
  | selection
  | primary
deriving DecidableEq

structure ClipboardContent where
  mime : String
  data : Bytes
deriving DecidableEq

inductive ProgressState
  | remove
  | set
  | error
  | indeterminate
  | pause
deriving DecidableEq

inductive TerminalQuery
  | enquiry
  | xtVersion
  | size
  | colorScheme
  | deviceAttributes
  | clipboard
deriving DecidableEq

inductive TerminalEvent
  | bell
  | titleChanged (title : String)
  | workingDirectoryChanged (directory : String)
  | clipboardWrite (location : ClipboardLocation) (contents : List ClipboardContent)
  | desktopNotification (title body : String)
  | progressReport (state : ProgressState) (progress : Option UInt8)
  | query (query : TerminalQuery)
  | ptyReply (bytes : Bytes)
  | unknownSequence (content : Bytes) (truncated : Bool)
deriving DecidableEq

inductive TerminalEventKind
  | bell
  | title
  | workingDirectory
  | clipboard
  | notification
  | progress
  | query
  | reply
  | unknown
deriving DecidableEq

structure SurfaceId where
  value : UInt64
deriving DecidableEq

structure ScheduledTerminalEffect where
  owner : SurfaceId
  event : TerminalEvent
deriving DecidableEq

def terminalEventKind : TerminalEvent → TerminalEventKind
  | .bell => .bell
  | .titleChanged _ => .title
  | .workingDirectoryChanged _ => .workingDirectory
  | .clipboardWrite _ _ => .clipboard
  | .desktopNotification _ _ => .notification
  | .progressReport _ _ => .progress
  | .query _ => .query
  | .ptyReply _ => .reply
  | .unknownSequence _ _ => .unknown

/-! ## Encoding -/

def bellByte : UInt8 := 0x07

def utf8 (s : String) : Bytes := s.toUTF8.data.toList

def writeOsc (code : UInt8) (value : String) : Bytes :=
  ascii "\x1b]" ++ ascii (toString code.toNat) ++ ascii ";" ++
    (utf8 value).filter (fun byte => 0x20 ≤ byte && byte != 0x7f) ++ ascii "\x1b\\"

def progressCode : ProgressState → Nat
  | .remove => 0
  | .set => 1
  | .error => 2
  | .indeterminate => 3
  | .pause => 4

def encodeTerminalEffect : TerminalEvent → Bytes
  | .titleChanged title => writeOsc 2 title
  | .workingDirectoryChanged directory => writeOsc 7 directory
  | .progressReport state progress =>
    ascii "\x1b]9;4;" ++ ascii (toString (progressCode state)) ++ (match progress with
        | some value => ascii ";" ++ ascii (toString (min value.toNat 100))
        | none => []) ++ ascii "\x1b\\"
  | .bell => [bellByte]
  | .clipboardWrite _ _ | .desktopNotification _ _ | .query _ | .ptyReply _ | .unknownSequence _ _ => []

/-! ## Retention -/

def terminalEventRetainedBytes (event : TerminalEvent) : Nat :=
  let payload := match event with
    | .titleChanged value | .workingDirectoryChanged value => value.utf8ByteSize
    | .clipboardWrite _ contents =>
      (contents.map fun content => saturatingAdd 64 content.mime.utf8ByteSize content.data.length).sum
    | .desktopNotification title body => saturatingAdd 64 title.utf8ByteSize body.utf8ByteSize
    | .ptyReply bytes | .unknownSequence bytes _ => bytes.length
    | .bell | .progressReport _ _ | .query _ => 0
  saturatingAdd 64 payload 16

def takeWithin : Nat → List Char → List Char
  | _, [] => []
  | maximum, c :: cs =>
    if c.utf8Size ≤ maximum then c :: takeWithin (maximum - c.utf8Size) cs else []

def truncateString (value : String) (maximum : Nat) : String :=
  if value.utf8ByteSize ≤ maximum then value else String.ofList (takeWithin maximum value.toList)

def boundContents : Nat → List ClipboardContent → List ClipboardContent
  | _, [] => []
  | remaining, content :: contents =>
    let mime := truncateString content.mime remaining
    let data := content.data.take (remaining - mime.utf8ByteSize)
    ⟨mime, data⟩ :: boundContents (remaining - mime.utf8ByteSize - data.length) contents

def boundTerminalEffect (event : TerminalEvent) (maximum : Nat) : TerminalEvent :=
  let payloadLimit := maximum - 16
  match event with
  | .titleChanged value => .titleChanged (truncateString value payloadLimit)
  | .workingDirectoryChanged value => .workingDirectoryChanged (truncateString value payloadLimit)
  | .clipboardWrite location contents =>
    .clipboardWrite location ((boundContents payloadLimit contents).filter fun content =>
      content.mime != "" || !content.data.isEmpty)
  | .desktopNotification title body =>
    let title := truncateString title payloadLimit
    .desktopNotification title (truncateString body (payloadLimit - title.utf8ByteSize))
  | .ptyReply bytes => .ptyReply (bytes.take payloadLimit)
  | .unknownSequence bytes truncated => .unknownSequence (bytes.take payloadLimit) truncated
  | .bell => .bell
  | .progressReport state progress => .progressReport state progress
  | .query query => .query query

end Lector.Output
