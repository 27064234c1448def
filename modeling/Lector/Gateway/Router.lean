import Lector.Control.Parser

/-! The router between an ordinary PTY and an embedded `tmux -CC` stream (`src/tmux_gateway.rs`).
One iteration of the loop in `push` consumes a byte or reconsiders it in a new state. -/
namespace Lector.Gateway
open Bytes Control List

def startMarker : Bytes := [0x1b, 0x50, 0x31, 0x30, 0x30, 0x30, 0x70]

inductive GatewayFailure
  | transportEof
  | missingExit
  | missingTerminator
  | terminatorTimeout
  | protocol (error : String)
deriving DecidableEq

inductive GatewayEvent
  | directOutput (bytes : Bytes)
  | connectionStarted (connectionId : UInt64)
  | control (connectionId : UInt64) (event : ControlEvent)
  | connectionEnded (connectionId : UInt64)
  | connectionFailed (connectionId : UInt64) (reason : GatewayFailure)
deriving DecidableEq

inductive GatewayLifecycleState
  | direct
  | control
  | awaitingTerminator
  | recovering
deriving DecidableEq

inductive GatewayError
  | connectionIdExhausted
  | control (connectionId : UInt64) (source : ControlParseError)
  | unterminatedControl (connectionId : UInt64) (source : ControlParseError)
deriving DecidableEq

structure ActiveControl where
  connectionId : UInt64
  parser : TmuxControlParser
  currentRecord : Bytes
  sawExit : Bool
  terminatorEscapeSeen : Bool
  recovering : Bool
deriving DecidableEq

/-- The withheld marker bytes: a proper prefix of the start marker. -/
structure MarkerPrefix where
  bytes : Bytes
  isPrefix : bytes <+: startMarker
  short : bytes.length < startMarker.length
deriving DecidableEq

namespace MarkerPrefix

def empty : MarkerPrefix := ⟨[], nil_prefix, by decide⟩

variable (m : MarkerPrefix)

def expected : UInt8 := startMarker.get ⟨m.bytes.length, m.short⟩

theorem append_expected_isPrefix : m.bytes ++ [m.expected] <+: startMarker := by
  have hm := prefix_iff_eq_take.mp m.isPrefix
  have hnext := take_append_getElem m.short
  rw [← hm] at hnext
  rw [expected, get_eq_getElem, hnext]
  exact take_prefix _ _

def extend : Option MarkerPrefix :=
  if h : (m.bytes ++ [m.expected]).length < startMarker.length then
    some ⟨m.bytes ++ [m.expected], m.append_expected_isPrefix, h⟩
  else none

end MarkerPrefix

structure TmuxGatewayRouter where
  markerPrefix : MarkerPrefix
  active : Option ActiveControl
  nextConnectionId : UInt64
deriving DecidableEq

def checkedSucc (id : UInt64) : Option UInt64 :=
  if id.toNat + 1 < 2 ^ 64 then some (id + 1) else none

namespace TmuxGatewayRouter

variable (id : UInt64)

def withFirstConnectionId : TmuxGatewayRouter := ⟨.empty, none, id⟩

def new : TmuxGatewayRouter := withFirstConnectionId 1

variable (r : TmuxGatewayRouter)

def activeConnection : Option UInt64 := r.active.map (·.connectionId)

def lifecycleState : GatewayLifecycleState :=
  match r.active with
  | none => .direct
  | some active =>
    if active.recovering then .recovering
    else if active.sawExit then .awaitingTerminator
    else .control

/-- The router once the connection `id` is closed: its id is available again. -/
def close : TmuxGatewayRouter :=
  { r with active := none, nextConnectionId := id }

@[simp] theorem close_active : (r.close id).active = none := rfl

@[simp] theorem close_markerPrefix : (r.close id).markerPrefix = r.markerPrefix := rfl

@[simp] theorem close_nextConnectionId : (r.close id).nextConnectionId = id := rfl

def startConnection : TmuxGatewayRouter × Except GatewayError (List GatewayEvent) :=
  let connectionId := r.nextConnectionId
  match checkedSucc connectionId with
  | none => (r, .error .connectionIdExhausted)
  | some next =>
    let r := { r with nextConnectionId := next }
    match TmuxControlParser.new.push startMarker with
    | (_, .error source) => (r, .error (.control connectionId source))
    | (parser, .ok parsed) =>
      ({ r with active := some { connectionId, parser, currentRecord := [], sawExit := false,
                                 terminatorEscapeSeen := false, recovering := false } },
        .ok (.connectionStarted connectionId :: parsed.map (.control connectionId)))

end TmuxGatewayRouter

def emitDirect (events : List GatewayEvent) (direct : Bytes) : List GatewayEvent :=
  if direct.isEmpty then events else events ++ [.directOutput direct]

def isEnded : ControlEvent → Bool
  | .ended => true
  | _ => false

def isExit : ControlEvent → Bool
  | .exit _ => true
  | _ => false

/-- The locals of `push`: the router, the events pushed so far and the unflushed direct bytes. -/
structure PushState where
  router : TmuxGatewayRouter
  events : List GatewayEvent
  direct : Bytes
deriving DecidableEq

inductive Iteration
  | advance (s : PushState)
  | reconsider (s : PushState)
  | fail (r : TmuxGatewayRouter) (error : GatewayError)

section

variable (s : PushState)

def recoveringByte (active : ActiveControl) (byte : UInt8) : Iteration :=
  if active.terminatorEscapeSeen && byte == backslash then
    .advance { s with
      router := s.router.close active.connectionId
      events := s.events ++ [.connectionEnded active.connectionId] }
  else
    let active := { active with terminatorEscapeSeen := byte == esc }
    .advance { s with router := { s.router with active := some active } }

def missingTerminator (active : ActiveControl) : Iteration :=
  .reconsider { s with
    router := s.router.close active.connectionId
    events := s.events ++ [.connectionFailed active.connectionId .missingTerminator] }

def returnedToDirectTransport (failed : ActiveControl) : Bool :=
  failed.sawExit || failed.currentRecord.head?.any (fun byte => byte != 0x25 && byte != esc)

/-- The parser rejected a byte; `failed.currentRecord` already holds it. -/
def failedRecord (failed : ActiveControl) (source : ControlParseError) : Iteration :=
  let reason := if failed.sawExit then .missingTerminator else .protocol source.toText
  let events := s.events ++ [.connectionFailed failed.connectionId reason]
  if returnedToDirectTransport failed then
    .advance { router := s.router.close failed.connectionId, events,
               direct := s.direct ++ failed.currentRecord }
  else
    let failed := { failed with currentRecord := [], recovering := true, sawExit := false,
                                terminatorEscapeSeen := false }
    .advance { s with router := { s.router with active := some failed }, events }

/-- The connection once its parser has accepted `byte` and returned `parsed`. -/
def acceptedRecord (active : ActiveControl) (parser : TmuxControlParser)
    (parsed : List ControlEvent) (byte : UInt8) : ActiveControl :=
  { active with parser, sawExit := active.sawExit || parsed.any isExit,
                currentRecord := if byte == lf then [] else active.currentRecord }

/-- The connection as its parser is handed `byte`. -/
def recordedByte (active : ActiveControl) (byte : UInt8) : ActiveControl :=
  { active with
    terminatorEscapeSeen := active.terminatorEscapeSeen || (active.sawExit && byte == esc)
    currentRecord := active.currentRecord ++ [byte] }

def controlByte (active : ActiveControl) (byte : UInt8) : Iteration :=
  let active := recordedByte active byte
  match active.parser.push [byte] with
  | (parser, .error source) => failedRecord s { active with parser } source
  | (parser, .ok parsed) =>
    let active := acceptedRecord active parser parsed byte
    let events := s.events ++ parsed.map (.control active.connectionId)
    if parsed.any isEnded then
      let last := if active.sawExit then .connectionEnded active.connectionId
        else .connectionFailed active.connectionId .missingExit
      .advance { s with router := s.router.close active.connectionId, events := events ++ [last] }
    else .advance { s with router := { s.router with active := some active }, events }

def directByte (byte : UInt8) : Iteration :=
  let withheld := s.router.markerPrefix
  if byte = withheld.expected then
    match withheld.extend with
    | some longer => .advance { s with router := { s.router with markerPrefix := longer } }
    | none =>
      match { s.router with markerPrefix := .empty }.startConnection with
      | (router, .error error) => .fail router error
      | (router, .ok started) =>
        .advance { router, events := emitDirect s.events s.direct ++ started, direct := [] }
  else if withheld.bytes.isEmpty then .advance { s with direct := s.direct ++ [byte] }
  else
    .reconsider { s with router := { s.router with markerPrefix := .empty }
                         direct := s.direct ++ withheld.bytes }

def iteration (byte : UInt8) : Iteration :=
  match s.router.active with
  | none => directByte s byte
  | some active =>
    if active.recovering then recoveringByte s active byte
    else if active.sawExit && !active.terminatorEscapeSeen && byte != esc then
      missingTerminator s active
    else controlByte s active byte

def retries : Nat := s.router.active.toList.length + s.router.markerPrefix.bytes.length

end

variable {s s' : PushState}

theorem reconsider_retries {byte : UInt8} (h : iteration s byte = .reconsider s') : retries s' < retries s := by
  unfold iteration at h
  split at h
  · unfold directByte at h
    simp only at h
    split at h
    · split at h
      · cases h
      · split at h <;> cases h
    · split at h
      · cases h
      · rename_i hne
        cases h
        have hpos := length_pos_iff.mpr (by simpa using hne)
        simpa [retries, MarkerPrefix.empty] using hpos
  · rename_i active hactive
    split at h
    · unfold recoveringByte at h
      split at h <;> cases h
    split at h
    · cases h
      simp [retries, hactive]
    · unfold controlByte failedRecord at h
      simp only at h
      split at h <;> split at h <;> cases h

def pushByte (s : PushState) (byte : UInt8) : Except (TmuxGatewayRouter × GatewayError) PushState :=
  match _h : iteration s byte with
  | .advance s' => .ok s'
  | .fail r error => .error (r, error)
  | .reconsider s' => pushByte s' byte
termination_by retries s
decreasing_by exact reconsider_retries _h

theorem pushByte_advance {byte : UInt8} (h : iteration s byte = .advance s') : pushByte s byte = .ok s' := by
  rw [pushByte]
  split <;> simp_all

theorem pushByte_fail {r : TmuxGatewayRouter} {error : GatewayError}
    {byte : UInt8} (h : iteration s byte = .fail r error) : pushByte s byte = .error (r, error) := by
  rw [pushByte]
  split <;> simp_all

theorem pushByte_reconsider {byte : UInt8}
    (h : iteration s byte = .reconsider s') : pushByte s byte = pushByte s' byte := by
  rw [pushByte]
  split <;> simp_all

namespace TmuxGatewayRouter

def pushLoop (s : PushState) : Bytes → Except (TmuxGatewayRouter × GatewayError) PushState
  | [] => .ok s
  | byte :: bytes =>
    match pushByte s byte with
    | .error failure => .error failure
    | .ok s' => pushLoop s' bytes

variable (r : TmuxGatewayRouter)

def push (bytes : Bytes) : TmuxGatewayRouter × Except GatewayError (List GatewayEvent) :=
  match pushLoop ⟨r, [], []⟩ bytes with
  | .error (r, error) => (r, .error error)
  | .ok s => (s.router, .ok (emitDirect s.events s.direct))

def finishDirect : TmuxGatewayRouter × Except GatewayError Bytes :=
  match r.active with
  | some active =>
    if active.recovering then
      (r, .error (.unterminatedControl active.connectionId .parserPoisoned))
    else
      match active.parser.finish with
      | (parser, .ok _) => ({ r with active := some { active with parser } }, .ok [])
      | (parser, .error source) =>
        ({ r with active := some { active with parser } },
          .error (.unterminatedControl active.connectionId source))
  | none => ({ r with markerPrefix := .empty }, .ok r.markerPrefix.bytes)

def finishTransport : TmuxGatewayRouter × List GatewayEvent :=
  match r.active with
  | some active =>
    let closed := { r.close active.connectionId with markerPrefix := .empty }
    if active.recovering then (closed, [.connectionEnded active.connectionId])
    else
      let reason := if active.sawExit then .missingTerminator else .transportEof
      (closed, [.connectionFailed active.connectionId reason])
  | none =>
    ({ r with markerPrefix := .empty },
      if r.markerPrefix.bytes.isEmpty then [] else [.directOutput r.markerPrefix.bytes])

def expireTermination : TmuxGatewayRouter × List GatewayEvent :=
  match r.active with
  | none => (r, [])
  | some active =>
    if !active.sawExit then (r, [])
    else (r.close active.connectionId, [.connectionFailed active.connectionId .terminatorTimeout])

end TmuxGatewayRouter

end Lector.Gateway
