import Lector.Probe.Replies
import Lector.Probe.Sequences

/-! The broker of the startup probes (`StartupProbeBroker` in `src/terminal_protocol.rs`): it reads the
physical input byte by byte, keeps the replies to itself and hands on the rest. -/
namespace Lector.Probe
open Bytes Output

def probeInactivityTimeoutMs : Nat := 50

inductive ColorScheme
  | light | dark
deriving DecidableEq

structure ProbeReport where
  geometry : Option TerminalGeometry
  colorScheme : Option ColorScheme
  synchronizedOutput : Option Bool
  kittyKeyboard : Option Bool
  kittyGraphics : Option Bool
  focusReporting : Option Bool
  clipboardRead : Option Bool
deriving DecidableEq

def ProbeReport.default : ProbeReport := ⟨none, none, none, none, none, none, none⟩

structure PhysicalTerminalProfile where
  geometry : TerminalGeometry
  colorScheme : Option ColorScheme
  synchronizedOutput : Bool
  kittyKeyboard : Bool
  kittyGraphics : Bool
  focusReporting : Bool
  clipboardRead : Bool
deriving DecidableEq

def PhysicalTerminalProfile.conservative (geometry : TerminalGeometry) : PhysicalTerminalProfile where
  geometry := geometry
  colorScheme := none
  synchronizedOutput := false
  kittyKeyboard := false
  kittyGraphics := false
  focusReporting := false
  clipboardRead := false

def PhysicalTerminalProfile.applyProbe (profile : PhysicalTerminalProfile) (probe : ProbeReport) :
    PhysicalTerminalProfile where
  geometry := probe.geometry.getD profile.geometry
  colorScheme := probe.colorScheme.or profile.colorScheme
  synchronizedOutput := probe.synchronizedOutput.getD profile.synchronizedOutput
  kittyKeyboard := probe.kittyKeyboard.getD profile.kittyKeyboard
  kittyGraphics := probe.kittyGraphics.getD profile.kittyGraphics
  focusReporting := probe.focusReporting.getD profile.focusReporting
  clipboardRead := probe.clipboardRead.getD profile.clipboardRead

structure StartupProbeBroker where
  profile : PhysicalTerminalProfile
  report : ProbeReport
  policy : ProbePolicy
  lastActivityAtMs : Nat
  finished : Bool
  pending : Bytes
  discardingOversized : Option OversizedSequence
  malformedReplies : Nat
  pixelWidth : Option UInt32
  pixelHeight : Option UInt32
  foregroundLuminance : Option Nat
  backgroundLuminance : Option Nat
  primaryDeviceAttributesReceived : Bool

namespace StartupProbeBroker

def new (profile : PhysicalTerminalProfile) (policy : ProbePolicy) (startedAtMs : Nat) :
    StartupProbeBroker where
  profile := profile
  report := .default
  policy := policy
  lastActivityAtMs := startedAtMs
  finished := false
  pending := []
  discardingOversized := none
  malformedReplies := 0
  pixelWidth := none
  pixelHeight := none
  foregroundLuminance := none
  backgroundLuminance := none
  primaryDeviceAttributesReceived := false

variable (broker : StartupProbeBroker)

/-! ## Replies -/

def applyReport : StartupProbeBroker :=
  { broker with profile := broker.profile.applyProbe broker.report }

def resolveColorScheme : StartupProbeBroker :=
  match broker.foregroundLuminance, broker.backgroundLuminance with
  | some foreground, some background =>
    let scheme := if background < foreground then ColorScheme.dark else .light
    { broker with report := { broker.report with colorScheme := some scheme } }.applyReport
  | _, _ => broker

def reportForeground (luminance : Nat) : StartupProbeBroker :=
  { broker with foregroundLuminance := some luminance }.resolveColorScheme

def reportBackground (luminance : Nat) : StartupProbeBroker :=
  { broker with backgroundLuminance := some luminance }.resolveColorScheme

def gridSize (n : Nat) : UInt16 := UInt16.ofNat (min n (2 ^ 16 - 1))

/-- The cell size that the pixel size of the window gives, where no reply has told one. -/
def inferCellSize : StartupProbeBroker :=
  let geometry := broker.profile.geometry
  let width := match broker.pixelWidth with
    | some width => if geometry.cellWidthPx = 0 ∧ 0 < geometry.cols then width / geometry.cols.toUInt32
      else geometry.cellWidthPx
    | none => geometry.cellWidthPx
  let height := match broker.pixelHeight with
    | some height => if geometry.cellHeightPx = 0 ∧ 0 < geometry.rows then height / geometry.rows.toUInt32
      else geometry.cellHeightPx
    | none => geometry.cellHeightPx
  let geometry := { geometry with cellWidthPx := width, cellHeightPx := height }
  { broker with
    profile := { broker.profile with geometry := geometry }
    report := { broker.report with geometry := some geometry } }

def applySize (kind first second : Nat) : Option StartupProbeBroker :=
  let geometry := broker.profile.geometry
  if kind = 4 then
    some { broker with pixelHeight := some (UInt32.ofNat first), pixelWidth := some (UInt32.ofNat second) }
  else if kind = 6 then
    some { broker with profile := { broker.profile with geometry := { geometry with
      cellHeightPx := UInt32.ofNat first, cellWidthPx := UInt32.ofNat second } } }
  else if kind = 8 then
    some { broker with profile := { broker.profile with geometry := { geometry with
      rows := gridSize first, cols := gridSize second } } }
  else none

def consumeReply (sequence : Bytes) : StartupProbeBroker × Bool :=
  let report := broker.report
  match parseModeReport sequence with
  | some (mode, state) =>
    if mode = 1004 then
      ({ broker with report := { report with
        focusReporting := some (state == 1 || state == 3) } }.applyReport, true)
    else if mode = 2026 then
      ({ broker with report := { report with
        synchronizedOutput := some (1 ≤ state && state ≤ 4) } }.applyReport, true)
    else (broker, false)
  | none =>
    if (parseKittyKeyboardReport sequence).isSome then
      ({ broker with report := { report with kittyKeyboard := some true } }.applyReport, true)
    else match parseSizeReport sequence with
      | some (kind, first, second) =>
        match broker.applySize kind first second with
        | some broker => (broker.inferCellSize, true)
        | none => (broker, false)
      | none =>
        match parseColorReport sequence with
        | some (slot, red, green, blue) =>
          let luminance := red * 299 + green * 587 + blue * 114
          if slot = 10 then (broker.reportForeground luminance, true)
          else if slot = 11 then (broker.reportBackground luminance, true)
          else (broker, false)
        | none =>
          if isPrimaryDeviceAttributesReply sequence then
            ({ broker with primaryDeviceAttributesReceived := true, finished := true }, true)
          else if isOtherDeviceAttributesReply sequence then (broker, true)
          else if broker.policy.clipboardRead && isClipboardReply sequence then
            ({ broker with report := { report with clipboardRead := some true } }.applyReport, true)
          else (broker, false)

/-! ## Input -/

def oneMoreMalformed : StartupProbeBroker :=
  { broker with malformedReplies := saturatingAdd 64 broker.malformedReplies 1 }

/-- The inner loop of `ingest`: each round but the last takes a byte off the front. -/
def drain : Nat → StartupProbeBroker → Bytes → StartupProbeBroker × Bytes
  | 0, broker, output => (broker, output)
  | rounds + 1, broker, output =>
    match broker.pending with
    | [] => (broker, output)
    | b :: rest =>
      if b ≠ esc then drain rounds { broker with pending := rest } (output ++ [b])
      else match completeEscapeLen broker.pending with
        | none =>
          if maxProbeReplyBytes < broker.pending.length then
            ({ broker with
              discardingOversized := OversizedSequence.fromPrefix broker.pending
              pending := [] }.oneMoreMalformed, output)
          else (broker, output)
        | some sequenceLen =>
          let sequence := broker.pending.take sequenceLen
          let broker := { broker with pending := broker.pending.drop sequenceLen }
          if maxProbeReplyBytes < sequence.length then drain rounds broker.oneMoreMalformed output
          else
            let (broker, consumed) := broker.consumeReply sequence
            drain rounds broker (if consumed then output else output ++ sequence)

def ingestByte (s : StartupProbeBroker × Bytes) (byte : UInt8) : StartupProbeBroker × Bytes :=
  match s.1.discardingOversized with
  | some discarding => ({ s.1 with discardingOversized := discarding.consume byte }, s.2)
  | none =>
    let broker := { s.1 with pending := s.1.pending ++ [byte] }
    drain broker.pending.length broker s.2

def ingest (input : Bytes) (nowMs : Nat) : StartupProbeBroker × Bytes :=
  let broker := if input.isEmpty then broker else { broker with lastActivityAtMs := nowMs }
  input.foldl ingestByte (broker, [])

def finishIfTimedOut (nowMs : Nat) : StartupProbeBroker × Bytes :=
  if nowMs - broker.lastActivityAtMs ≤ probeInactivityTimeoutMs then (broker, [])
  else if broker.finished ∧ broker.pending = [] ∧ broker.discardingOversized = none then (broker, [])
  else ({ broker with finished := true, discardingOversized := none, pending := [] }, broker.pending)

def ingestAll (chunks : List (Bytes × Nat)) : StartupProbeBroker × Bytes :=
  chunks.foldl (fun s chunk => ((s.1.ingest chunk.1 chunk.2).1, s.2 ++ (s.1.ingest chunk.1 chunk.2).2))
    (broker, [])

end StartupProbeBroker

end Lector.Probe
