import Lector.Foundations.Lines
import Lector.Topology.Model

/-! Commands for a tmux control client: their texts (`src/tmux_input.rs`, `src/tmux_model.rs`,
`src/tmux_panes.rs`) and the replies they announce (`src/app.rs`). -/
namespace Lector.Tmux
open Bytes Lector.Topology List Lines

/-! ## Texts -/

def maxSendKeysCommandBytes : Nat := 4096

inductive TmuxInputError
  | commandPrefixTooLong
deriving DecidableEq

def sendKeysPrefix (paneId : PaneId) : Bytes := ascii s!"send-keys -H -t %{paneId.value} "

def sendKeysCommand (paneId : PaneId) (chunk : Bytes) : Bytes := sendKeysPrefix paneId ++ writeHex chunk ++ [lf]

def encodeSendKeys (paneId : PaneId) (input : Bytes) : Except TmuxInputError (List Bytes) :=
  if input.isEmpty then .ok []
  else if maxSendKeysCommandBytes < (sendKeysPrefix paneId).length + 1 then
    .error .commandPrefixTooLong
  else
    let available := maxSendKeysCommandBytes - ((sendKeysPrefix paneId).length + 1)
    if available / 3 = 0 then .error .commandPrefixTooLong
    else .ok ((Lines.chunks (available / 3) input).map (sendKeysCommand paneId))

def continuePaneCommand (paneId : PaneId) : Bytes := ascii s!"refresh-client -A '%{paneId.value}:continue'\n"

/-- The fields of the format of `pane_capture_metadata_command`. -/
def paneCaptureMetadataFields : List String :=
  ["pane_id", "pane_left", "pane_top", "pane_width", "pane_height", "pane_dead", "cursor_x", "cursor_y",
    "cursor_flag", "cursor_shape", "alternate_on", "pane_in_mode", "history_size"]

def paneCaptureMetadataCommand (paneId : PaneId) : Bytes :=
  ascii s!"display-message -p -t %{paneId.value} -F 'R" ++
    (paneCaptureMetadataFields.flatMap fun field => ascii "\t#\x7b" ++ ascii field ++ ascii "\x7d") ++
    ascii "'\n"

def captureCommandForState (paneId : PaneId) (alternateOn : Bool) (paneInMode : UInt32)
    (lineFlags : Bool) : Bytes :=
  ascii "capture-pane " ++ (if 0 < paneInMode then ascii "-M " else []) ++ ascii "-p -e " ++
    (if lineFlags then ascii "-F " else []) ++ ascii "-J " ++
    (if !alternateOn && paneInMode == 0 then ascii "-S - " else []) ++ ascii s!"-t %{paneId.value}\n"

def pendingEscapeCaptureCommand (paneId : PaneId) : Bytes := ascii s!"capture-pane -p -P -t %{paneId.value}\n"

def joinTmuxCommandSequence (commands : List Bytes) : Bytes :=
  (ascii " ; ").intercalate
    (commands.map fun command =>
      if command.getLast? = some lf then command.dropLast else command) ++ [lf]

/-! ## Replies -/

inductive ExpectedTmuxReply
  | inventory
  | flowControlPolicy
  | flowControlVerification
  | bootstrap (paneId : PaneId) (lineFlags : Bool)
  | paneResyncProbe (paneId : PaneId)
  | paneResyncCapture (paneId : PaneId)
  | paneResyncPendingEscape (paneId : PaneId)
  | paneResyncVerify (paneId : PaneId)
  | paneResyncContinue (paneId : PaneId)
  | panePause (paneId : PaneId)
  | paneContinue (paneId : PaneId)
  | ignored
  | userCommand (description : String) (showSuccess : Bool)
deriving DecidableEq

inductive PendingTmuxCommandKind
  | ordinary
  | resize
  | input (paneId : PaneId)
deriving DecidableEq

structure PendingTmuxCommand where
  connectionId : UInt64
  bytes : Bytes
  expectedReplies : List ExpectedTmuxReply
  kind : PendingTmuxCommandKind
deriving DecidableEq

/-! ## What a pane receives -/

def sentKeys (paneId : PaneId) (line : Bytes) : Bytes :=
  (stripPrefix (sendKeysPrefix paneId) line).elim [] readHex

def paneInput (paneId : PaneId) (stream : Bytes) : Bytes := (Lines.read stream).flatMap (sentKeys paneId)

theorem paneInput_append {paneId : PaneId} {stream : Bytes} (h : Lines.Closed stream) (more : Bytes) :
    paneInput paneId (stream ++ more) = paneInput paneId stream ++ paneInput paneId more := by
  rw [paneInput, paneInput, paneInput, read_append h, flatMap_append]

/-! ## Sending keys -/

section

variable (paneId : PaneId)
include paneId

theorem sendKeysPrefix_eq : sendKeysPrefix paneId =
      ascii "send-keys -H -t %" ++ ascii (toString paneId.value) ++ [space] :=
  (ascii_append _ _).trans (congrArg (· ++ [space]) (ascii_append _ _))

theorem sendKeysPrefix_length : (sendKeysPrefix paneId).length ≤ 38 := by
  have hword : (ascii "send-keys -H -t %").length = 17 := by decide
  have hdigits := ascii_toString_length paneId.value
  rw [sendKeysPrefix_eq, length_append, length_append, length_singleton]
  omega

theorem lf_notMem_sendKeysPrefix : lf ∉ sendKeysPrefix paneId := by
  rw [sendKeysPrefix_eq, mem_append, mem_append, not_or, not_or]
  refine ⟨⟨by decide, fun hmem => ?_⟩, by decide⟩
  cases isDigit_of_mem_ascii_toString hmem

theorem closed_sendKeysCommand (chunk : Bytes) :
    Lines.Closed (sendKeysCommand paneId chunk) := closed_concat _

theorem paneInput_sendKeysCommand (chunk : Bytes) :
    paneInput paneId (sendKeysCommand paneId chunk) = chunk := by
  have hline : lf ∉ sendKeysPrefix paneId ++ writeHex chunk := by
    rw [mem_append, not_or]
    exact ⟨lf_notMem_sendKeysPrefix paneId, lf_notMem_writeHex chunk⟩
  have hkeys : sentKeys paneId (sendKeysPrefix paneId ++ writeHex chunk) = chunk := by
    rw [sentKeys, (stripPrefix_eq_some _ _ _).mpr rfl, Option.elim_some, readHex_writeHex]
  rw [paneInput, sendKeysCommand, read_line hline, flatMap_cons, hkeys, flatMap_nil, append_nil]

/-- **Keys of any length are encoded**, in lines that send exactly these keys to the pane. -/
theorem encodeSendKeys_spec (input : Bytes) : ∃ commands, encodeSendKeys paneId input = .ok commands ∧
      (∀ command ∈ commands, ∃ chunk, command = sendKeysCommand paneId chunk) ∧
      paneInput paneId commands.flatten = input := by
  have hprefix := sendKeysPrefix_length paneId
  rw [encodeSendKeys]
  split
  · rename_i hempty
    refine ⟨[], rfl, forall_mem_nil _, ?_⟩
    rw [isEmpty_iff.mp hempty]
    rfl
  · rw [if_neg (by rw [maxSendKeysCommandBytes]; omega)]
    rw [if_neg (by rw [maxSendKeysCommandBytes]; omega)]
    refine ⟨_, rfl, fun command hmem => ?_, ?_⟩
    · obtain ⟨chunk, -, rfl⟩ := mem_map.mp hmem
      exact ⟨chunk, rfl⟩
    · have hsize : 0 < (maxSendKeysCommandBytes - ((sendKeysPrefix paneId).length + 1)) / 3 := by
        rw [maxSendKeysCommandBytes]
        omega
      have hall : ∀ parts : List Bytes,
          paneInput paneId (parts.map (sendKeysCommand paneId)).flatten = parts.flatten := by
        intro parts
        induction parts with
        | nil => rfl
        | cons part rest ih =>
          rw [map_cons, flatten_cons, flatten_cons,
            paneInput_append (closed_sendKeysCommand paneId part), paneInput_sendKeysCommand, ih]
      rw [hall, Lines.flatten_chunks hsize]

end

end Lector.Tmux
