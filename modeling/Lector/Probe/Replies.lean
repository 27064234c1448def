import Lector.Output.Scheduler

/-! The replies to the probes that Lector sends to the physical terminal (`parse_mode_report` up to
`is_clipboard_reply` in `src/terminal_protocol.rs`), and what each of them reports. -/
namespace Lector.Probe
open Bytes

/-! ## Text -/

def isContinuation (b : UInt8) : Bool := 0x80 ≤ b && b ≤ 0xbf

def isSecondOfThree (first second : UInt8) : Bool :=
  if first = 0xe0 then 0xa0 ≤ second && second ≤ 0xbf
  else if first = 0xed then 0x80 ≤ second && second ≤ 0x9f
  else 0xe1 ≤ first && first ≤ 0xef && isContinuation second

def isSecondOfFour (first second : UInt8) : Bool :=
  if first = 0xf0 then 0x90 ≤ second && second ≤ 0xbf
  else if first = 0xf4 then 0x80 ≤ second && second ≤ 0x8f
  else 0xf1 ≤ first && first ≤ 0xf3 && isContinuation second

def isUtf8 : Bytes → Bool
  | [] => true
  | a :: rest =>
    if a < 0x80 then isUtf8 rest
    else match rest with
      | [] => false
      | b :: rest =>
        if 0xc2 ≤ a && a ≤ 0xdf then isContinuation b && isUtf8 rest
        else match rest with
          | [] => false
          | c :: rest =>
            if isSecondOfThree a b then isContinuation c && isUtf8 rest
            else match rest with
              | [] => false
              | d :: rest => isSecondOfFour a b && isContinuation c && isContinuation d && isUtf8 rest

def fromUtf8 (bs : Bytes) : Option Bytes := if isUtf8 bs then some bs else none

def stripSuffix (suffix bs : Bytes) : Option Bytes := bs.dropSuffix? suffix

def hexDigitValue (b : UInt8) : Option Nat :=
  if 0x30 ≤ b && b ≤ 0x39 then some (b.toNat - 0x30)
  else if 0x61 ≤ b && b ≤ 0x66 then some (b.toNat - 0x57)
  else if 0x41 ≤ b && b ≤ 0x46 then some (b.toNat - 0x37)
  else none

def parseHexU16 (bs : Bytes) : Option Nat :=
  let digits := (stripPrefix (ascii "+") bs).getD bs
  if digits.isEmpty then none
  else match digits.mapM hexDigitValue with
    | none => none
    | some values =>
      let value := values.foldl (fun n d => 16 * n + d) 0
      if value < 2 ^ 16 then some value else none

/-! ## Reports -/

variable (sequence : Bytes)

def parseModeReport : Option (Nat × Nat) := do
  let text ← fromUtf8 sequence
  let body ← stripPrefix (esc :: ascii "[?") text
  let body ← stripSuffix (ascii "$y") body
  let (mode, state) ← splitAround (ascii ";") body
  let mode ← parseUnsigned (2 ^ 16) mode
  let state ← parseUnsigned (2 ^ 8) state
  pure (mode, state)

def parseKittyKeyboardReport : Option Nat := do
  let text ← fromUtf8 sequence
  let body ← stripPrefix (esc :: ascii "[?") text
  let body ← stripSuffix (ascii "u") body
  parseUnsigned (2 ^ 8) body

def parseSizeReport : Option (Nat × Nat × Nat) := do
  let text ← fromUtf8 sequence
  let body ← stripPrefix (esc :: ascii "[") text
  let body ← stripSuffix (ascii "t") body
  let parts := fields 0x3b body
  let kind ← parts[0]?
  let kind ← parseUnsigned (2 ^ 8) kind
  let first ← parts[1]?
  let first ← parseUnsigned (2 ^ 32) first
  let second ← parts[2]?
  let second ← parseUnsigned (2 ^ 32) second
  if parts[3]?.isNone then some (kind, first, second) else none

def parseColorReport : Option (Nat × Nat × Nat × Nat) := do
  let body ← stripPrefix (esc :: ascii "]") sequence
  let body ← (stripSuffix [esc, backslash] body).or (stripSuffix [0x07] body)
  let text ← fromUtf8 body
  let (slot, rgb) ← splitAround (ascii ";rgb:") text
  let channels := fields 0x2f rgb
  let red ← channels[0]?
  let red ← parseHexU16 red
  let green ← channels[1]?
  let green ← parseHexU16 green
  let blue ← channels[2]?
  let blue ← parseHexU16 blue
  if channels[3]?.isSome then none
  else
    let slot ← parseUnsigned (2 ^ 8) slot
    pure (slot, red, green, blue)

def isPrimaryDeviceAttributesReply : Bool :=
  let body := (stripPrefix (esc :: ascii "[?") sequence).or (stripPrefix (0x9b :: ascii "?") sequence)
  match body.bind (stripSuffix (ascii "c")) with
  | none => false
  | some body =>
    !body.isEmpty && (fields 0x3b body).all fun parameter => !parameter.isEmpty && parameter.all isDigit

def isOtherDeviceAttributesReply : Bool :=
  (esc :: ascii "[>").isPrefixOf sequence && (ascii "c").isSuffixOf sequence ||
    (esc :: ascii "P!|").isPrefixOf sequence && [esc, backslash].isSuffixOf sequence

def isClipboardReply : Bool :=
  (esc :: ascii "]52;").isPrefixOf sequence &&
    ([esc, backslash].isSuffixOf sequence || [0x07].isSuffixOf sequence)

structure ProbePolicy where
  clipboardRead : Bool

/-- Each form is tried in the broker's order, and the first one that reads decides. -/
def recognised (policy : ProbePolicy) (sequence : Bytes) : Bool :=
  match parseModeReport sequence with
  | some (mode, _) => mode == 1004 || mode == 2026
  | none =>
    if (parseKittyKeyboardReport sequence).isSome then true
    else match parseSizeReport sequence with
      | some (kind, _, _) => kind == 4 || kind == 6 || kind == 8
      | none =>
        match parseColorReport sequence with
        | some (slot, _, _, _) => slot == 10 || slot == 11
        | none =>
          isPrimaryDeviceAttributesReply sequence || isOtherDeviceAttributesReply sequence ||
            policy.clipboardRead && isClipboardReply sequence

example : recognised ⟨false⟩ (esc :: ascii "[?2026;1$y") = true := by decide +kernel

example : recognised ⟨false⟩ (esc :: ascii "]11;rgb:0000/0000/0000" ++ [esc, backslash]) = true := by
  decide +kernel

example : recognised ⟨false⟩ (esc :: ascii "]52;c;dGVzdA==" ++ [esc, backslash]) = false := by
  decide +kernel

end Lector.Probe
