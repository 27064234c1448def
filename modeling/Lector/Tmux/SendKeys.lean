import Lector.Tmux.Commands

/-! The command lines that carry keys to a pane (`encode_send_keys` in `src/tmux_input.rs`): how long they are,
what stands in them, and which keys their arguments spell. -/
namespace Lector.Tmux
open Bytes Lector.Topology List Lines

/-! ## Words of a command -/

/-- A byte that is itself in the command language: a letter, a digit, a blank, `-` or `%`. -/
def isPlain (b : UInt8) : Bool :=
  isDigit b || (0x41 ≤ b && b ≤ 0x5a) || (0x61 ≤ b && b ≤ 0x7a) || b == space || b == 0x2d || b == 0x25

variable (paneId : PaneId)

def paneWord : Bytes := 0x25 :: ascii (toString paneId.value)

/-- An argument of `send-keys -H`: two hexadecimal digits. -/
def hexArgument : Bytes → Option UInt8
  | [high, low] =>
    if Lines.isHexDigit high && Lines.isHexDigit low then
      some (Lines.hexValue high <<< 4 ||| Lines.hexValue low)
    else none
  | _ => none

/-- The command is one line that sends `keys` to the pane and nothing else. -/
structure SendsKeys (paneId : PaneId) (keys command : Bytes) : Prop where
  short : command.length ≤ maxSendKeysCommandBytes
  line : ∃ line, command = line ++ [lf] ∧ (∀ b ∈ line, isPlain b = true) ∧
    ∃ arguments, fields space line = [ascii "send-keys", ascii "-H", ascii "-t", paneWord paneId] ++ arguments ∧
      arguments.mapM hexArgument = some keys

theorem parsePaneId_paneWord : parsePaneId (paneWord paneId) = .ok paneId := by
  have hstrip : stripPrefix [0x25] (paneWord paneId) = some (ascii (toString paneId.value)) :=
    (stripPrefix_eq_some _ _ _).mpr rfl
  have hne : ascii (toString paneId.value) ≠ [] := by
    rw [ascii_toString, ne_eq, map_eq_nil_iff]
    exact Nat.toDigits_ne_nil
  have hdigits : (ascii (toString paneId.value)).all isDigit = true :=
    all_eq_true.mpr fun _ h => isDigit_of_mem_ascii_toString h
  have hplus : stripPrefix (ascii "+") (ascii (toString paneId.value)) = none := by
    rw [Option.eq_none_iff_forall_ne_some]
    intro rest h
    have hmem : (0x2b : UInt8) ∈ ascii (toString paneId.value) := by
      rw [(stripPrefix_eq_some _ _ _).mp h]
      exact mem_append_left _ (by decide)
    cases isDigit_of_mem_ascii_toString hmem
  have hvalue : parseU64 (ascii (toString paneId.value)) = some paneId.value := by
    rw [parseU64, parseUnsigned, hplus, Option.getD_none, hdigits, digitsValue_ascii_toString]
    simp [hne, paneId.value.toNat_lt]
  rw [parsePaneId, parseId, hstrip]
  simp [hne, hdigits, hvalue, Except.map]

theorem hexArgument_hexByte (byte : UInt8) : hexArgument (hexByte byte) = some byte := by
  obtain ⟨hdigits, hvalue⟩ := hexByte_spec byte
  rw [hexByte, hexArgument, if_pos hdigits, hvalue]

theorem mapM_hexArgument (keys : Bytes) : (keys.map hexByte).mapM hexArgument = some keys := by
  induction keys with
  | nil => rfl
  | cons byte rest ih => simp [hexArgument_hexByte, ih]

theorem isPlain_of_isHexDigit {b : UInt8} (h : Lines.isHexDigit b = true) : isPlain b = true := by
  simp only [Lines.isHexDigit, isPlain, isDigit, Bool.or_eq_true, Bool.and_eq_true, decide_eq_true_eq,
    UInt8.le_iff_toNat_le] at h ⊢
  simp only [UInt8.reduceToNat] at h ⊢
  omega

/-! ## One command -/

def sendKeysWords (keys : Bytes) : List Bytes :=
  [ascii "send-keys", ascii "-H", ascii "-t", paneWord paneId] ++ keys.map hexByte

theorem sendKeysLine_eq {paneId : PaneId} {keys : Bytes} (hne : keys ≠ []) :
    sendKeysPrefix paneId ++ writeHex keys = [space].intercalate (sendKeysWords paneId keys) := by
  have hwords : ascii "send-keys -H -t %" =
      ascii "send-keys" ++ [space] ++ ascii "-H" ++ [space] ++ ascii "-t" ++ [space] ++ [0x25] := by decide
  obtain ⟨-, -, rfl⟩ := exists_cons_of_ne_nil hne
  rw [sendKeysPrefix_eq, writeHex_eq_intercalate, hwords]
  simp [sendKeysWords, paneWord]

theorem plain_of_all {word : Bytes} (h : word.all (fun b => isPlain b && b != space) = true) :
    ∀ b ∈ word, isPlain b = true ∧ b ≠ space := by simpa using h

theorem plain_of_mem_words {paneId : PaneId} {keys word : Bytes} (h : word ∈ sendKeysWords paneId keys) :
    space ∉ word ∧ ∀ b ∈ word, isPlain b = true := by
  suffices hplain : ∀ b ∈ word, isPlain b = true ∧ b ≠ space from
    ⟨fun hmem => (hplain _ hmem).2 rfl, fun b hb => (hplain b hb).1⟩
  simp only [sendKeysWords, mem_append, mem_cons, not_mem_nil, or_false, mem_map] at h
  obtain (rfl | rfl | rfl | rfl) | ⟨-, -, rfl⟩ := h
  · exact plain_of_all (by decide)
  · exact plain_of_all (by decide)
  · exact plain_of_all (by decide)
  · intro b hb
    obtain rfl | hb := mem_cons.mp hb
    · decide
    · have hdigit := isDigit_of_mem_ascii_toString hb
      refine ⟨by simp [isPlain, hdigit], ?_⟩
      rintro rfl
      cases hdigit
  · intro b hb
    have hdigit := isHexDigit_of_mem_hexByte hb
    refine ⟨isPlain_of_isHexDigit hdigit, ?_⟩
    rintro rfl
    cases hdigit

theorem sendsKeys_sendKeysCommand {paneId : PaneId} {keys : Bytes} (hne : keys ≠ [])
    (hlength : (sendKeysPrefix paneId).length + 3 * keys.length ≤ maxSendKeysCommandBytes) :
    SendsKeys paneId keys (sendKeysCommand paneId keys) := by
  have hwords : ∀ word ∈ sendKeysWords paneId keys, space ∉ word ∧ ∀ b ∈ word, isPlain b = true :=
    fun _ h => plain_of_mem_words h
  have hfields : fields space (sendKeysPrefix paneId ++ writeHex keys) = sendKeysWords paneId keys := by
    rw [sendKeysLine_eq hne]
    exact splitOn_intercalate space (fun word h => (hwords word h).1) (by simp [sendKeysWords])
  constructor
  · have hpos : 0 < keys.length := length_pos_iff.mpr hne
    simp only [sendKeysCommand, length_append, length_writeHex, length_singleton]
    omega
  · refine ⟨_, rfl, fun b hb => ?_, keys.map hexByte, hfields, mapM_hexArgument keys⟩
    obtain rfl | ⟨word, hword, hb⟩ := mem_fields space b _ hb
    · decide
    · rw [hfields] at hword
      exact (hwords word hword).2 b hb

/-! ## All commands -/

/-- **Any keys are encoded**, as lines within the limit that name the pane, are made of safe characters and
spell exactly these keys. -/
theorem encodeSendKeys_lines (paneId : PaneId) (input : Bytes) :
    ∃ chunks commands, encodeSendKeys paneId input = .ok commands ∧ chunks.flatten = input ∧
      Forall₂ (SendsKeys paneId) chunks commands ∧ parsePaneId (paneWord paneId) = .ok paneId := by
  have hprefix := sendKeysPrefix_length paneId
  have hword := parsePaneId_paneWord paneId
  rw [encodeSendKeys]
  split
  · rename_i hempty
    rw [isEmpty_iff.mp hempty]
    exact ⟨[], [], rfl, rfl, Forall₂.nil, hword⟩
  · have hroom : ¬ maxSendKeysCommandBytes < (sendKeysPrefix paneId).length + 1 := by
      rw [maxSendKeysCommandBytes]
      omega
    have hsize : 0 < (maxSendKeysCommandBytes - ((sendKeysPrefix paneId).length + 1)) / 3 := by
      rw [maxSendKeysCommandBytes]
      omega
    rw [if_neg hroom]
    rw [if_neg hsize.ne']
    refine ⟨_, _, rfl, Lines.flatten_chunks hsize input, ?_, hword⟩
    rw [forall₂_map_right_iff]
    apply forall₂_same.mpr
    intro chunk hchunk
    obtain ⟨hne, hle⟩ := mem_chunks hsize hchunk
    apply sendsKeys_sendKeysCommand hne
    omega

end Lector.Tmux
