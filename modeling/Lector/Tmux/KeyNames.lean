import Lector.Output.Effects
import Mathlib

/-! Keys as tmux names them, and the bytes of a name (`tmux_key_name` and `tmux_key_bytes` in
`src/tmux_prefix.rs`), beside the bytes that a terminal sends for a key (`legacy_child_bytes` in
`src/terminal_input.rs`). -/
namespace Lector.Tmux
open Bytes Output Option String

/-! ## Key events -/

structure KeyModifiers where
  shift : Bool
  ctrl : Bool
  alt : Bool
  super : Bool
  hyper : Bool
  metaKey : Bool
deriving DecidableEq

inductive KeyCode
  | char (character : Char)
  | backspace
  | delete
  | esc
  | enter
  | tab
  | up
  | down
  | left
  | right
  | home
  | endKey
  | pageUp
  | pageDown
  | insert
  | f (number : UInt8)
  | other
deriving DecidableEq

structure KeyEventState where
  keypad : Bool
  capsLock : Bool
  numLock : Bool
deriving DecidableEq

structure KeyEvent where
  code : KeyCode
  modifiers : KeyModifiers
  state : KeyEventState
deriving DecidableEq

variable (modifiers : KeyModifiers)

def KeyModifiers.altOrMeta : Bool := modifiers.alt || modifiers.metaKey

/-! ## Names -/

def keyCodeName : KeyCode → Option String
  | .char character => some (if character = ' ' then "Space" else String.singleton character)
  | .backspace => some "BSpace"
  | .delete => some "DC"
  | .esc => some "Escape"
  | .enter => some "Enter"
  | .tab => some "Tab"
  | .up => some "Up"
  | .down => some "Down"
  | .left => some "Left"
  | .right => some "Right"
  | .home => some "Home"
  | .endKey => some "End"
  | .pageUp => some "PPage"
  | .pageDown => some "NPage"
  | .insert => some "IC"
  | .f number => some s!"F{number}"
  | .other => none

def KeyCode.isChar : KeyCode → Bool
  | .char _ => true
  | _ => false

def tmuxKeyName (normalizeCase : KeyEvent → KeyEvent) (event : KeyEvent) : Option String :=
  let event := normalizeCase event
  let modifiers := event.modifiers
  let name := if modifiers.ctrl then "C-" else ""
  let name := if modifiers.altOrMeta then name ++ "M-" else name
  let name := if modifiers.super then name ++ "Super-" else name
  let name := if modifiers.hyper then name ++ "Hyper-" else name
  let name := if !event.code.isChar && modifiers.shift then name ++ "S-" else name
  (keyCodeName event.code).map (name ++ ·)

/-! ## Bytes -/

def tmuxControlByte (character : Char) : Option UInt8 :=
  let character := character.toLower
  if character = '@' ∨ character = ' ' ∨ character = '2' then some 0x00
  else if 'a' ≤ character ∧ character ≤ 'z' then some (UInt8.ofNat (character.toNat - 'a'.toNat + 1))
  else if character = '[' ∨ character = '3' then some 0x1b
  else if character = '\\' ∨ character = '4' then some 0x1c
  else if character = ']' ∨ character = '5' then some 0x1d
  else if character = '^' ∨ character = '6' then some 0x1e
  else if character = '_' ∨ character = '7' ∨ character = '/' then some 0x1f
  else if character = '?' ∨ character = '8' then some 0x7f
  else none

def onlyChar : List Char → Option Char
  | [character] => some character
  | _ => none

def bytesOfName : List Char → Option Bytes
  | 'M' :: '-' :: rest => (bytesOfName rest).map (esc :: ·)
  | 'C' :: '-' :: rest =>
    ((if rest = "Space".toList then some ' ' else onlyChar rest).bind tmuxControlByte).map ([·])
  | name =>
    if name = "Space".toList then some [space]
    else (onlyChar name).map fun character => utf8 (String.singleton character)

def tmuxKeyBytes (name : String) : Option Bytes := bytesOfName name.toList

/-! ## What a terminal sends -/

def legacyControlCode (ch : Char) : Option UInt8 :=
  let ch := ch.toLower
  if ch = '@' ∨ ch = ' ' ∨ ch = '2' then some 0x00
  else if 'a' ≤ ch ∧ ch ≤ 'z' then some (UInt8.ofNat (ch.toNat - 'a'.toNat + 1))
  else if ch = '[' ∨ ch = '3' then some 0x1b
  else if ch = '\\' ∨ ch = '4' then some 0x1c
  else if ch = ']' ∨ ch = '5' then some 0x1d
  else if ch = '^' ∨ ch = '6' then some 0x1e
  else if ch = '_' ∨ ch = '7' ∨ ch = '/' then some 0x1f
  else if ch = '?' ∨ ch = '8' then some 0x7f
  else none

/-- The bytes of a character key: an escape for Alt, then the control byte or the character. -/
def characterBytes (character : Char) : Option Bytes :=
  (if modifiers.ctrl then (legacyControlCode character).map ([·])
    else some (utf8 (String.singleton character))).map
      ((if modifiers.altOrMeta then [esc] else []) ++ ·)

/-- A character key keeps its character but for upper case, and only Shift may change. -/
structure NormalizesCase (normalizeCase : KeyEvent → KeyEvent) : Prop where
  character : ∀ event ch, event.code = .char ch →
    ∃ ch', (normalizeCase event).code = .char ch' ∧ (ch' = ch ∨ ch' = ch.toUpper)
  modifiers : ∀ event, ∃ shift, (normalizeCase event).modifiers = { event.modifiers with shift }

section Names

variable {normalizeCase : KeyEvent → KeyEvent} (ch : Char)

theorem tmuxControlByte_eq : tmuxControlByte ch = legacyControlCode ch := rfl

def characterName : List Char := if ch = ' ' then "Space".toList else [ch]

theorem bytesOfName_character : bytesOfName (characterName ch) = some (utf8 (singleton ch)) := by
  unfold characterName
  split
  · rename_i hspace
    subst hspace
    decide
  · rw [bytesOfName, if_neg (by simp)]
    · rfl
    · simp
    · simp

theorem bytesOfName_alt (rest : List Char) : bytesOfName ('M' :: '-' :: rest) = (bytesOfName rest).map (esc :: ·) := by
  rw [bytesOfName]

theorem bytesOfName_control :
    bytesOfName ('C' :: '-' :: characterName ch) = (legacyControlCode ch).map ([·]) := by
  rw [bytesOfName]
  unfold characterName
  split
  · rename_i hspace
    rw [if_pos rfl, hspace, bind_some, tmuxControlByte_eq]
  · rw [if_neg (by simp), onlyChar, bind_some, tmuxControlByte_eq]

theorem bytesOfName_controlAlt : bytesOfName ('C' :: '-' :: 'M' :: '-' :: characterName ch) = none := by
  rfl

theorem toList_characterName : (if ch = ' ' then "Space" else singleton ch).toList = characterName ch := by
  unfold characterName
  split <;> simp

theorem tmuxKeyName_char {event : KeyEvent} {ch : Char} (hcode : (normalizeCase event).code = .char ch)
    (hsuper : (normalizeCase event).modifiers.super = false)
    (hhyper : (normalizeCase event).modifiers.hyper = false) :
    (tmuxKeyName normalizeCase event).map String.toList =
      some ((if (normalizeCase event).modifiers.ctrl then ['C', '-'] else []) ++
        (if (normalizeCase event).modifiers.altOrMeta then ['M', '-'] else []) ++ characterName ch) := by
  unfold tmuxKeyName
  simp only [hcode, hsuper, hhyper, KeyCode.isChar, keyCodeName, Bool.not_true, Bool.false_and,
    Bool.false_eq_true, if_false, map_some, toList_append, toList_characterName]
  split <;> split <;> simp

/-- **The name of a character key has the bytes of the key, unless Control and Alt are held together.** The
character is that of the key, or its upper case. -/
theorem tmuxKeyBytes_tmuxKeyName_iff (hnormalizes : NormalizesCase normalizeCase) {event : KeyEvent} {ch : Char}
    (hcode : event.code = .char ch) (hsuper : event.modifiers.super = false)
    (hhyper : event.modifiers.hyper = false) :
    ∃ ch', (normalizeCase event).code = .char ch' ∧ (ch' = ch ∨ ch' = ch.toUpper) ∧
      ∀ bytes, characterBytes event.modifiers ch' = some bytes →
        ((tmuxKeyName normalizeCase event).bind tmuxKeyBytes = some bytes ↔
          ¬ (event.modifiers.ctrl = true ∧ event.modifiers.altOrMeta = true)) := by
  obtain ⟨ch', hcode', hcase⟩ := hnormalizes.character event ch hcode
  obtain ⟨shift, hmodifiers⟩ := hnormalizes.modifiers event
  have hname := tmuxKeyName_char hcode' (by rw [hmodifiers]; exact hsuper) (by rw [hmodifiers]; exact hhyper)
  have hctrl : (normalizeCase event).modifiers.ctrl = event.modifiers.ctrl := by rw [hmodifiers]
  have halt : (normalizeCase event).modifiers.altOrMeta = event.modifiers.altOrMeta := by
    rw [hmodifiers]
    rfl
  rw [hctrl, halt] at hname
  obtain ⟨name, hsome, hlist⟩ := map_eq_some_iff.mp hname
  refine ⟨ch', hcode', hcase, fun bytes hbytes => ?_⟩
  rw [hsome, bind_some, tmuxKeyBytes, hlist]
  unfold characterBytes at hbytes
  cases hc : event.modifiers.ctrl <;> cases ha : event.modifiers.altOrMeta <;> simp only [hc, ha] at hbytes
  · simpa [bytesOfName_character] using hbytes
  · simpa [bytesOfName_alt, bytesOfName_character] using hbytes
  · simpa [bytesOfName_control] using hbytes
  · simp [bytesOfName_controlAlt ch']

end Names

def normalizeByShift (event : KeyEvent) : KeyEvent :=
  match event.code with
  | .char ch =>
    if ch.isUpper then { event with modifiers := { event.modifiers with shift := true } }
    else if event.modifiers.shift then { event with code := .char ch.toUpper }
    else event
  | _ => event

theorem normalizesCase_byShift : NormalizesCase normalizeByShift where
  character event ch hcode := by
    unfold normalizeByShift
    rw [hcode]
    dsimp only
    split
    · exact ⟨ch, rfl, .inl rfl⟩
    · split
      · exact ⟨ch.toUpper, rfl, .inr rfl⟩
      · exact ⟨ch, hcode, .inl rfl⟩
  modifiers event := by
    unfold normalizeByShift
    split
    · split
      · exact ⟨true, rfl⟩
      · exact ⟨event.modifiers.shift, by split <;> rfl⟩
    · exact ⟨event.modifiers.shift, rfl⟩

def noModifiers : KeyModifiers := ⟨false, false, false, false, false, false⟩

def pressB : KeyEvent := ⟨.char 'b', modifiers, ⟨false, false, false⟩⟩

theorem tmuxKeyBytes_tmuxKeyName_iff_control :
    ∃ ch', (normalizeByShift (pressB { noModifiers with ctrl := true })).code = .char ch' ∧
      (ch' = 'b' ∨ ch' = Char.toUpper 'b') ∧
      ∀ bytes, characterBytes { noModifiers with ctrl := true } ch' = some bytes →
        ((tmuxKeyName normalizeByShift (pressB { noModifiers with ctrl := true })).bind tmuxKeyBytes = some bytes ↔
          ¬ (true = true ∧ KeyModifiers.altOrMeta { noModifiers with ctrl := true } = true)) :=
  @tmuxKeyBytes_tmuxKeyName_iff _ normalizesCase_byShift (pressB { noModifiers with ctrl := true }) 'b' rfl rfl rfl

/-- Control, Alt and `b`: the name has no bytes, the key has. -/
theorem controlAlt_loses_bytes :
    let modifiers := { noModifiers with ctrl := true, alt := true }
    tmuxKeyName normalizeByShift (pressB modifiers) = some "C-M-b" ∧ tmuxKeyBytes "C-M-b" = none ∧
      characterBytes modifiers 'b' = some [0x1b, 0x02] := by
  decide

end Lector.Tmux
