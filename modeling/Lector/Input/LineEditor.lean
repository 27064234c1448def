import Lector.Foundations.Clusters
import Lector.Foundations.Splitting
import Lector.Tmux.KeyNames
import Lector.Tmux.Queueing
import Mathlib.Data.List.Chain

/-! The line editor of the prompts (`src/line_editor.rs`): a text of bytes with a cursor that counts grapheme
clusters, and the history that takes the place of the text for a while. -/
namespace Lector.LineEditing
open Bytes Clusters Tmux List

/-! ## Editor -/

abbrev Text := List Char

inductive InputState
  | normal
  | esc
  | csi
  | ss3
deriving DecidableEq

inductive EditorAction
  | none
  | changed
  | submit
  | bell
deriving DecidableEq

structure LineEditor where
  input : Text
  cursor : Nat
  state : InputState
  csiBuf : Bytes
  history : List Text
  historyIndex : Option Nat
  historyDraft : Text

/-- A key with what `KeyInput` tells of it. -/
structure KeyInput where
  isRelease : Bool
  text : Option Text
  controlCode : Option UInt8
  normalizedEvent : KeyEvent

def byteLen (text : Text) : Nat := (text.map Char.utf8Size).sum

def takeBytes : Nat → Text → Text
  | _, [] => []
  | n, c :: text => if c.utf8Size ≤ n then c :: takeBytes (n - c.utf8Size) text else []

def dropBytes : Nat → Text → Text
  | _, [] => []
  | n, c :: text => if c.utf8Size ≤ n then dropBytes (n - c.utf8Size) text else c :: text

/-- How many clusters it takes to get to the byte `stop`. -/
def clustersTo (stop : Nat) : (start : Nat) → List Text → Nat
  | _, [] => 0
  | start, cluster :: rest =>
    if stop ≤ start + byteLen cluster then 1 else clustersTo stop (start + byteLen cluster) rest + 1

/-- A result that is `changed`, or else this action. -/
def acted (result : LineEditor × Bool) (otherwise : EditorAction) : LineEditor × EditorAction :=
  (result.1, if result.2 then .changed else otherwise)

namespace LineEditor

def new : LineEditor := ⟨[], 0, .normal, [], [], none, []⟩

section Editing

variable (isBreak : List Char → Char → Bool) (isAlphanumeric : Char → Bool) (self : LineEditor)

def clear : LineEditor := { self with input := [], cursor := 0, historyIndex := none, historyDraft := [] }

def commitHistoryEntry (line : Text) : LineEditor :=
  let ignored := (Splitting.trim isWhitespace line).isEmpty || line.head? == some ' ' ||
    self.history.getLast? == some line
  { self with
    history := if ignored then self.history else self.history ++ [line]
    historyIndex := none
    historyDraft := [] }

def commitHistory : LineEditor := self.commitHistoryEntry self.input

def graphemes : List Text := clusters isBreak self.input

def lenGraphemes : Nat := (self.graphemes isBreak).length

/-- `byte_index`: where the cluster starts, or the end of the text. -/
def byteIndex (index : Nat) : Nat := byteLen ((self.graphemes isBreak).take index).flatten

def showEntry (index : Nat) : LineEditor :=
  let input := self.history.getD index []
  { self with historyIndex := some index, input, cursor := (clusters isBreak input).length }

def historyUp : LineEditor × Bool :=
  if self.history = [] then (self, false)
  else match self.historyIndex with
    | some index => (self.showEntry isBreak (index - 1), true)
    | none => ({ self with historyDraft := self.input }.showEntry isBreak (self.history.length - 1), true)

def historyDown : LineEditor × Bool :=
  match self.historyIndex with
  | none => (self, false)
  | some index =>
    if self.history.length ≤ index + 1 then
      ({ self with
        historyIndex := none
        input := self.historyDraft
        cursor := (clusters isBreak self.historyDraft).length }, true)
    else (self.showEntry isBreak (index + 1), true)

def moveLeft : LineEditor := { self with cursor := self.cursor - 1 }

def moveRight : LineEditor :=
  if self.cursor < self.lenGraphemes isBreak then { self with cursor := self.cursor + 1 } else self

def moveHome : LineEditor := { self with cursor := 0 }

def moveEnd : LineEditor := { self with cursor := self.lenGraphemes isBreak }

def insertStr (text : Text) : LineEditor :=
  let start := self.byteIndex isBreak self.cursor
  let input := takeBytes start self.input ++ text ++ dropBytes start self.input
  { self with input, cursor := clustersTo (start + byteLen text) 0 (clusters isBreak input) }

/-- `replace_range` with nothing, from one cluster up to another. -/
def removeClusters (start stop : Nat) : LineEditor :=
  { self with
    input := takeBytes (self.byteIndex isBreak start) self.input ++
      dropBytes (self.byteIndex isBreak stop) self.input
    cursor := start }

def backspace : LineEditor :=
  if self.cursor = 0 then self else self.removeClusters isBreak (self.cursor - 1) self.cursor

def delete : LineEditor × Bool :=
  if self.lenGraphemes isBreak ≤ self.cursor then (self, false)
  else (self.removeClusters isBreak self.cursor (self.cursor + 1), true)

def isWordGrapheme (grapheme : Text) : Bool := grapheme.head?.any fun ch => isAlphanumeric ch || ch == '_'

/-- Where a word ends after skipping what is no word. -/
def skipWord (graphemes : List Text) : List Text :=
  (graphemes.dropWhile fun grapheme => !isWordGrapheme isAlphanumeric grapheme).dropWhile
    (isWordGrapheme isAlphanumeric)

def moveWordLeft : LineEditor :=
  { self with cursor := (skipWord isAlphanumeric ((self.graphemes isBreak).take self.cursor).reverse).length }

def moveWordRight : LineEditor :=
  if self.lenGraphemes isBreak ≤ self.cursor then self
  else { self with cursor := self.lenGraphemes isBreak -
    (skipWord isAlphanumeric ((self.graphemes isBreak).drop self.cursor)).length }

def eraseWordLeft : LineEditor × Bool :=
  let start := (self.moveWordLeft isBreak isAlphanumeric).cursor
  if start = self.cursor then (self, false)
  else (self.removeClusters isBreak start self.cursor, true)

/-! ## Input -/

def handleBackspace : LineEditor × EditorAction :=
  if self.cursor = 0 ∧ self.input = [] then (self, .bell)
  else if self.cursor = 0 then (self, .none)
  else (self.backspace isBreak, .changed)

def handleText (text : Text) : LineEditor × EditorAction :=
  if text = [] then (self, .none) else (self.insertStr isBreak text, .changed)

variable (byte : UInt8)

def handleByte : LineEditor × EditorAction :=
  if byte = 0x1b then ({ self with state := .esc }, .none)
  else if byte = 0x01 then (self.moveHome, .changed)
  else if byte = 0x05 then (self.moveEnd isBreak, .changed)
  else if byte = 0x10 then acted (self.historyUp isBreak) .bell
  else if byte = 0x0e then acted (self.historyDown isBreak) .bell
  else if byte = 0x17 then acted (self.eraseWordLeft isBreak isAlphanumeric) .bell
  else if byte = 0x0d ∨ byte = 0x0a then (self, .submit)
  else if byte = 0x7f ∨ byte = 0x08 then self.handleBackspace isBreak
  else if 0x20 ≤ byte ∧ byte < 0x7f then (self.insertStr isBreak [Char.ofNat byte.toNat], .changed)
  else (self, .none)

def handleEsc : LineEditor × EditorAction :=
  let normal := { self with state := .normal }
  if byte = 0x5b then ({ self with state := .csi, csiBuf := [] }, .none)
  else if byte = 0x4f then ({ self with state := .ss3 }, .none)
  else if byte = 0x62 then (normal.moveWordLeft isBreak isAlphanumeric, .changed)
  else if byte = 0x66 then (normal.moveWordRight isBreak isAlphanumeric, .changed)
  else if byte = 0x7f ∨ byte = 0x08 then acted (normal.eraseWordLeft isBreak isAlphanumeric) .bell
  else (normal, .none)

/-- The letters that end a cursor sequence, in `handle_csi` and `handle_ss3` alike. -/
def handleCursorKey : LineEditor × EditorAction :=
  if byte = 0x44 then (self.moveLeft, .changed)
  else if byte = 0x43 then (self.moveRight isBreak, .changed)
  else if byte = 0x41 then acted (self.historyUp isBreak) .bell
  else if byte = 0x42 then acted (self.historyDown isBreak) .bell
  else if byte = 0x48 then (self.moveHome, .changed)
  else if byte = 0x46 then (self.moveEnd isBreak, .changed)
  else (self, .none)

def parseCsiParam : Option Nat :=
  let digits := (self.csiBuf.takeWhile (· != 0x3b)).filter isDigit
  if digits = [] then none
  else some (digits.foldl (fun value d => min (min (value * 10) 65535 + (d.toNat - 0x30)) 65535) 0)

def handleCsiTilde : LineEditor × Bool :=
  match self.parseCsiParam with
  | some 1 | some 7 => (self.moveHome, true)
  | some 4 | some 8 => (self.moveEnd isBreak, true)
  | some 3 => self.delete isBreak
  | _ => (self, false)

def handleCsi : LineEditor × EditorAction :=
  let pushed := { self with csiBuf := self.csiBuf ++ [byte] }
  if byte < 0x40 ∨ 0x7e < byte then (pushed, .none)
  else
    let normal := { pushed with state := .normal }
    let (editor, action) := if byte = 0x7e then acted (normal.handleCsiTilde isBreak) .none
      else normal.handleCursorKey isBreak byte
    ({ editor with csiBuf := [] }, action)

def handleSs3 : LineEditor × EditorAction :=
  { self with state := .normal }.handleCursorKey isBreak byte

def handleOne : LineEditor × EditorAction :=
  match self.state with
  | .normal => self.handleByte isBreak isAlphanumeric byte
  | .esc => self.handleEsc isBreak isAlphanumeric byte
  | .csi => self.handleCsi isBreak byte
  | .ss3 => self.handleSs3 isBreak byte

/-- The loop over the bytes, which a submission ends. -/
def handleBytes (self : LineEditor) (action : EditorAction) : Bytes → LineEditor × EditorAction
  | [] => (self, action)
  | byte :: bytes =>
    let (editor, action) := self.handleOne isBreak isAlphanumeric byte
    if action = .submit then (editor, action) else editor.handleBytes action bytes

def handleKeyInput (key : KeyInput) : LineEditor × EditorAction :=
  if key.isRelease then (self, .none)
  else match key.text, key.controlCode with
    | some text, _ => self.handleText isBreak text
    | none, some control => self.handleByte isBreak isAlphanumeric control
    | none, none =>
      let modifiers := key.normalizedEvent.modifiers
      let wordModifier := modifiers.ctrl || modifiers.alt || modifiers.metaKey
      match key.normalizedEvent.code with
      | .enter => (self, .submit)
      | .backspace =>
        if wordModifier then acted (self.eraseWordLeft isBreak isAlphanumeric) .bell
        else self.handleBackspace isBreak
      | .delete => acted (self.delete isBreak) .bell
      | .left => (if wordModifier then self.moveWordLeft isBreak isAlphanumeric else self.moveLeft, .changed)
      | .right =>
        (if wordModifier then self.moveWordRight isBreak isAlphanumeric else self.moveRight isBreak, .changed)
      | .up => acted (self.historyUp isBreak) .bell
      | .down => acted (self.historyDown isBreak) .bell
      | .home => (self.moveHome, .changed)
      | .endKey => (self.moveEnd isBreak, .changed)
      | .char ch =>
        if modifiers.altOrMeta && ch.toLower == 'b' then
          (self.moveWordLeft isBreak isAlphanumeric, .changed)
        else if modifiers.altOrMeta && ch.toLower == 'f' then
          (self.moveWordRight isBreak isAlphanumeric, .changed)
        else (self, .none)
      | _ => (self, .none)

end Editing

end LineEditor

open LineEditor

/-! ## Edits -/

theorem takeBytes_append (before after : Text) : takeBytes (byteLen before) (before ++ after) = before := by
  induction before with
  | nil =>
    cases after with
    | nil => rfl
    | cons c after => exact if_neg (not_le.mpr c.utf8Size_pos)
  | cons c before ih =>
    have hlen : byteLen (c :: before) = c.utf8Size + byteLen before := rfl
    rw [cons_append, takeBytes, if_pos (by omega), hlen, Nat.add_sub_cancel_left, ih]

theorem dropBytes_append (before after : Text) : dropBytes (byteLen before) (before ++ after) = after := by
  induction before with
  | nil =>
    cases after with
    | nil => rfl
    | cons c after => exact if_neg (not_le.mpr c.utf8Size_pos)
  | cons c before ih =>
    have hlen : byteLen (c :: before) = c.utf8Size + byteLen before := rfl
    rw [cons_append, dropBytes, if_pos (by omega), hlen, Nat.add_sub_cancel_left, ih]

theorem clustersTo_le (stop start : Nat) (graphemes : List Text) :
    clustersTo stop start graphemes ≤ graphemes.length := by
  induction graphemes generalizing start with
  | nil => exact le_rfl
  | cons cluster rest ih =>
    rw [clustersTo]
    split
    · exact Nat.succ_le_succ (Nat.zero_le _)
    · exact Nat.succ_le_succ (ih _)

namespace LineEditor

variable (isBreak : List Char → Char → Bool) (isAlphanumeric : Char → Bool)

/-- The text before a cluster. -/
def before (self : LineEditor) (index : Nat) : Text := ((self.graphemes isBreak).take index).flatten

def after (self : LineEditor) (index : Nat) : Text := ((self.graphemes isBreak).drop index).flatten

/-- Each edit puts its text in for whole clusters, and what stands on both sides stays. -/
structure EditsInPlace (editor : LineEditor) : Prop where
  parts : ∀ index, editor.before isBreak index ++ editor.after isBreak index = editor.input
  insertStr : ∀ text, (editor.insertStr isBreak text).input =
    editor.before isBreak editor.cursor ++ text ++ editor.after isBreak editor.cursor
  backspace : ∀ index, editor.cursor = index + 1 → (editor.backspace isBreak).input =
    editor.before isBreak index ++ editor.after isBreak editor.cursor
  delete : editor.cursor < editor.lenGraphemes isBreak → (editor.delete isBreak).1.input =
    editor.before isBreak editor.cursor ++ editor.after isBreak (editor.cursor + 1)
  eraseWordLeft : (editor.eraseWordLeft isBreak isAlphanumeric).1.input =
    editor.before isBreak (editor.moveWordLeft isBreak isAlphanumeric).cursor ++
      editor.after isBreak editor.cursor

variable {isBreak isAlphanumeric} {self : LineEditor}

theorem before_append_after (index : Nat) : self.before isBreak index ++ self.after isBreak index = self.input :=
  take_drop_clusters isBreak self.input index

theorem take_byteIndex (index : Nat) :
    takeBytes (self.byteIndex isBreak index) self.input = self.before isBreak index := by
  conv_lhs => rw [← @before_append_after isBreak self index]
  exact takeBytes_append _ _

theorem drop_byteIndex (index : Nat) :
    dropBytes (self.byteIndex isBreak index) self.input = self.after isBreak index := by
  conv_lhs => rw [← @before_append_after isBreak self index]
  exact dropBytes_append _ _

theorem input_removeClusters (start stop : Nat) : (self.removeClusters isBreak start stop).input =
    self.before isBreak start ++ self.after isBreak stop := by
  rw [removeClusters, take_byteIndex, drop_byteIndex]

theorem editsInPlace (self : LineEditor) : self.EditsInPlace isBreak isAlphanumeric where
  parts := before_append_after
  insertStr text := by rw [insertStr, take_byteIndex, drop_byteIndex]
  backspace index h := by
    rw [backspace, if_neg (by omega), input_removeClusters, h, Nat.add_sub_cancel]
  delete h := by rw [delete, if_neg (by omega), input_removeClusters]
  eraseWordLeft := by
    rw [eraseWordLeft]
    split
    · rename_i hsame
      rw [hsame, before_append_after]
    · exact input_removeClusters _ _

/-! ## Cursor and history -/

/-- No entry is blank or begins with a space, and none stands twice in a row. -/
structure Clean (history : List Text) : Prop where
  worth : ∀ line ∈ history, (Splitting.trim isWhitespace line).isEmpty = false ∧ line.head? ≠ some ' '
  distinct : history.IsChain (· ≠ ·)

structure Sound (isBreak : List Char → Char → Bool) (editor : LineEditor) : Prop where
  cursor : editor.cursor ≤ editor.lenGraphemes isBreak
  index : ∀ index, editor.historyIndex = some index → index < editor.history.length
  clean : Clean editor.history

section

variable (h : self.Sound isBreak)
include h

theorem Sound.clear : self.clear.Sound isBreak := ⟨Nat.zero_le _, nofun, h.clean⟩

theorem Sound.withCursor {cursor : Nat} (hcursor : cursor ≤ self.lenGraphemes isBreak) :
    { self with cursor := cursor }.Sound isBreak :=
  ⟨hcursor, h.index, h.clean⟩

theorem Sound.commitHistoryEntry (line : Text) : (self.commitHistoryEntry line).Sound isBreak := by
  refine ⟨h.cursor, nofun, ?_⟩
  show Clean (if _ then _ else _)
  split
  · exact h.clean
  · rename_i hkept
    simp only [Bool.or_eq_true, not_or, Bool.not_eq_true, beq_eq_false_iff_ne] at hkept
    obtain ⟨⟨hblank, hspace⟩, hlast⟩ := hkept
    constructor
    · rw [forall_mem_append]
      exact ⟨h.clean.worth, forall_mem_singleton.mpr ⟨hblank, hspace⟩⟩
    · rw [isChain_append]
      refine ⟨h.clean.distinct, isChain_singleton _, fun x hx y hy => ?_⟩
      obtain rfl : line = y := Option.some.inj hy
      rintro rfl
      exact hlast hx

theorem Sound.showEntry {index : Nat} (hindex : index < self.history.length) :
    (self.showEntry isBreak index).Sound isBreak :=
  ⟨le_rfl, fun _ heq => Option.some.inj heq ▸ hindex, h.clean⟩

theorem Sound.historyUp : (self.historyUp isBreak).1.Sound isBreak := by
  unfold LineEditor.historyUp
  split
  · exact h
  · rename_i hne
    have hpos := length_pos_iff.mpr hne
    split
    · rename_i index hindex
      have hlt := h.index index hindex
      exact h.showEntry (by omega)
    · have hdraft : { self with historyDraft := self.input }.Sound isBreak := ⟨h.cursor, h.index, h.clean⟩
      exact hdraft.showEntry (Nat.sub_lt hpos one_pos)

theorem Sound.historyDown : (self.historyDown isBreak).1.Sound isBreak := by
  unfold LineEditor.historyDown
  split
  · exact h
  · split
    · exact ⟨le_rfl, nofun, h.clean⟩
    · exact h.showEntry (by omega)

theorem Sound.insertStr (text : Text) : (self.insertStr isBreak text).Sound isBreak :=
  ⟨clustersTo_le _ _ _, h.index, h.clean⟩

theorem Sound.removeClusters {start : Nat} (hstart : start ≤ self.cursor)
    (stop : Nat) : (self.removeClusters isBreak start stop).Sound isBreak := by
  refine ⟨?_, h.index, h.clean⟩
  show start ≤ (clusters isBreak (self.removeClusters isBreak start stop).input).length
  rw [input_removeClusters]
  exact le_length_clusters isBreak (hstart.trans h.cursor) _

theorem Sound.backspace : (self.backspace isBreak).Sound isBreak := by
  unfold LineEditor.backspace
  split
  · exact h
  · exact h.removeClusters (Nat.sub_le _ _) _

theorem Sound.delete : (self.delete isBreak).1.Sound isBreak := by
  unfold LineEditor.delete
  split
  · exact h
  · exact h.removeClusters le_rfl _

end

theorem length_skipWord_le (graphemes : List Text) :
    (skipWord isAlphanumeric graphemes).length ≤ graphemes.length :=
  (length_dropWhile_le _ _).trans (length_dropWhile_le _ _)

theorem cursor_moveWordLeft_le (self : LineEditor) :
    (self.moveWordLeft isBreak isAlphanumeric).cursor ≤ self.cursor := by
  refine (length_skipWord_le _).trans ?_
  rw [length_reverse]
  exact length_take_le _ _

section

variable (h : self.Sound isBreak)
include h

theorem Sound.moveWordLeft : (self.moveWordLeft isBreak isAlphanumeric).Sound isBreak :=
  h.withCursor ((cursor_moveWordLeft_le self).trans h.cursor)

theorem Sound.moveWordRight : (self.moveWordRight isBreak isAlphanumeric).Sound isBreak := by
  unfold LineEditor.moveWordRight
  split
  · exact h
  · exact h.withCursor (Nat.sub_le _ _)

theorem Sound.eraseWordLeft : (self.eraseWordLeft isBreak isAlphanumeric).1.Sound isBreak := by
  unfold LineEditor.eraseWordLeft
  dsimp only
  split
  · exact h
  · exact h.removeClusters (cursor_moveWordLeft_le self) _

theorem Sound.moveRight : (self.moveRight isBreak).Sound isBreak := by
  unfold LineEditor.moveRight
  split
  · exact h.withCursor ‹_›
  · exact h

theorem Sound.moveLeft : self.moveLeft.Sound isBreak :=
  h.withCursor ((Nat.sub_le _ _).trans h.cursor)

theorem Sound.moveHome : self.moveHome.Sound isBreak := h.withCursor (Nat.zero_le _)

theorem Sound.moveEnd : (self.moveEnd isBreak).Sound isBreak := h.withCursor le_rfl

/-- The parser's own fields do not matter. -/
theorem Sound.parsing (state : InputState) (csiBuf : Bytes) : { self with state, csiBuf }.Sound isBreak :=
  ⟨h.cursor, h.index, h.clean⟩

/-! ## Input -/

theorem Sound.handleBackspace : (self.handleBackspace isBreak).1.Sound isBreak := by
  unfold LineEditor.handleBackspace
  split
  · exact h
  · split
    · exact h
    · exact h.backspace

theorem Sound.handleText (text : Text) : (self.handleText isBreak text).1.Sound isBreak := by
  unfold LineEditor.handleText
  split
  · exact h
  · exact h.insertStr text

variable (byte : UInt8)

theorem Sound.handleByte : (self.handleByte isBreak isAlphanumeric byte).1.Sound isBreak := by
  unfold LineEditor.handleByte
  split
  · exact h.parsing _ _
  split
  · exact h.moveHome
  split
  · exact h.moveEnd
  split
  · exact h.historyUp
  split
  · exact h.historyDown
  split
  · exact h.eraseWordLeft
  split
  · exact h
  split
  · exact h.handleBackspace
  split
  · exact h.insertStr _
  · exact h

theorem Sound.handleEsc : (self.handleEsc isBreak isAlphanumeric byte).1.Sound isBreak := by
  have hnormal := h.parsing .normal self.csiBuf
  unfold LineEditor.handleEsc
  split
  · exact h.parsing _ _
  split
  · exact h.parsing _ _
  split
  · exact hnormal.moveWordLeft
  split
  · exact hnormal.moveWordRight
  split
  · exact hnormal.eraseWordLeft
  · exact hnormal

theorem Sound.handleCursorKey : (self.handleCursorKey isBreak byte).1.Sound isBreak := by
  unfold LineEditor.handleCursorKey
  split
  · exact h.moveLeft
  split
  · exact h.moveRight
  split
  · exact h.historyUp
  split
  · exact h.historyDown
  split
  · exact h.moveHome
  split
  · exact h.moveEnd
  · exact h

theorem Sound.handleCsi : (self.handleCsi isBreak byte).1.Sound isBreak := by
  have hpushed := h.parsing self.state (self.csiBuf ++ [byte])
  have hnormal := hpushed.parsing .normal (self.csiBuf ++ [byte])
  unfold LineEditor.handleCsi
  split
  · exact hpushed
  · refine Sound.parsing ?_ _ []
    split
    · unfold LineEditor.handleCsiTilde
      split
      · exact hnormal.moveHome
      · exact hnormal.moveHome
      · exact hnormal.moveEnd
      · exact hnormal.moveEnd
      · exact hnormal.delete
      · exact hnormal
    · exact hnormal.handleCursorKey byte

theorem Sound.handleOne : (self.handleOne isBreak isAlphanumeric byte).1.Sound isBreak := by
  unfold LineEditor.handleOne
  split
  · exact h.handleByte byte
  · exact h.handleEsc byte
  · exact h.handleCsi byte
  · exact (h.parsing .normal self.csiBuf).handleCursorKey byte

theorem Sound.handleBytes (action : EditorAction) (bytes : Bytes) :
    (self.handleBytes isBreak isAlphanumeric action bytes).1.Sound isBreak := by
  induction bytes generalizing self action with
  | nil => exact h
  | cons byte bytes ih =>
    have hone := @Sound.handleOne isBreak isAlphanumeric self h byte
    rw [handleBytes]
    dsimp only
    split
    · exact hone
    · exact ih hone _

theorem Sound.handleKeyInput (key : KeyInput) :
    (self.handleKeyInput isBreak isAlphanumeric key).1.Sound isBreak := by
  unfold LineEditor.handleKeyInput
  split
  · exact h
  split
  · exact h.handleText _
  · exact h.handleByte _
  dsimp only
  split
  · exact h
  · split
    · exact h.eraseWordLeft
    · exact h.handleBackspace
  · exact h.delete
  · split
    · exact h.moveWordLeft
    · exact h.moveLeft
  · split
    · exact h.moveWordRight
    · exact h.moveRight
  · exact h.historyUp
  · exact h.historyDown
  · exact h.moveHome
  · exact h.moveEnd
  · split
    · exact h.moveWordLeft
    · split
      · exact h.moveWordRight
      · exact h
  · exact h

end

/-! ## Walking through the history -/

def up (isBreak : List Char → Char → Bool) (editor : LineEditor) : LineEditor := (editor.historyUp isBreak).1

def down (isBreak : List Char → Char → Bool) (editor : LineEditor) : LineEditor :=
  (editor.historyDown isBreak).1

theorem up_iterate (hnone : self.historyIndex = none) (hne : self.history ≠ []) (k : Nat) :
    let walked := (up isBreak)^[k + 1] self
    walked.historyIndex = some (self.history.length - min (k + 1) self.history.length) ∧
      walked.historyDraft = self.input ∧ walked.history = self.history := by
  have hpos := length_pos_iff.mpr hne
  induction k with
  | zero =>
    have hup : up isBreak self =
        { self with historyDraft := self.input }.showEntry isBreak (self.history.length - 1) := by
      simp only [up, historyUp, hne, if_false, hnone]
    show (up isBreak self).historyIndex = _ ∧ (up isBreak self).historyDraft = _ ∧ (up isBreak self).history = _
    rw [hup, min_eq_left hpos]
    exact ⟨rfl, rfl, rfl⟩
  | succ k ih =>
    obtain ⟨hindex, hdraft, hhistory⟩ := ih
    rw [Function.iterate_succ_apply']
    generalize (up isBreak)^[k + 1] self = walked at hindex hdraft hhistory
    have hup : up isBreak walked =
        walked.showEntry isBreak (self.history.length - min (k + 1) self.history.length - 1) := by
      simp only [up, historyUp, hhistory, hne, if_false, hindex]
    rw [hup]
    refine ⟨congrArg some ?_, hdraft, hhistory⟩
    omega

theorem down_iterate {left index : Nat} (hindex : self.historyIndex = some index)
    (hleft : index + left + 1 = self.history.length) :
    ((down isBreak)^[left + 1] self).input = self.historyDraft := by
  induction left generalizing self index with
  | zero =>
    show (down isBreak self).input = _
    simp only [down, historyDown, hindex]
    rw [if_pos (by omega)]
  | succ left ih =>
    have hstep : down isBreak self = self.showEntry isBreak (index + 1) := by
      simp only [down, historyDown, hindex]
      rw [if_neg (by omega)]
    rw [Function.iterate_succ_apply, hstep]
    refine ih rfl ?_
    show index + 1 + left + 1 = self.history.length
    omega

theorem draft_restored (hnone : self.historyIndex = none) (k : Nat) :
    ((down isBreak)^[min k self.history.length] ((up isBreak)^[k] self)).input = self.input := by
  by_cases hempty : self.history = []
  · have hup : up isBreak self = self := by rw [up, historyUp, if_pos hempty]
    rw [hempty, length_nil, min_zero, Function.iterate_fixed hup k]
    rfl
  · cases k with
    | zero => simp
    | succ k =>
      have hpos := length_pos_iff.mpr hempty
      obtain ⟨hindex, hdraft, hhistory⟩ := @up_iterate isBreak self hnone hempty k
      obtain ⟨left, hleft⟩ : ∃ left, min (k + 1) self.history.length = left + 1 :=
        ⟨min (k + 1) self.history.length - 1, by omega⟩
      rw [hleft, down_iterate hindex (by rw [hhistory]; omega), hdraft]

end LineEditor

/-! ## Runs -/

inductive Op
  | handleBytes (bytes : Bytes)
  | handleKeyInput (key : KeyInput)
  | handleText (text : Text)
  | commitHistory
  | commitHistoryEntry (line : Text)
  | clear

def Op.apply (isBreak : List Char → Char → Bool) (isAlphanumeric : Char → Bool) (editor : LineEditor) :
    Op → LineEditor
  | handleBytes bytes => (editor.handleBytes isBreak isAlphanumeric .none bytes).1
  | handleKeyInput key => (editor.handleKeyInput isBreak isAlphanumeric key).1
  | handleText text => (editor.handleText isBreak text).1
  | commitHistory => editor.commitHistory
  | commitHistoryEntry line => editor.commitHistoryEntry line
  | clear => editor.clear

/-- **Whatever is typed, pasted and committed, the cursor and the history index stay valid and the history
clean, edits stay in their place, and a walk up and down the history gives the draft back.** -/
theorem run_sound (isBreak : List Char → Char → Bool) (isAlphanumeric : Char → Bool) (ops : List Op) :
    let editor := ops.foldl (Op.apply isBreak isAlphanumeric) .new
    editor.Sound isBreak ∧ editor.EditsInPlace isBreak isAlphanumeric ∧ (editor.historyIndex = none → ∀ k,
        ((down isBreak)^[min k editor.history.length]
          ((up isBreak)^[k] editor)).input = editor.input) := by
  intro editor
  have hsound : ∀ (ops : List Op) (start : LineEditor), start.Sound isBreak →
      (ops.foldl (Op.apply isBreak isAlphanumeric) start).Sound isBreak := by
    intro ops
    induction ops with
    | nil => exact fun _ h => h
    | cons op ops ih =>
      intro start h
      refine ih _ ?_
      cases op with
      | handleBytes bytes => exact h.handleBytes _ bytes
      | handleKeyInput key => exact h.handleKeyInput key
      | handleText text => exact h.handleText text
      | commitHistory => exact h.commitHistoryEntry _
      | commitHistoryEntry line => exact h.commitHistoryEntry line
      | clear => exact h.clear
  exact ⟨hsound ops _ ⟨Nat.zero_le _, nofun, ⟨forall_mem_nil _, isChain_nil⟩⟩, editor.editsInPlace,
    draft_restored⟩

end Lector.LineEditing
