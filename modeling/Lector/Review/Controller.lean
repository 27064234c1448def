import Lector.Review.Motions

/-! The review view (`src/views/review.rs`): the cursor, the part of the document that is shown, and what keys,
pastes and resizes do to them. What is drawn is left out. -/
namespace Lector.Review
open Terminal Lector.Topology

namespace ReviewDocument

variable (self : ReviewDocument)

def maxViewportTop (height : Nat) : Nat := self.rowCount - max height 1

/-- The greatest `end` of a row, or one. -/
def widest : Nat := max ((self.rows.map Row.stop).foldr max 0) 1

def maxViewportLeft (width : Nat) : Nat := self.widest - max width 1

def previousPosition (position : HistoryPosition) : Option HistoryPosition := do
  let index ← self.positions.idxOf? position
  if index = 0 then none else self.positions[index - 1]?

end ReviewDocument

structure LastSearch where
  query : String
  direction : SearchDirection
deriving DecidableEq

structure SearchPrompt where
  query : String
  direction : SearchDirection
deriving DecidableEq

inductive ViewAction
  | none
  | bell
  | pop
  | redraw
deriving DecidableEq

def SearchDirection.reverse : SearchDirection → SearchDirection
  | .forward => .backward
  | .backward => .forward

structure ReviewView where
  document : ReviewDocument
  parser : Parser
  cursor : HistoryPosition
  viewportTop : Nat
  viewportLeft : Nat
  rows : Nat
  cols : Nat
  visualAnchor : Option HistoryPosition
  visualKind : VisualKind
  lastFind : Option LastFind
  lastSearch : Option LastSearch
  searchPrompt : Option SearchPrompt

/-- `speak` says whether it succeeded, `writeClipboard` gives the text of its error. -/
structure ScreenReader (σ : Type) where
  speak : String → σ → Bool × σ
  writeClipboard : ClipboardRegister → String → σ → Option String × σ
  clipboardDefaultRegister : σ → ClipboardRegister

/-- Letters and digits, regular expressions, and a text without its last grapheme. -/
structure TextLibrary where
  isAlphanumeric : Char → Bool
  regex : ReviewDocument.RegexEngine
  withoutLast : String → Option String

namespace ReviewView

variable (self : ReviewView)

/-! ## The viewport -/

def documentHeight : Nat := self.rows - if self.searchPrompt.isSome then 1 else 0

def ensureCursorVisible : ReviewView :=
  let height := max self.documentHeight 1
  let top :=
    if self.cursor.row < self.viewportTop then self.cursor.row
    else if saturatingAdd 64 self.viewportTop height ≤ self.cursor.row then
      saturatingAdd 64 self.cursor.row 1 - height
    else self.viewportTop
  let width := max self.cols 1
  let left :=
    if self.cursor.col < self.viewportLeft then self.cursor.col
    else if saturatingAdd 16 self.viewportLeft width ≤ self.cursor.col then
      saturatingAdd 16 self.cursor.col 1 - width
    else self.viewportLeft
  { self with
    viewportTop := min top (self.document.rowCount - 1)
    viewportLeft := min left (self.document.maxViewportLeft width) }

def render : ReviewView := self.ensureCursorVisible

/-- `capture` and `new_with_identity`, for a view of this size. -/
def new (document : ReviewDocument) (initial : HistoryPosition) (initialTop rows cols : Nat) : ReviewView :=
  let review : ReviewView := {
    document
    parser := .default
    cursor := document.clamp initial
    viewportTop := min initialTop (document.maxViewportTop rows)
    viewportLeft := 0
    rows
    cols
    visualAnchor := none
    visualKind := .character
    lastFind := none
    lastSearch := none
    searchPrompt := none }
  review.ensureCursorVisible.render

def scrollPage (forward : Bool) (count : Nat) : ViewAction × ReviewView :=
  let distance := min (max self.documentHeight 1 * count) (2 ^ 64 - 1)
  let maxTop := self.document.maxViewportTop self.documentHeight
  let targetTop :=
    if forward then min (saturatingAdd 64 self.viewportTop distance) maxTop else self.viewportTop - distance
  let targetCursor := self.document.moveVertical self.cursor forward distance
  if targetTop = self.viewportTop ∧ targetCursor = none then (.bell, self)
  else
    (.redraw, { self with
      viewportTop := targetTop
      cursor := targetCursor.elim self.cursor self.document.clamp }.render)

def newPageUp (document : ReviewDocument) (initial : HistoryPosition) (initialTop rows cols : Nat) : ReviewView :=
  ((new document initial initialTop rows cols).scrollPage false 1).2

def repositionViewport (placement : ViewportPlacement) (line : Option Nat) (firstNonblank : Bool) :
    ViewAction × ReviewView :=
  let cursor := line.elim self.cursor fun line =>
    self.document.clamp { self.cursor with row := min (line - 1) (self.document.rowCount - 1) }
  let cursor :=
    if firstNonblank then { cursor with col := self.document.lineFirstNonblank cursor.row } else cursor
  let height := max self.documentHeight 1
  let top := match placement with
    | .top => cursor.row
    | .center => cursor.row - height / 2
    | .bottom => cursor.row - (height - 1)
  (.redraw, { self with cursor, viewportTop := top }.render)

def moveTo (target : HistoryPosition) : ViewAction × ReviewView :=
  (.redraw, { self with cursor := self.document.clamp target }.render)

def placeApplicationCursor (row col : Nat) : ReviewView :=
  (self.moveTo ⟨saturatingAdd 64 self.viewportTop row, saturatingAdd 16 self.viewportLeft col⟩).2

def onResize (rows cols : Nat) : ReviewView :=
  let cursorScreenRow := self.cursor.row - self.viewportTop
  let cursorScreenCol := self.cursor.col - self.viewportLeft
  let resized := { self with rows, cols }
  let height := max resized.documentHeight 1
  let desiredScreenRow := min cursorScreenRow (height - 1)
  let width := max cols 1
  let desiredScreenCol := min cursorScreenCol (width - 1)
  { resized with
    viewportTop := min (self.cursor.row - desiredScreenRow) (self.document.maxViewportTop height)
    viewportLeft := min (self.cursor.col - desiredScreenCol) (self.document.maxViewportLeft width)
  }.ensureCursorVisible.render

/-! ## Yanks -/

def yankMotionText (motion : Motion) (target : HistoryPosition) : Option String :=
  match motion with
  | .up | .down | .documentStart | .documentEnd => self.document.yankRange self.cursor target true
  | .left | .right | .lineStart | .firstNonblank | .word .forwardStart _ | .word .backwardStart _ | .prompt _ =>
    if self.cursor.lt target then
      (self.document.previousPosition target).bind (self.document.yankRange self.cursor · false)
    else (self.document.previousPosition self.cursor).bind (self.document.yankRange target · false)
  | _ => self.document.yankRange self.cursor target false

/-! ## Keys -/

section Keys

variable {σ : Type} (library : TextLibrary) (sr : ScreenReader σ) (state : σ)

/-- A `Result<ViewAction>`, without the text of the error, and what is left. -/
abbrev Handled (σ : Type) := Option ViewAction × ReviewView × σ

/-- `speak(text)?`, and then the action. -/
def speaks (text : String) (action : ViewAction) (spoken : ReviewView) : Handled σ :=
  let said := sr.speak text state
  if said.1 then (some action, spoken, said.2) else (none, self, said.2)

def yank (register : Option ClipboardRegister) (text : Option String) : Handled σ :=
  match text with
  | none => (some .bell, self, state)
  | some text =>
    let written := sr.writeClipboard (register.getD (sr.clipboardDefaultRegister state)) text state
    match written.1 with
    | some error => self.speaks sr written.2 error .bell self
    | none => self.speaks sr written.2 "copied" .none { self with visualAnchor := none }

def motionTarget (motion : Motion) (count : Nat) : Option (HistoryPosition × Option LastFind) :=
  ReviewCursor.motionTarget library.isAlphanumeric self.document ⟨self.cursor, self.lastFind⟩ motion count

def handleCommand (command : Command) : Handled σ :=
  let answer := fun (answer : ViewAction × ReviewView) => (some answer.1, answer.2, state)
  match command with
  | .none => (some .none, self, state)
  | .bell => (some .bell, self, state)
  | .exit => (some .pop, self, state)
  | .startVisual kind =>
    let started := { self with visualAnchor := some self.cursor, visualKind := kind }
    started.speaks sr state (match kind with
      | .character => "visual"
      | .line => "visual line") .none started
  | .cancelVisual =>
    let cancelled := { self with visualAnchor := none }
    cancelled.speaks sr state "visual cancelled" .none cancelled
  | .move motion count | .moveVisual motion count =>
    match self.motionTarget library motion count with
    | none => (some .bell, self, state)
    | some (target, lastFind) => answer ({ self with lastFind }.moveTo target)
  | .scrollPage forward count => answer (self.scrollPage forward count)
  | .repositionViewport placement line firstNonblank =>
    answer (self.repositionViewport placement line firstNonblank)
  | .yankMotion motion count register =>
    match self.motionTarget library motion count with
    | none => (some .bell, self, state)
    | some (target, lastFind) =>
      { self with lastFind }.yank sr state register (self.yankMotionText motion target)
  | .yankLine count register =>
    let lastRow := min (saturatingAdd 64 self.cursor.row (count - 1)) (self.document.rowCount - 1)
    self.yank sr state register
      (self.document.yankRange self.cursor ⟨lastRow, self.document.lineLastCol lastRow⟩ true)
  | .yankTextObject (.word style around) count register =>
    self.yank sr state register
      ((self.document.innerWordRange library.isAlphanumeric style self.cursor around count).bind fun range =>
        self.document.yankRange range.1 range.2 false)
  | .yankVisual register =>
    match self.visualAnchor with
    | none => (some .bell, self, state)
    | some anchor =>
      { self with visualAnchor := none }.yank sr state register
        (self.document.yankRange anchor self.cursor (self.visualKind == VisualKind.line))
  | .startSearch direction => answer (.redraw, { self with searchPrompt := some ⟨"", direction⟩ }.render)
  | .repeatSearch reverse count =>
    match self.lastSearch with
    | none => (some .bell, self, state)
    | some last =>
      let direction := if reverse then last.direction.reverse else last.direction
      match self.document.search library.regex last.query self.cursor direction count with
      | none => (some .bell, self, state)
      | some target => answer (self.moveTo target)

def finishSearch (prompt : SearchPrompt) : ViewAction × ReviewView :=
  let query := if prompt.query = "" then self.lastSearch.map LastSearch.query else some prompt.query
  match query with
  | none => (.bell, self)
  | some query =>
    match self.document.search library.regex query self.cursor prompt.direction 1 with
    | none => (.bell, self)
    | some target =>
      { self with lastSearch := some ⟨query, prompt.direction⟩, searchPrompt := none }.moveTo target

def handleSearchKey (prompt : SearchPrompt) (key : Key) : ViewAction × ReviewView :=
  let edited := fun (query : String) =>
    (ViewAction.redraw, { self with searchPrompt := some { prompt with query } }.render)
  match key with
  | .escape => (.redraw, { self with searchPrompt := none }.render)
  | .backspace =>
    match library.withoutLast prompt.query with
    | none => (.bell, self)
    | some query => edited query
  | .ctrl 'u' => if prompt.query = "" then (.bell, self) else edited ""
  | .enter => self.finishSearch library prompt
  | .char ch => if isControl ch then (.bell, self) else edited (prompt.query.push ch)
  | _ => (.bell, self)

def handleReviewKey (key : Key) : Handled σ :=
  match self.searchPrompt with
  | some prompt =>
    let answer := self.handleSearchKey library prompt key
    (some answer.1, answer.2, state)
  | none =>
    let fed := self.parser.feed key
    { self with parser := fed.1 }.handleCommand library sr state fed.2

def handleKeys (self : ReviewView) (state : σ) : ViewAction → List Key → Handled σ
  | result, [] => (some result, self, state)
  | result, key :: rest =>
    match self.handleReviewKey library sr state key with
    | (none, self, state) => (none, self, state)
    | (some .pop, self, state) => (some .pop, self, state)
    | (some .bell, self, state) => (some .bell, self, state)
    | (some .redraw, self, state) => handleKeys self state .redraw rest
    | (some .none, self, state) => handleKeys self state result rest

end Keys

/-! ## Events -/

def rawKey (byte : UInt8) : Key :=
  if byte = 0x1B then .escape
  else if byte = 0x0D ∨ byte = 0x0A then .enter
  else if byte = 0x08 ∨ byte = 0x7F then .backspace
  else if byte = 0x02 then .ctrl 'b'
  else if byte = 0x04 then .ctrl 'd'
  else if byte = 0x06 then .ctrl 'f'
  else if byte = 0x15 then .ctrl 'u'
  else if 0x20 ≤ byte ∧ byte < 0x7F then .char (Char.ofNat byte.toNat)
  else .unknown

def textKeys (text : String) : List Key := (text.toList.filter (!isControl ·)).map .char

/-- What a key press is: `semantic_key` of it, and its text. -/
structure KeyInput where
  isRelease : Bool
  semantic : Key
  text : Option String

inductive ReviewEvent
  | input (bytes : List UInt8)
  | keyInput (key : KeyInput)
  | paste (contents : String)
  | placeApplicationCursor (row col : Nat)
  | resize (rows cols : Nat)

def ReviewEvent.keys : ReviewEvent → List Key
  | .input bytes => bytes.map rawKey
  | .keyInput key =>
    if key.isRelease then []
    else if key.semantic ≠ .unknown then [key.semantic]
    else key.text.elim [.unknown] textKeys
  | .paste contents => textKeys contents
  | _ => []

variable {σ : Type} (library : TextLibrary) (sr : ScreenReader σ)

def step (reached : ReviewView × σ) (event : ReviewEvent) : ReviewView × σ :=
  let view := reached.1
  match event with
  | .placeApplicationCursor row col => (view.placeApplicationCursor row col, reached.2)
  | .resize rows cols => (view.onResize rows cols, reached.2)
  | .paste contents =>
    if view.searchPrompt = none then reached
    else (view.handleKeys library sr reached.2 .none (textKeys contents)).2
  | event => (view.handleKeys library sr reached.2 .none event.keys).2

def run (start : ReviewView × σ) (events : List ReviewEvent) : ReviewView × σ :=
  events.foldl (step library sr) start

end ReviewView
end Lector.Review
