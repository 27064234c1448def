import Lector.Presentation.Incremental
import Lector.Presentation.RowCommands

/-! A repaint of the whole scene (`FullSceneVtRenderer` in `src/presentation.rs`), as bytes and as the
commands that they are. -/
namespace Lector.Presentation
open Output Terminal List

/-- The capabilities, with `kitty_graphics` among them. -/
structure FullSceneVtRenderer where
  capabilities : RenderCapabilities
  kittyGraphics : Bool

namespace FullSceneVtRenderer

variable (renderer : FullSceneVtRenderer)

/-! ## Bytes -/

variable (intended : PresentedScene)

/-- Horizontal margins are reset while their mode is on, and then the mode is off again. -/
def writeBaseline : Bytes :=
  (if renderer.capabilities.synchronizedOutput then ascii "\x1b[?2026h" else []) ++
    ascii "\x1b[?6l\x1b[?7h\x1b[4l\x1b[r\x1b[?69h" ++ ascii s!"\x1b[1;{intended.geometry.cols}s" ++
    ascii "\x1b[?69l\x1b[0m\x1b]8;;\x1b\\"

variable (retained : Option (List PresentedImageUpload))

def writeErase : Bytes :=
  if retained.isSome then ascii "\x1b[H" else ascii "\x1b[2J\x1b[H"

def writeEffects : Bytes :=
  if renderer.capabilities.inlineTerminalEffects then
    writeTerminalString 2 intended.title ++ writeTerminalString 7 intended.workingDirectory
  else []

variable (scene : Scene) (media : SceneMedia)

def kittyImages (intended : PresentedMedia)
    (retained : Option (List PresentedImageUpload)) :
    Option (Except MediaError (List GraphicsCommand)) :=
  if renderer.kittyGraphics then writeKittyImages scene media intended.images (retained.getD [])
  else some (.ok [])

def kittyDeletions (intended : PresentedMedia) (retained : Option (List PresentedImageUpload)) :
    List GraphicsCommand :=
  if renderer.kittyGraphics then writeKittyDeletions intended retained else []

def writeEnd : Bytes :=
  ascii "\x1b]8;;\x1b\\\x1b[0m" ++ writeCursor intended.cursor ++ writeModes intended.modes ++
    List.replicate intended.bellCount bellByte

variable (intended : PresentedScene) (intendedMedia : PresentedMedia)

variable (retained : Option (List PresentedImageUpload))

/-- The result `none` is a search for an identifier that does not end. -/
def encode
    :
    Option (Except MediaError Bytes) :=
  (renderer.kittyImages scene media intendedMedia retained).map fun images => images.map fun images =>
    renderer.writeBaseline intended ++
      (renderer.kittyDeletions intendedMedia retained).flatMap GraphicsCommand.bytes ++
      writeErase retained ++ renderer.writeEffects intended ++ writeFullRows intended ++
      images.flatMap GraphicsCommand.bytes ++ writeEnd intended

/-! ## Commands -/

def baselineCommands : List OuterCommand :=
  (if renderer.capabilities.synchronizedOutput then [.privateMode 2026 true] else []) ++
    [.privateMode 6 false, .privateMode 7 true, .insertMode false, .resetMargins, .privateMode 69 true,
      .horizontalMargins 1 intended.geometry.cols.toNat, .privateMode 69 false, .rendition [[0]],
      .link ""]

def eraseCommands : List OuterCommand :=
  if retained.isSome then [.home] else [.eraseDisplay, .home]

def effectCommands : List OuterCommand :=
  if renderer.capabilities.inlineTerminalEffects then
    [.terminalString 2 intended.title, .terminalString 7 intended.workingDirectory]
  else []

def cursorCommands (cursor : Cursor) : List OuterCommand :=
  [.cursorTo (saturatingAdd 16 cursor.row 1) (saturatingAdd 16 cursor.col 1),
    .cursorShape (cursorShapeCode cursor.shape), .privateMode 25 cursor.visible]

def mouseEncodingCommands : MouseEncoding → List OuterCommand
  | .default => []
  | .utf8 => [.privateMode 1005 true]
  | .sgr => [.privateMode 1006 true]

def modesCommands (modes : TerminalModes) : List OuterCommand :=
  [.keypad modes.applicationKeypad, .privateMode 1 modes.applicationCursor,
      .privateMode 2004 modes.bracketedPaste, .privateMode 1004 modes.focusReporting] ++
    [9, 1000, 1002, 1003, 1005, 1006].map (OuterCommand.privateMode · false) ++
    (mouseMode modes.mouseProtocol).toList.map (OuterCommand.privateMode · true) ++
    mouseEncodingCommands modes.mouseEncoding ++
    [.keyboardFlags modes.kittyKeyboardFlags, .privateMode 2026 modes.synchronizedOutput]

def endCommands : List OuterCommand :=
  [.link "", .rendition [[0]]] ++ cursorCommands intended.cursor ++ modesCommands intended.modes ++
    List.replicate intended.bellCount .bell

def encodeCommands
    :
    Option (Except MediaError (List OuterCommand)) :=
  (renderer.kittyImages scene media intendedMedia retained).map fun images => images.map fun images =>
    renderer.baselineCommands intended ++
      (renderer.kittyDeletions intendedMedia retained).map .graphics ++ eraseCommands retained ++
      renderer.effectCommands intended ++ fullRowsCommands intended ++ images.map .graphics ++
      endCommands intended

/-! ## The bytes of the commands -/

theorem baselineCommands_bytes :
    commandBytes (renderer.baselineCommands intended) = renderer.writeBaseline intended := by
  rw [writeBaseline, baselineCommands, commandBytes_append, commandBytes_ite]
  simp only [append_assoc]
  rfl

theorem eraseCommands_bytes : commandBytes (eraseCommands retained) = writeErase retained := by
  rw [eraseCommands, writeErase]
  split
  · decide
  · decide

theorem effectCommands_bytes :
    commandBytes (renderer.effectCommands intended) = renderer.writeEffects intended := by
  rw [effectCommands, commandBytes_ite, commandBytes_cons, commandBytes_singleton]
  rfl

theorem cursorCommands_bytes (cursor : Cursor) : commandBytes (cursorCommands cursor) = writeCursor cursor := by
  rw [cursorCommands, commandBytes_cons, commandBytes_cons, commandBytes_singleton, ← append_assoc]
  rfl

theorem modesCommands_bytes (modes : TerminalModes) :
    commandBytes (modesCommands modes) = writeModes modes := by
  have hprotocol : commandBytes ((mouseMode modes.mouseProtocol).toList.map
      (OuterCommand.privateMode · true)) =
        (mouseMode modes.mouseProtocol).elim [] fun mode => writePrivateMode mode true := by
    cases mouseMode modes.mouseProtocol with
    | none => rfl
    | some mode => exact append_nil _
  have hencoding : commandBytes (mouseEncodingCommands modes.mouseEncoding) =
      writeMouseEncoding modes.mouseEncoding := by
    cases modes.mouseEncoding with
    | default => rfl
    | utf8 => exact append_nil _
    | sgr => exact append_nil _
  have hempty : commandBytes [] = [] := rfl
  rw [modesCommands, commandBytes_append, commandBytes_append, commandBytes_append,
    commandBytes_append, hprotocol, hencoding, writeModes, writeMouseModes]
  simp only [commandBytes_cons, hempty, append_nil, append_assoc]
  rfl

theorem endCommands_bytes : commandBytes (endCommands intended) = writeEnd intended := by
  have hclear : commandBytes [.link "", .rendition [[0]]] = ascii "\x1b]8;;\x1b\\\x1b[0m" := by
    decide +kernel
  have hbells : ∀ count, commandBytes (replicate count .bell) = replicate count bellByte := by
    intro count
    induction count with
    | zero => rfl
    | succ count ih =>
      rw [replicate_succ, commandBytes_cons, ih]
      rfl
  rw [endCommands, commandBytes_append, commandBytes_append, commandBytes_append, hclear,
    cursorCommands_bytes, modesCommands_bytes, hbells, writeEnd]

theorem graphics_bytes (commands : List GraphicsCommand) :
    commandBytes (commands.map .graphics) = commands.flatMap GraphicsCommand.bytes :=
  flatMap_map _ _ _

/-- **A repaint, byte for byte.** -/
theorem encodeCommands_bytes
    :
    (renderer.encodeCommands scene media intended intendedMedia retained).map
        (fun result => result.map commandBytes) =
      renderer.encode scene media intended intendedMedia retained := by
  rw [encodeCommands, Option.map_map]
  congr 1
  funext images
  cases images with
  | error error => rfl
  | ok images =>
    show Except.ok (commandBytes _) = _
    simp only [commandBytes_append, renderer.baselineCommands_bytes, graphics_bytes,
      eraseCommands_bytes, renderer.effectCommands_bytes, fullRowsCommands_bytes, endCommands_bytes]
    rfl

end FullSceneVtRenderer

end Lector.Presentation
