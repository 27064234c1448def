import Lector.Foundations.Lines
import Lector.Presentation.OuterScreen

/-! The rows of a repaint as commands (`write_row_at`, `write_incremental_run` and `write_full_rows` in
`src/presentation.rs`), and their bytes. -/
namespace Lector.Presentation
open Bytes Output Terminal List Rendition UInt8

/-! ## Styles -/

def flagParameters (enabled : Bool) (code : Nat) : List (List Nat) := if enabled then [[code]] else []

def underlineParameters : UnderlineStyle → List (List Nat)
  | .none => []
  | .single => [[4, 1]]
  | .double => [[4, 2]]
  | .curly => [[4, 3]]
  | .dotted => [[4, 4]]
  | .dashed => [[4, 5]]

def colorParameters (color : Color) (selector : Nat) : List (List Nat) :=
  match color with
  | .default => []
  | .indexed index => [[selector], [5], [index.toNat]]
  | .rgb red green blue => [[selector], [2], [red.toNat], [green.toNat], [blue.toNat]]

variable (style : Style)

def attributeParameters : List (List Nat) :=
  flagParameters style.bold 1 ++ flagParameters style.dim 2 ++ flagParameters style.italic 3 ++
    flagParameters style.blink 5 ++ flagParameters style.inverse 7 ++
    flagParameters style.invisible 8 ++ flagParameters style.strikethrough 9 ++
    flagParameters style.overline 53

def styleParameters : List (List Nat) :=
  [0] :: (attributeParameters style ++ underlineParameters style.underline ++
    colorParameters style.foreground 38 ++ colorParameters style.background 48 ++
    colorParameters style.underlineColor 58)

def parameterText (parameters : List (List Nat)) : Bytes :=
  parameters.flatMap fun parameter => ascii ";" ++ parameterBytes parameter

theorem parameterText_append (a b : List (List Nat)) :
    parameterText (a ++ b) = parameterText a ++ parameterText b := flatMap_append

theorem writeUnderline_eq (underline : UnderlineStyle) :
    writeUnderline underline = parameterText (underlineParameters underline) := by
  cases underline <;> decide

theorem joinBytes_singleton (separator part : Bytes) : joinBytes separator [part] = part := append_nil part

theorem writeColor_eq (color : Color) (selector : Nat) :
    writeColor color selector = parameterText (colorParameters color selector) := by
  cases color with
  | default => rfl
  | indexed index =>
    simp only [writeColor, colorParameters, parameterText, parameterBytes, flatMap_cons,
      flatMap_nil, map_cons, map_nil, joinBytes_singleton, Lines.ascii_append,
      append_assoc, append_nil]
    rfl
  | rgb red green blue =>
    simp only [writeColor, colorParameters, parameterText, parameterBytes, flatMap_cons,
      flatMap_nil, map_cons, map_nil, joinBytes_singleton, Lines.ascii_append,
      append_assoc, append_nil]
    rfl

theorem flagParameters_text (enabled : Bool) (code : Nat) (text : String)
    (h : ascii text = ascii ";" ++ parameterBytes [code]) :
    parameterText (flagParameters enabled code) = if enabled then ascii text else [] := by
  cases enabled with
  | false => rfl
  | true =>
    rw [h]
    exact append_nil _

theorem flatMap_filter_cons (enabled : Bool) (text : String) (rest : List (Bool × String)) :
    (((enabled, text) :: rest).filter (·.1)).flatMap (fun flag => ascii flag.2) =
      (if enabled then ascii text else []) ++ (rest.filter (·.1)).flatMap fun flag => ascii flag.2 := by
  cases enabled with
  | false => rfl
  | true => rfl

/-- **The bytes of a style are those of one rendition.** -/
theorem writeStyle_eq : writeStyle style = (OuterCommand.rendition (styleParameters style)).bytes := by
  have hattributes : parameterText (attributeParameters style) =
      (([(style.bold, ";1"), (style.dim, ";2"), (style.italic, ";3"), (style.blink, ";5"),
        (style.inverse, ";7"), (style.invisible, ";8"), (style.strikethrough, ";9"),
        (style.overline, ";53")].filter (·.1)).flatMap fun flag => ascii flag.2) := by
    rw [attributeParameters]
    simp only [parameterText_append, flatMap_filter_cons, append_assoc,
      flagParameters_text style.bold 1 ";1" (by decide), flagParameters_text style.dim 2 ";2" (by decide),
      flagParameters_text style.italic 3 ";3" (by decide),
      flagParameters_text style.blink 5 ";5" (by decide),
      flagParameters_text style.inverse 7 ";7" (by decide),
      flagParameters_text style.invisible 8 ";8" (by decide),
      flagParameters_text style.strikethrough 9 ";9" (by decide),
      flagParameters_text style.overline 53 ";53" (by decide), filter_nil, flatMap_nil,
      append_nil]
  have hjoin : joinBytes (ascii ";") ((styleParameters style).map parameterBytes) =
      ascii "0" ++ parameterText (attributeParameters style ++ underlineParameters style.underline ++
        colorParameters style.foreground 38 ++ colorParameters style.background 48 ++
        colorParameters style.underlineColor 58) := by
    have hzero : parameterBytes [0] = ascii "0" := by decide
    rw [styleParameters, map_cons, joinBytes, hzero, parameterText, flatMap_map]
  rw [OuterCommand.bytes, hjoin, parameterText_append, parameterText_append, parameterText_append,
    parameterText_append, hattributes, ← writeUnderline_eq, ← writeColor_eq, ← writeColor_eq,
    ← writeColor_eq, writeStyle]
  have hopen : ascii "\x1b[0" = ascii "\x1b[" ++ ascii "0" := by decide
  rw [hopen]
  simp only [append_assoc]

/-! ### The pen of a style -/

namespace Rendition

theorem foldl_flag (enabled : Bool) (code : Nat) (pen : Style) (result : Bool → Style)
    (off : result false = pen) (on : result true = setAttribute [code] pen)
    (hcode : ¬ ([code] = [38] ∨ [code] = [48] ∨ [code] = [58])) :
    (flagParameters enabled code).foldl step ⟨pen, none⟩ = ⟨result enabled, none⟩ := by
  cases enabled with
  | false => exact congrArg (mk · none) off.symm
  | true => exact (if_neg hcode).trans (congrArg (mk · none) on.symm)

theorem foldl_underline (underline : UnderlineStyle) {pen : Style} (hpen : pen.underline = .none) :
    (underlineParameters underline).foldl step ⟨pen, none⟩ = ⟨{ pen with underline := underline }, none⟩ := by
  cases underline with
  | none =>
    cases pen
    cases hpen
    rfl
  | single | double | curly | dotted | dashed => rfl

theorem foldl_color (color : Color) {selector : Nat}
    (hselector : selector = 38 ∨ selector = 48 ∨ selector = 58) (pen : Style) (result : Color → Style)
    (off : result .default = pen) (on : ∀ color, result color = selectColor selector color pen) :
    (colorParameters color selector).foldl step ⟨pen, none⟩ = ⟨result color, none⟩ := by
  cases color with
  | default => exact congrArg (mk · none) off.symm
  | indexed index =>
    rw [on]
    rcases hselector with rfl | rfl | rfl <;> simp [colorParameters, step]
  | rgb red green blue =>
    rw [on]
    rcases hselector with rfl | rfl | rfl <;> simp [colorParameters, step]

end Rendition

/-- **The rendition of a style makes it the pen**, whatever the pen was. -/
theorem renditionPen_styleParameters (style pen : Style) :
    renditionPen (styleParameters style) pen = style := by
  have hzero : step ⟨pen, none⟩ [0] = ⟨.default, none⟩ := rfl
  rw [renditionPen, styleParameters, foldl_cons, hzero]
  simp only [attributeParameters, foldl_append]
  let bold : Style := { Style.default with bold := style.bold }
  let dim : Style := { bold with dim := style.dim }
  let italic : Style := { dim with italic := style.italic }
  let blink : Style := { italic with blink := style.blink }
  let inverse : Style := { blink with inverse := style.inverse }
  let invisible : Style := { inverse with invisible := style.invisible }
  let strikethrough : Style := { invisible with strikethrough := style.strikethrough }
  let overline : Style := { strikethrough with overline := style.overline }
  let underline : Style := { overline with underline := style.underline }
  let foreground : Style := { underline with foreground := style.foreground }
  let background : Style := { foreground with background := style.background }
  rw [foldl_flag style.bold 1 .default (fun on => { Style.default with bold := on }) rfl rfl (by decide),
    foldl_flag style.dim 2 bold (fun on => { bold with dim := on }) rfl rfl (by decide),
    foldl_flag style.italic 3 dim (fun on => { dim with italic := on }) rfl rfl (by decide),
    foldl_flag style.blink 5 italic (fun on => { italic with blink := on }) rfl rfl (by decide),
    foldl_flag style.inverse 7 blink (fun on => { blink with inverse := on }) rfl rfl (by decide),
    foldl_flag style.invisible 8 inverse (fun on => { inverse with invisible := on }) rfl rfl
      (by decide),
    foldl_flag style.strikethrough 9 invisible (fun on => { invisible with strikethrough := on }) rfl rfl
      (by decide),
    foldl_flag style.overline 53 strikethrough (fun on => { strikethrough with overline := on }) rfl rfl
      (by decide),
    foldl_underline style.underline rfl,
    foldl_color style.foreground (.inl rfl) underline
      (fun color => { underline with foreground := color }) rfl fun _ => rfl,
    foldl_color style.background (.inr (.inl rfl)) foreground
      (fun color => { foreground with background := color }) rfl fun _ => rfl,
    foldl_color style.underlineColor (.inr (.inr rfl)) background
      (fun color => { background with underlineColor := color }) rfl fun _ => rfl]

/-! ## Links -/

/-- Characters that `write_hyperlink` writes. -/
def printableChar (character : Char) : Bool := 0x20 ≤ character.toNat && character.toNat != 0x7f

def printableText (text : String) : String := String.ofList (text.toList.filter printableChar)

variable (link : Option String)

def outerLink : Option String :=
  let uri := printableText (link.getD "")
  if uri = "" then none else some uri

def linkCommand : OuterCommand := .link (printableText (link.getD ""))

def printableByte (byte : UInt8) : Bool := space ≤ byte && byte != 0x7f

theorem printableByte_ofNat {n : Nat} (h : n < 256) : printableByte (ofNat n) = (0x20 ≤ n && n != 0x7f) := by
  have hspace : space ≤ ofNat n ↔ 0x20 ≤ n := by
    rw [le_iff_toNat_le, toNat_ofNat', Nat.mod_eq_of_lt h]
    rfl
  have hdelete : ofNat n = 0x7f ↔ n = 0x7f := by
    rw [← UInt8.toNat_inj, toNat_ofNat', Nat.mod_eq_of_lt h]
    rfl
  rw [printableByte, Bool.eq_iff_iff]
  simp only [Bool.and_eq_true, bne_iff_ne, ne_eq, hspace, hdelete]

theorem printableByte_high {n : Nat} (h : 0x80 ≤ n) (h' : n < 256) : printableByte (ofNat n) = true := by
  rw [printableByte_ofNat h', Bool.and_eq_true, decide_eq_true_eq, bne_iff_ne]
  omega

theorem filter_utf8EncodeChar (character : Char) : (String.utf8EncodeChar character).filter printableByte =
      if printableChar character then String.utf8EncodeChar character else [] := by
  have hchar : printableChar character = (0x20 ≤ character.val.toNat && character.val.toNat != 0x7f) := rfl
  have hlong : 0x7f < character.val.toNat → ∀ bytes : List UInt8,
      (∀ byte ∈ bytes, printableByte byte = true) →
      bytes.filter printableByte = if printableChar character then bytes else [] := by
    intro hv bytes hbytes
    have hkeep : printableChar character = true := by
      rw [hchar, Bool.and_eq_true, decide_eq_true_eq, bne_iff_ne]
      omega
    rw [if_pos hkeep]
    exact filter_eq_self.mpr hbytes
  fun_cases String.utf8EncodeChar character with
  | case1 v hv =>
    rw [hchar, ← printableByte_ofNat (n := character.val.toNat) (by omega), filter_cons, filter_nil]
  | case2 v hv hv' =>
    refine hlong (by omega) _ fun byte hmem => ?_
    rcases mem_pair.mp hmem with rfl | rfl
    · exact printableByte_high (by omega) (by omega)
    · exact printableByte_high (by omega) (by omega)
  | case3 v hv hv' hv'' =>
    refine hlong (by omega) _ fun byte hmem => ?_
    rcases mem_cons.mp hmem with rfl | hmem
    · exact printableByte_high (by omega) (by omega)
    · rcases mem_pair.mp hmem with rfl | rfl
      · exact printableByte_high (by omega) (by omega)
      · exact printableByte_high (by omega) (by omega)
  | case4 v hv hv' hv'' =>
    refine hlong (by omega) _ fun byte hmem => ?_
    rcases mem_cons.mp hmem with rfl | hmem
    · exact printableByte_high (by omega) (by omega)
    · rcases mem_cons.mp hmem with rfl | hmem
      · exact printableByte_high (by omega) (by omega)
      · rcases mem_pair.mp hmem with rfl | rfl
        · exact printableByte_high (by omega) (by omega)
        · exact printableByte_high (by omega) (by omega)

theorem utf8_ofList (characters : List Char) :
    utf8 (String.ofList characters) = characters.flatMap String.utf8EncodeChar := by
  show characters.utf8Encode.data.toList = _
  rw [utf8Encode, toList_data_toByteArray]

theorem utf8_printableText (text : String) : utf8 (printableText text) = (utf8 text).filter printableByte := by
  rw [printableText, utf8_ofList]
  conv_rhs => rw [← String.ofList_toList (s := text), utf8_ofList]
  induction text.toList with
  | nil => rfl
  | cons character rest ih =>
    rw [flatMap_cons, filter_append, filter_utf8EncodeChar, ← ih, filter_cons]
    split
    · rw [flatMap_cons]
    · rw [nil_append]

theorem writeHyperlink_eq : writeHyperlink link = (linkCommand link).bytes := by
  rw [linkCommand, OuterCommand.bytes, utf8_printableText]
  cases link with
  | none => rfl
  | some uri => rfl

/-! ## Cells -/

def commandBytes (commands : List OuterCommand) : Bytes := commands.flatMap OuterCommand.bytes

theorem commandBytes_append (commands more : List OuterCommand) :
    commandBytes (commands ++ more) = commandBytes commands ++ commandBytes more :=
  flatMap_append

theorem commandBytes_cons (command : OuterCommand) (more : List OuterCommand) :
    commandBytes (command :: more) = command.bytes ++ commandBytes more := rfl

theorem commandBytes_singleton (command : OuterCommand) : commandBytes [command] = command.bytes := append_nil _

theorem commandBytes_ite (condition : Prop) [Decidable condition] (commands : List OuterCommand) :
    commandBytes (if condition then commands else []) =
      if condition then commandBytes commands else [] := by
  split <;> rfl

def cellText (cell : Cell) : String := if cell.grapheme.isEmpty then " " else cell.grapheme

def cellCommands (cell : Cell) : List OuterCommand :=
  (if cell.hyperlink ≠ link then [linkCommand cell.hyperlink] else []) ++
    (if cell.style ≠ style then [.rendition (styleParameters cell.style)] else []) ++
    [.print (cellText cell) (printedColumns cell)]

def cellsCommands : Style → Option String → List Cell → List OuterCommand
  | _, link, [] => if link.isSome then [linkCommand none] else []
  | style, link, cell :: rest =>
    if cell.continuation then cellsCommands style link rest
    else cellCommands style link cell ++ cellsCommands cell.style cell.hyperlink rest

theorem cellCommands_bytes (cell : Cell) : commandBytes (cellCommands style link cell) =
      (if cell.hyperlink ≠ link then writeHyperlink cell.hyperlink else []) ++
        (if cell.style ≠ style then writeStyle cell.style else []) ++
        if cell.grapheme.isEmpty then [space] else utf8 cell.grapheme := by
  rw [cellCommands, commandBytes_append, commandBytes_append, commandBytes_ite, commandBytes_ite,
    commandBytes_singleton, commandBytes_singleton, commandBytes_singleton, writeHyperlink_eq,
    writeStyle_eq]
  congr 1
  show utf8 (cellText cell) = _
  rw [cellText]
  split
  · decide
  · rfl

/-- **The loop over the cells writes the bytes of their commands.** -/
theorem foldl_writeCell_bytes (cells : List Cell) (writer : RowWriter) :
    (cells.foldl RowWriter.writeCell writer).finish.bytes =
      writer.bytes ++ commandBytes (cellsCommands writer.activeStyle writer.activeLink cells) := by
  induction cells generalizing writer with
  | nil =>
    rw [foldl_nil, cellsCommands, RowWriter.finish]
    split
    · rfl
    · exact (append_nil _).symm
  | cons cell rest ih =>
    rw [foldl_cons, ih, cellsCommands, RowWriter.writeCell]
    split
    · rfl
    · rw [commandBytes_append, cellCommands_bytes]
      simp only [append_assoc]

/-! ## Rows -/

def rowCommands (rowIndex : Nat) (row : Row) : List OuterCommand :=
  .cursorTo (rowIndex + 1) 1 :: ((if row.wrapped then [] else [.eraseLine]) ++
    .rendition [[0]] :: cellsCommands .default none row.cells)

def runCommands (row start stop : Nat) (cells : Row) : List OuterCommand :=
  .cursorTo (row + 1) (start + 1) :: .rendition [[0]] :: .link "" ::
    (cellsCommands .default none ((cells.cells.take stop).drop start) ++ [.rendition [[0]]])

def fullRowCommands (height rowIndex : Nat) (row : Row) : List OuterCommand :=
  if row.wrapped then
    rowCommands rowIndex row ++ (if rowIndex + 1 < height then [.print " " 1] else [])
  else .privateMode 7 false :: (rowCommands rowIndex row ++ [.privateMode 7 true])

variable (intended : PresentedScene)

def scrolledRowsCommands : List OuterCommand :=
  let last := intended.rows.length - 1
  [.cursorTo last intended.geometry.cols.toNat, .rendition [[0]], .print "X" 1, .print "X" 1,
      .carriageReturn, .lineFeed] ++
    intended.rows.zipIdx.flatMap fun row => rowCommands row.2 row.1 ++
      if row.1.wrapped && row.2 < last then [.print " " 1] else []

def fullRowsCommands : List OuterCommand :=
  intended.rows.zipIdx.flatMap (fun row => fullRowCommands intended.rows.length row.2 row.1) ++
    if 2 ≤ intended.rows.length ∧ intended.rows.getLast?.any (·.wrapped) then
      scrolledRowsCommands intended
    else []

theorem plain_bytes : (OuterCommand.rendition [[0]]).bytes = ascii "\x1b[0m" := by decide

theorem lineStart_bytes (rowIndex : Nat) :
    (OuterCommand.cursorTo (rowIndex + 1) 1).bytes = ascii s!"\x1b[{rowIndex + 1};1H" := by
  have htail : ascii (toString ";") ++ (ascii (toString 1) ++ ascii (toString "H")) =
      ascii (toString ";1H") := by decide
  simp only [OuterCommand.bytes, Lines.ascii_append, append_assoc, htail]

theorem rowCommands_bytes (rowIndex : Nat) (row : Row) :
    commandBytes (rowCommands rowIndex row) = (writeRowAt rowIndex row).bytes := by
  have hstart : (RowWriter.start rowIndex row).bytes = (OuterCommand.cursorTo (rowIndex + 1) 1).bytes ++
        ((if row.wrapped then [] else OuterCommand.eraseLine.bytes) ++
          (OuterCommand.rendition [[0]]).bytes) := by
    rw [lineStart_bytes, ← append_assoc]
    rfl
  rw [writeRowAt, foldl_writeCell_bytes, hstart, rowCommands, commandBytes_cons, commandBytes_append]
  have herase : commandBytes (if row.wrapped then [] else [.eraseLine]) =
      if row.wrapped then [] else OuterCommand.eraseLine.bytes := by
    split <;> rfl
  rw [herase, append_assoc, append_assoc]
  rfl

theorem runCommands_bytes (row start stop : Nat) (cells : Row) :
    commandBytes (runCommands row start stop cells) = writeIncrementalRun row start stop cells := by
  have hcursor : (OuterCommand.cursorTo (row + 1) (start + 1)).bytes = writeAbsoluteCursor row start := rfl
  have hclear : (OuterCommand.rendition [[0]]).bytes ++ (OuterCommand.link "").bytes =
      ascii "\x1b[0m\x1b]8;;\x1b\\" := by decide +kernel
  rw [writeIncrementalRun, foldl_writeCell_bytes, ← hclear, runCommands, commandBytes_cons,
    commandBytes_cons, commandBytes_cons, commandBytes_append, commandBytes_singleton, hcursor]
  simp only [append_assoc, ← plain_bytes]

theorem blank_bytes : commandBytes [.print " " 1] = [space] := by decide

theorem fullRowCommands_bytes (height rowIndex : Nat) (row : Row) :
    commandBytes (fullRowCommands height rowIndex row) = writeFullRow height rowIndex row := by
  rw [fullRowCommands, writeFullRow]
  split
  · rw [commandBytes_append, rowCommands_bytes, commandBytes_ite, blank_bytes]
  · rw [commandBytes_cons, commandBytes_append, rowCommands_bytes, commandBytes_singleton]
    have hoff : (OuterCommand.privateMode 7 false).bytes = ascii "\x1b[?7l" := by decide
    have hon : (OuterCommand.privateMode 7 true).bytes = ascii "\x1b[?7h" := by decide
    rw [hoff, hon, append_assoc]

theorem commandBytes_flatMap {α : Type} (items : List α) (f : α → List OuterCommand) (g : α → Bytes)
    (h : ∀ item, commandBytes (f item) = g item) : commandBytes (items.flatMap f) = items.flatMap g := by
  induction items with
  | nil => rfl
  | cons item rest ih => rw [flatMap_cons, commandBytes_append, h, ih, flatMap_cons]

/-- **The rows of a repaint, byte for byte.** -/
theorem fullRowsCommands_bytes : commandBytes (fullRowsCommands intended) = writeFullRows intended := by
  have hscrolled : commandBytes (scrolledRowsCommands intended) = writeScrolledRows intended := by
    rw [scrolledRowsCommands, commandBytes_append, commandBytes_flatMap _ _ _ fun row => by
        rw [commandBytes_append, rowCommands_bytes, commandBytes_ite]]
    congr 1
    rw [commandBytes_cons]
    simp only [OuterCommand.bytes, Lines.ascii_append, append_assoc]
    rfl
  rw [fullRowsCommands, writeFullRows, commandBytes_append, commandBytes_ite, hscrolled,
    commandBytes_flatMap _ _ (fun row => writeFullRow intended.rows.length row.2 row.1) fun row =>
      fullRowCommands_bytes intended.rows.length row.2 row.1]

end Lector.Presentation
