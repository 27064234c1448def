import Lector.Foundations.Lines
import Lector.Layout.Parser
import Lector.Terminal.Snapshot
import Lector.Tmux.KeyNames

/-! Mouse events for a pane (`translate_mouse` in `src/tmux_input.rs`), and the reports that a program reads
out of the bytes. -/
namespace Lector.Tmux
open Bytes Layout Terminal List UInt8
open Option hiding all_eq_true

/-! ## Events -/

inductive MouseButton
  | left
  | right
  | middle
  | unknown
deriving DecidableEq

inductive ScrollDirection
  | up
  | down
  | left
  | right
deriving DecidableEq

inductive MouseEventKind
  | down (button : MouseButton)
  | up (button : MouseButton)
  | drag (button : MouseButton)
  | moved
  | scroll (direction : ScrollDirection)
deriving DecidableEq

def MouseEventKind.isUp : MouseEventKind → Bool
  | up _ => true
  | _ => false

structure MouseEvent where
  kind : MouseEventKind
  column : UInt16
  row : UInt16
  modifiers : KeyModifiers

/-! ## Translation -/

def protocolReports (protocol : MouseProtocol) : MouseEventKind → Bool
  | .down _ | .scroll _ => protocol != .none
  | .up _ => protocol != .none && protocol != .press
  | .drag _ => protocol == .buttonMotion || protocol == .anyMotion
  | .moved => protocol == .anyMotion

def mouseCode : MouseEventKind → Nat
  | .down .left | .down .unknown | .up .left | .up .unknown => 0
  | .down .middle | .up .middle => 1
  | .down .right | .up .right => 2
  | .drag .left | .drag .unknown => 32
  | .drag .middle => 33
  | .drag .right => 34
  | .moved => 35
  | .scroll .up => 64
  | .scroll .down => 65
  | .scroll .left => 66
  | .scroll .right => 67

def modifierBits (modifiers : KeyModifiers) : Nat :=
  (if modifiers.shift then 4 else 0) + (if modifiers.alt then 8 else 0) + if modifiers.ctrl then 16 else 0

def checkedAddU32 (a b : Nat) : Option Nat := if a + b < 2 ^ 32 then some (a + b) else none

def checkedSubI32 (a b : Int) : Option Int :=
  if -2 ^ 31 ≤ a - b ∧ a - b < 2 ^ 31 then some (a - b) else none

/-- `u8::try_from(value).ok()`. -/
def byteFrom (value : Nat) : Option Bytes := if value < 256 then some [UInt8.ofNat value] else none

def pushUtf8Scalar (value : Nat) : Option Bytes :=
  if h : value.isValidChar then some (String.utf8EncodeChar (Char.ofNatAux value h)) else none

variable (event : MouseEvent)

def encodeMouse (row col : Nat) (encoding : MouseEncoding) : Option Bytes := do
  let code := mouseCode event.kind + modifierBits event.modifiers
  match encoding with
  | .sgr => some (ascii "\x1b[<" ++ ascii (toString code) ++ ascii ";" ++ ascii (toString (col + 1)) ++
      ascii ";" ++ ascii (toString (row + 1)) ++ ascii (if event.kind.isUp then "m" else "M"))
  | .default | .utf8 =>
    let code := if event.kind.isUp then 3 + modifierBits event.modifiers else code
    let push := if encoding = .default then byteFrom else pushUtf8Scalar
    let code ← checkedAddU32 code 32
    let col ← checkedAddU32 col 33
    let row ← checkedAddU32 row 33
    some (ascii "\x1b[M" ++ (← push code) ++ (← push col) ++ (← push row))

def translateMouse (pane : LayoutPane) (protocol : MouseProtocol)
    (encoding : MouseEncoding) : Option Bytes :=
  if !protocolReports protocol event.kind then none
  else do
    let col ← checkedSubI32 event.column.toNat pane.origin.col
    let row ← checkedSubI32 event.row.toNat pane.origin.row
    if col < 0 || row < 0 || pane.cols.toNat ≤ col || pane.rows.toNat ≤ row then none
    else encodeMouse event row.toNat col.toNat encoding

/-! ## Reports -/

inductive ReportedButton
  | left
  | middle
  | right
  | released
  | wheel (direction : ScrollDirection)
deriving DecidableEq

structure MouseReport where
  button : ReportedButton
  motion : Bool
  shift : Bool
  alt : Bool
  ctrl : Bool
  released : Bool
  column : Nat
  row : Nat
deriving DecidableEq

def reportedButton (code : Nat) : ReportedButton :=
  match code.testBit 6, code % 4 with
  | false, 0 => .left
  | false, 1 => .middle
  | false, 2 => .right
  | false, _ => .released
  | true, 0 => .wheel .up
  | true, 1 => .wheel .down
  | true, 2 => .wheel .left
  | true, _ => .wheel .right

def report (code column row : Nat) (released : Bool) : MouseReport where
  button := reportedButton code
  motion := code.testBit 5
  shift := code.testBit 2
  alt := code.testBit 3
  ctrl := code.testBit 4
  released
  column
  row

/-- The report in a code and two coordinates that begin at `first`, each above `base`. -/
def readReport (base first code x y : Nat) (released : Bool) : Option MouseReport :=
  if base ≤ code ∧ base + first ≤ x ∧ base + first ≤ y then
    some (report (code - base) (x - (base + first)) (y - (base + first)) released)
  else none

/-- The standard reading of a report: decimal fields, three bytes, or three characters. -/
def decodeMouse : MouseEncoding → Bytes → Option MouseReport
  | .sgr, bytes => do
    let body ← stripPrefix (ascii "\x1b[<") bytes
    let final ← body.getLast?
    match fields 0x3b body.dropLast with
    | [code, x, y] =>
      if final = 0x4d ∨ final = 0x6d then
        readReport 0 1 (← parseUnsigned (2 ^ 32) code) (← parseUnsigned (2 ^ 32) x)
          (← parseUnsigned (2 ^ 32) y) (final = 0x6d)
      else none
    | _ => none
  | .default, bytes =>
    match stripPrefix (ascii "\x1b[M") bytes with
    | some [code, x, y] => readReport 32 1 code.toNat x.toNat y.toNat false
    | _ => none
  | .utf8, bytes => do
    let body ← stripPrefix (ascii "\x1b[M") bytes
    match (← body.toByteArray.utf8Decode?).toList with
    | [code, x, y] => readReport 32 1 code.toNat x.toNat y.toNat false
    | _ => none

/-! ## What should be reported -/

def buttonOf : MouseButton → ReportedButton
  | .left | .unknown => .left
  | .middle => .middle
  | .right => .right

def reported (encoding : MouseEncoding) (event : MouseEvent) (column row : Nat) : MouseReport where
  button := match event.kind with
    | .down button | .drag button => buttonOf button
    | .up button => if encoding = .sgr then buttonOf button else .released
    | .moved => .released
    | .scroll direction => .wheel direction
  motion := match event.kind with
    | .drag _ | .moved => true
    | _ => false
  shift := event.modifiers.shift
  alt := event.modifiers.alt
  ctrl := event.modifiers.ctrl
  released := decide (encoding = .sgr) && event.kind.isUp
  column
  row

/-- The numbers that an encoding has room for. -/
def Representable : MouseEncoding → Nat → Prop
  | .sgr, _ => True
  | .default, value => value < 256
  | .utf8, value => value.isValidChar

instance (encoding : MouseEncoding) (value : Nat) : Decidable (Representable encoding value) := by
  cases encoding <;> unfold Representable <;> infer_instance

def Inside (pane : LayoutPane) : Prop :=
  (pane.origin.col ≤ event.column.toNat ∧ event.column.toNat < pane.origin.col + pane.cols.toNat) ∧
    pane.origin.row ≤ event.row.toNat ∧ event.row.toNat < pane.origin.row + pane.rows.toNat

instance (event : MouseEvent) (pane : LayoutPane) : Decidable (Inside event pane) := by
  unfold Inside
  infer_instance

/-! ## Codes -/

section Codes

variable (encoding : MouseEncoding) (kind : MouseEventKind) (modifiers : KeyModifiers)

def sentCode : Nat := (if encoding ≠ .sgr ∧ kind.isUp then 3 else mouseCode kind) + modifierBits modifiers

theorem sentCode_lt : sentCode encoding kind modifiers < 96 := by
  have hbits : modifierBits modifiers ≤ 28 := by
    unfold modifierBits
    split <;> split <;> split <;> decide
  have hcode : mouseCode kind ≤ 67 := by
    unfold mouseCode
    split <;> decide
  unfold sentCode
  split <;> omega

theorem report_sentCode (event : MouseEvent) (column row : Nat) :
    report (sentCode encoding event.kind event.modifiers) column row
      (decide (encoding = .sgr) && event.kind.isUp) = reported encoding event column row := by
  obtain ⟨kind, x, y, shift, ctrl, alt, -, -, -⟩ := event
  have hbutton : ∀ (button : MouseButton) (make : MouseButton → MouseEventKind),
      make = .down ∨ make = .up ∨ make = .drag →
      report (sentCode encoding (make button) ⟨shift, ctrl, alt, false, false, false⟩) column row
        (decide (encoding = .sgr) && (make button).isUp) =
          reported encoding ⟨make button, x, y, ⟨shift, ctrl, alt, false, false, false⟩⟩ column row := by
    rintro button make (rfl | rfl | rfl)
    all_goals cases encoding <;> cases button <;> cases shift <;> cases ctrl <;> cases alt <;> rfl
  cases kind with
  | down button => exact hbutton button _ (.inl rfl)
  | up button => exact hbutton button _ (.inr (.inl rfl))
  | drag button => exact hbutton button _ (.inr (.inr rfl))
  | moved =>
    show report (sentCode encoding .moved ⟨shift, ctrl, alt, false, false, false⟩) column row _ = _
    cases encoding <;> cases shift <;> cases ctrl <;> cases alt <;> rfl
  | scroll direction =>
    show report (sentCode encoding (.scroll direction) ⟨shift, ctrl, alt, false, false, false⟩) column row _ = _
    cases encoding <;> cases direction <;> cases shift <;> cases ctrl <;> cases alt <;> rfl

end Codes

/-! ## Reading what was sent -/

theorem parseUnsigned_toString {n : UInt64} {bound : Nat} (h : n.toNat < bound) :
    parseUnsigned bound (ascii (toString n)) = some n.toNat := by
  have hne : ascii (toString n) ≠ [] := by
    rw [Lines.ascii_toString, ne_eq, map_eq_nil_iff]
    exact Nat.toDigits_ne_nil
  have hdigits : (ascii (toString n)).all isDigit = true :=
    all_eq_true.mpr fun _ h => Lines.isDigit_of_mem_ascii_toString h
  have hplus : stripPrefix (ascii "+") (ascii (toString n)) = none := by
    rw [eq_none_iff_forall_ne_some]
    intro rest h
    have hmem : (0x2b : UInt8) ∈ ascii (toString n) := by
      rw [(stripPrefix_eq_some _ _ _).mp h]
      exact mem_append_left _ (by decide)
    cases Lines.isDigit_of_mem_ascii_toString hmem
  rw [parseUnsigned, hplus, getD_none, hdigits, Lines.digitsValue_ascii_toString]
  simp [hne, h]

theorem decodeMouse_sgr {code x y : Nat} (up : Bool) (hcode : code < 2 ^ 32) (hx : x < 2 ^ 32)
    (hy : y < 2 ^ 32) :
    decodeMouse .sgr (ascii "\x1b[<" ++ ascii (toString code) ++ ascii ";" ++ ascii (toString x) ++
      ascii ";" ++ ascii (toString y) ++ ascii (if up then "m" else "M")) = readReport 0 1 code x y up := by
  have hword : ∀ {n : Nat}, n < 2 ^ 32 → toString (UInt64.ofNat n) = toString n ∧
      parseUnsigned (2 ^ 32) (ascii (toString n)) = some n ∧ (0x3b : UInt8) ∉ ascii (toString n) := by
    intro n hn
    have htext : toString (UInt64.ofNat n) = toString n := by
      show toString (UInt64.ofNat n).toNat = _
      rw [UInt64.toNat_ofNat_of_lt' (hn.trans (by decide))]
    have hvalue : (UInt64.ofNat n).toNat = n := UInt64.toNat_ofNat_of_lt' (hn.trans (by decide))
    refine ⟨htext, ?_, ?_⟩
    · rw [← htext, parseUnsigned_toString (by rwa [hvalue]), hvalue]
    · intro hmem
      rw [← htext] at hmem
      cases Lines.isDigit_of_mem_ascii_toString hmem
  obtain ⟨-, hreadCode, hnoCode⟩ := hword hcode
  obtain ⟨-, hreadX, hnoX⟩ := hword hx
  obtain ⟨-, hreadY, hnoY⟩ := hword hy
  have hfields : fields 0x3b (ascii (toString code) ++ ascii ";" ++ ascii (toString x) ++ ascii ";" ++
      ascii (toString y)) = [ascii (toString code), ascii (toString x), ascii (toString y)] := by
    have hnone : ∀ field ∈ [ascii (toString code), ascii (toString x), ascii (toString y)],
        (0x3b : UInt8) ∉ field := forall_mem_cons.mpr ⟨hnoCode, forall_mem_cons.mpr ⟨hnoX,
      forall_mem_cons.mpr ⟨hnoY, forall_mem_nil _⟩⟩⟩
    have hsplit := splitOn_intercalate (0x3b : UInt8) hnone (cons_ne_nil _ _)
    rw [fields, ← hsplit]
    simp [show ascii ";" = [(0x3b : UInt8)] from rfl]
  have hfinal : ascii (if up then "m" else "M") = [if up then 0x6d else 0x4d] := by
    cases up <;> rfl
  have hstrip : ∀ rest : Bytes, stripPrefix (ascii "\x1b[<") (ascii "\x1b[<" ++ rest) = some rest :=
    fun rest => (stripPrefix_eq_some _ _ _).mpr rfl
  simp only [append_assoc, decodeMouse, hstrip, bind_eq_bind, bind_some]
  simp only [← append_assoc, hfinal, getLast?_concat, dropLast_concat, hfields, hreadCode, hreadX, hreadY]
  cases up <;> rfl

theorem decodeMouse_default {code x y : Nat} (hcode : code < 256) (hx : x < 256) (hy : y < 256) :
    decodeMouse .default (ascii "\x1b[M" ++ [ofNat code] ++ [ofNat x] ++ [ofNat y]) =
      readReport 32 1 code x y false := by
  have hstrip : stripPrefix (ascii "\x1b[M") (ascii "\x1b[M" ++ ([ofNat code] ++
      ([ofNat x] ++ [ofNat y]))) = some [ofNat code, ofNat x, ofNat y] :=
    (stripPrefix_eq_some _ _ _).mpr rfl
  rw [append_assoc, append_assoc, decodeMouse, hstrip]
  dsimp only
  rw [toNat_ofNat_of_lt' hcode, toNat_ofNat_of_lt' hx, toNat_ofNat_of_lt' hy]

theorem decodeMouse_utf8 (code x y : Char) :
    decodeMouse .utf8 (ascii "\x1b[M" ++ String.utf8EncodeChar code ++ String.utf8EncodeChar x ++
      String.utf8EncodeChar y) = readReport 32 1 code.toNat x.toNat y.toNat false := by
  have hbody : String.utf8EncodeChar code ++ (String.utf8EncodeChar x ++ String.utf8EncodeChar y) =
      [code, x, y].flatMap String.utf8EncodeChar := by simp
  have hstrip : ∀ rest : Bytes, stripPrefix (ascii "\x1b[M") (ascii "\x1b[M" ++ rest) = some rest :=
    fun rest => (stripPrefix_eq_some _ _ _).mpr rfl
  have hdecode : ([code, x, y].flatMap String.utf8EncodeChar).toByteArray.utf8Decode? =
      some #[code, x, y] := utf8Decode?_utf8Encode
  simp only [append_assoc, decodeMouse, hstrip, bind_eq_bind, bind_some, hbody, hdecode]

section Pushing

variable {encoding : MouseEncoding} {push : Nat → Option Bytes}

theorem representable_of_push (h : encoding ≠ .sgr)
    (hpush : push = if encoding = .default then byteFrom else pushUtf8Scalar) (value : Nat) :
    Representable encoding value ↔ (push value).isSome = true := by
  subst hpush
  cases encoding with
  | sgr => exact absurd rfl h
  | default =>
    show value < 256 ↔ (byteFrom value).isSome = true
    unfold byteFrom
    split <;> simp [*]
  | utf8 =>
    show value.isValidChar ↔ (pushUtf8Scalar value).isSome = true
    unfold pushUtf8Scalar
    split <;> simp [*]

theorem decodeMouse_pushed (h : encoding ≠ .sgr)
    (hpush : push = if encoding = .default then byteFrom else pushUtf8Scalar) {code x y : Nat}
    {a b c : Bytes} (ha : push code = some a) (hb : push x = some b) (hc : push y = some c) :
    decodeMouse encoding (ascii "\x1b[M" ++ a ++ b ++ c) = readReport 32 1 code x y false := by
  subst hpush
  cases encoding with
  | sgr => exact absurd rfl h
  | default =>
    have hbyte : ∀ {value : Nat} {bytes : Bytes}, byteFrom value = some bytes →
        value < 256 ∧ bytes = [ofNat value] := by
      intro value bytes hsome
      unfold byteFrom at hsome
      split at hsome <;> cases hsome
      exact ⟨‹_›, rfl⟩
    obtain ⟨hcode, rfl⟩ := hbyte ha
    obtain ⟨hx, rfl⟩ := hbyte hb
    obtain ⟨hy, rfl⟩ := hbyte hc
    exact decodeMouse_default hcode hx hy
  | utf8 =>
    have hscalar : ∀ {value : Nat} {bytes : Bytes}, pushUtf8Scalar value = some bytes →
        ∃ c : Char, c.toNat = value ∧ bytes = String.utf8EncodeChar c := by
      intro value bytes hsome
      unfold pushUtf8Scalar at hsome
      split at hsome <;> cases hsome
      exact ⟨_, rfl, rfl⟩
    obtain ⟨code, rfl, rfl⟩ := hscalar ha
    obtain ⟨x, rfl, rfl⟩ := hscalar hb
    obtain ⟨y, rfl, rfl⟩ := hscalar hc
    exact decodeMouse_utf8 code x y

end Pushing

/-! ## The round trip -/

theorem encodeMouse_decoded {row col : Nat} (hrow : row < 2 ^ 16)
    (hcol : col < 2 ^ 16) (encoding : MouseEncoding) :
    (encodeMouse event row col encoding).map (decodeMouse encoding) =
      if Representable encoding (sentCode encoding event.kind event.modifiers + 32) ∧
          Representable encoding (col + 33) ∧ Representable encoding (row + 33) then
        some (some (reported encoding event col row))
      else none := by
  have hcode := sentCode_lt encoding event.kind event.modifiers
  have hreport := report_sentCode encoding event col row
  by_cases hsgr : encoding = .sgr
  · subst hsgr
    have hsent : mouseCode event.kind + modifierBits event.modifiers =
        sentCode .sgr event.kind event.modifiers := by simp [sentCode]
    rw [if_pos ⟨trivial, trivial, trivial⟩, encodeMouse]
    simp only [hsent, map_some]
    rw [decodeMouse_sgr _ (by omega) (by omega) (by omega), readReport]
    simpa using hreport
  · have hadd : ∀ {a b : Nat}, a < 2 ^ 16 → b ≤ 33 → checkedAddU32 a b = some (a + b) :=
      fun ha hb => if_pos (by omega)
    have hsent : (if event.kind.isUp = true then 3 + modifierBits event.modifiers
        else mouseCode event.kind + modifierBits event.modifiers) =
          sentCode encoding event.kind event.modifiers := by
      simp only [sentCode, ne_eq, hsgr, not_false_eq_true, true_and]
      split <;> rfl
    obtain ⟨push, hpush⟩ : ∃ push, push = if encoding = .default then byteFrom else pushUtf8Scalar := ⟨_, rfl⟩
    have hencode : encodeMouse event row col encoding =
        (push (sentCode encoding event.kind event.modifiers + 32)).bind fun a =>
          (push (col + 33)).bind fun b => (push (row + 33)).bind fun c =>
            some (ascii "\x1b[M" ++ a ++ b ++ c) := by
      have hcases : encoding = .default ∨ encoding = .utf8 := by
        cases encoding with
        | sgr => exact absurd rfl hsgr
        | default => exact .inl rfl
        | utf8 => exact .inr rfl
      rw [hpush]
      obtain rfl | rfl := hcases
      all_goals
        simp only [encodeMouse, hsent]
        rw [hadd (by omega) (by decide), hadd hcol le_rfl, hadd hrow le_rfl]
        rfl
    rw [hencode]
    simp only [representable_of_push hsgr hpush]
    cases ha : push (sentCode encoding event.kind event.modifiers + 32) with
    | none => simp
    | some a =>
      cases hb : push (col + 33) with
      | none => simp
      | some b =>
        cases hc : push (row + 33) with
        | none => simp
        | some c =>
          simp only [bind_some, map_some]
          rw [decodeMouse_pushed hsgr hpush ha hb hc, readReport]
          simpa [hsgr] using hreport

/-- **A translated event is read back as it was, in the pane's own cells, and the events that are translated
are those inside the pane that its protocol reports and its encoding has room for.** -/
theorem translateMouse_roundTrip (event : MouseEvent) (pane : LayoutPane) (protocol : MouseProtocol)
    (encoding : MouseEncoding) :
    let column := (event.column.toNat - pane.origin.col).toNat
    let row := (event.row.toNat - pane.origin.row).toNat
    (translateMouse event pane protocol encoding).map (decodeMouse encoding) =
      if Inside event pane ∧ protocolReports protocol event.kind = true ∧
          Representable encoding (sentCode encoding event.kind event.modifiers + 32) ∧
          Representable encoding (column + 33) ∧ Representable encoding (row + 33) then
        some (some (reported encoding event column row))
      else none := by
  intro column row
  have hcolumns := pane.cols.toNat_lt
  have hrows := pane.rows.toNat_lt
  unfold translateMouse
  cases hreports : protocolReports protocol event.kind with
  | false => simp
  | true =>
    by_cases hinside : Inside event pane
    · obtain ⟨⟨hleft, hright⟩, htop, hbottom⟩ := hinside
      have hcol : checkedSubI32 event.column.toNat pane.origin.col =
          some (event.column.toNat - pane.origin.col) := if_pos (by omega)
      have hrow : checkedSubI32 event.row.toNat pane.origin.row =
          some (event.row.toNat - pane.origin.row) := if_pos (by omega)
      have hin : ¬ ((event.column.toNat - pane.origin.col < 0 || event.row.toNat - pane.origin.row < 0 ||
          pane.cols.toNat ≤ event.column.toNat - pane.origin.col ||
          pane.rows.toNat ≤ event.row.toNat - pane.origin.row) = true) := by
        simp only [Bool.or_eq_true, decide_eq_true_eq]
        omega
      rw [hcol, hrow]
      simp only [Bool.not_true, Bool.false_eq_true, if_false, bind_eq_bind, bind_some]
      rw [if_neg hin, encodeMouse_decoded event (by omega) (by omega)]
      simp only [show Inside event pane from ⟨⟨hleft, hright⟩, htop, hbottom⟩, true_and]
      rfl
    · simp only [hinside, false_and, Bool.not_true, Bool.false_eq_true, if_false, map_eq_none_iff]
      cases hcol : checkedSubI32 event.column.toNat pane.origin.col with
      | none => rfl
      | some col =>
        cases hrow : checkedSubI32 event.row.toNat pane.origin.row with
        | none => rfl
        | some row =>
          obtain ⟨-, ⟨⟩⟩ := ite_none_right_eq_some.mp hcol
          obtain ⟨-, ⟨⟩⟩ := ite_none_right_eq_some.mp hrow
          refine if_pos ?_
          simp only [Bool.or_eq_true, decide_eq_true_eq]
          unfold Inside at hinside
          omega

end Lector.Tmux
