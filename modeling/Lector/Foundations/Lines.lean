import Lector.Foundations.Bytes
import Mathlib.Data.List.Infix

/-! Line-oriented byte streams: the complete lines of a stream, chunks of bounded size, and bytes written
as hexadecimal words. -/
namespace Lector.Lines
open Bytes List UInt8

/-! ## Lines -/

/-- The complete lines of a stream, without their line feeds, where `line` is open. -/
def readFrom : (line : Bytes) → Bytes → List Bytes
  | _, [] => []
  | line, b :: bs => if b = lf then line :: readFrom [] bs else readFrom (line ++ [b]) bs

def read (bs : Bytes) : List Bytes := readFrom [] bs

def openLine : (line : Bytes) → Bytes → Bytes
  | line, [] => line
  | line, b :: bs => if b = lf then openLine [] bs else openLine (line ++ [b]) bs

def Closed (bs : Bytes) : Prop := bs = [] ∨ bs.getLast? = some lf

instance (bs : Bytes) : Decidable (Closed bs) := inferInstanceAs (Decidable (_ ∨ _))

theorem closed_nil : Closed [] := .inl rfl

theorem closed_concat (bs : Bytes) : Closed (bs ++ [lf]) := .inr getLast?_concat

variable {bs more line : Bytes}

theorem closed_append (h : Closed bs) (h' : Closed more) : Closed (bs ++ more) := by
  rcases h' with rfl | h'
  · rwa [append_nil]
  · exact .inr (by rw [getLast?_append, h', Option.some_or])

theorem closed_flatten {parts : List Bytes} (h : ∀ part ∈ parts, Closed part) : Closed parts.flatten := by
  induction parts with
  | nil => exact closed_nil
  | cons part rest ih =>
    exact closed_append (h part mem_cons_self) (ih fun p hmem => h p (mem_cons_of_mem _ hmem))

theorem readFrom_concat (bs more : Bytes) :
    readFrom line (bs ++ more) = readFrom line bs ++ readFrom (openLine line bs) more := by
  induction bs generalizing line with
  | nil => rfl
  | cons b bs ih =>
    rw [cons_append, readFrom, readFrom, openLine]
    split
    · rw [ih, cons_append]
    · exact ih

theorem openLine_concat (bs more : Bytes) : openLine line (bs ++ more) = openLine (openLine line bs) more := by
  induction bs generalizing line with
  | nil => rfl
  | cons b bs ih =>
    rw [cons_append, openLine, openLine]
    split
    · exact ih
    · exact ih

theorem openLine_closed (h : bs.getLast? = some lf) : openLine line bs = [] := by
  obtain ⟨-, rfl⟩ := getLast?_eq_some_iff.mp h
  rw [openLine_concat]
  rfl

theorem readFrom_append (h : bs.getLast? = some lf) (more : Bytes) :
    readFrom line (bs ++ more) = readFrom line bs ++ read more := by
  rw [readFrom_concat, openLine_closed h]
  rfl

/-- **The lines of two streams**, the first of which is closed. -/
theorem read_append (h : Closed bs) (more : Bytes) : read (bs ++ more) = read bs ++ read more := by
  rcases h with rfl | h
  · rfl
  · exact readFrom_append h more

theorem openLine_of_notMem (h : lf ∉ bs) : openLine line bs = line ++ bs := by
  induction bs generalizing line with
  | nil => rw [openLine, append_nil]
  | cons b bs ih =>
    rw [mem_cons, not_or] at h
    rw [openLine, if_neg (Ne.symm h.1), ih h.2, append_assoc, singleton_append]

theorem readFrom_of_notMem (h : lf ∉ bs) : readFrom line bs = [] := by
  induction bs generalizing line with
  | nil => rfl
  | cons b bs ih =>
    rw [mem_cons, not_or] at h
    rw [readFrom, if_neg (Ne.symm h.1), ih h.2]

theorem readFrom_line (h : lf ∉ bs) : readFrom line (bs ++ [lf]) = [line ++ bs] := by
  rw [readFrom_concat, readFrom_of_notMem h, openLine_of_notMem h]
  rfl

theorem read_line (h : lf ∉ bs) : read (bs ++ [lf]) = [bs] := readFrom_line h

/-! ## Chunks -/

section Chunks

variable {α : Type}

/-- `slice.chunks(n)`, with `room` for the number of chunks. -/
def chunksFrom (n : Nat) : (room : Nat) → List α → List (List α)
  | 0, _ => []
  | room + 1, xs => if xs.isEmpty then [] else xs.take n :: chunksFrom n room (xs.drop n)

def chunks (n : Nat) (xs : List α) : List (List α) := chunksFrom n xs.length xs

theorem flatten_chunksFrom {n room : Nat} (hn : 0 < n) {xs : List α} (h : xs.length ≤ room) :
    (chunksFrom n room xs).flatten = xs := by
  induction room generalizing xs with
  | zero => rw [eq_nil_of_length_eq_zero (Nat.le_zero.mp h)]; rfl
  | succ room ih =>
    rw [chunksFrom]
    split
    · rename_i hempty
      rw [isEmpty_iff.mp hempty]
      rfl
    · rw [flatten_cons, ih (by rw [length_drop]; omega), take_append_drop]

/-- **Chunks are all of a list.** -/
theorem flatten_chunks {n : Nat} (hn : 0 < n) (xs : List α) : (chunks n xs).flatten = xs :=
  flatten_chunksFrom hn (le_rfl)

theorem mem_chunks {n : Nat} (hn : 0 < n) {xs chunk : List α} (h : chunk ∈ chunks n xs) :
    chunk ≠ [] ∧ chunk.length ≤ n := by
  have hroom : ∀ room (xs : List α), chunk ∈ chunksFrom n room xs → chunk ≠ [] ∧ chunk.length ≤ n := by
    intro room
    induction room with
    | zero =>
      intro xs h
      cases h
    | succ room ih =>
      intro xs h
      rw [chunksFrom] at h
      split at h
      · cases h
      · rename_i hempty
        obtain rfl | h := mem_cons.mp h
        · have hlength : 0 < xs.length := length_pos_iff.mpr fun hnil => hempty (by simp [hnil])
          constructor
          · apply ne_nil_of_length_pos
            rw [length_take]
            omega
          · exact length_take_le _ _
        · exact ih _ h
  exact hroom _ xs h

end Chunks

/-! ## Hexadecimal words -/

def hexDigit (value : UInt8) : UInt8 := if value ≤ 9 then 0x30 + value else 0x61 + (value - 10)

def hexValue (digit : UInt8) : UInt8 := if digit ≤ 0x39 then digit - 0x30 else digit - 0x61 + 10

def isHexDigit (digit : UInt8) : Bool := (0x30 ≤ digit && digit ≤ 0x39) || (0x61 ≤ digit && digit ≤ 0x66)

def hexByte (byte : UInt8) : Bytes := [hexDigit (byte >>> 4), hexDigit (byte &&& 0x0f)]

/-- Two digits for each byte, with a space between bytes. -/
def writeHex : Bytes → Bytes
  | [] => []
  | [byte] => hexByte byte
  | byte :: next :: rest => hexByte byte ++ space :: writeHex (next :: rest)

/-- Reads words of two digits; all other text is no word. -/
def readHex : Bytes → Bytes
  | high :: low :: rest =>
    if isHexDigit high && isHexDigit low then
      (hexValue high <<< 4 ||| hexValue low) ::
        match rest with
        | separator :: words => if separator = space then readHex words else []
        | [] => []
    else []
  | _ => []

theorem hexByte_spec (byte : UInt8) :
    (isHexDigit (hexDigit (byte >>> 4)) && isHexDigit (hexDigit (byte &&& 0x0f))) = true ∧
      hexValue (hexDigit (byte >>> 4)) <<< 4 ||| hexValue (hexDigit (byte &&& 0x0f)) = byte := by
  revert byte
  decide +kernel

variable (bytes : Bytes)

theorem readHex_writeHex : readHex (writeHex bytes) = bytes := by
  induction bytes using writeHex.induct with
  | case1 => rfl
  | case2 byte =>
    obtain ⟨hdigits, hvalue⟩ := hexByte_spec byte
    rw [writeHex, hexByte, readHex, if_pos hdigits, hvalue]
  | case3 byte next rest ih =>
    obtain ⟨hdigits, hvalue⟩ := hexByte_spec byte
    rw [writeHex, hexByte, cons_append, cons_append, nil_append, readHex,
      if_pos hdigits, hvalue, if_pos rfl, ih]

theorem lf_notMem_writeHex : lf ∉ writeHex bytes := by
  have hbyte : ∀ byte : UInt8, lf ∉ hexByte byte := by
    decide +kernel
  induction bytes using writeHex.induct with
  | case1 => exact not_mem_nil
  | case2 byte => exact hbyte byte
  | case3 byte next rest ih =>
    rw [writeHex, mem_append, mem_cons, not_or, not_or]
    exact ⟨hbyte byte, by decide, ih⟩

theorem writeHex_eq_intercalate : writeHex bytes = [space].intercalate (bytes.map hexByte) := by
  induction bytes using writeHex.induct with
  | case1 => rfl
  | case2 byte => simp [writeHex]
  | case3 byte next rest ih => simp [writeHex, ih]

theorem length_writeHex : (writeHex bytes).length = 3 * bytes.length - 1 := by
  induction bytes using writeHex.induct with
  | case1 => rfl
  | case2 byte => rfl
  | case3 byte next rest ih =>
    simp only [writeHex, length_append, length_cons, ih, hexByte, length_nil]
    omega

theorem isHexDigit_of_mem_hexByte {byte b : UInt8} (h : b ∈ hexByte byte) : isHexDigit b = true := by
  obtain ⟨hdigits, -⟩ := hexByte_spec byte
  rw [Bool.and_eq_true] at hdigits
  simp only [hexByte, mem_cons, not_mem_nil, or_false] at h
  obtain rfl | rfl := h
  · exact hdigits.1
  · exact hdigits.2

/-! ## Decimal numbers -/

theorem ascii_append (s t : String) : ascii (s ++ t) = ascii s ++ ascii t := by
  rw [ascii, String.toList_append, map_append]
  rfl

theorem ascii_toString (n : UInt64) :
    ascii (toString n) = (Nat.toDigits 10 n.toNat).map fun c => ofNat c.toNat := by
  show ascii (toString n.toNat) = _
  rw [Nat.toString_eq_repr, Nat.repr_eq_ofList_toDigits, ascii, String.toList_ofList]

theorem ascii_toString_length (n : UInt64) : (ascii (toString n)).length ≤ 20 := by
  have hlt : n.toNat < 10 ^ 20 := n.toNat_lt.trans (by decide)
  rw [ascii_toString, length_map]
  exact (Nat.length_toDigits_le_iff (by decide) (by decide)).mpr hlt

theorem digitsValue_ascii_toString (n : UInt64) : digitsValue (ascii (toString n)) = n.toNat := by
  have hbyte : ∀ c ∈ Nat.toDigits 10 n.toNat, (ofNat c.toNat).toNat = c.toNat := by
    intro c hc
    have hdigit := Nat.isDigit_of_mem_toDigits (by decide) (by decide) hc
    have hrange : 48 ≤ c.toNat ∧ c.toNat ≤ 57 := by
      simpa [Char.isDigit, UInt32.le_iff_toNat_le] using hdigit
    rw [toNat_ofNat']
    omega
  have hfold : ∀ (digits : List Char) (start : Nat), (∀ c ∈ digits, (ofNat c.toNat).toNat = c.toNat) →
      (digits.map fun c => ofNat c.toNat).foldl (fun n d => 10 * n + (d.toNat - 0x30)) start =
        Nat.ofDigitChars 10 digits start := by
    intro digits
    induction digits with
    | nil => simp
    | cons c digits ih =>
      intro start h
      rw [map_cons, foldl_cons, h c mem_cons_self]
      exact ih _ fun d hd => h d (mem_cons_of_mem _ hd)
  rw [ascii_toString, digitsValue, hfold _ _ hbyte, Nat.ofDigitChars_ten_toDigits]

theorem isDigit_of_mem_ascii_toString {n : UInt64} {b : UInt8} (h : b ∈ ascii (toString n)) :
    isDigit b = true := by
  rw [ascii_toString] at h
  obtain ⟨c, hc, rfl⟩ := mem_map.mp h
  have hdigit := Nat.isDigit_of_mem_toDigits (by decide) (by decide) hc
  have hrange : 48 ≤ c.toNat ∧ c.toNat ≤ 57 := by
    rw [Char.isDigit, Bool.and_eq_true, decide_eq_true_eq, decide_eq_true_eq] at hdigit
    exact hdigit
  rw [isDigit, Bool.and_eq_true, decide_eq_true_eq, decide_eq_true_eq, le_iff_toNat_le,
    le_iff_toNat_le, toNat_ofNat']
  have hlow : (0x30 : UInt8).toNat = 48 := rfl
  have hhigh : (0x39 : UInt8).toNat = 57 := rfl
  omega

end Lector.Lines

/-! Markers in byte strings: patterns whose first byte does not occur in them again, so that two
occurrences cannot overlap. -/
namespace Lector.Markers
open List

variable {α : Type}

/-- The first element of the marker does not occur in it again. -/
def Marks (marker : List α) : Prop := ∃ first rest, marker = first :: rest ∧ first ∉ rest

/-- The marker occurs at the end of the text and nowhere else. -/
def OnlyLast (marker text : List α) : Prop :=
  marker <:+ text ∧ ∀ before after, text = before ++ marker ++ after → after = []

variable {marker : List α}

theorem Marks.eq_of_borders (h : Marks marker) {border before after : List α}
    (hstarts : marker = border ++ after) (hends : marker = before ++ border) : border = [] ∨ before = [] := by
  obtain ⟨first, rest, rfl, hfirst⟩ := h
  cases border with
  | nil => exact .inl rfl
  | cons head border =>
    obtain ⟨rfl, -⟩ := cons.inj hstarts
    cases before with
    | nil => exact .inr rfl
    | cons other before =>
      obtain ⟨-, hrest⟩ := cons.inj hends
      refine absurd ?_ hfirst
      rw [hrest]
      exact mem_append_right _ mem_cons_self

/-- **No marker forms across a seam**: behind a text the marker is the only one exactly if the text holds
none. -/
theorem Marks.onlyLast_iff (h : Marks marker) (text : List α) :
    OnlyLast marker (text ++ marker) ↔ ¬ marker <:+: text := by
  constructor
  · rintro ⟨-, honly⟩ ⟨before, after, rfl⟩
    have hnil := honly before (after ++ marker) (by simp)
    obtain ⟨first, rest, rfl, -⟩ := h
    simp at hnil
  · intro hnone
    refine ⟨suffix_append _ _, fun before after hsplit => ?_⟩
    rcases append_eq_append_iff.mp hsplit.symm with ⟨border, htext, -⟩ | ⟨border, hbefore, hmarker⟩
    · exact absurd ⟨before, border, htext.symm⟩ hnone
    · -- the marker found begins before the seam and ends behind it
      rcases append_eq_append_iff.mp hbefore with ⟨start, htext, hends⟩ | ⟨start, -, hborder⟩
      · rcases h.eq_of_borders hmarker hends with rfl | rfl
        · refine absurd ⟨before, [], ?_⟩ hnone
          rw [append_nil, htext, hends, append_nil]
        · rw [nil_append] at hends
          rw [← hends] at hmarker
          exact append_right_eq_self.mp hmarker.symm
      · have hlength := congrArg length hmarker
        rw [hborder, length_append, length_append] at hlength
        exact eq_nil_of_length_eq_zero (by omega)

theorem infix_append_iff {first : α} {rest other text : List α} (hother : first ∉ other)
    (hlength : other.length = rest.length) (hne : other ≠ rest) :
    first :: rest <:+: (first :: other) ++ text ↔ first :: rest <:+: text := by
  constructor
  · rintro ⟨before, after, hsplit⟩
    cases before with
    | nil =>
      rw [nil_append, cons_append, cons_append, cons.injEq] at hsplit
      exact absurd (append_inj hsplit.2 hlength.symm).1.symm hne
    | cons head before =>
      rw [cons_append, cons_append, cons_append, cons.injEq, append_assoc] at hsplit
      rcases append_eq_append_iff.mp hsplit.2 with ⟨inside, hinside, hmarker⟩ | ⟨gap, -, htext⟩
      · cases inside with
        | nil => exact ⟨[], after, hmarker⟩
        | cons found inside =>
          refine absurd ?_ hother
          obtain ⟨rfl, -⟩ := cons.inj hmarker
          rw [hinside]
          exact mem_append_right _ mem_cons_self
      · exact ⟨gap, after, by rw [htext, append_assoc]⟩
  · exact fun hinfix => hinfix.trans (suffix_append _ _).isInfix

end Lector.Markers
