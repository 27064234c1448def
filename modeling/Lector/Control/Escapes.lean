import Lector.Control.Parser

/-! The escapes in the values of output records (`decode_octal` in `src/tmux_control.rs`): tmux writes the
control bytes and the backslash as a backslash and three octal digits. -/
namespace Lector.Control
open Bytes UInt8

/-! ## The encoding of tmux -/

def octalDigit (n : Nat) : UInt8 := UInt8.ofNat (0x30 + n)

variable (byte : UInt8)

def needsEscape : Bool := byte < 0x20 || byte == backslash

def escapeOctal : Bytes :=
  if needsEscape byte then
    [backslash, octalDigit (byte.toNat / 64), octalDigit (byte.toNat / 8 % 8), octalDigit (byte.toNat % 8)]
  else [byte]

variable (bytes : Bytes)

def encodeOctal : Bytes := bytes.flatMap escapeOctal

/-! ## Escapes -/

def octalValue (d₀ d₁ d₂ : UInt8) : Nat := (d₀.toNat - 0x30) * 64 + (d₁.toNat - 0x30) * 8 + (d₂.toNat - 0x30)

def CompletesEscape (rest : Bytes) : Prop :=
  ∃ d₀ d₁ d₂ more, rest = d₀ :: d₁ :: d₂ :: more ∧ isOctalDigit d₀ ∧ isOctalDigit d₁ ∧ isOctalDigit d₂ ∧
    octalValue d₀ d₁ d₂ ≤ 255

theorem octalDigit_toNat {n : Nat} (h : n < 8) : (octalDigit n).toNat = 0x30 + n := by
  rw [octalDigit, toNat_ofNat']
  omega

theorem isOctalDigit_octalDigit {n : Nat} (h : n < 8) : isOctalDigit (octalDigit n) = true := by
  have hdigit := octalDigit_toNat h
  rw [isOctalDigit, Bool.and_eq_true, decide_eq_true_eq, decide_eq_true_eq, le_iff_toNat_le, le_iff_toNat_le]
  have hlow : (0x30 : UInt8).toNat = 0x30 := rfl
  have hhigh : (0x37 : UInt8).toNat = 0x37 := rfl
  omega

theorem octalDigit_ne_backslash {d : UInt8} (h : isOctalDigit d = true) : d ≠ backslash := by
  rintro rfl
  cases h

theorem decodeOctal_plain {byte : UInt8} (h : byte ≠ backslash) (rest : Bytes) :
    decodeOctal (byte :: rest) = (decodeOctal rest).map (byte :: ·) := by
  rw [decodeOctal.eq_def]
  exact if_pos h

theorem decodeOctal_escape {d₀ d₁ d₂ : UInt8} (h₀ : isOctalDigit d₀ = true) (h₁ : isOctalDigit d₁ = true)
    (h₂ : isOctalDigit d₂ = true) (hvalue : octalValue d₀ d₁ d₂ ≤ 255) (rest : Bytes) :
    decodeOctal (backslash :: d₀ :: d₁ :: d₂ :: rest) =
      (decodeOctal rest).map (ofNat (octalValue d₀ d₁ d₂) :: ·) := by
  have hvalue' : octalValue d₀ d₁ d₂ < 256 := by omega
  rw [decodeOctal.eq_def]
  simp only [h₀, h₁, h₂]
  exact if_pos hvalue'

theorem decodeOctal_broken {rest : Bytes} (h : ¬ CompletesEscape rest) :
    decodeOctal (backslash :: rest) = .error .invalidOctalEscape := by
  rw [decodeOctal.eq_def]
  dsimp only
  rw [if_neg (not_not.mpr rfl)]
  split
  · rename_i d₀ d₁ d₂ more
    split
    · rfl
    · rename_i hdigits
      rw [Bool.not_eq_true, Bool.not_eq_false', Bool.and_eq_true, Bool.and_eq_true] at hdigits
      obtain ⟨⟨h₀, h₁⟩, h₂⟩ := hdigits
      rw [if_neg]
      exact fun hvalue => h ⟨d₀, d₁, d₂, more, rfl, h₀, h₁, h₂, Nat.le_of_lt_succ hvalue⟩
  · rfl

/-! ## The round trip -/

theorem octalValue_digits :
    octalValue (octalDigit (byte.toNat / 64)) (octalDigit (byte.toNat / 8 % 8)) (octalDigit (byte.toNat % 8)) =
      byte.toNat := by
  have hbyte := byte.toNat_lt
  rw [octalValue, octalDigit_toNat (by omega), octalDigit_toNat (by omega), octalDigit_toNat (by omega)]
  omega

theorem decodeOctal_escapeOctal (rest : Bytes) :
    decodeOctal (escapeOctal byte ++ rest) = (decodeOctal rest).map (byte :: ·) := by
  have hbyte := byte.toNat_lt
  rw [escapeOctal]
  split
  · have hvalue := octalValue_digits byte
    have hescape := decodeOctal_escape (isOctalDigit_octalDigit (n := byte.toNat / 64) (by omega))
      (isOctalDigit_octalDigit (n := byte.toNat / 8 % 8) (by omega))
      (isOctalDigit_octalDigit (n := byte.toNat % 8) (by omega)) (by omega) rest
    rw [hvalue, UInt8.ofNat_toNat] at hescape
    exact hescape
  · rename_i hplain
    refine decodeOctal_plain ?_ rest
    rintro rfl
    exact hplain rfl

theorem decodeOctal_encodeOctal : decodeOctal (encodeOctal bytes) = .ok bytes := by
  induction bytes with
  | nil => rfl
  | cons byte bytes ih =>
    have hcons : encodeOctal (byte :: bytes) = escapeOctal byte ++ encodeOctal bytes := List.flatMap_cons
    rw [hcons, decodeOctal_escapeOctal, ih]
    rfl

/-! ## What is rejected -/

def HasBrokenEscape : Prop :=
  ∃ i, bytes[i]? = some backslash ∧ ¬ CompletesEscape (bytes.drop (i + 1))

theorem hasBrokenEscape_cons {byte : UInt8} {rest : Bytes} :
    HasBrokenEscape (byte :: rest) ↔ (byte = backslash ∧ ¬ CompletesEscape rest) ∨ HasBrokenEscape rest := by
  constructor
  · rintro ⟨i, hat, hbroken⟩
    cases i with
    | zero => exact .inl ⟨Option.some.inj hat, hbroken⟩
    | succ i => exact .inr ⟨i, hat, hbroken⟩
  · rintro (⟨rfl, hbroken⟩ | ⟨i, hat, hbroken⟩)
    · exact ⟨0, rfl, hbroken⟩
    · exact ⟨i + 1, hat, hbroken⟩

theorem hasBrokenEscape_digit {d : UInt8} (h : isOctalDigit d = true) (rest : Bytes) :
    HasBrokenEscape (d :: rest) ↔ HasBrokenEscape rest := by
  rw [hasBrokenEscape_cons]
  exact or_iff_right fun hbroken => octalDigit_ne_backslash h hbroken.1

theorem map_eq_error {f : Bytes → Bytes} {result : Except ControlParseError Bytes} {e : ControlParseError} :
    result.map f = .error e ↔ result = .error e := by
  cases result with
  | error e' => exact Iff.rfl
  | ok bytes => exact iff_of_false (fun h => by cases h) fun h => by cases h

theorem decodeOctal_error_iff (e : ControlParseError) :
    decodeOctal bytes = .error e ↔ e = .invalidOctalEscape ∧ HasBrokenEscape bytes := by
  induction hlength : bytes.length using Nat.strong_induction_on generalizing bytes with
  | _ n ih =>
    cases bytes with
    | nil => exact iff_of_false (fun h => by cases h) fun ⟨_, i, hat, _⟩ => by cases hat
    | cons byte rest =>
      rw [List.length_cons] at hlength
      rw [hasBrokenEscape_cons]
      by_cases hbyte : byte = backslash
      · subst hbyte
        by_cases hcompletes : CompletesEscape rest
        · obtain ⟨d₀, d₁, d₂, more, rfl, h₀, h₁, h₂, hvalue⟩ := id hcompletes
          simp only [List.length_cons] at hlength
          rw [decodeOctal_escape h₀ h₁ h₂ hvalue, map_eq_error, ih more.length (by omega) more rfl,
            or_iff_right fun hbroken => hbroken.2 hcompletes, hasBrokenEscape_digit h₀,
            hasBrokenEscape_digit h₁, hasBrokenEscape_digit h₂]
        · rw [decodeOctal_broken hcompletes, Except.error.injEq, eq_comm]
          exact (and_iff_left (.inl ⟨rfl, hcompletes⟩)).symm
      · rw [decodeOctal_plain hbyte, map_eq_error, ih rest.length (by omega) rest rfl,
          or_iff_right fun hbroken => hbyte hbroken.1]

/-- **The decoder undoes the encoding of tmux and rejects just the strings with a broken escape**: a
backslash without three octal digits behind it that denote a byte. -/
theorem decodeOctal_exact (bytes : Bytes) : decodeOctal (encodeOctal bytes) = .ok bytes ∧
      ((∃ e, decodeOctal bytes = .error e) ↔ HasBrokenEscape bytes) := by
  refine ⟨decodeOctal_encodeOctal bytes, ?_⟩
  simp only [decodeOctal_error_iff, exists_eq_left]

example : decodeOctal (ascii "a\\01") = .error .invalidOctalEscape ∧
    decodeOctal (ascii "\\400") = .error .invalidOctalEscape ∧
    decodeOctal (ascii "\\377\\134") = .ok [0xff, 0x5c] := by decide +kernel

end Lector.Control
