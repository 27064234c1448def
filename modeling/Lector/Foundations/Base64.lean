import Lector.Foundations.Bytes

/-! Base64: three bytes as four letters, with padding. -/
namespace Lector.Base64
open List Option

/-! ## Letters -/

def table : Bytes := ascii "ABCDEFGHIJKLMNOPQRSTUVWXYZabcdefghijklmnopqrstuvwxyz0123456789+/"

def padding : UInt8 := 0x3d

def letter (sextet : Nat) : UInt8 := table.getD sextet 0

/-- The value of a letter; the padding has none. -/
def sextet (byte : UInt8) : Option Nat := table.idxOf? byte

theorem sextet_letter {n : Nat} (h : n < 64) : sextet (letter n) = some n := by
  revert n
  decide

theorem letter_ne_padding {n : Nat} (h : n < 64) : letter n ≠ padding := by
  revert n
  decide

/-! ## Encoding -/

def encodeGroup (group : Bytes) : Bytes :=
  let a := (group.getD 0 0).toNat
  let b := (group.getD 1 0).toNat
  let c := (group.getD 2 0).toNat
  [letter (a >>> 2), letter ((a &&& 3) <<< 4 ||| b >>> 4),
    if 1 < group.length then letter ((b &&& 0x0f) <<< 2 ||| c >>> 6) else padding,
    if 2 < group.length then letter (c &&& 0x3f) else padding]

def encode : Bytes → Bytes
  | a :: b :: c :: rest => encodeGroup [a, b, c] ++ encode rest
  | [] => []
  | group => encodeGroup group

/-! ## Decoding -/

def decodeGroup (w x y z : UInt8) : Option Bytes := do
  let w ← sextet w
  let x ← sextet x
  let first := UInt8.ofNat (w * 4 + x / 16)
  if y = padding then some [first]
  else
    let y ← sextet y
    let second := UInt8.ofNat (x % 16 * 16 + y / 4)
    if z = padding then some [first, second]
    else
      let z ← sextet z
      some [first, second, UInt8.ofNat (y % 4 * 64 + z)]

def decode : Bytes → Option Bytes
  | [] => some []
  | w :: x :: y :: z :: rest => do
    let group ← decodeGroup w x y z
    let bytes ← decode rest
    some (group ++ bytes)
  | _ => none

/-! ## Round trip -/

theorem first_sextet (a : UInt8) : a.toNat >>> 2 = a.toNat / 4 := Nat.shiftRight_eq_div_pow _ 2

theorem straddle (n m k : Nat) (h : m < 2 ^ k) : n <<< k ||| m = n * 2 ^ k + m := by
  rw [← Nat.shiftLeft_add_eq_or_of_lt h, Nat.shiftLeft_eq]

theorem second_sextet (a b : UInt8) :
    (a.toNat &&& 3) <<< 4 ||| b.toNat >>> 4 = a.toNat % 4 * 16 + b.toNat / 16 := by
  have hb := b.toNat_lt
  have hlow : a.toNat &&& 3 = a.toNat % 4 := Nat.and_two_pow_sub_one_eq_mod _ 2
  rw [Nat.shiftRight_eq_div_pow, hlow, straddle _ _ 4 (by omega)]
  rfl

theorem third_sextet (b c : UInt8) :
    (b.toNat &&& 0x0f) <<< 2 ||| c.toNat >>> 6 = b.toNat % 16 * 4 + c.toNat / 64 := by
  have hc := c.toNat_lt
  have hlow : b.toNat &&& 0x0f = b.toNat % 16 := Nat.and_two_pow_sub_one_eq_mod _ 4
  rw [Nat.shiftRight_eq_div_pow, hlow, straddle _ _ 2 (by omega)]
  rfl

theorem ofNat_of_eq {n : Nat} (byte : UInt8) (h : n = byte.toNat) : UInt8.ofNat n = byte := by
  rw [h, UInt8.ofNat_toNat]

theorem decodeGroup_three (a b c : UInt8) :
    encodeGroup [a, b, c] = [letter (a.toNat / 4), letter (a.toNat % 4 * 16 + b.toNat / 16),
        letter (b.toNat % 16 * 4 + c.toNat / 64), letter (c.toNat % 64)] ∧
      decodeGroup (letter (a.toNat / 4)) (letter (a.toNat % 4 * 16 + b.toNat / 16))
        (letter (b.toNat % 16 * 4 + c.toNat / 64)) (letter (c.toNat % 64)) = some [a, b, c] := by
  have ha := a.toNat_lt
  have hb := b.toNat_lt
  have hc := c.toNat_lt
  have hlow : c.toNat &&& 0x3f = c.toNat % 64 := Nat.and_two_pow_sub_one_eq_mod _ 6
  constructor
  · simp only [encodeGroup, getD_cons_zero, getD_cons_succ, length_cons,
      length_nil, Nat.reduceAdd, Nat.reduceLT, if_true, first_sextet, second_sextet, third_sextet,
      hlow]
  · rw [decodeGroup, sextet_letter (by omega), sextet_letter (by omega)]
    simp only [bind_eq_bind, bind_some]
    rw [if_neg (letter_ne_padding (by omega)), sextet_letter (by omega), bind_some,
      if_neg (letter_ne_padding (by omega)), sextet_letter (by omega), bind_some,
      ofNat_of_eq a (by omega), ofNat_of_eq b (by omega),
      ofNat_of_eq c (by omega)]

theorem decode_two (a b : UInt8) : decode (encodeGroup [a, b]) = some [a, b] := by
  have ha := a.toNat_lt
  have hb := b.toNat_lt
  have hzero : (0 : UInt8).toNat = 0 := rfl
  have hgroup : encodeGroup [a, b] = [letter (a.toNat / 4),
      letter (a.toNat % 4 * 16 + b.toNat / 16), letter (b.toNat % 16 * 4), padding] := by
    have hthird := third_sextet b 0
    rw [hzero, Nat.add_zero] at hthird
    simp only [encodeGroup, getD_cons_zero, getD_cons_succ, getD_nil,
      length_cons, length_nil, Nat.reduceAdd, Nat.reduceLT, if_true, if_false,
      first_sextet, second_sextet, hzero, hthird]
  rw [hgroup, decode, decodeGroup, sextet_letter (by omega), sextet_letter (by omega)]
  simp only [bind_eq_bind, bind_some]
  rw [if_neg (letter_ne_padding (by omega)), sextet_letter (by omega), bind_some,
    if_pos trivial, bind_some, decode, bind_some, ofNat_of_eq a (by omega),
    ofNat_of_eq b (by omega), append_nil]

theorem decode_one (a : UInt8) : decode (encodeGroup [a]) = some [a] := by
  have ha := a.toNat_lt
  have hzero : (0 : UInt8).toNat = 0 := rfl
  have hgroup : encodeGroup [a] = [letter (a.toNat / 4), letter (a.toNat % 4 * 16), padding, padding] := by
    have hsecond := second_sextet a 0
    rw [hzero, Nat.add_zero] at hsecond
    simp only [encodeGroup, getD_cons_zero, getD_cons_succ, getD_nil,
      length_cons, length_nil, Nat.reduceAdd, Nat.reduceLT, if_false,
      first_sextet, hzero, hsecond]
  rw [hgroup, decode, decodeGroup, sextet_letter (by omega), sextet_letter (by omega)]
  simp only [bind_eq_bind, bind_some]
  rw [if_pos trivial, bind_some, decode, bind_some, ofNat_of_eq a (by omega), append_nil]

/-- **What is encoded is decoded.** -/
theorem decode_encode (bytes : Bytes) : decode (encode bytes) = some bytes := by
  induction bytes using encode.induct with
  | case1 a b c rest ih =>
    obtain ⟨hgroup, hdecode⟩ := decodeGroup_three a b c
    rw [encode, hgroup, cons_append, cons_append, cons_append, cons_append, nil_append, decode, hdecode, ih]
    rfl
  | case2 => rfl
  | case3 group hthree hnil =>
    cases group with
    | nil => exact absurd rfl hnil
    | cons a rest =>
      cases rest with
      | nil => exact decode_one a
      | cons b rest =>
        cases rest with
        | nil => exact decode_two a b
        | cons c rest => exact absurd rfl (hthree a b c rest)

end Lector.Base64
