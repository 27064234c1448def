import Mathlib.Algebra.Order.Ring.Nat
import Mathlib.Data.List.DropRight

/-! Byte strings and the few standard-library text operations that the wire parsers call on them:
literals, prefix removal, field splitting, unsigned decimal parsing. -/
namespace Lector

abbrev Bytes := List UInt8

def ascii (s : String) : Bytes := s.toList.map fun c => UInt8.ofNat c.toNat

/-- A property of all bytes can be checked on each of them. -/
instance decidableAllBytes {p : UInt8 → Prop} [DecidablePred p] : Decidable (∀ b, p b) :=
  decidable_of_iff (∀ n : Fin 256, p (.ofFin n)) ⟨fun h b => h b.toFin, fun h n => h (.ofFin n)⟩

namespace Bytes

def lf : UInt8 := 0x0a
def cr : UInt8 := 0x0d
def esc : UInt8 := 0x1b
def space : UInt8 := 0x20
def backslash : UInt8 := 0x5c

def isDigit (b : UInt8) : Bool := 0x30 ≤ b && b ≤ 0x39

/-- `bytes.strip_prefix(pre)`. -/
def stripPrefix (pre bs : Bytes) : Option Bytes := bs.dropPrefix? pre

theorem stripPrefix_eq_some (pre bs rest : Bytes) : stripPrefix pre bs = some rest ↔ bs = pre ++ rest := by
  simp [stripPrefix, List.dropPrefix?_eq_some_iff]

/-- The bytes before and after the first occurrence of a nonempty pattern. -/
def splitAround (pat : Bytes) : Bytes → Option (Bytes × Bytes)
  | [] => none
  | b :: bs =>
    match stripPrefix pat (b :: bs) with
    | some rest => some ([], rest)
    | none => (splitAround pat bs).map fun (before, rest) => (b :: before, rest)

/-- `bytes.split(|byte| byte == sep)`: one field more than there are separators. -/
def fields (sep : UInt8) (bs : Bytes) : List Bytes := bs.splitOn sep

theorem mem_intercalate (sep x : UInt8) (fs : List Bytes) (h : x ∈ [sep].intercalate fs) :
    x = sep ∨ ∃ f ∈ fs, x ∈ f := by
  induction fs with
  | nil => simp at h
  | cons f fs ih =>
    cases fs with
    | nil => exact .inr ⟨f, by simp, by simpa using h⟩
    | cons g gs =>
      rw [List.intercalate_cons_cons, List.mem_append, List.mem_append] at h
      rcases h with (h | h) | h
      · exact .inr ⟨f, by simp, h⟩
      · exact .inl (by simpa using h)
      · rcases ih h with h | ⟨k, hk, hx⟩
        · exact .inl h
        · exact .inr ⟨k, List.mem_cons_of_mem _ hk, hx⟩

theorem mem_fields (sep x : UInt8) (bs : Bytes) (h : x ∈ bs) : x = sep ∨ ∃ f ∈ fields sep bs, x ∈ f := by
  apply mem_intercalate sep x (fields sep bs)
  rw [fields, List.intercalate_splitOn]
  exact h

def digitsValue (ds : Bytes) : Nat := ds.foldl (fun n d => 10 * n + (d.toNat - 0x30)) 0

/-- `str::parse` at an unsigned type with values below `bound`: an optional `+`, then digits. -/
def parseUnsigned (bound : Nat) (bs : Bytes) : Option Nat :=
  let ds := (stripPrefix (ascii "+") bs).getD bs
  if ds.isEmpty || !ds.all isDigit then none
  else if digitsValue ds < bound then some (digitsValue ds) else none

def parseU64 (bs : Bytes) : Option UInt64 := (parseUnsigned (2 ^ 64) bs).map UInt64.ofNat

end Bytes

def checkedAdd (a b : Nat) : Option Nat := if a + b < 2 ^ 64 then some (a + b) else none

def saturatingAdd (bits a b : Nat) : Nat := min (a + b) (2 ^ bits - 1)

end Lector
