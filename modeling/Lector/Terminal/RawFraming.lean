import Lector.Foundations.Bytes
import Mathlib.Data.List.Infix

/-! The framing that the observer of the output stream recognizes byte by byte (`observe_raw_byte` in
`crates/lector-ghostty/src/lib.rs`): the introducers of application program commands, outside of characters. -/
namespace Lector.RawFraming
open List

/-! ## The observer -/

structure StreamObserver where
  outputReportStructural : Bool
  semanticInputBoundary : Bool
  rawEscapePending : Bool
  rawUtf8Continuations : Nat
  rawUtf8NextMin : UInt8
  rawUtf8NextMax : UInt8
  deriving DecidableEq, Repr

namespace StreamObserver

def default : StreamObserver := ⟨false, false, false, 0, 0, 0⟩

variable (self : StreamObserver)

def beginUpdate (structural : Bool) : StreamObserver :=
  { self with semanticInputBoundary := false, outputReportStructural := structural }

def markStructuralOutput : StreamObserver :=
  { self with outputReportStructural := true, semanticInputBoundary := false }

def expected (byte : UInt8) : Nat × UInt8 × UInt8 :=
  if 0xc2 ≤ byte ∧ byte ≤ 0xdf then (1, 0x80, 0xbf)
  else if byte = 0xe0 then (2, 0xa0, 0xbf)
  else if (0xe1 ≤ byte ∧ byte ≤ 0xec) ∨ (0xee ≤ byte ∧ byte ≤ 0xef) then (2, 0x80, 0xbf)
  else if byte = 0xed then (2, 0x80, 0x9f)
  else if byte = 0xf0 then (3, 0x90, 0xbf)
  else if 0xf1 ≤ byte ∧ byte ≤ 0xf3 then (3, 0x80, 0xbf)
  else if byte = 0xf4 then (3, 0x80, 0x8f)
  else (0, 0, 0)

def observeRawByte (byte : UInt8) : StreamObserver :=
  if 0 < self.rawUtf8Continuations ∧ self.rawUtf8NextMin ≤ byte ∧ byte ≤ self.rawUtf8NextMax then
    { self with
      rawUtf8Continuations := self.rawUtf8Continuations - 1
      rawUtf8NextMin := 0x80
      rawUtf8NextMax := 0xbf
      rawEscapePending := false }
  else
    let marked := if byte = 0x9f ∨ (self.rawEscapePending ∧ byte = 0x5f) then self.markStructuralOutput else self
    { marked with
      rawEscapePending := byte = 0x1b
      rawUtf8Continuations := (expected byte).1
      rawUtf8NextMin := (expected byte).2.1
      rawUtf8NextMax := (expected byte).2.2 }

def advance (update : Bool × Bytes) : StreamObserver :=
  update.2.foldl observeRawByte (self.beginUpdate update.1)

end StreamObserver

/-! ## Well-formed characters -/

def IsTail (b : UInt8) : Prop := 0x80 ≤ b ∧ b ≤ 0xbf

instance : DecidablePred IsTail := fun _ => inferInstanceAs (Decidable (_ ∧ _))

structure TableRow where
  leads : UInt8 × UInt8
  seconds : UInt8 × UInt8
  tails : Nat

/-- The leads, the bytes that may come second, and how many bytes follow. -/
def table : List TableRow :=
  [⟨(0xc2, 0xdf), (0x80, 0xbf), 0⟩, ⟨(0xe0, 0xe0), (0xa0, 0xbf), 1⟩, ⟨(0xe1, 0xec), (0x80, 0xbf), 1⟩,
    ⟨(0xed, 0xed), (0x80, 0x9f), 1⟩, ⟨(0xee, 0xef), (0x80, 0xbf), 1⟩, ⟨(0xf0, 0xf0), (0x90, 0xbf), 2⟩,
    ⟨(0xf1, 0xf3), (0x80, 0xbf), 2⟩, ⟨(0xf4, 0xf4), (0x80, 0x8f), 2⟩]

/-- Bytes that may follow a part of a character: `count` of them, the first one in a range of its own. -/
def Fits (count : Nat) (low high : UInt8) (more : Bytes) : Prop :=
  ∃ second tails, more = second :: tails ∧ low ≤ second ∧ second ≤ high ∧ tails.length + 1 = count ∧
    ∀ t ∈ tails, IsTail t

def WellFormed (s : Bytes) : Prop :=
  (∃ b, b < 0x80 ∧ s = [b]) ∨ ∃ row ∈ table, ∃ lead more, s = lead :: more ∧
    (row.leads.1 ≤ lead ∧ lead ≤ row.leads.2) ∧ Fits (row.tails + 1) row.seconds.1 row.seconds.2 more

/-- The byte continues a sequence that is well formed so far. -/
def Continues (before : Bytes) (b : UInt8) : Prop :=
  ∃ part rest, part ≠ [] ∧ part <:+ before ∧ WellFormed (part ++ b :: rest)

def Introduces (before : Bytes) (b : UInt8) : Prop :=
  (b = 0x9f ∧ ¬ Continues before b) ∨ (b = 0x5f ∧ before.getLast? = some 0x1b)

open StreamObserver

theorem expected_table : ∀ b : UInt8,
    ((table.filter fun row => row.leads.1 ≤ b ∧ b ≤ row.leads.2).map fun row =>
        (row.tails + 1, row.seconds)) = (if (expected b).1 = 0 then [] else [expected b]) ∧
      (IsTail b → (expected b).1 = 0) ∧
      (0 < (expected b).1 → 0x80 ≤ (expected b).2.1 ∧ (expected b).2.2 ≤ 0xbf) := by
  decide +kernel

variable {count : Nat} {low high b : UInt8} {more before : Bytes}

theorem fits_cons : Fits count low high (b :: more) ↔
    (low ≤ b ∧ b ≤ high) ∧ more.length + 1 = count ∧ ∀ t ∈ more, IsTail t := by
  constructor
  · rintro ⟨_, _, heq, hlow, hhigh, hrest⟩
    cases heq
    exact ⟨⟨hlow, hhigh⟩, hrest⟩
  · rintro ⟨⟨hlow, hhigh⟩, hrest⟩
    exact ⟨b, more, rfl, hlow, hhigh, hrest⟩

theorem fits_tails (hmore : more ≠ []) :
    Fits count 0x80 0xbf more ↔ more.length = count ∧ ∀ t ∈ more, IsTail t := by
  cases more with
  | nil => exact absurd rfl hmore
  | cons c rest =>
    rw [fits_cons, forall_mem_cons]
    exact ⟨fun h => ⟨h.2.1, h.1, h.2.2⟩, fun h => ⟨h.2.1, h.1, h.2.2⟩⟩

theorem wellFormed_lead (hmore : more ≠ []) :
    WellFormed (b :: more) ↔ Fits (expected b).1 (expected b).2.1 (expected b).2.2 more := by
  have hrow : WellFormed (b :: more) ↔
      ∃ x ∈ (table.filter fun row => row.leads.1 ≤ b ∧ b ≤ row.leads.2).map fun row => (row.tails + 1, row.seconds),
        Fits x.1 x.2.1 x.2.2 more := by
    simp only [mem_map, mem_filter, decide_eq_true_eq]
    constructor
    · rintro (⟨_, -, heq⟩ | ⟨row, hrow, _, _, heq, hlead, hfits⟩)
      · exact absurd (cons.inj heq).2 hmore
      · cases heq
        exact ⟨_, ⟨row, ⟨hrow, hlead⟩, rfl⟩, hfits⟩
    · rintro ⟨_, ⟨row, ⟨hrow, hlead⟩, rfl⟩, hfits⟩
      exact .inr ⟨row, hrow, b, more, rfl, hlead, hfits⟩
  rw [hrow, (expected_table b).1]
  split
  · rename_i hnone
    rw [hnone]
    refine ⟨fun ⟨_, hmem, _⟩ => absurd hmem not_mem_nil, fun ⟨_, _, _, _, _, hlength, _⟩ => ?_⟩
    exact absurd hlength (Nat.succ_ne_zero _)
  · simp only [mem_singleton, exists_eq_left]

/-! ## What the observer knows -/

/-- The observer knows what may follow, and whether ESC came last. -/
structure Follows (before : Bytes) (s : StreamObserver) : Prop where
  escape : s.rawEscapePending = true ↔ before.getLast? = some 0x1b
  range : 0 < s.rawUtf8Continuations → 0x80 ≤ s.rawUtf8NextMin ∧ s.rawUtf8NextMax ≤ 0xbf
  parts : ∀ more ≠ [], (∃ part, part ≠ [] ∧ part <:+ before ∧ WellFormed (part ++ more)) ↔
    Fits s.rawUtf8Continuations s.rawUtf8NextMin s.rawUtf8NextMax more

variable {s : StreamObserver}

theorem follows_default : Follows [] .default where
  escape := by simp [StreamObserver.default]
  range h := absurd h (lt_irrefl 0)
  parts more _ := by
    refine ⟨fun ⟨_, hne, hsuffix, _⟩ => absurd (suffix_nil.mp hsuffix) hne, ?_⟩
    exact fun ⟨_, _, _, _, _, hlength, _⟩ => absurd hlength (Nat.succ_ne_zero _)

theorem Follows.continues_iff (h : Follows before s) : Continues before b ↔
    0 < s.rawUtf8Continuations ∧ s.rawUtf8NextMin ≤ b ∧ b ≤ s.rawUtf8NextMax := by
  have hparts : Continues before b ↔ ∃ rest,
      Fits s.rawUtf8Continuations s.rawUtf8NextMin s.rawUtf8NextMax (b :: rest) := by
    constructor
    · rintro ⟨part, rest, hne, hsuffix, hformed⟩
      exact ⟨rest, (h.parts _ (cons_ne_nil _ _)).mp ⟨part, hne, hsuffix, hformed⟩⟩
    · rintro ⟨rest, hfits⟩
      obtain ⟨part, hne, hsuffix, hformed⟩ := (h.parts _ (cons_ne_nil _ _)).mpr hfits
      exact ⟨part, rest, hne, hsuffix, hformed⟩
  simp only [hparts, fits_cons]
  constructor
  · rintro ⟨rest, hrange, hlength, -⟩
    exact ⟨by omega, hrange⟩
  · rintro ⟨hpos, hrange⟩
    refine ⟨replicate (s.rawUtf8Continuations - 1) 0x80, hrange, ?_, fun t ht => ?_⟩
    · rw [length_replicate]
      omega
    · rw [eq_of_mem_replicate ht]
      exact ⟨by decide, by decide⟩

theorem parts_concat : (∃ part, part ≠ [] ∧ part <:+ before ++ [b] ∧ WellFormed (part ++ more)) ↔
    WellFormed (b :: more) ∨ ∃ part, part ≠ [] ∧ part <:+ before ∧ WellFormed (part ++ b :: more) := by
  constructor
  · rintro ⟨part, hne, hsuffix, hformed⟩
    rcases suffix_concat_iff.mp hsuffix with rfl | ⟨init, rfl, hinit⟩
    · exact absurd rfl hne
    · rw [append_assoc] at hformed
      by_cases hnil : init = []
      · exact .inl (by simpa [hnil] using hformed)
      · exact .inr ⟨init, hnil, hinit, hformed⟩
  · rintro (hformed | ⟨part, hne, hsuffix, hformed⟩)
    · exact ⟨[b], cons_ne_nil _ _, suffix_append _ _, hformed⟩
    · refine ⟨part ++ [b], by simp, suffix_concat_iff.mpr (.inr ⟨part, rfl, hsuffix⟩), ?_⟩
      rwa [append_assoc]

theorem Follows.observe (h : Follows before s) (b : UInt8) : Follows (before ++ [b]) (s.observeRawByte b) := by
  have hlast : (before ++ [b]).getLast? = some 0x1b ↔ b = 0x1b := by
    rw [getLast?_concat, Option.some.injEq]
  unfold observeRawByte
  split
  · rename_i hrange
    obtain ⟨hlow, hhigh⟩ := h.range hrange.1
    have htail : IsTail b := ⟨UInt8.le_trans hlow hrange.2.1, UInt8.le_trans hrange.2.2 hhigh⟩
    refine ⟨?_, fun _ => ⟨UInt8.le_refl _, UInt8.le_refl _⟩, fun more hmore => ?_⟩
    · rw [hlast]
      refine ⟨fun h => absurd h Bool.false_ne_true, fun heq => absurd htail ?_⟩
      rw [heq]
      exact fun htail => absurd htail.1 (by decide)
    · rw [parts_concat, h.parts _ (cons_ne_nil _ _), wellFormed_lead hmore, (expected_table b).2.1 htail,
        fits_cons, fits_tails hmore]
      constructor
      · rintro (⟨_, _, _, _, _, hlength, _⟩ | ⟨-, hlength, htails⟩)
        · exact absurd hlength (Nat.succ_ne_zero _)
        · exact ⟨Nat.eq_sub_of_add_eq hlength, htails⟩
      · rintro ⟨hlength, htails⟩
        have hlength : more.length = s.rawUtf8Continuations - 1 := hlength
        exact .inr ⟨hrange.2, by omega, htails⟩
  · rename_i hrange
    have hexpected : Follows (before ++ [b]) ⟨false, false, b = 0x1b, (expected b).1, (expected b).2.1,
        (expected b).2.2⟩ := by
      refine ⟨by rw [hlast]; exact decide_eq_true_iff, (expected_table b).2.2, fun more hmore => ?_⟩
      rw [parts_concat, h.parts _ (cons_ne_nil _ _), wellFormed_lead hmore, fits_cons]
      refine ⟨fun hor => hor.resolve_right fun hfits => hrange ⟨by omega, hfits.1⟩, .inl⟩
    exact ⟨hexpected.escape, hexpected.range, hexpected.parts⟩

theorem Follows.observeAll (h : Follows before s) (bytes : Bytes) :
    Follows (before ++ bytes) (bytes.foldl observeRawByte s) := by
  induction bytes generalizing before s with
  | nil => rwa [append_nil]
  | cons b rest ih =>
    have hnext := ih (h.observe b)
    rwa [append_assoc] at hnext

theorem Follows.beginUpdate (h : Follows before s) (structural : Bool) :
    Follows before (s.beginUpdate structural) := ⟨h.escape, h.range, h.parts⟩

theorem follows_advance (updates : List (Bool × Bytes)) :
    Follows (updates.flatMap Prod.snd) (updates.foldl advance .default) := by
  induction updates using reverseRecOn with
  | nil => exact follows_default
  | append_singleton updates update ih =>
    rw [foldl_concat, flatMap_append, flatMap_singleton]
    exact (ih.beginUpdate update.1).observeAll update.2

theorem Follows.marks_iff (h : Follows before s) :
    (s.observeRawByte b).outputReportStructural = true ↔ s.outputReportStructural = true ∨ Introduces before b := by
  have hcontinues := h.continues_iff (b := b)
  rw [Introduces, hcontinues, ← h.escape]
  unfold observeRawByte
  split
  · rename_i hrange
    have htail : b ≠ 0x5f := by
      rintro rfl
      exact absurd (UInt8.le_trans (h.range hrange.1).1 hrange.2.1) (by decide)
    simp only [hrange, htail]
    simp
  · rename_i hrange
    simp only [hrange, not_false_eq_true, and_true]
    by_cases hmarks : b = 0x9f ∨ (s.rawEscapePending = true ∧ b = 0x5f)
    · rw [if_pos hmarks]
      exact ⟨fun _ => .inr (hmarks.imp_right And.symm), fun _ => rfl⟩
    · rw [if_neg hmarks]
      exact ⟨.inl, fun h => h.resolve_right fun hor => hmarks (hor.imp_right And.symm)⟩

/-- **A raw byte marks structural output exactly where it completes an introducer** outside of the characters of
the stream, however the stream is cut into updates. -/
theorem observeRawByte_marks_iff (updates : List (Bool × Bytes)) (structural : Bool) (bytes : Bytes) (b : UInt8) :
    let before := bytes.foldl observeRawByte ((updates.foldl advance .default).beginUpdate structural)
    (before.observeRawByte b).outputReportStructural = true ↔
      before.outputReportStructural = true ∨ Introduces (updates.flatMap Prod.snd ++ bytes) b :=
  (((follows_advance updates).beginUpdate structural).observeAll bytes).marks_iff

/-- The second byte of a sequence that breaks off is taken for a part of it. -/
theorem broken_sequence_unmarked : ¬ ∀ before after b,
    (((before.foldl observeRawByte .default).beginUpdate false).observeRawByte b).outputReportStructural = true ↔
      (b = 0x9f ∧ ¬ ∃ part rest, part ≠ [] ∧ part <:+ before ∧ rest <+: after ∧ WellFormed (part ++ b :: rest)) ∨
        (b = 0x5f ∧ before.getLast? = some 0x1b) := by
  intro hall
  have hmarked := (hall [0xe1] [0x41] 0x9f).mpr (.inl ⟨rfl, ?_⟩)
  · cases hmarked
  · rintro ⟨part, rest, hne, hsuffix, hprefix, hformed⟩
    have hsuffix : part <:+ [] ++ [0xe1] := hsuffix
    rcases suffix_concat_iff.mp hsuffix with rfl | ⟨init, rfl, hinit⟩
    · exact hne rfl
    rw [suffix_nil.mp hinit, nil_append, singleton_append, wellFormed_lead (cons_ne_nil _ _)] at hformed
    obtain ⟨-, hlength, htails⟩ := fits_cons.mp hformed
    have hone : rest.length = 1 := Nat.succ.inj hlength
    obtain rfl := hprefix.eq_of_length hone
    exact absurd (htails 0x41 mem_cons_self).1 (by decide)

end Lector.RawFraming
