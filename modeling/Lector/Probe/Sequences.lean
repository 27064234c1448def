import Lector.Foundations.Bytes
import Lector.Foundations.Cutting

/-! The escape sequences that the physical terminal sends (`complete_escape_len` and
`OversizedSequence` in `src/terminal_protocol.rs`), and their grammar. -/
namespace Lector.Probe
open Bytes Cutting List Option

def maxProbeReplyBytes : Nat := 4096

def bel : UInt8 := 0x07
def openBracket : UInt8 := 0x5b
def closeBracket : UInt8 := 0x5d
def upperP : UInt8 := 0x50
def underscore : UInt8 := 0x5f

def isFinal (b : UInt8) : Bool := 0x40 ≤ b && b ≤ 0x7e

def isString (second : UInt8) : Bool := second == closeBracket || second == upperP || second == underscore

def finalEnd : Bytes → Option Nat
  | [] => none
  | b :: rest => if isFinal b then some 1 else (finalEnd rest).map (· + 1)

/-- How many bytes end with the first BEL, or the first ESC that a backslash follows. -/
def stringEnd : Bytes → Option Nat
  | [] => none
  | b :: rest =>
    if b = bel then some 1
    else if b = esc ∧ rest.head? = some backslash then some 2
    else (stringEnd rest).map (· + 1)

def completeEscapeLen : Bytes → Option Nat
  | _ :: second :: rest =>
    if second = openBracket then (finalEnd rest).map (· + 2)
    else if isString second then (stringEnd rest).map (· + 2)
    else some 2
  | _ => none

inductive OversizedSequence
  | csi
  | string (previousWasEscape : Bool)
deriving DecidableEq

namespace OversizedSequence

def fromPrefix (pre : Bytes) : Option OversizedSequence :=
  match pre[1]? with
  | none => none
  | some second =>
    if second = openBracket then some .csi
    else if isString second then some (.string (pre.getLast? == some esc))
    else none

def consume (byte : UInt8) : OversizedSequence → Option OversizedSequence
  | .csi => if isFinal byte then none else some .csi
  | .string previousWasEscape =>
    if byte = bel ∨ previousWasEscape ∧ byte = backslash then none else some (.string (byte == esc))

end OversizedSequence

open OversizedSequence

/-! ## The grammar -/

/-- A string body runs on: it holds neither of the two terminators. -/
def RunsOn (body : Bytes) : Prop := bel ∉ body ∧ ¬ [esc, backslash] <:+: body

inductive Sequence : Bytes → Prop
  | byte (b : UInt8) : b ≠ esc → Sequence [b]
  | control (body : Bytes) (final : UInt8) : (∀ b ∈ body, isFinal b = false) → isFinal final = true →
      Sequence (esc :: openBracket :: (body ++ [final]))
  | string (second : UInt8) (body terminator : Bytes) : isString second = true → RunsOn body →
      terminator = [bel] ∨ terminator = [esc, backslash] →
      Sequence (esc :: second :: (body ++ terminator))
  | pair (second : UInt8) : second ≠ openBracket → isString second = false → Sequence [esc, second]

def sequenceLen : Bytes → Option Nat
  | [] => none
  | b :: rest => if b = esc then completeEscapeLen (b :: rest) else some 1

variable {bs rest s tail : Bytes}

theorem finalEnd_eq_some_iff {n : Nat} :
    finalEnd bs = some n ↔ ∃ body final rest, (∀ b ∈ body, isFinal b = false) ∧ isFinal final = true ∧
      bs = body ++ final :: rest ∧ n = body.length + 1 := by
  induction bs generalizing n with
  | nil => simp [finalEnd]
  | cons b bs ih =>
    rw [finalEnd]
    by_cases hb : isFinal b = true
    · rw [if_pos hb]
      constructor
      · intro h
        exact ⟨[], b, bs, by simp, hb, rfl, (some.inj h).symm⟩
      · rintro ⟨body, final, rest, hbody, -, heq, rfl⟩
        cases body with
        | nil => rfl
        | cons x body =>
          obtain ⟨rfl, -⟩ := cons.inj heq
          exact absurd hb (by simp [hbody b mem_cons_self])
    · rw [if_neg hb]
      simp only [map_eq_some_iff, ih]
      constructor
      · rintro ⟨-, ⟨body, final, rest, hbody, hfinal, rfl, rfl⟩, rfl⟩
        refine ⟨b :: body, final, rest, ?_, hfinal, rfl, rfl⟩
        exact forall_mem_cons.mpr ⟨by simpa using hb, hbody⟩
      · rintro ⟨body, final, rest, hbody, hfinal, heq, rfl⟩
        cases body with
        | nil =>
          obtain ⟨rfl, -⟩ := cons.inj heq
          exact absurd hfinal hb
        | cons x body =>
          obtain ⟨rfl, rfl⟩ := cons.inj heq
          exact ⟨_, ⟨body, final, rest, (forall_mem_cons.mp hbody).2, hfinal, rfl, rfl⟩, rfl⟩

theorem runsOn_nil : RunsOn [] := ⟨by simp, by simp⟩

variable {b second : UInt8}

theorem runsOn_cons {body : Bytes} :
    RunsOn (b :: body) ↔ b ≠ bel ∧ ¬ (b = esc ∧ body.head? = some backslash) ∧ RunsOn body := by
  simp only [RunsOn, mem_cons, infix_cons_iff, cons_prefix_cons]
  have hhead : [backslash] <+: body ↔ body.head? = some backslash := by
    cases body with
    | nil => simp
    | cons c body => simp [eq_comm]
  tauto

theorem stringEnd_eq_some_iff {n : Nat} : stringEnd bs = some n ↔ ∃ body terminator rest, RunsOn body ∧
      (terminator = [bel] ∨ terminator = [esc, backslash]) ∧
      bs = body ++ terminator ++ rest ∧ n = body.length + terminator.length := by
  induction bs generalizing n with
  | nil =>
    constructor
    · intro h
      cases h
    · rintro ⟨body, terminator, rest, -, rfl | rfl, heq, -⟩
      · simp at heq
      · simp at heq
  | cons b bs ih =>
    rw [stringEnd]
    by_cases hbel : b = bel
    · rw [if_pos hbel]
      constructor
      · intro h
        exact ⟨[], [bel], bs, runsOn_nil, .inl rfl, by rw [hbel]; rfl, (some.inj h).symm⟩
      · rintro ⟨body, terminator, rest, hbody, hterminator, heq, rfl⟩
        cases body with
        | nil =>
          rcases hterminator with rfl | rfl
          · rfl
          · obtain ⟨rfl, -⟩ := cons.inj heq
            cases hbel
        | cons x body =>
          obtain ⟨rfl, -⟩ := cons.inj heq
          exact absurd hbel (runsOn_cons.mp hbody).1
    · rw [if_neg hbel]
      by_cases hst : b = esc ∧ bs.head? = some backslash
      · obtain ⟨rfl, hhead⟩ := hst
        obtain ⟨rest, rfl⟩ := head?_eq_some_iff.mp hhead
        constructor
        · intro h
          exact ⟨[], [esc, backslash], rest, runsOn_nil, .inr rfl, rfl, (some.inj h).symm⟩
        · rintro ⟨body, terminator, rest', hbody, hterminator, heq, rfl⟩
          cases body with
          | nil =>
            rcases hterminator with rfl | rfl
            · exact absurd (cons.inj heq).1 hbel
            · rfl
          | cons x body =>
            obtain ⟨rfl, hrest⟩ := cons.inj heq
            have hnot := (runsOn_cons.mp hbody).2.1
            cases body with
            | nil =>
              rcases hterminator with rfl | rfl
              · exact absurd (cons.inj hrest).1 (by decide)
              · exact absurd (cons.inj hrest).1 (by decide)
            | cons y body =>
              obtain ⟨rfl, -⟩ := cons.inj hrest
              exact absurd ⟨rfl, rfl⟩ hnot
      · rw [if_neg hst]
        simp only [map_eq_some_iff, ih]
        constructor
        · rintro ⟨-, ⟨body, terminator, rest, hbody, hterminator, rfl, rfl⟩, rfl⟩
          refine ⟨b :: body, terminator, rest, runsOn_cons.mpr ⟨hbel, ?_, hbody⟩, hterminator, rfl, ?_⟩
          · rintro ⟨rfl, hhead⟩
            obtain ⟨body', rfl⟩ := head?_eq_some_iff.mp hhead
            exact hst ⟨rfl, rfl⟩
          · rw [length_cons]
            omega
        · rintro ⟨body, terminator, rest, hbody, hterminator, heq, rfl⟩
          cases body with
          | nil =>
            rcases hterminator with rfl | rfl
            · exact absurd (cons.inj heq).1 hbel
            · obtain ⟨rfl, rfl⟩ := cons.inj heq
              exact absurd ⟨rfl, rfl⟩ hst
          | cons x body =>
            obtain ⟨rfl, rfl⟩ := cons.inj heq
            refine ⟨_, ⟨body, terminator, rest, (runsOn_cons.mp hbody).2.2, hterminator, rfl, rfl⟩, ?_⟩
            rw [length_cons]
            omega

theorem completeEscapeLen_eq_some_iff {n : Nat} : completeEscapeLen (esc :: second :: rest) = some n ↔
      ∃ s more, Sequence s ∧ esc :: second :: rest = s ++ more ∧ n = s.length := by
  rw [completeEscapeLen]
  by_cases hcontrol : second = openBracket
  · rw [if_pos hcontrol]
    subst hcontrol
    simp only [map_eq_some_iff, finalEnd_eq_some_iff]
    constructor
    · rintro ⟨m, ⟨body, final, more, hbody, hfinal, rfl, rfl⟩, rfl⟩
      exact ⟨_, more, .control body final hbody hfinal, by simp, by simp⟩
    · rintro ⟨s, more, hs, heq, rfl⟩
      cases hs with
      | byte b hb => exact absurd (cons.inj heq).1.symm hb
      | control body final hbody hfinal =>
        refine ⟨_, ⟨body, final, more, hbody, hfinal, ?_, rfl⟩, by simp⟩
        simpa using heq
      | string second body terminator hstring =>
        obtain rfl := (cons.inj (cons.inj heq).2).1
        cases hstring
      | pair second hne => exact absurd (cons.inj (cons.inj heq).2).1.symm hne
  · rw [if_neg hcontrol]
    by_cases hstring : isString second = true
    · rw [if_pos hstring]
      simp only [map_eq_some_iff, stringEnd_eq_some_iff]
      constructor
      · rintro ⟨m, ⟨body, terminator, more, hbody, hterminator, rfl, rfl⟩, rfl⟩
        exact ⟨_, more, .string second body terminator hstring hbody hterminator, by simp, by simp⟩
      · rintro ⟨s, more, hs, heq, rfl⟩
        cases hs with
        | byte b hb => exact absurd (cons.inj heq).1.symm hb
        | control body final => exact absurd (cons.inj (cons.inj heq).2).1 hcontrol
        | string x body terminator _ hbody hterminator =>
          refine ⟨_, ⟨body, terminator, more, hbody, hterminator, ?_, rfl⟩, by simp⟩
          simpa using (cons.inj (cons.inj heq).2).2
        | pair x _ hnot =>
          obtain rfl := (cons.inj (cons.inj heq).2).1
          exact absurd hstring (by simp [hnot])
    · rw [if_neg hstring]
      constructor
      · intro h
        exact ⟨_, rest, .pair second hcontrol (by simpa using hstring), rfl, (some.inj h).symm⟩
      · rintro ⟨s, more, hs, heq, rfl⟩
        cases hs with
        | byte b hb => exact absurd (cons.inj heq).1.symm hb
        | control body final => exact absurd (cons.inj (cons.inj heq).2).1 hcontrol
        | string x body terminator hx =>
          obtain rfl := (cons.inj (cons.inj heq).2).1
          exact absurd hx hstring
        | pair x => rfl

theorem Sequence.ne_nil (h : Sequence s) : s ≠ [] := by
  cases h with
  | byte => simp
  | control => simp
  | string => simp
  | pair => simp

theorem not_sequence_esc : ¬ Sequence [esc] := by
  intro h
  generalize hs : [esc] = s at h
  cases h with
  | byte b hb => exact hb (cons.inj hs).1.symm
  | control => simp at hs
  | string => simp at hs
  | pair => simp at hs

theorem sequenceLen_eq_some_iff (bs : Bytes) (n : Nat) :
    sequenceLen bs = some n ↔ ∃ s rest, Sequence s ∧ bs = s ++ rest ∧ n = s.length := by
  cases bs with
  | nil =>
    constructor
    · intro h
      cases h
    · rintro ⟨s, rest, hs, heq, -⟩
      exact absurd (append_eq_nil_iff.mp heq.symm).1 hs.ne_nil
  | cons b bs =>
    rw [sequenceLen]
    by_cases hb : b = esc
    · subst hb
      cases bs with
      | nil =>
        constructor
        · intro h
          cases h
        · rintro ⟨s, rest, hs, heq, -⟩
          rcases append_eq_singleton_iff.mp heq.symm with ⟨rfl, -⟩ | ⟨rfl, -⟩
          · exact absurd rfl hs.ne_nil
          · exact absurd hs not_sequence_esc
      | cons second rest => exact completeEscapeLen_eq_some_iff
    · rw [if_neg hb]
      constructor
      · intro h
        exact ⟨[b], bs, .byte b hb, rfl, (some.inj h).symm⟩
      · rintro ⟨s, rest, hs, heq, rfl⟩
        cases hs with
        | byte => rfl
        | control => exact absurd (cons.inj heq).1 hb
        | string => exact absurd (cons.inj heq).1 hb
        | pair => exact absurd (cons.inj heq).1 hb

def sequences : Cutter UInt8 := .ofGrammar sequenceLen Sequence (fun _ h => h.ne_nil) sequenceLen_eq_some_iff

theorem prompt_sequences : Prompt sequences := prompt_ofGrammar

theorem whole_sequence : sequenceLen s = some s.length ↔ Sequence s :=
  @whole_ofGrammar _ sequenceLen Sequence (fun _ h => h.ne_nil) sequenceLen_eq_some_iff s

theorem unfinished_sequence {x : Bytes} : sequenceLen x = none ↔ ∀ s, Sequence s → ¬ s <+: x :=
  @unfinished_ofGrammar _ x sequenceLen Sequence (fun _ h => h.ne_nil) sequenceLen_eq_some_iff

theorem sequence_concat (h : sequenceLen tail = none)
    (hb : sequenceLen (tail ++ [b]) ≠ none) : Sequence (tail ++ [b]) := by
  obtain ⟨n, hn⟩ := ne_none_iff_exists'.mp hb
  have hends : n = (tail ++ [b]).length := prompt_sequences.ends (c := sequences) h hn
  exact whole_sequence.mp (hends ▸ hn)

/-! ## Unfinished sequences -/

theorem finalEnd_concat (h : finalEnd rest = none) (b : UInt8) :
    (finalEnd (rest ++ [b])).isNone = !isFinal b := by
  induction rest with
  | nil =>
    rw [nil_append, finalEnd]
    cases isFinal b with
    | false => rfl
    | true => rfl
  | cons x rest ih =>
    rw [finalEnd] at h
    split at h
    · cases h
    · rename_i hx
      rw [cons_append, finalEnd, if_neg hx, isNone_map]
      exact ih (map_eq_none_iff.mp h)

theorem stringEnd_concat (h : stringEnd rest = none) (b : UInt8) :
    (stringEnd (rest ++ [b])).isNone = !decide (b = bel ∨ rest.getLast? = some esc ∧ b = backslash) := by
  induction rest with
  | nil =>
    rw [nil_append, stringEnd]
    by_cases hb : b = bel
    · simp [hb]
    · simp [hb, stringEnd]
  | cons x rest ih =>
    rw [stringEnd] at h
    split at h
    · cases h
    · rename_i hx
      split at h
      · cases h
      · rename_i hst
        have hih := ih (map_eq_none_iff.mp h)
        rw [cons_append, stringEnd, if_neg hx]
        cases rest with
        | nil =>
          by_cases hends : x = esc ∧ b = backslash
          · simp [hends]
          · rw [if_neg (by simpa using hends), isNone_map, hih]
            simp [hends]
        | cons y rest => rw [if_neg (by simpa using hst), isNone_map, hih, getLast?_cons_cons]

theorem unfinished_cases (h : sequenceLen tail = none) (hlength : 1 < tail.length) :
    (∃ rest, tail = esc :: openBracket :: rest ∧ finalEnd rest = none) ∨
      ∃ second rest, tail = esc :: second :: rest ∧ second ≠ openBracket ∧ isString second = true ∧
        stringEnd rest = none := by
  match tail, hlength with
  | b :: second :: rest, _ =>
    rw [sequenceLen] at h
    split at h
    · rename_i hb
      subst hb
      rw [completeEscapeLen] at h
      split at h
      · rename_i hsecond
        subst hsecond
        exact .inl ⟨rest, rfl, map_eq_none_iff.mp h⟩
      · rename_i hsecond
        split at h
        · rename_i hstring
          exact .inr ⟨second, rest, rfl, hsecond, hstring, map_eq_none_iff.mp h⟩
        · cases h
    · cases h

theorem head_unfinished (h : sequenceLen (b :: tail) = none) : b = esc := by
  by_contra hb
  rw [sequenceLen, if_neg hb] at h
  cases h

theorem openBracket_ne_string (h : isString second = true) : second ≠ esc := by
  rintro rfl
  cases h

/-- **The oversize mode finds the end that the buffer would have found.** -/
theorem consume_fromPrefix (h : sequenceLen tail = none) (hlength : 1 < tail.length)
    (byte : UInt8) : (fromPrefix tail).bind (·.consume byte) =
      if (sequenceLen (tail ++ [byte])).isNone then fromPrefix (tail ++ [byte])
      else none := by
  rcases unfinished_cases h hlength with ⟨rest, rfl, hend⟩ | ⟨second, rest, rfl, hsecond, hstring, hend⟩
  · have hconcat := finalEnd_concat hend byte
    have hlen : sequenceLen (esc :: openBracket :: rest ++ [byte]) =
        (finalEnd (rest ++ [byte])).map (· + 2) := rfl
    rw [hlen, isNone_map, hconcat]
    have hfrom : ∀ more : Bytes, fromPrefix (esc :: openBracket :: more) = some .csi := fun _ => rfl
    rw [cons_append, cons_append, hfrom, bind_some, consume]
    cases isFinal byte with
    | false => rfl
    | true => rfl
  · have hconcat := stringEnd_concat hend byte
    have hlen : sequenceLen (esc :: second :: rest ++ [byte]) = (stringEnd (rest ++ [byte])).map (· + 2) := by
      rw [cons_append, cons_append, sequenceLen, if_pos rfl, completeEscapeLen, if_neg hsecond,
        if_pos hstring]
    rw [hlen, isNone_map, hconcat]
    have hfrom : ∀ more : Bytes, fromPrefix (esc :: second :: more) =
        some (.string ((esc :: second :: more).getLast? == some esc)) := by
      intro more
      rw [fromPrefix]
      simp only [getElem?_cons_succ, getElem?_cons_zero]
      rw [if_neg hsecond, if_pos hstring]
    have hlast : ((esc :: second :: rest).getLast? == some esc) = (rest.getLast? == some esc) := by
      cases rest with
      | nil => simpa using openBracket_ne_string hstring
      | cons x rest => rw [getLast?_cons_cons, getLast?_cons_cons]
    have hbyte : ((esc :: second :: (rest ++ [byte])).getLast? == some esc) = (byte == esc) := by
      rw [← cons_append, ← cons_append, getLast?_concat]
      rfl
    rw [cons_append, cons_append, hfrom, hfrom, bind_some, consume, hlast, hbyte]
    by_cases hends : byte = bel ∨ rest.getLast? = some esc ∧ byte = backslash
    · rw [if_pos (by simpa only [beq_iff_eq] using hends), decide_eq_true hends]
      rfl
    · rw [if_neg (by simpa only [beq_iff_eq] using hends), decide_eq_false hends]
      rfl

theorem unfinished_extends (h : sequenceLen tail = none) :
    ∃ s, Sequence (esc :: s) ∧ tail <+: esc :: s ∧ tail ≠ esc :: s := by
  by_cases hlength : 1 < tail.length
  · have hmore : ∃ more, Sequence (tail ++ more) := by
      rcases unfinished_cases h hlength with ⟨rest, rfl, hend⟩ | ⟨second, rest, rfl, hsecond, hstring, hend⟩
      · refine ⟨[0x40], sequence_concat h ?_⟩
        show (finalEnd (rest ++ [0x40])).map (· + 2) ≠ none
        rw [ne_eq, map_eq_none_iff, ← isNone_iff_eq_none, finalEnd_concat hend]
        decide
      · refine ⟨[bel], sequence_concat h ?_⟩
        rw [cons_append, cons_append, sequenceLen, if_pos rfl, completeEscapeLen,
          if_neg hsecond, if_pos hstring, ne_eq, map_eq_none_iff, ← isNone_iff_eq_none,
          stringEnd_concat hend]
        simp
    obtain ⟨more, hmore⟩ := hmore
    cases tail with
    | nil => simp at hlength
    | cons b tail =>
      obtain rfl := head_unfinished h
      refine ⟨tail ++ more, hmore, ⟨more, rfl⟩, fun heq => ?_⟩
      rw [heq] at h
      have hwhole := whole_sequence.mpr hmore
      rw [cons_append, h] at hwhole
      cases hwhole
  · refine ⟨[0x41], .pair 0x41 (by decide) (by decide), ?_⟩
    cases tail with
    | nil => exact ⟨ nil_prefix, by simp⟩
    | cons b tail =>
      obtain rfl := head_unfinished h
      obtain rfl : tail = [] := eq_nil_of_length_eq_zero (by
        rw [length_cons] at hlength
        omega)
      exact ⟨⟨[0x41], rfl⟩, by simp⟩

end Lector.Probe
