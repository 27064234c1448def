import Lector.Probe.Vocabulary

/-! The fence of an orderly shutdown (`ShutdownFenceBroker` in `src/terminal_protocol.rs`): it reads the
input byte by byte for the reply to its own primary device-attributes request. -/
namespace Lector.Probe
open Bytes Cutting Option
open List hiding min

def csi : UInt8 := 0x9b

structure ShutdownFenceBroker where
  pending : Bytes
  repliesToIgnore : Nat
  observedReplies : Nat
  matched : Bool
deriving DecidableEq

namespace ShutdownFenceBroker

def new (repliesToIgnore : Nat) : ShutdownFenceBroker where
  pending := []
  repliesToIgnore := repliesToIgnore
  observedReplies := 0
  matched := false

def restartAfterInvalidSequence (broker : ShutdownFenceBroker) (byte : UInt8) : ShutdownFenceBroker :=
  { broker with pending := if byte = esc ∨ byte = csi then [byte] else [] }

def ingestByte (broker : ShutdownFenceBroker) (byte : UInt8) : ShutdownFenceBroker × Bool :=
  if broker.matched then (broker, true)
  else if broker.pending = [] then
    (if byte = esc ∨ byte = csi then { broker with pending := [byte] } else broker, false)
  else
    let broker := { broker with pending := broker.pending ++ [byte] }
    if broker.pending = [esc] then (broker, false)
    else if [esc].isPrefixOf broker.pending ∧ broker.pending[1]? ≠ some openBracket then
      (broker.restartAfterInvalidSequence byte, false)
    else
      let parameterStart := if [esc, openBracket].isPrefixOf broker.pending then 2 else 1
      if broker.pending.length ≤ parameterStart then (broker, false)
      else if maxProbeReplyBytes < broker.pending.length then
        (broker.restartAfterInvalidSequence byte, false)
      else if isFinal byte = false then (broker, false)
      else
        let broker :=
          if isPrimaryDeviceAttributesReply broker.pending then
            let observed := saturatingAdd 64 broker.observedReplies 1
            { broker with
              observedReplies := observed
              matched := decide (broker.repliesToIgnore < observed) }
          else broker
        ({ broker with pending := [] }, broker.matched)

def reports (broker : ShutdownFenceBroker) : Bytes → List Bool
  | [] => []
  | byte :: rest => (broker.ingestByte byte).2 :: (broker.ingestByte byte).1.reports rest

end ShutdownFenceBroker

/-! ## The grammar of the fence -/

def Introducer (intro : Bytes) : Prop := intro = [csi] ∨ intro = [esc, openBracket]

def controlBody : Bytes → Option Bytes
  | b :: rest =>
    if b = csi then some rest
    else if b = esc ∧ rest.head? = some openBracket then some rest.tail
    else none
  | [] => none

/-- One control sequence, or one byte. A sequence too long for the buffer is given up at its limit.
-/
def fenceLen (bs : Bytes) : Option Nat :=
  match controlBody bs with
  | some body =>
    match finalEnd body with
    | some n => some (min (bs.length - body.length + n) maxProbeReplyBytes)
    | none => if maxProbeReplyBytes < bs.length then some maxProbeReplyBytes else none
  | none => if bs = [] ∨ bs = [esc] then none else some 1

variable {bs body intro more x t r held v rest y : Bytes}

theorem controlBody_eq_some_iff :
    controlBody bs = some body ↔ ∃ intro, Introducer intro ∧ bs = intro ++ body := by
  constructor
  · intro h
    cases bs with
    | nil => cases h
    | cons b rest =>
      rw [controlBody] at h
      split at h
      · rename_i hb
        cases h
        exact ⟨[csi], .inl rfl, by rw [hb]; rfl⟩
      · split at h
        · rename_i hb
          cases h
          obtain ⟨rest, rfl⟩ := head?_eq_some_iff.mp hb.2
          exact ⟨[esc, openBracket], .inr rfl, by rw [hb.1]; rfl⟩
        · cases h
  · rintro ⟨intro, rfl | rfl, rfl⟩
    · rfl
    · rfl

theorem Introducer.length_pos (h : Introducer intro) : 0 < intro.length ∧ intro.length ≤ 2 := by
  rcases h with rfl | rfl
  · decide
  · decide

theorem fenceLen_control (h : Introducer intro) : fenceLen (intro ++ body) =
      match finalEnd body with
      | some n => some (min (intro.length + n) maxProbeReplyBytes)
      | none => if maxProbeReplyBytes < (intro ++ body).length then some maxProbeReplyBytes else none := by
  have hbody : controlBody (intro ++ body) = some body := controlBody_eq_some_iff.mpr ⟨intro, h, rfl⟩
  have hlength : (intro ++ body).length - body.length = intro.length := by
    rw [length_append]
    omega
  rw [fenceLen, hbody]
  dsimp only
  rw [hlength]

theorem finalEnd_le {n : Nat} (h : finalEnd body = some n) : 0 < n ∧ n ≤ body.length := by
  obtain ⟨-, -, -, -, -, rfl, rfl⟩ := finalEnd_eq_some_iff.mp h
  simp

theorem finalEnd_append {n : Nat} (h : finalEnd body = some n) (more : Bytes) :
    finalEnd (body ++ more) = some n := by
  obtain ⟨pre, final, rest, hpre, hfinal, rfl, rfl⟩ := finalEnd_eq_some_iff.mp h
  exact finalEnd_eq_some_iff.mpr ⟨pre, final, rest ++ more, hpre, hfinal, by simp, rfl⟩

theorem finalEnd_append_gt {n : Nat} (hbody : finalEnd body = none)
    (h : finalEnd (body ++ more) = some n) : body.length < n := by
  obtain ⟨pre, final, rest, -, hfinal, heq, rfl⟩ := finalEnd_eq_some_iff.mp h
  by_contra hle
  have hmem : final ∈ body := by
    have hget : (body ++ more)[pre.length]? = some final := by
      rw [heq, getElem?_append_right (le_rfl), Nat.sub_self]
      rfl
    rw [getElem?_append_left (by omega)] at hget
    exact mem_of_getElem? hget
  have := not_isFinal_of_finalEnd hbody final hmem
  rw [hfinal] at this
  cases this

def fence : Cutter UInt8 where
  len := fenceLen
  pos := by
    intro bs n h
    have hmax : maxProbeReplyBytes = 4096 := rfl
    cases hbody : controlBody bs with
    | some body =>
      obtain ⟨intro, hintro, rfl⟩ := controlBody_eq_some_iff.mp hbody
      rw [fenceLen_control hintro] at h
      have hpos := hintro.length_pos
      split at h
      · have := Option.some.inj h
        omega
      · split at h
        · have := Option.some.inj h
          omega
        · cases h
    | none =>
      rw [fenceLen, hbody] at h
      dsimp only at h
      split at h
      · cases h
      · have := Option.some.inj h
        omega
  le := by
    intro bs n h
    cases hbody : controlBody bs with
    | some body =>
      obtain ⟨intro, hintro, rfl⟩ := controlBody_eq_some_iff.mp hbody
      rw [fenceLen_control hintro] at h
      split at h
      · rename_i m hm
        have := Option.some.inj h
        have := (finalEnd_le hm).2
        rw [length_append]
        omega
      · split at h
        · have := Option.some.inj h
          omega
        · cases h
    | none =>
      rw [fenceLen, hbody] at h
      dsimp only at h
      split at h
      · cases h
      · rename_i hne
        have := Option.some.inj h
        have : 0 < bs.length := length_pos_of_ne_nil fun hnil => hne (.inl hnil)
        omega
  stable := by
    intro bs n more h
    cases hbody : controlBody bs with
    | some body =>
      obtain ⟨intro, hintro, rfl⟩ := controlBody_eq_some_iff.mp hbody
      rw [append_assoc, fenceLen_control hintro]
      rw [fenceLen_control hintro] at h
      cases hend : finalEnd body with
      | some m =>
        rw [hend] at h
        rw [finalEnd_append hend]
        exact h
      | none =>
        rw [hend] at h
        dsimp only at h
        split at h
        · rename_i hlong
          cases hmore : finalEnd (body ++ more) with
          | some m =>
            have := finalEnd_append_gt hend hmore
            rw [length_append] at hlong
            dsimp only
            rw [Nat.min_eq_right (by omega)]
            exact h
          | none =>
            dsimp only
            rw [if_pos (by simp only [length_append] at hlong ⊢; omega)]
            exact h
        · cases h
    | none =>
      rw [fenceLen, hbody] at h
      dsimp only at h
      split at h
      · cases h
      · rename_i hne
        have hmore : controlBody (bs ++ more) = none := by
          match bs, hbody, hne with
          | [b], hbody, hne =>
            rw [controlBody] at hbody
            split at hbody
            · cases hbody
            · rename_i hcsi
              rw [cons_append, controlBody, if_neg hcsi, if_neg]
              rintro ⟨rfl, -⟩
              exact hne (.inr rfl)
          | b :: c :: rest, hbody, _ =>
            rw [controlBody] at hbody
            split at hbody
            · cases hbody
            · rename_i hcsi
              split at hbody
              · cases hbody
              · rename_i hesc
                rw [cons_append, controlBody, if_neg hcsi, if_neg]
                exact hesc
          | [], _, hne => exact absurd (.inl rfl) hne
        rw [fenceLen, hmore]
        dsimp only
        rw [if_neg]
        · exact h
        · rintro (hnil | hesc)
          · exact hne (.inl (append_eq_nil_iff.mp hnil).1)
          · rcases append_eq_singleton_iff.mp hesc with ⟨rfl, -⟩ | ⟨rfl, -⟩
            · exact hne (.inl rfl)
            · exact hne (.inr rfl)

/-- A control sequence that has not ended, within the limit of the buffer. -/
structure OpenControl (intro body : Bytes) : Prop where
  introduced : Introducer intro
  unfinished : finalEnd body = none
  held : (intro ++ body).length ≤ maxProbeReplyBytes

theorem fenceLen_open (h : OpenControl intro body) : fenceLen (intro ++ body) = none := by
  rw [fenceLen_control h.introduced, h.unfinished]
  exact if_neg (not_lt.mpr h.held)

theorem fenceLen_eq_none {tail : Bytes} (h : fenceLen tail = none) :
    tail = [] ∨ tail = [esc] ∨ ∃ intro body, tail = intro ++ body ∧ OpenControl intro body := by
  cases hbody : controlBody tail with
  | some body =>
    obtain ⟨intro, hintro, rfl⟩ := controlBody_eq_some_iff.mp hbody
    rw [fenceLen_control hintro] at h
    cases hend : finalEnd body with
    | some n => rw [hend] at h; cases h
    | none =>
      rw [hend] at h
      dsimp only at h
      split at h
      · cases h
      · rename_i hlength
        exact .inr (.inr ⟨intro, body, rfl, hintro, hend, not_lt.mp hlength⟩)
  | none =>
    rw [fenceLen, hbody] at h
    dsimp only at h
    split at h
    · rename_i hshort
      exact hshort.imp_right .inl
    · cases h

def observed (x : Bytes) : Nat := ((cut fence x).1.filter isPrimaryDeviceAttributesReply).length

theorem observed_append (x more : Bytes) :
    observed (x ++ more) = observed x + observed ((cut fence x).2 ++ more) := by
  rw [observed, cut_append (c := fence), filter_append, length_append]
  rfl

theorem observed_unfinished (h : fenceLen x = none) : observed x = 0 := by
  rw [observed, cut_unfinished (c := fence) h]
  rfl

theorem shape_primary (h : isPrimaryDeviceAttributesReply t = true) :
    ∃ intro body, Introducer intro ∧ t = intro ++ 0x3f :: (body ++ [0x63]) ∧
      ∀ b ∈ body, isDigit b = true ∨ b = 0x3b := by
  obtain ⟨body, hbody, rfl | rfl⟩ := shape_isPrimaryDeviceAttributesReply h
  · refine ⟨[esc, openBracket], body, .inr rfl, rfl, fun b hb => ?_⟩
    simpa using all_eq_true.mp hbody b hb
  · refine ⟨[csi], body, .inl rfl, rfl, fun b hb => ?_⟩
    simpa using all_eq_true.mp hbody b hb

theorem not_isFinal_of_parameter {b : UInt8} (h : isDigit b = true ∨ b = 0x3b) : isFinal b = false := by
  rcases h with h | rfl
  · simp only [isDigit, Bool.and_eq_true, decide_eq_true_iff] at h
    have h39 : b.toNat ≤ 0x39 := UInt8.le_iff_toNat_le.mp h.2
    have hnot : ¬ (0x40 : UInt8) ≤ b := fun h40 => by
      have : 0x40 ≤ b.toNat := UInt8.le_iff_toNat_le.mp h40
      omega
    simp [isFinal, hnot]
  · rfl

theorem not_introducer_of_parameter {b : UInt8} (h : isDigit b = true ∨ b = 0x3b) : b ≠ esc ∧ b ≠ csi := by
  refine ⟨?_, ?_⟩
  · rintro rfl
    revert h
    decide
  · rintro rfl
    revert h
    decide

theorem finalEnd_parameters (h : ∀ b ∈ body, isDigit b = true ∨ b = 0x3b) : finalEnd (0x3f :: body) = none := by
  have hnone : ∀ body : Bytes, (∀ b ∈ body, isFinal b = false) → finalEnd body = none := by
    intro body hbody
    cases hend : finalEnd body with
    | none => rfl
    | some n =>
      obtain ⟨pre, final, rest, -, hfinal, rfl, -⟩ := finalEnd_eq_some_iff.mp hend
      have := hbody final (by simp)
      rw [hfinal] at this
      cases this
  refine hnone _ (forall_mem_cons.mpr ⟨rfl, fun b hb => not_isFinal_of_parameter (h b hb)⟩)

theorem not_primary_of_open (h : OpenControl intro body) :
    isPrimaryDeviceAttributesReply (intro ++ body) = false := by
  by_contra hprimary
  obtain ⟨intro', body', hintro', heq, -⟩ := shape_primary (by simpa using hprimary)
  have hlen := fenceLen_open h
  rw [heq, fenceLen_control hintro'] at hlen
  have hend : finalEnd (0x3f :: (body' ++ [0x63])) ≠ none := by
    intro hnone
    have := not_isFinal_of_finalEnd hnone 0x63 (by simp)
    cases this
  obtain ⟨n, hn⟩ := ne_none_iff_exists'.mp hend
  rw [hn] at hlen
  cases hlen

theorem not_primary_of_short (h : t.length ≤ 1) : isPrimaryDeviceAttributesReply t = false := by
  by_contra hprimary
  obtain ⟨intro, body, -, rfl, -⟩ := shape_primary (by simpa using hprimary)
  simp only [length_append, length_cons] at h
  omega

namespace ShutdownFenceBroker

/-- The fence that still waits, after some replies and in the middle of a sequence. -/
def waiting (repliesToIgnore observedReplies : Nat) (tail : Bytes) : ShutdownFenceBroker where
  pending := tail
  repliesToIgnore := repliesToIgnore
  observedReplies := observedReplies
  matched := false

variable {k n : Nat} {tail : Bytes}

structure Steps (k n : Nat) (tail : Bytes) (b : UInt8) : Prop where
  quiet : observed (tail ++ [b]) = 0 →
    (waiting k n tail).ingestByte b = (waiting k n (cut fence (tail ++ [b])).2, false)
  primary : observed (tail ++ [b]) ≠ 0 → isPrimaryDeviceAttributesReply (tail ++ [b]) = true ∧
    (tail ++ [b]).length ≤ maxProbeReplyBytes
  reply : observed (tail ++ [b]) ≠ 0 → observed (tail ++ [b]) = 1 ∧ (cut fence (tail ++ [b])).2 = [] ∧
    (waiting k n tail).ingestByte b =
      ({ waiting k (saturatingAdd 64 n 1) [] with matched := decide (k < saturatingAdd 64 n 1) },
        decide (k < saturatingAdd 64 n 1))

theorem Steps.of_quiet {b : UInt8} (hobserved : observed (tail ++ [b]) = 0)
    (h : (waiting k n tail).ingestByte b = (waiting k n (cut fence (tail ++ [b])).2, false)) :
    Steps k n tail b :=
  ⟨fun _ => h, fun hne => absurd hobserved hne, fun hne => absurd hobserved hne⟩

theorem cut_single (b : UInt8) :
    (cut fence [b]).2 = (if b = esc ∨ b = csi then [b] else []) ∧ observed [b] = 0 := by
  by_cases hb : b = esc ∨ b = csi
  · have hlen : fenceLen [b] = none := by
      rcases hb with rfl | rfl
      · rfl
      · rfl
    rw [cut_unfinished (c := fence) hlen, if_pos hb]
    exact ⟨rfl, observed_unfinished hlen⟩
  · have hlen : fenceLen [b] = some [b].length := by
      rw [not_or] at hb
      have hbody : controlBody [b] = none := by
        rw [controlBody, if_neg hb.2, if_neg fun h => hb.1 h.1]
      rw [fenceLen, hbody]
      simp [hb.1]
    have hcut := cut_whole (c := fence) hlen []
    rw [append_nil, cut_nil] at hcut
    rw [observed, hcut, if_neg hb]
    refine ⟨rfl, ?_⟩
    rw [filter_cons, not_primary_of_short (t := [b]) (le_refl 1)]
    rfl

theorem ingestByte_open {intro : Bytes} (hintro : Introducer intro) (body : Bytes) (b : UInt8) :
    (waiting k n (intro ++ body)).ingestByte b =
      if maxProbeReplyBytes < (intro ++ (body ++ [b])).length then
        (waiting k n (if b = esc ∨ b = csi then [b] else []), false)
      else if isFinal b = false then (waiting k n (intro ++ (body ++ [b])), false)
      else if isPrimaryDeviceAttributesReply (intro ++ (body ++ [b])) then
        ({ waiting k (saturatingAdd 64 n 1) [] with matched := decide (k < saturatingAdd 64 n 1) },
          decide (k < saturatingAdd 64 n 1))
      else (waiting k n [], false) := by
  have hne : (waiting k n (intro ++ body)).pending ≠ [] := by
    have := hintro.length_pos
    intro h
    have := congrArg length h
    simp only [waiting, length_append, length_nil] at this
    omega
  have hpending : (waiting k n (intro ++ body)).pending ++ [b] = intro ++ (body ++ [b]) := append_assoc _ _ _
  have hstart : intro ++ (body ++ [b]) ≠ [esc] ∧ ¬ ([esc].isPrefixOf (intro ++ (body ++ [b])) ∧
        (intro ++ (body ++ [b]))[1]? ≠ some openBracket) ∧
      ¬ (intro ++ (body ++ [b])).length ≤
        (if [esc, openBracket].isPrefixOf (intro ++ (body ++ [b])) then 2 else 1) := by
    rcases hintro with rfl | rfl
    · exact ⟨by simp, by simp [csi, esc], by simp [csi, esc]⟩
    · exact ⟨by simp, by simp, by simp⟩
  rw [ingestByte, if_neg (show ¬ (waiting k n (intro ++ body)).matched = true from Bool.false_ne_true),
    if_neg hne]
  rw [hpending, if_neg hstart.1, if_neg hstart.2.1, if_neg hstart.2.2]
  split
  · rfl
  · split
    · rfl
    · split
      · rfl
      · rfl

/-- **One byte.** -/
theorem steps (htail : fenceLen tail = none) (b : UInt8) : Steps k n tail b := by
  obtain ⟨hsingle, hnone⟩ := cut_single b
  rcases fenceLen_eq_none htail with rfl | rfl | ⟨intro, body, rfl, hopen⟩
  · refine .of_quiet hnone ?_
    rw [nil_append, hsingle, ingestByte]
    simp only [waiting, Bool.false_eq_true, if_false, if_true]
    split
    · rfl
    · rfl
  · by_cases hb : b = openBracket
    · subst hb
      have hlen : fence.len [esc, openBracket] = none := rfl
      refine .of_quiet (observed_unfinished hlen) ?_
      show _ = (waiting k n (cut fence [esc, openBracket]).2, false)
      rw [cut_unfinished (c := fence) hlen]
      rfl
    · -- The ESC is dropped, and the byte read anew.
      have hlen : fenceLen ([esc] ++ [b]) = some 1 := by
        have hbody : controlBody [esc, b] = none := by
          rw [controlBody, if_neg (by decide), if_neg]
          rintro ⟨-, h⟩
          exact hb (some.inj h)
        rw [singleton_append, fenceLen, hbody]
        rfl
      have hcut : cut fence ([esc] ++ [b]) = ([esc] :: (cut fence [b]).1, (cut fence [b]).2) :=
        cut_cons (c := fence) hlen
      refine .of_quiet ?_ ?_
      · rw [observed, hcut]
        exact hnone
      · rw [hcut, hsingle, ingestByte]
        simp [waiting, hb, restartAfterInvalidSequence]
  · have hstep := ingestByte_open (k := k) (n := n) hopen.introduced body b
    have hassoc : intro ++ body ++ [b] = intro ++ (body ++ [b]) := append_assoc _ _ _
    by_cases hlong : maxProbeReplyBytes < (intro ++ (body ++ [b])).length
    · -- The buffer is full: its sequence is given up, and the byte read anew.
      rw [if_pos hlong] at hstep
      have hfull : (intro ++ body).length = maxProbeReplyBytes := by
        have := hopen.held
        rw [← hassoc, length_append, length_singleton] at hlong
        omega
      have hlen : fenceLen (intro ++ body ++ [b]) = some maxProbeReplyBytes := by
        rw [hassoc, fenceLen_control hopen.introduced]
        cases hend : finalEnd (body ++ [b]) with
        | none => exact if_pos hlong
        | some m =>
          have := finalEnd_append_gt hopen.unfinished hend
          rw [length_append] at hfull
          dsimp only
          rw [Nat.min_eq_right (by omega)]
      have hcut := cut_cons (c := fence) hlen
      rw [take_left' hfull, drop_left' hfull] at hcut
      refine .of_quiet ?_ ?_
      · rw [observed, hcut, filter_cons, not_primary_of_open hopen]
        exact hnone
      · rw [hcut, hsingle, hstep]
    · rw [if_neg hlong] at hstep
      cases hfinal : isFinal b with
      | false =>
        rw [hfinal] at hstep
        have hmore : OpenControl intro (body ++ [b]) := by
          refine ⟨hopen.introduced, ?_, not_lt.mp hlong⟩
          have := finalEnd_concat hopen.unfinished b
          rw [hfinal] at this
          exact isNone_iff_eq_none.mp this
        have hlen := fenceLen_open hmore
        rw [← hassoc] at hlen
        refine .of_quiet (observed_unfinished hlen) ?_
        rw [cut_unfinished (c := fence) hlen, hassoc]
        exact hstep
      | true =>
        rw [hfinal] at hstep
        have hlen : fenceLen (intro ++ body ++ [b]) = some (intro ++ body ++ [b]).length := by
          have hend : finalEnd (body ++ [b]) = some (body.length + 1) := by
            refine finalEnd_eq_some_iff.mpr ⟨body, b, [], ?_, hfinal, rfl, rfl⟩
            exact not_isFinal_of_finalEnd hopen.unfinished
          rw [hassoc, fenceLen_control hopen.introduced, hend]
          simp only [length_append, length_singleton] at hlong ⊢
          rw [Nat.min_eq_left (by omega)]
        have hcut := cut_whole (c := fence) hlen []
        rw [append_nil, cut_nil] at hcut
        cases hprimary : isPrimaryDeviceAttributesReply (intro ++ (body ++ [b])) with
        | false =>
          rw [hprimary] at hstep
          refine .of_quiet ?_ ?_
          · rw [observed, hcut, hassoc, filter_cons, hprimary]
            rfl
          · rw [hcut]
            exact hstep
        | true =>
          rw [hprimary] at hstep
          have hone : observed (intro ++ body ++ [b]) = 1 := by
            rw [observed, hcut, hassoc, filter_cons, hprimary]
            rfl
          refine ⟨fun hzero => ?_, fun _ => ?_, fun _ => ⟨hone, ?_, hstep⟩⟩
          · rw [hone] at hzero
            cases hzero
          · rw [hassoc]
            exact ⟨hprimary, not_lt.mp hlong⟩
          · rw [hcut]

/-! ## Whole streams -/

def counted (replies : Nat) : Nat := min replies (2 ^ 64 - 1)

theorem counted_saturatingAdd {n more : Nat} : counted (saturatingAdd 64 n 1 + more) = counted (n + 1 + more) := by
  simp only [counted, saturatingAdd]
  omega

theorem reports_matched {broker : ShutdownFenceBroker} (h : broker.matched = true) (x : Bytes) :
    broker.reports x = replicate x.length true := by
  induction x with
  | nil => rfl
  | cons b rest ih =>
    have hstep : broker.ingestByte b = (broker, true) := if_pos h
    rw [reports, hstep, ih, length_cons, replicate_succ]

/-- The report of a stream that completes the fence with its last byte. -/
def Completes (broker : ShutdownFenceBroker) (x : Bytes) : Prop :=
  broker.reports x = List.replicate (x.length - 1) false ++ [true]

/-- Too few replies before the last byte, and enough with it. -/
structure Awaits (k n : Nat) (tail x : Bytes) : Prop where
  nonempty : x ≠ []
  enough : k < counted (n + observed (tail ++ x))
  before : ∀ y, y <+: x → y ≠ x → counted (n + observed (tail ++ y)) ≤ k

theorem completes_cons_false {broker next : ShutdownFenceBroker} {b : UInt8} {rest : Bytes}
    (hstep : broker.ingestByte b = (next, false)) : broker.Completes (b :: rest) ↔ next.Completes rest := by
  rw [Completes, Completes, reports, hstep]
  cases rest with
  | nil => simp [reports]
  | cons c rest => simp [replicate_succ]

/-- **The reports of a whole stream.** -/
theorem completes_iff (htail : fenceLen tail = none) (hn : counted n ≤ k) (x : Bytes) :
    (waiting k n tail).Completes x ↔ Awaits k n tail x := by
  induction x generalizing n tail with
  | nil =>
    constructor
    · intro h
      cases h
    · exact fun h => absurd rfl h.nonempty
  | cons b rest ih =>
    have hsteps := steps (k := k) (n := n) htail b
    have hnext := len_cut (c := fence) (tail ++ [b])
    have hrest : ∀ y, observed (tail ++ b :: y) =
        observed (tail ++ [b]) + observed ((cut fence (tail ++ [b])).2 ++ y) := by
      intro y
      rw [← observed_append, append_assoc, singleton_append]
    have hzero : counted (n + observed (tail ++ [])) ≤ k := by
      rw [append_nil, observed_unfinished htail]
      exact hn
    -- What both quiet bytes and ignored replies come to: the rest of the stream decides.
    have hrec : ∀ n' tail', (∀ y, counted (n + observed (tail ++ b :: y)) = counted (n' + observed (tail' ++ y))) →
        counted (n' + observed (tail' ++ [])) ≤ k → (Awaits k n tail (b :: rest) ↔ Awaits k n' tail' rest) := by
      intro n' tail' hsame hempty
      constructor
      · rintro ⟨-, henough, hbefore⟩
        refine ⟨?_, ?_, fun y hy hne => ?_⟩
        · rintro rfl
          rw [hsame] at henough
          omega
        · rw [← hsame]
          exact henough
        · rw [← hsame]
          exact hbefore (b :: y) (cons_prefix_cons.mpr ⟨rfl, hy⟩) fun heq => hne (cons.inj heq).2
      · rintro ⟨-, henough, hbefore⟩
        refine ⟨cons_ne_nil b rest, ?_, fun y hy hne => ?_⟩
        · rw [hsame]
          exact henough
        · cases y with
          | nil => exact hzero
          | cons c y =>
            obtain ⟨rfl, hyrest⟩ := cons_prefix_cons.mp hy
            rw [hsame]
            exact hbefore y hyrest fun heq => hne (by rw [heq])
    by_cases hquiet : observed (tail ++ [b]) = 0
    · rw [completes_cons_false (hsteps.quiet hquiet), ih hnext hn]
      refine (hrec n _ (fun y => ?_) ?_).symm
      · rw [hrest, hquiet, zero_add]
      · rw [append_nil, observed_unfinished hnext]
        exact hn
    · obtain ⟨hone, hidle, hstep⟩ := hsteps.reply hquiet
      rw [hidle, hone] at hrest
      by_cases henough : k < saturatingAdd 64 n 1
      · rw [decide_eq_true henough] at hstep
        have hreports : (waiting k n tail).reports (b :: rest) = replicate (rest.length + 1) true := by
          rw [reports, hstep, reports_matched rfl, replicate_succ]
        have hcounted : k < counted (n + observed (tail ++ [b])) := by
          rw [hone]
          exact henough
        rw [Completes, hreports]
        cases rest with
        | nil =>
          refine iff_of_true rfl ⟨by simp, hcounted, fun y hy hne => ?_⟩
          rcases prefix_cons_iff.mp hy with rfl | ⟨t, rfl, ht⟩
          · exact hzero
          · exact absurd (by rw [prefix_nil.mp ht]) hne
        | cons c rest =>
          refine iff_of_false ?_ fun h => ?_
          · intro h
            exact absurd (cons.inj h).1 (by decide)
          · have := h.before [b] ⟨c :: rest, rfl⟩ (by simp)
            omega
      · rw [decide_eq_false henough] at hstep
        rw [completes_cons_false hstep]
        have hle : counted (saturatingAdd 64 n 1) ≤ k := by
          have : counted (saturatingAdd 64 n 1) ≤ saturatingAdd 64 n 1 := min_le_left _ _
          omega
        refine (ih rfl hle).trans (hrec _ [] (fun y => ?_) ?_).symm
        · rw [hrest, counted_saturatingAdd, add_assoc]
        · rw [observed_unfinished rfl]
          exact hle

end ShutdownFenceBroker

/-! ## Where a reply is seen -/

/-- The fence holds nothing, a lone ESC, or as much as its buffer takes. -/
def Unobstructed (held : Bytes) : Prop := held = [] ∨ held = [esc] ∨ held.length = maxProbeReplyBytes

instance (held : Bytes) : Decidable (Unobstructed held) := by
  unfold Unobstructed
  infer_instance

/-- A stretch of input after which a reply is seen, and which holds none itself. -/
structure Undisturbed (gap : Bytes) : Prop where
  quiet : ∀ t ∈ (cut fence gap).1, isPrimaryDeviceAttributesReply t = false
  ready : Unobstructed (cut fence gap).2

theorem observed_eq_zero_iff :
    observed x = 0 ↔ ∀ t ∈ (cut fence x).1, isPrimaryDeviceAttributesReply t = false := by
  rw [observed]
  simp

theorem cut_primary (h : isPrimaryDeviceAttributesReply r = true) (hlength : r.length ≤ maxProbeReplyBytes) :
    fenceLen r = some r.length ∧ fenceLen r.dropLast = none := by
  obtain ⟨intro, body, hintro, rfl, hbody⟩ := shape_primary h
  have hend := finalEnd_parameters hbody
  constructor
  · have hfinal : finalEnd (0x3f :: (body ++ [0x63])) = some (body.length + 2) := by
      refine finalEnd_eq_some_iff.mpr ⟨0x3f :: body, 0x63, [], ?_, rfl, rfl, rfl⟩
      exact not_isFinal_of_finalEnd hend
    rw [fenceLen_control hintro, hfinal]
    simp only [length_append, length_cons, length_nil] at hlength ⊢
    rw [min_eq_left (by omega)]
  · have hdrop : (intro ++ 0x3f :: (body ++ [0x63])).dropLast = intro ++ 0x3f :: body := by
      rw [← cons_append, ← append_assoc, dropLast_concat]
    rw [hdrop]
    refine fenceLen_open ⟨hintro, hend, ?_⟩
    simp only [length_append, length_cons] at hlength ⊢
    omega

theorem cut_unobstructed (hheld : fenceLen held = none) (h : Unobstructed held)
    {b : UInt8} (hb : b = esc ∨ b = csi) (rest : Bytes) :
    (cut fence (held ++ b :: rest)).2 = (cut fence (b :: rest)).2 ∧
      observed (held ++ b :: rest) = observed (b :: rest) := by
  have hdropped : ∀ {skipped : Bytes}, held = skipped → fenceLen (skipped ++ b :: rest) = some skipped.length →
      isPrimaryDeviceAttributesReply skipped = false →
      (cut fence (held ++ b :: rest)).2 = (cut fence (b :: rest)).2 ∧
        observed (held ++ b :: rest) = observed (b :: rest) := by
    rintro skipped rfl hlen hprimary
    have hcut := cut_cons (c := fence) hlen
    rw [take_left' rfl, drop_left' rfl] at hcut
    refine ⟨by rw [hcut], ?_⟩
    rw [observed, hcut, filter_cons, hprimary]
    rfl
  rcases h with rfl | rfl | hfull
  · exact ⟨rfl, rfl⟩
  · refine hdropped rfl ?_ (not_primary_of_short (le_rfl))
    have hbody : controlBody ([esc] ++ b :: rest) = none := by
      rw [singleton_append, controlBody, if_neg (by decide), if_neg]
      rintro ⟨-, hhead⟩
      cases hhead
      revert hb
      decide
    rw [fenceLen, hbody]
    exact if_neg (by simp)
  · rcases fenceLen_eq_none hheld with rfl | rfl | ⟨intro, body, rfl, hopen⟩
    · cases hfull
    · cases hfull
    · refine hdropped rfl ?_ (not_primary_of_open hopen)
      rw [hfull, append_assoc, fenceLen_control hopen.introduced]
      rw [length_append] at hfull
      cases hend : finalEnd (body ++ b :: rest) with
      | some m =>
        have := finalEnd_append_gt hopen.unfinished hend
        dsimp only
        rw [Nat.min_eq_right (by omega)]
      | none =>
        refine if_pos ?_
        simp only [length_append, length_cons]
        omega

theorem eq_nil_of_introducer (hintro : Introducer intro) (hbody : ∀ b ∈ body, isDigit b = true ∨ b = 0x3b)
    {b : UInt8} (hb : b = esc ∨ b = csi) (h : intro ++ 0x3f :: body = v ++ b :: rest) : v = [] := by
  cases v with
  | nil => rfl
  | cons x v =>
    have hmem : b ∈ (intro ++ 0x3f :: body).tail := by
      rw [h]
      simp
    have hnot : ∀ c ∈ openBracket :: 0x3f :: body, c ≠ esc ∧ c ≠ csi := by
      intro c hc
      rcases mem_cons.mp hc with rfl | hc
      · decide
      · rcases mem_cons.mp hc with rfl | hc
        · decide
        · exact not_introducer_of_parameter (hbody c hc)
    have hin : b ∈ openBracket :: 0x3f :: body := by
      rcases hintro with rfl | rfl
      · exact mem_cons_of_mem _ hmem
      · exact hmem
    rcases hb with rfl | rfl
    · exact absurd rfl (hnot _ hin).1
    · exact absurd rfl (hnot _ hin).2

theorem Introducer.head (h : Introducer intro) : ∃ b rest, intro = b :: rest ∧ (b = esc ∨ b = csi) := by
  rcases h with rfl | rfl
  · exact ⟨csi, [], rfl, .inr rfl⟩
  · exact ⟨esc, [openBracket], rfl, .inl rfl⟩

theorem unobstructed_of_skipped (hheld : fenceLen held = none)
    (h : (cut fence (held ++ more)).1.flatten = held) : Unobstructed held := by
  rcases fenceLen_eq_none hheld with rfl | rfl | ⟨intro, body, rfl, hopen⟩
  · exact .inl rfl
  · exact .inr (.inl rfl)
  · have hpos := hopen.introduced.length_pos
    cases hlen : fenceLen (intro ++ body ++ more) with
    | none =>
      rw [cut_unfinished (c := fence) hlen] at h
      have hlength := congrArg length h
      rw [flatten_nil, length_nil, length_append] at hlength
      omega
    | some n =>
      have hle : n ≤ (intro ++ body).length := by
        rw [cut_cons (c := fence) hlen, flatten_cons] at h
        have hlength := congrArg length h
        rw [length_append, length_take_of_le (fence.le hlen)] at hlength
        omega
      have hheldLength := hopen.held
      refine .inr (.inr ?_)
      rw [append_assoc, fenceLen_control hopen.introduced] at hlen
      rw [length_append] at hle hheldLength ⊢
      split at hlen
      · rename_i m hm
        have := finalEnd_append_gt hopen.unfinished hm
        have := some.inj hlen
        omega
      · split at hlen
        · have := some.inj hlen
          omega
        · cases hlen

/-- **A reply is seen at its last byte only where it begins unobstructed.** -/
theorem unobstructed_of_observed (hheld : fenceLen held = none)
    (hr : isPrimaryDeviceAttributesReply r = true) (hbefore : observed (held ++ r.dropLast) = 0)
    (hseen : observed (held ++ r) ≠ 0) : Unobstructed held ∧ r.length ≤ maxProbeReplyBytes := by
  obtain ⟨intro, body, hintro, rfl, hbody⟩ := shape_primary hr
  have hdrop : (intro ++ 0x3f :: (body ++ [0x63])).dropLast = intro ++ 0x3f :: body := by
    rw [← cons_append, ← append_assoc, dropLast_concat]
  have hsplit : held ++ (intro ++ 0x3f :: (body ++ [0x63])) = held ++ (intro ++ 0x3f :: body) ++ [0x63] := by
    simp
  rw [hdrop] at hbefore
  rw [hsplit, observed_append, hbefore, zero_add] at hseen
  have hflatten := flatten_cut (c := fence) (held ++ (intro ++ 0x3f :: body))
  have htail := len_cut (c := fence) (held ++ (intro ++ 0x3f :: body))
  have hskipped : (cut fence (held ++ (intro ++ 0x3f :: body))).1.flatten = held → Unobstructed held :=
    unobstructed_of_skipped hheld
  generalize cut fence (held ++ (intro ++ 0x3f :: body)) = reading at *
  obtain ⟨tokens, tail⟩ := reading
  obtain ⟨hprimary, hlength⟩ := (ShutdownFenceBroker.steps (k := 0) (n := 0) htail 0x63).primary hseen
  obtain ⟨intro', body', hintro', htaileq, hbody'⟩ := shape_primary hprimary
  obtain rfl : tail = intro' ++ 0x3f :: body' := by
    rw [← cons_append, ← append_assoc] at htaileq
    exact (append_inj' htaileq rfl).1
  obtain ⟨b, rest, rfl, hb⟩ := hintro.head
  obtain ⟨b', rest', rfl, hb'⟩ := hintro'.head
  have hnil : tokens.flatten = held := by
    rcases append_eq_append_iff.mp hflatten with ⟨v, rfl, hv⟩ | ⟨v, hu, hv⟩
    · have := eq_nil_of_introducer hintro' hbody' hb hv
      rw [this, append_nil]
    · have := eq_nil_of_introducer hintro hbody hb' hv
      rw [hu, this, append_nil]
  refine ⟨hskipped hnil, ?_⟩
  rw [hnil] at hflatten
  have hsame := congrArg length (append_cancel_left hflatten)
  simp only [length_append, length_cons] at hsame hlength ⊢
  omega

/-! ## Streams of replies -/

def streamOf (pairs : List (Bytes × Bytes)) : Bytes := pairs.flatMap fun pair => pair.1 ++ pair.2

def Seen (pair : Bytes × Bytes) : Prop := Undisturbed pair.1 ∧ pair.2.length ≤ maxProbeReplyBytes

theorem head_primary (h : isPrimaryDeviceAttributesReply r = true) :
    ∃ b rest, r = b :: rest ∧ (b = esc ∨ b = csi) := by
  obtain ⟨intro, body, hintro, rfl, -⟩ := shape_primary h
  obtain ⟨b, rest, rfl, hb⟩ := hintro.head
  exact ⟨b, rest ++ 0x3f :: (body ++ [0x63]), rfl, hb⟩

theorem dropLast_primary (h : isPrimaryDeviceAttributesReply r = true) :
    r = r.dropLast ++ [0x63] ∧ ∃ b rest, r.dropLast = b :: rest ∧ (b = esc ∨ b = csi) := by
  obtain ⟨intro, body, hintro, rfl, -⟩ := shape_primary h
  obtain ⟨b, rest, rfl, hb⟩ := hintro.head
  have hdrop : (b :: rest ++ 0x3f :: (body ++ [0x63])).dropLast = b :: rest ++ 0x3f :: body := by
    rw [← cons_append (a := 0x3f), ← append_assoc, dropLast_concat]
  rw [hdrop]
  exact ⟨by simp, b, rest ++ 0x3f :: body, rfl, hb⟩

theorem observed_seen {pair : Bytes × Bytes} (hr : isPrimaryDeviceAttributesReply pair.2 = true)
    (h : Seen pair) : observed (pair.1 ++ pair.2) = 1 ∧ (cut fence (pair.1 ++ pair.2)).2 = [] ∧
      observed (pair.1 ++ pair.2.dropLast) = 0 := by
  obtain ⟨⟨hquiet, hready⟩, hlength⟩ := h
  have hheld := len_cut (c := fence) pair.1
  have hzero := observed_eq_zero_iff.mpr hquiet
  obtain ⟨hwhole, hbegun⟩ := cut_primary hr hlength
  have hcut := cut_whole (c := fence) hwhole []
  rw [append_nil, cut_nil] at hcut
  obtain ⟨b, rest, heq, hb⟩ := head_primary hr
  obtain ⟨-, b', rest', heq', hb'⟩ := dropLast_primary hr
  have hafter := cut_unobstructed hheld hready hb rest
  have hbefore := cut_unobstructed hheld hready hb' rest'
  rw [← heq] at hafter
  rw [← heq'] at hbefore
  refine ⟨?_, ?_, ?_⟩
  · rw [observed_append, hzero, hafter.2, observed, hcut, filter_cons, hr]
    rfl
  · rw [cut_append (c := fence), hafter.1, hcut]
  · rw [observed_append, hzero, hbefore.2, observed_unfinished hbegun]

theorem observed_streamOf {pairs : List (Bytes × Bytes)}
    (hreplies : ∀ pair ∈ pairs, isPrimaryDeviceAttributesReply pair.2 = true) (h : ∀ pair ∈ pairs, Seen pair) :
    observed (streamOf pairs) = pairs.length ∧ (cut fence (streamOf pairs)).2 = [] := by
  induction pairs with
  | nil =>
    have hnil : streamOf [] = [] := rfl
    rw [hnil, cut_nil]
    exact ⟨observed_unfinished rfl, rfl⟩
  | cons pair rest ih =>
    obtain ⟨hone, hidle, -⟩ := observed_seen (hreplies pair mem_cons_self) (h pair mem_cons_self)
    obtain ⟨hcount, htail⟩ := ih (fun x hx => hreplies x (mem_cons_of_mem _ hx))
      fun x hx => h x (mem_cons_of_mem _ hx)
    have hstream : streamOf (pair :: rest) = (pair.1 ++ pair.2) ++ streamOf rest := flatMap_cons
    rw [hstream, observed_append, cut_append (c := fence) (pair.1 ++ pair.2), hidle, nil_append, hone, hcount]
    exact ⟨by rw [length_cons, add_comm], htail⟩

theorem observed_mono (h : x <+: y) : observed x ≤ observed y := by
  obtain ⟨-, rfl⟩ := h
  rw [observed_append]
  exact Nat.le_add_right _ _

namespace ShutdownFenceBroker

/-- **The fence completes at the last byte of the awaited reply, however many replies it skips, exactly when
each reply begins where nothing swallows its introducer and the input between them reads as no reply.** -/
theorem completes_iff_seen {pairs : List (Bytes × Bytes)}
    (hreplies : ∀ pair ∈ pairs, isPrimaryDeviceAttributesReply pair.2 = true) :
    (∀ k < pairs.length, (new k).Completes (streamOf (pairs.take (k + 1)))) ↔
      pairs.length < 2 ^ 64 ∧ ∀ pair ∈ pairs, Seen pair := by
  have hcompletes : ∀ k x, (new k).Completes x ↔ Awaits k 0 [] x := fun k x =>
    completes_iff (k := k) (n := 0) rfl (Nat.zero_le _) x
  have htake : ∀ i (hi : i < pairs.length), streamOf (pairs.take (i + 1)) =
      streamOf (pairs.take i) ++ (pairs[i].1 ++ pairs[i].2) := by
    intro i hi
    rw [streamOf, take_succ_eq_append_getElem hi, flatMap_append, flatMap_singleton]
    rfl
  have hleading : ∀ i, ∀ pair ∈ pairs.take i, isPrimaryDeviceAttributesReply pair.2 = true := fun i pair hpair =>
    hreplies pair (mem_of_mem_take hpair)
  constructor
  · intro h
    have hseen : ∀ i ≤ pairs.length, ∀ pair ∈ pairs.take i, Seen pair := by
      intro i
      induction i with
      | zero => simp
      | succ i ih =>
        intro hi
        have hearlier := ih (by omega)
        have hlt : i < pairs.length := by omega
        obtain ⟨hcount, hidle⟩ := observed_streamOf (hleading i) hearlier
        rw [length_take_of_le (by omega)] at hcount
        have hall : ∀ y, observed ([] ++ (streamOf (pairs.take i) ++ y)) = i + observed y := by
          intro y
          rw [nil_append, observed_append, hcount, hidle]
          rfl
        obtain ⟨-, henough, hbefore⟩ := (hcompletes i _).mp (h i hlt)
        rw [htake i hlt] at henough hbefore
        have hr := hreplies pairs[i] (getElem_mem hlt)
        obtain ⟨hlast, b, rest, hbegin, -⟩ := dropLast_primary hr
        have hword : i < 2 ^ 64 - 1 := lt_of_lt_of_le henough (min_le_right _ _)
        have hzero : ∀ y, y <+: pairs[i].1 ++ pairs[i].2 → y ≠ pairs[i].1 ++ pairs[i].2 → observed y = 0 := by
          intro y hy hne
          have hle := hbefore (streamOf (pairs.take i) ++ y) ((prefix_append_right_inj _).mpr hy)
            fun heq => hne (append_cancel_left heq)
          rw [hall, counted] at hle
          omega
        have hgap : observed pairs[i].1 = 0 := by
          refine hzero _ (prefix_append _ _) fun heq => ?_
          have := congrArg length heq
          rw [length_append, hlast, length_append, length_singleton] at this
          omega
        have hbegun : observed (pairs[i].1 ++ pairs[i].2.dropLast) = 0 := by
          refine hzero _ ((prefix_append_right_inj _).mpr ( dropLast_prefix _)) fun heq => ?_
          have := congrArg length (append_cancel_left heq)
          rw [length_dropLast, hlast, length_append, length_singleton] at this
          omega
        have hwhole : observed (pairs[i].1 ++ pairs[i].2) ≠ 0 := by
          rw [hall, counted] at henough
          omega
        have hheld := len_cut (c := fence) pairs[i].1
        rw [observed_append, hgap, zero_add] at hbegun hwhole
        obtain ⟨hready, hlength⟩ := unobstructed_of_observed hheld hr hbegun hwhole
        intro pair hpair
        rw [take_succ_eq_append_getElem hlt, mem_append, mem_singleton] at hpair
        rcases hpair with hpair | rfl
        · exact hearlier pair hpair
        · exact ⟨⟨observed_eq_zero_iff.mp hgap, hready⟩, hlength⟩
    refine ⟨?_, ?_⟩
    · by_contra hlong
      have henough := ((hcompletes (2 ^ 64 - 1) _).mp (h (2 ^ 64 - 1) (by omega))).enough
      have : counted (0 + observed ([] ++ streamOf (pairs.take (2 ^ 64 - 1 + 1)))) ≤ 2 ^ 64 - 1 :=
        min_le_right _ _
      omega
    · have := hseen pairs.length (le_rfl)
      rwa [take_length] at this
  · rintro ⟨hword, hseen⟩ k hk
    have hearlier : ∀ pair ∈ pairs.take k, Seen pair := fun pair hpair => hseen pair (mem_of_mem_take hpair)
    obtain ⟨hcount, hidle⟩ := observed_streamOf (hleading k) hearlier
    rw [length_take_of_le (by omega)] at hcount
    have hr := hreplies pairs[k] (getElem_mem hk)
    obtain ⟨hone, -, hzero⟩ := observed_seen hr (hseen _ (getElem_mem hk))
    obtain ⟨hlast, b, rest, hbegin, -⟩ := dropLast_primary hr
    have hall : ∀ y, observed (streamOf (pairs.take k) ++ y) = k + observed y := by
      intro y
      rw [observed_append, hcount, hidle]
      rfl
    rw [hcompletes, htake k hk]
    refine ⟨?_, ?_, fun y hy hne => ?_⟩
    · rw [hlast]
      simp
    · rw [nil_append, hall, counted]
      omega
    · have hsplit : streamOf (pairs.take k) ++ (pairs[k].1 ++ pairs[k].2) =
          streamOf (pairs.take k) ++ (pairs[k].1 ++ pairs[k].2.dropLast) ++ [0x63] := by
        rw [append_assoc, append_assoc, ← hlast]
      rw [hsplit] at hy hne
      have hshort := (prefix_concat_iff.mp hy).resolve_left hne
      have hle := observed_mono hshort
      rw [hall] at hle
      rw [nil_append, counted]
      omega

theorem completes_iff_seen_keys :
    (∀ k < [(ascii "text", esc :: ascii "[?6c"), ([esc], csi :: ascii "?62;4c")].length, (new k).Completes
        (streamOf ([(ascii "text", esc :: ascii "[?6c"), ([esc], csi :: ascii "?62;4c")].take (k + 1)))) ↔
      [(ascii "text", esc :: ascii "[?6c"), ([esc], csi :: ascii "?62;4c")].length < 2 ^ 64 ∧
        ∀ pair ∈ [(ascii "text", esc :: ascii "[?6c"), ([esc], csi :: ascii "?62;4c")], Seen pair :=
  completes_iff_seen (by decide +kernel)

/-- The second byte of a character opens a control sequence, which the reply ends. -/
theorem character_hides_reply :
    isUtf8 [0xc3, 0x9b] = true ∧ isPrimaryDeviceAttributesReply (esc :: ascii "[?6c") = true ∧
      ¬ (new 0).Completes ([0xc3, 0x9b] ++ esc :: ascii "[?6c") ∧
      true ∉ (new 0).reports ([0xc3, 0x9b] ++ esc :: ascii "[?6c") := by
  refine ⟨?_, ?_, ?_, ?_⟩
  · decide +kernel
  · decide +kernel
  · unfold Completes
    decide +kernel
  · decide +kernel

end ShutdownFenceBroker

end Lector.Probe
