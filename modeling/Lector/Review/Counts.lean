import Lector.Review.Parser

/-! The counts of review commands, and what is left in the parser once a command is out. -/
namespace Lector.Review
open Option

def Command.counts : Command → List Nat
  | .move _ count | .scrollPage _ count | .yankMotion _ count _ | .yankLine count _
  | .yankTextObject _ count _ | .moveVisual _ count | .repeatSearch _ count => [count]
  | .repositionViewport _ line _ => line.toList
  | _ => []

def InRange (count : Nat) : Prop := 1 ≤ count ∧ count ≤ maxCount

def Bounded (count : Option Nat) : Prop := ∀ n ∈ count, InRange n

theorem inRange_one : InRange 1 := by simp [InRange, maxCount]

theorem bounded_none : Bounded none := by simp [Bounded]

theorem Bounded.getD {count : Option Nat} (h : Bounded count) : InRange (count.getD 1) := by
  cases count with
  | none => exact inRange_one
  | some n => exact h n rfl

theorem InRange.multiply {a b : Nat} (ha : InRange a) (hb : InRange b) : InRange (multiplyCounts a b) := by
  have hpos : 1 ≤ a * b := Nat.mul_pos ha.1 hb.1
  constructor
  · simp only [multiplyCounts, maxCount]
    omega
  · exact min_le_right _ _

theorem countDigit_spec {count : Option Nat} {key : Key} {digit : Nat} (h : countDigit count key = some digit) :
    digit ≤ 9 ∧ (count = none → 1 ≤ digit) := by
  unfold countDigit at h
  split at h
  · rename_i d
    split at h
    · rename_i hd
      cases h
      have hrange : 48 ≤ d.toNat ∧ d.toNat ≤ 57 := by
        simpa [Char.isDigit, UInt32.le_iff_toNat_le] using hd.1
      refine ⟨by omega, fun hnone => ?_⟩
      have hne : d ≠ '0' := by simpa [hnone] using hd.2
      have h48 : d.toNat ≠ 48 := fun heq => hne (Char.toNat_inj.mp heq)
      omega
    · cases h
  · cases h

theorem bounded_pushDigit {count : Option Nat} {key : Key} {digit : Nat} (h : Bounded count)
    (hdigit : countDigit count key = some digit) : Bounded (some (pushDigit count digit)) := by
  obtain ⟨-, hpos⟩ := countDigit_spec hdigit
  rintro n ⟨rfl⟩
  refine ⟨?_, min_le_right _ _⟩
  cases count with
  | none =>
    have := hpos rfl
    simp only [pushDigit, maxCount]
    omega
  | some m =>
    have := (h m rfl).1
    simp only [pushDigit, maxCount, getD_some]
    omega

namespace Parser

variable {parser : Parser} {key : Key}

def Idle (parser : Parser) : Prop := parser = { default with visual := parser.visual }

structure Counted (parser : Parser) : Prop where
  count : Bounded parser.count
  operator : ∀ given register keyPrefix motionCount around,
    parser.operator = .yank given register keyPrefix motionCount around → InRange given ∧ Bounded motionCount

/-- Neither a further digit nor the product of both counts saturates at 32 bits. -/
structure Fits (parser : Parser) (key : Key) : Prop where
  count : ∀ digit, countDigit parser.count key = some digit → parser.count.getD 0 * 10 + digit < 2 ^ 32
  motionCount : ∀ given register keyPrefix motionCount around,
    parser.operator = .yank given register keyPrefix motionCount around →
      (∀ digit, countDigit motionCount key = some digit → motionCount.getD 0 * 10 + digit < 2 ^ 32) ∧
        given * motionCount.getD 1 < 2 ^ 32

structure Kept (result : Parser × Command) : Prop where
  counted : Counted result.1
  counts : ∀ n ∈ result.2.counts, InRange n
  idle : result.2 ≠ .none → Idle result.1

theorem counted_default : Counted default where
  count := bounded_none
  operator _ _ _ _ _ h := nomatch h

theorem idle_resetPending (parser : Parser) : Idle parser.resetPending := rfl

theorem counted_resetPending (parser : Parser) : Counted parser.resetPending where
  count := bounded_none
  operator _ _ _ _ _ h := nomatch h

theorem Counted.takeCount (h : Counted parser) : InRange parser.takeCount := by
  have hcount := h.count.getD
  rw [Parser.takeCount, max_eq_left hcount.1]
  exact hcount

theorem fits_of_counted (h : Counted parser) (key : Key) : Fits parser key := by
  have hdigit : ∀ {count : Option Nat} {digit : Nat}, Bounded count → countDigit count key = some digit →
      count.getD 0 * 10 + digit < 2 ^ 32 := by
    intro count digit hcount hdigit
    have hle := (countDigit_spec hdigit).1
    cases count with
    | none =>
      simp only [getD_none]
      omega
    | some n =>
      have hn : n ≤ 10000 := (hcount n rfl).2
      simp only [getD_some]
      omega
  refine ⟨fun digit => hdigit h.count, fun given register keyPrefix motionCount around hop => ?_⟩
  obtain ⟨hgiven, hmotion⟩ := h.operator _ _ _ _ _ hop
  refine ⟨fun digit => hdigit hmotion, ?_⟩
  calc given * motionCount.getD 1 ≤ maxCount * maxCount := Nat.mul_le_mul hgiven.2 hmotion.getD.2
    _ < 2 ^ 32 := by decide

/-! ## The outcomes of a key -/

theorem kept_finish {command : Command} (h : ∀ n ∈ command.counts, InRange n) : Kept (parser.finish command) :=
  ⟨counted_resetPending parser, h, fun _ => idle_resetPending parser⟩

theorem kept_bell (parser : Parser) : Kept (parser.resetPending, .bell) := kept_finish (by simp [Command.counts])

theorem kept_wait (h : Counted parser) : Kept (parser, .none) :=
  ⟨h, by simp [Command.counts], fun hne => absurd rfl hne⟩

theorem kept_counted {command : Command} {n : Nat} (hcounts : command.counts = [n]) (h : InRange n) :
    Kept (parser.finish command) := kept_finish (by simpa [hcounts] using h)

theorem Counted.await (h : Counted parser) {awaiting : Parser} (hcount : awaiting.count = parser.count)
    (hoperator : awaiting.operator = parser.operator) : Kept (awaiting, .none) :=
  kept_wait ⟨by rw [hcount]; exact h.count, by rw [hoperator]; exact h.operator⟩

theorem Counted.digit (h : Counted parser) {digit : Nat} (hdigit : countDigit parser.count key = some digit) :
    Kept ({ parser with count := some (pushDigit parser.count digit) }, .none) :=
  kept_wait ⟨bounded_pushDigit h.count hdigit, h.operator⟩

theorem idle_escape (parser : Parser) : Idle parser.escape.1 := by
  unfold escape
  split
  · exact idle_resetPending _
  · split
    · exact idle_resetPending _
    · rename_i hvisual hpending
      obtain ⟨count, keyPrefix, operator, visual, register, awaiting⟩ := parser
      simp only [not_or, not_not, Bool.not_eq_true, isSome_eq_false_iff, isNone_iff_eq_none] at hpending
      simp [Idle, default, hpending]

theorem kept_escape (parser : Parser) : Kept parser.escape := by
  have hidle := idle_escape parser
  refine ⟨?_, ?_, fun _ => hidle⟩
  · rw [hidle]
    exact ⟨bounded_none, fun _ _ _ _ _ h => nomatch h⟩
  · unfold escape
    split
    · simp [Command.counts]
    · split <;> simp [Command.counts]

section

variable (h : Counted parser)
include h

variable (key : Key)

theorem kept_feedNormal : Kept (parser.feedNormal key) := by
  unfold feedNormal
  split
  · rename_i digit hdigit
    exact h.digit hdigit
  · split
    case h_3 => exact kept_wait ⟨bounded_none, by
      rintro given register keyPrefix motionCount around ⟨⟩
      exact ⟨h.takeCount, bounded_none⟩⟩
    case h_22 =>
      split
      · exact kept_counted rfl h.takeCount
      · exact kept_finish (by simp [Command.counts])
    all_goals first
      | exact h.await rfl rfl
      | exact kept_counted rfl h.takeCount
      | exact kept_finish (by simp [Command.counts])

theorem kept_feedVisual : Kept (parser.feedVisual key) := by
  unfold feedVisual
  split
  · rename_i digit hdigit
    exact h.digit hdigit
  · split
    case h_13 =>
      split
      · exact kept_counted rfl h.takeCount
      · exact kept_finish (by simp [Command.counts])
    all_goals first
      | exact h.await rfl rfl
      | exact kept_finish (by simp [Command.counts])

theorem kept_feedPrefix : Kept (parser.feedPrefix key) := by
  have hline : ∀ placement firstNonblank, Kept ({ parser with keyPrefix := .none, count := none }.finish
        (.repositionViewport placement parser.count firstNonblank)) := by
    intro placement firstNonblank
    exact kept_finish (by simpa [Command.counts, Bounded] using h.count)
  unfold feedPrefix
  dsimp only
  split
  · split
    case h_7 => exact kept_bell _
    all_goals exact hline _ _
  · split
    · exact kept_bell _
    · split
      · exact kept_counted rfl h.takeCount
      · exact kept_counted rfl h.takeCount

theorem kept_feedOperator : Kept (parser.feedOperator key) := by
  unfold feedOperator
  split
  · exact kept_wait h
  · rename_i given register keyPrefix motionCount around hop
    obtain ⟨hgiven, hmotion⟩ := h.operator _ _ _ _ _ hop
    have htotal := hgiven.multiply hmotion.getD
    have hawait : ∀ keyPrefix' around',
        Kept ({ parser with operator := .yank given register keyPrefix' motionCount around' }, .none) := by
      intro keyPrefix' around'
      refine kept_wait ⟨h.count, ?_⟩
      rintro _ _ _ _ _ ⟨⟩
      exact ⟨hgiven, hmotion⟩
    split
    · rename_i digit hdigit
      refine kept_wait ⟨h.count, ?_⟩
      rintro _ _ _ _ _ ⟨⟩
      exact ⟨hgiven, bounded_pushDigit hmotion hdigit⟩
    · split
      · split
        · exact kept_counted rfl htotal
        · exact kept_counted rfl htotal
        · exact kept_bell _
      · split
        · split
          · exact kept_bell _
          · exact kept_counted rfl htotal
        · split
          case h_1 => exact kept_counted rfl htotal
          case h_11 =>
            split
            · exact kept_bell _
            · exact kept_counted rfl htotal
          all_goals exact hawait _ _

theorem kept_feedRegister : Kept (parser.feedRegister key) := by
  unfold feedRegister
  split
  · exact h.await rfl rfl
  · exact h.await rfl rfl
  · exact kept_bell _

theorem kept_feed : Kept (parser.feed key) := by
  unfold feed
  split
  · exact kept_escape parser
  split
  · exact kept_feedRegister h key
  split
  · exact kept_feedOperator h key
  split
  · exact kept_feedPrefix h key
  split
  · exact kept_feedVisual h key
  · exact kept_feedNormal h key

end

/-! ## Key sequences -/

def after : Parser → List Key → Parser
  | parser, [] => parser
  | parser, key :: rest => after (parser.feed key).1 rest

theorem Counted.after (h : Counted parser) (keys : List Key) : Counted (parser.after keys) := by
  induction keys generalizing parser with
  | nil => exact h
  | cons key rest ih => exact ih (kept_feed h key).counted

/-- **Whatever was typed before**, the next key emits only counts between one and the greatest count, its
arithmetic does not overflow, a command or a bell leaves nothing pending but the selection, and so does
Escape. -/
theorem feed_disciplined (keys : List Key) (key : Key) :
    (∀ n ∈ ((default.after keys).feed key).2.counts, 1 ≤ n ∧ n ≤ maxCount) ∧ (default.after keys).Fits key ∧
      (((default.after keys).feed key).2 ≠ .none → ((default.after keys).feed key).1.Idle) ∧
      ((default.after keys).feed .escape).1.Idle := by
  have hcounted := counted_default.after keys
  have hkept := kept_feed hcounted key
  refine ⟨hkept.counts, fits_of_counted hcounted key, hkept.idle, ?_⟩
  exact idle_escape _

end Parser

end Lector.Review
