import Lector.Review.Parser

/-! The yank operator against the motions of normal mode: the same keys are read by two dispatchers, which
are compared key by key. -/
namespace Lector.Review
open List hiding max min

def prefixForKey : Key → Option KeyPrefix
  | .char 'g' => some .g
  | .char '[' => some (.bracket false)
  | .char ']' => some (.bracket true)
  | .char 'f' => some (.find .forward false)
  | .char 'F' => some (.find .backward false)
  | .char 't' => some (.find .forward true)
  | .char 'T' => some (.find .backward true)
  | _ => none

/-- A count and then the keys of one motion, of which none counts a second time. The count so far is
given. -/
inductive Direct : Option Nat → List Key → Prop
  | digit (count : Option Nat) (key : Key) (digit : Nat) (rest : List Key) :
      countDigit count key = some digit → Direct (some (pushDigit count digit)) rest →
      Direct count (key :: rest)
  | motion (count : Option Nat) (key : Key) : countDigit count key = none →
      (motionForKey key).isSome = true → Direct count [key]
  | argument (count : Option Nat) (opener argument : Key) (keyPrefix : KeyPrefix) :
      prefixForKey opener = some keyPrefix → countDigit count argument = none →
      (motionAfterPrefix keyPrefix argument).isSome = true → Direct count [opener, argument]

namespace Parser

def idle (count : Option Nat) (keyPrefix : KeyPrefix) : Parser :=
  { default with count := count, keyPrefix := keyPrefix }

/-- A parser that has read the operator, with the count given before it, and a count of the motion. -/
def yanking (given : Nat) (count : Option Nat) (keyPrefix : KeyPrefix) : Parser :=
  { default with operator := .yank given none keyPrefix count none }

/-- The keys give one command, with their last key. -/
def Yields (parser : Parser) (keys : List Key) (command : Command) : Prop :=
  parser.commands keys = List.replicate (keys.length - 1) .none ++ [command]

variable {parser : Parser} {given : Nat} {count : Option Nat} {key : Key} {keys rest : List Key}
  {command : Command}

theorem not_yields_nil : ¬ parser.Yields [] command := by
  intro h
  cases h

theorem yields_singleton : parser.Yields [key] command ↔ (parser.feed key).2 = command := by
  simp [Yields, commands]

theorem yields_cons (h : rest ≠ []) : parser.Yields (key :: rest) command ↔
      (parser.feed key).2 = .none ∧ (parser.feed key).1.Yields rest command := by
  cases rest with
  | nil => exact absurd rfl h
  | cons next rest =>
    simp only [Yields, commands, length_cons, Nat.add_sub_cancel, replicate_succ, cons_append, cons.injEq]

theorem Yields.unique {command' : Command} (h : parser.Yields keys command)
    (h' : parser.Yields keys command') : command = command' := by
  have := h.symm.trans h'
  simpa using this

theorem Yields.eq_nil (h : parser.Yields (key :: rest) command) (hne : (parser.feed key).2 ≠ .none) :
    rest = [] := by
  by_contra hrest
  exact hne ((yields_cons hrest).mp h).1

theorem Yields.ne_nil (h : parser.Yields (key :: rest) command) (hnone : (parser.feed key).2 = .none)
    (hcommand : command ≠ .none) : rest ≠ [] := by
  rintro rfl
  rw [yields_singleton, hnone] at h
  exact hcommand h.symm

/-! ## One key -/

theorem feed_escape_idle (h : count.isSome = true) :
    (idle count .none).feed .escape = (idle none .none, .none) := by
  simp [feed, escape, idle, default, resetPending, h]

theorem feed_escape_opening {keyPrefix : KeyPrefix} (h : keyPrefix ≠ .none) :
    (idle count keyPrefix).feed .escape = (idle none .none, .none) := by
  simp [feed, escape, idle, default, resetPending, h]

theorem feed_idle (h : key ≠ .escape) : (idle count .none).feed key = (idle count .none).feedNormal key := by
  simp [feed, h, idle, default]

theorem feed_opening {keyPrefix : KeyPrefix} (h : key ≠ .escape) (hopening : keyPrefix ≠ .none) :
    (idle count keyPrefix).feed key = (idle count keyPrefix).feedPrefix key := by
  simp [feed, h, idle, default, hopening]

theorem feed_yanking {keyPrefix : KeyPrefix} (h : key ≠ .escape) :
    (yanking given count keyPrefix).feed key = (yanking given count keyPrefix).feedOperator key := by
  simp [feed, h, yanking, default]

theorem ne_escape_of_countDigit {digit : Nat} (h : countDigit count key = some digit) : key ≠ .escape := by
  rintro rfl
  cases h

theorem feed_digit_idle {digit : Nat} (h : countDigit count key = some digit) :
    (idle count .none).feed key = (idle (some (pushDigit count digit)) .none, .none) := by
  rw [feed_idle (ne_escape_of_countDigit h)]
  unfold feedNormal
  rw [show (idle count .none).count = count from rfl, h]
  rfl

theorem feed_digit_yanking {digit : Nat} {keyPrefix : KeyPrefix} (h : countDigit count key = some digit) :
    (yanking given count keyPrefix).feed key =
      (yanking given (some (pushDigit count digit)) keyPrefix, .none) := by
  rw [feed_yanking (ne_escape_of_countDigit h)]
  unfold feedOperator
  dsimp only [yanking]
  rw [h]

/-- What the two dispatchers make of a key that is no digit of a count. -/
inductive Outcome (given : Nat) (count : Option Nat) (key : Key) : Prop
  | motion (motion : Motion) : motionForKey key = some motion → prefixForKey key = none →
      (idle count .none).feed key = (idle none .none, .move motion (max (count.getD 1) 1)) →
      (yanking given count .none).feed key =
        (idle none .none, .yankMotion motion (multiplyCounts given (count.getD 1)) none) →
      Outcome given count key
  | opens (keyPrefix : KeyPrefix) : keyPrefix ≠ .none → keyPrefix ≠ .z →
      prefixForKey key = some keyPrefix → motionForKey key = none →
      (idle count .none).feed key = (idle count keyPrefix, .none) →
      (yanking given count .none).feed key = (yanking given count keyPrefix, .none) →
      Outcome given count key
  | escape : key = .escape → Outcome given count key
  | differs : motionForKey key = none → prefixForKey key = none →
      ((yanking given count .none).feed key).2 ≠ .none →
      (∀ motion n register, ((yanking given count .none).feed key).2 ≠ .yankMotion motion n register) →
      Outcome given count key
  | stops : ((idle count .none).feed key).2 ≠ .none →
      (∀ motion n, ((idle count .none).feed key).2 ≠ .move motion n) → Outcome given count key

theorem feed_yanking_motion (h : countDigit count key = none) {motion : Motion}
    (hmotion : motionForKey key = some motion) : (yanking given count .none).feed key =
      (idle none .none, .yankMotion motion (multiplyCounts given (count.getD 1)) none) := by
  have hescape : key ≠ .escape := by
    rintro rfl
    cases hmotion
  rw [feed_yanking hescape]
  unfold feedOperator
  dsimp only [yanking]
  rw [h]
  dsimp only
  rw [if_neg (by simp)]
  split
  all_goals first
    | cases hmotion
    | rw [hmotion]; rfl

theorem stops_of {next : Parser} (h : (idle count .none).feed key = (next, command))
    (hnone : command ≠ .none) (hmove : ∀ motion n, command ≠ .move motion n) : Outcome given count key :=
  .stops (by rwa [h]) fun motion n => by
    rw [h]
    exact hmove motion n

theorem outcome (given : Nat) (h : countDigit count key = none) : Outcome given count key := by
  by_cases hescape : key = .escape
  · exact .escape hescape
  · have hidle : (idle count .none).feed key = (idle count .none).feedNormal key := feed_idle hescape
    unfold feedNormal at hidle
    rw [show (idle count .none).count = count from rfl, h] at hidle
    dsimp only at hidle
    split at hidle
    · exact stops_of hidle nofun nofun
    · exact .differs rfl rfl nofun nofun
    · exact .differs rfl rfl nofun nofun
    · exact stops_of hidle nofun nofun
    · exact stops_of hidle nofun nofun
    · exact .opens .g nofun nofun rfl rfl hidle rfl
    · exact .differs rfl rfl nofun nofun
    · exact .opens (.bracket false) nofun nofun rfl rfl hidle rfl
    · exact .opens (.bracket true) nofun nofun rfl rfl hidle rfl
    · exact .opens (.find .forward false) nofun nofun rfl rfl hidle rfl
    · exact .opens (.find .backward false) nofun nofun rfl rfl hidle rfl
    · exact .opens (.find .forward true) nofun nofun rfl rfl hidle rfl
    · exact .opens (.find .backward true) nofun nofun rfl rfl hidle rfl
    · exact stops_of hidle nofun nofun
    · exact stops_of hidle nofun nofun
    · exact stops_of hidle nofun nofun
    · exact stops_of hidle nofun nofun
    · exact stops_of hidle nofun nofun
    · exact stops_of hidle nofun nofun
    · exact stops_of hidle nofun nofun
    · exact stops_of hidle nofun nofun
    · split at hidle
      · rename_i motion hmotion
        have hopening : prefixForKey key = none := by
          unfold prefixForKey
          split
          all_goals first
            | rfl
            | cases hmotion
        exact .motion motion hmotion hopening hidle (feed_yanking_motion h hmotion)
      · exact stops_of hidle nofun nofun

theorem feed_argument {keyPrefix : KeyPrefix} (hescape : key ≠ .escape) (hnone : keyPrefix ≠ .none)
    (hz : keyPrefix ≠ .z) : (∀ motion, motionAfterPrefix keyPrefix key = some motion →
        (idle count keyPrefix).feed key = (idle none .none, .move motion (max (count.getD 1) 1))) ∧
      (motionAfterPrefix keyPrefix key = none → ((idle count keyPrefix).feed key).2 = .bell) ∧
      (∀ motion, countDigit count key = none → motionAfterPrefix keyPrefix key = some motion →
        (yanking given count keyPrefix).feed key =
          (idle none .none, .yankMotion motion (multiplyCounts given (count.getD 1)) none)) := by
  refine ⟨fun motion h => ?_, fun h => ?_, fun motion hdigit h => ?_⟩
  · rw [feed_opening hescape hnone]
    unfold feedPrefix
    rw [if_neg (show (idle count keyPrefix).keyPrefix ≠ .z from hz),
      show motionAfterPrefix (idle count keyPrefix).keyPrefix key = some motion from h]
    rfl
  · rw [feed_opening hescape hnone]
    unfold feedPrefix
    rw [if_neg (show (idle count keyPrefix).keyPrefix ≠ .z from hz),
      show motionAfterPrefix (idle count keyPrefix).keyPrefix key = none from h]
  · rw [feed_yanking hescape]
    unfold feedOperator
    dsimp only [yanking]
    rw [hdigit]
    rw [if_pos hnone, h]
    rfl

theorem countDigit_prefixForKey {keyPrefix : KeyPrefix} (h : prefixForKey key = some keyPrefix) :
    countDigit count key = none := by
  unfold prefixForKey at h
  split at h
  all_goals first
    | rfl
    | cases h

/-! ## Key sequences -/

def Counts (count : Option Nat) : Prop := ∀ n, count = some n → 1 ≤ n

theorem Counts.max_getD (h : Counts count) : max (count.getD 1) 1 = count.getD 1 := by
  cases count with
  | none => rfl
  | some n => exact max_eq_left (h n rfl)

theorem counts_pushDigit (h : Counts count) {digit : Nat} (hdigit : countDigit count key = some digit) :
    Counts (some (pushDigit count digit)) := by
  rintro n ⟨rfl⟩
  unfold countDigit at hdigit
  split at hdigit
  · rename_i d
    split at hdigit
    · rename_i hd
      cases hdigit
      have hmax : maxCount = 10000 := rfl
      cases count with
      | none =>
        have hne : d ≠ '0' := by simpa using hd.2
        have hge : 48 ≤ d.toNat ∧ d.toNat ≤ 57 := by
          have := hd.1
          simpa [Char.isDigit, UInt32.le_iff_toNat_le] using this
        have h48 : d.toNat ≠ 48 := fun h => hne (Char.toNat_inj.mp h)
        simp only [pushDigit]
        omega
      | some n =>
        have := h n rfl
        simp only [pushDigit, Option.getD_some]
        omega
    · cases hdigit
  · cases hdigit

theorem not_direct_escape : ¬ Direct count (.escape :: rest) := by
  intro h
  cases h with
  | digit _ _ _ _ hdigit => cases hdigit
  | motion _ _ _ hmotion => cases hmotion
  | argument _ _ _ _ hopening => cases hopening

/-- **The operator reads the keys of a motion as that motion exactly when they are direct.** -/
theorem yields_iff_direct (hcount : Counts count) {motion : Motion} {n : Nat}
    (h : (idle count .none).Yields keys (.move motion n)) (total : Nat) :
    (yanking given count .none).Yields keys (.yankMotion motion total none) ↔
      Direct count keys ∧ total = multiplyCounts given n := by
  have hmove : ∀ parser : Parser, ∀ keys : List Key, ∀ m n m' n' register,
      parser.Yields keys (.move m n) → ¬ parser.Yields keys (.yankMotion m' n' register) :=
    fun _ _ _ _ _ _ _ h h' => nomatch h.unique h'
  induction keys generalizing count with
  | nil => exact absurd h not_yields_nil
  | cons key rest ih =>
    cases hdigit : countDigit count key with
    | some digit =>
      have hidle := feed_digit_idle hdigit
      have hyank := @feed_digit_yanking given count key digit .none hdigit
      have hrest : rest ≠ [] := h.ne_nil (by rw [hidle]) nofun
      have hnext := ((yields_cons hrest).mp h).2
      rw [hidle] at hnext
      have hih := ih (counts_pushDigit hcount hdigit) hnext
      rw [yields_cons hrest, hyank]
      refine (and_congr_right fun _ => hih).trans ?_
      refine ⟨fun h => ⟨.digit count key digit rest hdigit h.2.1, h.2.2⟩, fun h => ⟨rfl, ?_, h.2⟩⟩
      cases h.1 with
      | digit _ _ d _ hd hdirect =>
        obtain rfl := Option.some.inj (hdigit.symm.trans hd)
        exact hdirect
      | motion _ _ hnone => rw [hdigit] at hnone; cases hnone
      | argument _ _ _ _ hopening =>
        rw [countDigit_prefixForKey hopening] at hdigit
        cases hdigit
    | none =>
      have hnodigit : ∀ rest, Direct count (key :: rest) →
          (rest = [] ∧ (motionForKey key).isSome = true) ∨ ∃ argument keyPrefix, rest = [argument] ∧
            prefixForKey key = some keyPrefix ∧ countDigit count argument = none ∧
            (motionAfterPrefix keyPrefix argument).isSome = true := by
        intro rest hdirect
        cases hdirect with
        | digit _ _ _ _ hd => rw [hdigit] at hd; cases hd
        | motion _ _ _ hmotion => exact .inl ⟨rfl, hmotion⟩
        | argument _ _ argument keyPrefix hopening hargument hmotion =>
          exact .inr ⟨argument, keyPrefix, rfl, hopening, hargument, hmotion⟩
      cases outcome given hdigit with
      | motion m hm _ hidle hyank =>
        obtain rfl : rest = [] := h.eq_nil (by rw [hidle]; nofun)
        rw [yields_singleton, hidle] at h
        rw [yields_singleton, hyank]
        obtain ⟨rfl, rfl⟩ := Command.move.inj h
        rw [hcount.max_getD]
        refine ⟨fun h => ⟨.motion count key hdigit (by rw [hm]; rfl), ?_⟩, fun h => by rw [h.2]⟩
        exact (Command.yankMotion.inj h).2.1.symm
      | opens keyPrefix hnone hz hopening hm hidle hyank =>
        have hrest : rest ≠ [] := h.ne_nil (by rw [hidle]) nofun
        have hnext := ((yields_cons hrest).mp h).2
        rw [hidle] at hnext
        rw [yields_cons hrest, hyank]
        obtain ⟨argument, more, rfl⟩ := exists_cons_of_ne_nil hrest
        by_cases hescape : argument = .escape
        · -- Both dispatchers are idle again, so the command is a move.
          subst hescape
          have hmore : more ≠ [] := hnext.ne_nil (by rw [feed_escape_opening hnone]) nofun
          have hafter := ((yields_cons hmore).mp hnext).2
          rw [feed_escape_opening hnone] at hafter
          refine iff_of_false (fun hyields => ?_) fun hdirect => ?_
          · have hafter' := ((yields_cons hmore).mp hyields.2).2
            exact hmove _ _ _ _ _ _ _ hafter hafter'
          · rcases hnodigit _ hdirect.1 with ⟨h, -⟩ | ⟨argument, keyPrefix', h, -, -, hmotion⟩
            · cases h
            · obtain ⟨rfl, -⟩ := cons.inj h
              cases keyPrefix' with
              | none => cases hmotion
              | g => cases hmotion
              | z => cases hmotion
              | bracket forward => cases hmotion
              | find direction till => cases hmotion
        · obtain ⟨hmoves, hbells, hyanks⟩ :=
            @feed_argument given count argument keyPrefix hescape hnone hz
          cases hmotion : motionAfterPrefix keyPrefix argument with
          | none =>
            have hbell := hbells hmotion
            obtain rfl : more = [] := hnext.eq_nil (by rw [hbell]; nofun)
            rw [yields_singleton, hbell] at hnext
            cases hnext
          | some m =>
            have hmoved := hmoves m hmotion
            obtain rfl : more = [] := hnext.eq_nil (by rw [hmoved]; nofun)
            rw [yields_singleton, hmoved] at hnext
            obtain ⟨rfl, rfl⟩ := Command.move.inj hnext
            rw [hcount.max_getD, yields_singleton]
            cases hcounted : countDigit count argument with
            | none =>
              rw [hyanks m hcounted hmotion]
              refine ⟨fun h => ⟨.argument count key argument keyPrefix hopening hcounted (by rw [hmotion]; rfl),
                (Command.yankMotion.inj h.2).2.1.symm⟩, fun h => ⟨rfl, by rw [h.2]⟩⟩
            | some digit =>
              -- The operator counts the digit that the motion takes as its argument.
              rw [feed_digit_yanking hcounted]
              refine iff_of_false (fun h => nomatch h.2) fun hdirect => ?_
              rcases hnodigit _ hdirect.1 with ⟨h, -⟩ | ⟨argument', keyPrefix', h, -, hargument, -⟩
              · cases h
              · obtain ⟨rfl, -⟩ := cons.inj h
                rw [hcounted] at hargument
                cases hargument
      | escape hescape =>
        subst hescape
        cases hsome : count.isSome with
        | false =>
          obtain rfl := Option.not_isSome_iff_eq_none.mp (by simpa using hsome)
          have hbell : ((idle none .none).feed .escape).2 = .bell := rfl
          obtain rfl : rest = [] := h.eq_nil (by rw [hbell]; nofun)
          cases h
        | true =>
          have hrest : rest ≠ [] := h.ne_nil (by rw [feed_escape_idle hsome]) nofun
          have hafter := ((yields_cons hrest).mp h).2
          rw [feed_escape_idle hsome] at hafter
          refine iff_of_false (fun hyields => ?_) fun hdirect => not_direct_escape hdirect.1
          have hafter' := ((yields_cons hrest).mp hyields).2
          exact hmove _ _ _ _ _ _ _ hafter hafter'
      | differs hm hopening hnone hother =>
        refine iff_of_false (fun hyields => ?_) fun hdirect => ?_
        · obtain rfl := hyields.eq_nil hnone
          rw [yields_singleton] at hyields
          exact hother _ _ _ hyields
        · rcases hnodigit _ hdirect.1 with ⟨-, h⟩ | ⟨_, _, -, h, -⟩
          · rw [hm] at h
            cases h
          · rw [hopening] at h
            cases h
      | stops hnone hother =>
        obtain rfl := h.eq_nil hnone
        rw [yields_singleton] at h
        exact absurd h (hother _ _)

/-! ## A count before the operator -/

variable (digits : List Char)

def decimal : Nat := digits.foldl (fun n d => n * 10 + (d.toNat - 48)) 0

/-- The digits of a count: the first one is not zero. -/
def CountDigits : Prop := (∀ d ∈ digits, d.isDigit = true) ∧ digits.head? ≠ some '0'

def givenCount : Nat := if digits = [] then 1 else decimal digits

theorem commands_digits {digits : List Char} (hdigits : ∀ d ∈ digits, d.isDigit = true)
    (hhead : count = none → digits.head? ≠ some '0') (keys : List Key) :
    ∃ count', (idle count .none).commands (digits.map Key.char ++ keys) =
        replicate digits.length .none ++ (idle count' .none).commands keys ∧
      (digits = [] → count' = count) ∧
      (digits ≠ [] → ∀ value, count.getD 0 = min value maxCount → count' =
        some (min (digits.foldl (fun n d => n * 10 + (d.toNat - 48)) value) maxCount)) := by
  induction digits generalizing count with
  | nil => exact ⟨count, rfl, fun _ => rfl, fun h => absurd rfl h⟩
  | cons d rest ih =>
    have hd := hdigits d mem_cons_self
    have hdigit : countDigit count (.char d) = some (d.toNat - 48) := by
      rw [countDigit, if_pos]
      refine ⟨hd, ?_⟩
      cases hcount : count with
      | none => exact .inl fun h => hhead hcount (by rw [h]; rfl)
      | some n => exact .inr rfl
    have hfeed := feed_digit_idle hdigit
    have hnone : some (pushDigit count (d.toNat - 48)) = none → rest.head? ≠ some '0' := nofun
    obtain ⟨count', hcommands, hnil, hcons⟩ := ih (fun x hx => hdigits x (mem_cons_of_mem _ hx)) hnone
    refine ⟨count', ?_, nofun, fun _ value hvalue => ?_⟩
    · rw [map_cons, cons_append, commands, hfeed, hcommands, length_cons, replicate_succ, cons_append]
    · have hpush : pushDigit count (d.toNat - 48) = min (value * 10 + (d.toNat - 48)) maxCount := by
        rw [pushDigit]
        omega
      by_cases hrest : rest = []
      · subst hrest
        rw [hnil rfl, hpush]
        rfl
      · exact hcons hrest _ (by rw [Option.getD_some, hpush])

theorem decimal_pos {digits : List Char} (h : CountDigits digits) (hne : digits ≠ []) : 1 ≤ decimal digits := by
  obtain ⟨d, rest, rfl⟩ := exists_cons_of_ne_nil hne
  have hgrow : ∀ (digits : List Char) (n : Nat), 1 ≤ n →
      1 ≤ digits.foldl (fun n d => n * 10 + (d.toNat - 48)) n := by
    intro digits
    induction digits with
    | nil => exact fun n hn => hn
    | cons d rest ih =>
      intro n hn
      refine ih _ ?_
      show 1 ≤ n * 10 + (d.toNat - 48)
      omega
  refine hgrow rest _ ?_
  have hdigit := h.1 d mem_cons_self
  have hzero : d ≠ '0' := fun heq => h.2 (by rw [heq]; rfl)
  have hge : 48 ≤ d.toNat ∧ d.toNat ≤ 57 := by
    simpa [Char.isDigit, UInt32.le_iff_toNat_le] using hdigit
  have h48 : d.toNat ≠ 48 := fun h => hzero (Char.toNat_inj.mp h)
  show 1 ≤ 0 * 10 + (d.toNat - 48)
  omega

theorem feed_move_pos {motion : Motion} {n : Nat} (h : (parser.feed key).2 = .move motion n) : 1 ≤ n := by
  have htake : ∀ parser : Parser, 1 ≤ parser.takeCount := fun parser => le_max_right _ _
  unfold feed at h
  split at h
  · unfold escape at h
    split at h
    · cases h
    · split at h
      · cases h
      · cases h
  · split at h
    · unfold feedRegister at h
      split at h
      all_goals cases h
    · split at h
      · unfold feedOperator at h
        split at h
        · cases h
        · split at h
          · cases h
          · split at h
            · split at h
              all_goals cases h
            · split at h
              · split at h
                all_goals cases h
              · split at h
                all_goals first
                  | cases h
                  | split at h
                    all_goals cases h
      · split at h
        · unfold feedPrefix at h
          dsimp only at h
          split at h
          · split at h
            all_goals cases h
          · split at h
            · cases h
            · split at h
              · cases h
              · cases h
                exact htake _
        · split at h
          · unfold feedVisual at h
            split at h
            · cases h
            · split at h
              all_goals first
                | cases h
                | split at h
                  all_goals cases h
          · unfold feedNormal at h
            split at h
            · cases h
            · split at h
              all_goals first
                | cases h
                | split at h
                  · cases h
                    exact htake _
                  · cases h

theorem yields_move_pos {motion : Motion} {n : Nat} (h : parser.Yields keys (.move motion n)) : 1 ≤ n := by
  induction keys generalizing parser with
  | nil => exact absurd h not_yields_nil
  | cons key rest ih =>
    by_cases hrest : rest = []
    · subst hrest
      exact feed_move_pos (yields_singleton.mp h)
    · exact ih ((yields_cons hrest).mp h).2

/-- **A yank operator and the keys of a motion yank by that motion, with the product of both counts,
exactly when the keys are direct and the product is within the greatest count.** -/
theorem yank_agrees_iff {given : List Char} (hgiven : CountDigits given) {motion : Motion} {n : Nat}
    (h : default.Yields keys (.move motion n)) : default.Yields (given.map Key.char ++ .char 'y' :: keys)
        (.yankMotion motion (givenCount given * n) none) ↔
      Direct none keys ∧ givenCount given * n ≤ maxCount := by
  obtain ⟨count, hcommands, hnil, hcons⟩ :=
    @commands_digits none given hgiven.1 (fun _ => hgiven.2) (.char 'y' :: keys)
  have hyank : (idle count .none).feed (.char 'y') = (yanking (max (count.getD 1) 1) none .none, .none) := by
    cases count with
    | none => rfl
    | some n => rfl
  have hkeys : 0 < keys.length := by
    cases keys with
    | nil => exact absurd h not_yields_nil
    | cons key rest => exact Nat.succ_pos _
  -- The digits and the operator give no command; what follows is read in the operator's mode.
  have hyields : ∀ command, default.Yields (given.map Key.char ++ .char 'y' :: keys) command ↔
      (yanking (max (count.getD 1) 1) none .none).Yields keys command := by
    intro command
    have hlength : (given.map Key.char ++ .char 'y' :: keys).length - 1 =
        given.length + (1 + (keys.length - 1)) := by
      rw [length_append, length_map, length_cons]
      omega
    have hstart : default.commands (given.map Key.char ++ .char 'y' :: keys) = replicate given.length .none ++
          .none :: (yanking (max (count.getD 1) 1) none .none).commands keys := by
      refine hcommands.trans ?_
      rw [commands, hyank]
    rw [Yields, Yields, hstart, hlength, replicate_add, append_assoc, append_cancel_left_eq,
      add_comm 1, replicate_succ, cons_append, cons.injEq, eq_self, true_and]
  have hcount : max (count.getD 1) 1 = min (givenCount given) maxCount := by
    have hmax : maxCount = 10000 := rfl
    by_cases hgivenNil : given = []
    · rw [hnil hgivenNil, givenCount, if_pos hgivenNil]
      rfl
    · have hvalue : count = some (min (decimal given) maxCount) := hcons hgivenNil 0 rfl
      have hpos := decimal_pos hgiven hgivenNil
      rw [hvalue, givenCount, if_neg hgivenNil, Option.getD_some]
      omega
  have hpos := yields_move_pos h
  have hnone : Counts none := fun _ h => nomatch h
  have hidle := h
  rw [hyields, yields_iff_direct hnone hidle, hcount]
  refine and_congr_right fun _ => ?_
  rw [multiplyCounts]
  rcases le_total (givenCount given) maxCount with hle | hge
  · rw [min_eq_left hle]
    omega
  · have hproduct := hge.trans (Nat.le_mul_of_pos_right _ hpos)
    rw [min_eq_right hge, min_eq_right (Nat.le_mul_of_pos_right _ hpos)]
    omega

theorem yank_agrees_words : default.Yields (['2'].map Key.char ++ .char 'y' :: [.char '3', .char 'w'])
        (.yankMotion (.word .forwardStart .word) (givenCount ['2'] * 3) none) ↔
      Direct none [.char '3', .char 'w'] ∧ givenCount ['2'] * 3 ≤ maxCount :=
  yank_agrees_iff ⟨forall_mem_singleton.mpr rfl, by decide⟩ (by unfold Yields; decide)

/-- The motion takes the digit as its argument, the operator counts it and goes on waiting. -/
theorem find_digit_differs : default.Yields [.char 'f', .char '3'] (.move (.find .forward false '3') 1) ∧
      ¬ default.Yields [.char 'y', .char 'f', .char '3']
        (.yankMotion (.find .forward false '3') 1 none) ∧
      default.commands [.char 'y', .char 'f', .char '3'] = [.none, .none, .none] := by
  refine ⟨?_, ?_, ?_⟩
  · unfold Yields
    decide
  · unfold Yields
    decide
  · decide

end Parser

end Lector.Review
