import Mathlib.Algebra.BigOperators.Group.List.Basic
import Lector.Control.Delivery

/-! What the control parser holds in every state: no more than its limits allow, and nothing at all after
an error, until it is reset. -/
namespace Lector.Control
open StreamRun List

/-! ## Calls -/

inductive Call
  | push (bytes : Bytes)
  | finish
  | reset
deriving DecidableEq

namespace TmuxControlParser

def call (p : TmuxControlParser) : Call → TmuxControlParser × Except ControlParseError (List ControlEvent)
  | .push bytes => p.push bytes
  | .finish => p.finish
  | .reset => (p.reset, .ok [])

def calls (p : TmuxControlParser) (cs : List Call) : TmuxControlParser := cs.foldl (fun p c => (p.call c).1) p

end TmuxControlParser

/-! ## The invariant -/

/-- The recorded count of a block is that of its lines, and both limits hold. -/
structure PendingCommand.Within (limits : ParserLimits) (pending : PendingCommand) : Prop where
  counted : pending.outputBytes = (pending.output.map List.length).sum
  bytes : pending.outputBytes ≤ limits.maxCommandOutputBytes
  lines : pending.output.length ≤ limits.maxCommandOutputLines

namespace TmuxControlParser

structure Within (limits : ParserLimits) (p : TmuxControlParser) : Prop where
  sameLimits : p.limits = limits
  line : p.line.length ≤ limits.maxLineBytes
  block : ∀ pending, p.pendingCommand = some pending → pending.Within limits

variable {limits : ParserLimits} {p q : TmuxControlParser}

theorem within_withLimits (limits : ParserLimits) : (withLimits limits).Within limits where
  sameLimits := rfl
  line := Nat.zero_le _
  block := fun _ h => nomatch h

theorem Within.poison (h : p.Within limits) : p.poison.Within limits where
  sameLimits := h.sameLimits
  line := Nat.zero_le _
  block := fun _ h => nomatch h

theorem Within.moveTo (h : p.Within limits) (state : ParseState) : { p with state := state }.Within limits :=
  ⟨h.sameLimits, h.line, h.block⟩

theorem Within.clearLine (h : p.Within limits) : { p with line := [] }.Within limits :=
  ⟨h.sameLimits, Nat.zero_le _, h.block⟩

/-! ## Lines and bytes keep it -/

variable {events : List ControlEvent}

section

variable (h : p.Within limits)
include h

theorem Within.processBlockLine {pending : PendingCommand} (open_ : p.pendingCommand = some pending)
    {line : Bytes} (hline : p.processBlockLine pending line = .ok (q, events)) : q.Within limits := by
  have hpending := h.block pending open_
  unfold TmuxControlParser.processBlockLine at hline
  split at hline
  · cases hline
    exact ⟨h.sameLimits, h.line, fun _ hnone => nomatch hnone⟩
  split at hline
  · cases hline
    exact ⟨h.sameLimits, h.line, fun _ hnone => nomatch hnone⟩
  split at hline
  · cases hline
  rename_i hroom
  split at hline
  · cases hline
  rename_i outputBytes hadded
  split at hline
  · cases hline
  rename_i hfits
  cases hline
  rw [checkedAdd, Option.ite_none_right_eq_some, Option.some.injEq] at hadded
  rw [h.sameLimits] at hroom hfits
  refine ⟨h.sameLimits, h.line, fun pending' hpending' => ?_⟩
  cases hpending'
  have hlines := hpending.lines
  refine ⟨?_, not_lt.mp hfits, ?_⟩
  · rw [map_append, sum_append, map_singleton, ← hpending.counted]
    exact hadded.2.symm
  · rw [length_append, length_singleton]
    omega

theorem Within.processRecord (closed : p.pendingCommand = none) {line : Bytes}
    (hline : p.processRecord line = .ok (q, events)) : q.Within limits := by
  obtain ⟨-, hlimits, hkept⟩ := processRecord_frame hline
  refine ⟨hlimits.trans h.sameLimits, hkept ▸ h.line, fun pending hpending => ?_⟩
  unfold TmuxControlParser.processRecord at hline
  split at hline
  · rename_i rest _
    cases htag : parseCommandTag rest with
    | error e =>
      rw [htag] at hline
      cases hline
    | ok tag =>
      rw [htag] at hline
      cases hline
      cases hpending
      exact ⟨rfl, Nat.zero_le _, Nat.zero_le _⟩
  repeat' split at hline
  all_goals try cases hline
  cases hevent : recordEvent line with
  | error e =>
    rw [hevent] at hline
    cases hline
  | ok event =>
    rw [hevent] at hline
    cases hline
    rw [closed] at hpending
    cases hpending

theorem Within.processLine {line : Bytes} (hline : p.processLine line = .ok (q, events)) : q.Within limits := by
  unfold TmuxControlParser.processLine at hline
  split at hline
  · rename_i pending hpending
    exact h.processBlockLine hpending hline
  · rename_i hpending
    exact h.processRecord hpending hline

theorem Within.pushByte {byte : UInt8} (hbyte : p.pushByte byte = .ok (q, events)) : q.Within limits := by
  unfold TmuxControlParser.pushByte at hbyte
  split at hbyte
  · split at hbyte
    · cases hbyte
    split at hbyte
    · cases hbyte
      exact h.moveTo _
    · cases hbyte
      exact h.moveTo _
  · split at hbyte
    · cases hbyte
      exact h.moveTo _
    split at hbyte
    · exact h.clearLine.processLine hbyte
    split at hbyte
    · cases hbyte
    rename_i hroom
    cases hbyte
    refine ⟨h.sameLimits, ?_, h.block⟩
    rw [h.sameLimits] at hroom
    have hline := h.line
    rw [length_append, length_singleton]
    omega
  · split at hbyte
    · cases hbyte
    · cases hbyte
      exact h.moveTo _
  · cases hbyte
  · cases hbyte

theorem Within.push (bytes : Bytes) : (p.push bytes).1.Within limits := by
  by_cases hfailed : p.state = .failed
  · rw [TmuxControlParser.push, if_pos hfailed]
    exact h
  · have hrun : (run TmuxControlParser.pushByte p bytes).state.Within limits :=
      run_invariant (fun _ _ _ _ hp hstep => hp.pushByte hstep) h bytes
    rw [push_eq_run hfailed, settle]
    split
    · exact hrun
    · exact hrun.poison

theorem Within.finish : p.finish.1.Within limits := by
  unfold TmuxControlParser.finish
  split
  · exact h
  · exact h.poison
  · exact h.poison
  · exact h.poison
  · split
    · exact h.poison
    · split <;> exact h.poison

theorem Within.call (c : Call) : (p.call c).1.Within limits := by
  cases c with
  | push bytes => exact h.push bytes
  | finish => exact h.finish
  | reset =>
    have hreset : p.reset = withLimits limits := congrArg withLimits h.sameLimits
    have hnew := within_withLimits limits
    rwa [← hreset] at hnew

theorem Within.calls (cs : List Call) : (p.calls cs).Within limits := by
  induction cs generalizing p with
  | nil => exact h
  | cons c cs ih => exact ih (h.call c)

end

/-! ## After an error -/

theorem push_failed (h : p.state = .failed) (bytes : Bytes) : p.push bytes = (p, .error .parserPoisoned) :=
  if_pos h

theorem push_error {bytes : Bytes} {e : ControlParseError} (h : (p.push bytes).2 = .error e) :
    (p.push bytes).1.state = .failed := by
  by_cases hfailed : p.state = .failed
  · rw [push_failed hfailed]
    exact hfailed
  · rw [push_eq_run hfailed, settle] at h ⊢
    split at h
    · cases h
    · rfl

theorem finish_error {e : ControlParseError} (h : p.finish.2 = .error e) : p.finish.1.state = .failed := by
  unfold finish at h ⊢
  split at h
  · cases h
  · rfl
  · rfl
  · rfl
  · split
    · rfl
    · split <;> rfl

theorem call_error {c : Call} {e : ControlParseError} (h : (p.call c).2 = .error e) :
    (p.call c).1.state = .failed := by
  cases c with
  | push bytes => exact push_error h
  | finish => exact finish_error h
  | reset => cases h

theorem calls_failed (h : p.state = .failed) {cs : List Call} (hcs : Call.reset ∉ cs) :
    (p.calls cs).state = .failed := by
  induction cs generalizing p with
  | nil => exact h
  | cons c cs ih =>
    rw [mem_cons, not_or] at hcs
    refine ih ?_ hcs.2
    cases c with
    | push bytes => exact (congrArg (fun r => r.1.state) (push_failed h bytes)).trans h
    | finish =>
      have hfinish : p.finish = (p.poison, .error .parserPoisoned) := by
        unfold finish
        rw [h]
      exact congrArg (fun r => r.1.state) hfinish
    | reset => exact absurd rfl hcs.1

/-- **The parser holds no more than its limits allow, and an error lasts until the reset**, whatever was pushed
before, in any chunks. After an error every push fails as poisoned and changes nothing. -/
theorem calls_within (limits : ParserLimits) (cs : List Call) : ((withLimits limits).calls cs).Within limits ∧
      ((withLimits limits).calls cs).reset = withLimits limits ∧
      ∀ c e, (((withLimits limits).calls cs).call c).2 = .error e → ∀ more, Call.reset ∉ more → ∀ bytes,
          ((((withLimits limits).calls cs).call c).1.calls more).push bytes =
            ((((withLimits limits).calls cs).call c).1.calls more, .error .parserPoisoned) := by
  have hwithin := (within_withLimits limits).calls cs
  refine ⟨hwithin, congrArg withLimits hwithin.sameLimits, fun c e herror more hmore bytes => ?_⟩
  exact push_failed (calls_failed (call_error herror) hmore) bytes

/-- A bad marker, then a line and a finish: all of it is refused. -/
theorem calls_within_bad_marker :
    ((((withLimits .default).call (.push [0])).1.calls [.push [1, 2], .finish]).push [3]).2 =
      .error .parserPoisoned :=
  congrArg Prod.snd ((calls_within .default []).2.2 (.push [0]) _ rfl [.push [1, 2], .finish] (by decide) [3])

end TmuxControlParser

end Lector.Control
