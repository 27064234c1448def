import Mathlib.Algebra.GroupWithZero.Nat
import Mathlib.Data.List.Induction

/-! How long Lector waits for a burst of output to end (`StabilizationProfile` in `src/app.rs`). The
delay adapts to the gaps seen, and a burst that turns out not to be ordinary takes its raise back.
Times are milliseconds. -/
namespace Lector.Stabilization

def diffDelay : Nat := 30
def maxDiffDelay : Nat := 300
def minAdaptiveDiffDelay : Nat := 8
def maxAdaptiveDiffDelay : Nat := 60
def adaptiveDiffMargin : Nat := 4
def adaptiveDiffDecay : Nat := 2
def adaptiveDiffCleanBursts : Nat := 3
def lateContinuationWindowMs : Nat := 100
def semanticInputRepaintSettleMs : Nat := 120

/-- `saturating_add` of a machine type whose greatest value is `top`. -/
def saturatingAdd (top a b : Nat) : Nat := min (a + b) top

def u8Max : Nat := 2 ^ 8 - 1
def u16Max : Nat := 2 ^ 16 - 1
def u128Max : Nat := 2 ^ 128 - 1

structure StabilizationProfile where
  delayMs : Nat
  learnedFloorMs : Nat
  maximumGapMs : Nat
  cleanBursts : Nat
  burstAdaptiveQuietTrainable : Bool
  lateRaiseCheckpoint : Option (Nat × Nat)
  burstFirstOutputMs : Option Nat
  burstLastOutputMs : Option Nat
  lastOrdinaryFinalizedMs : Option Nat
  lastOrdinaryOutputMs : Option Nat
deriving DecidableEq

structure StabilizationBurst where
  firstOutputMs : Nat
  lastOutputMs : Nat
  delayMs : Nat
deriving DecidableEq

namespace StabilizationProfile

def default : StabilizationProfile where
  delayMs := diffDelay
  learnedFloorMs := minAdaptiveDiffDelay
  maximumGapMs := 0
  cleanBursts := 0
  burstAdaptiveQuietTrainable := true
  lateRaiseCheckpoint := none
  burstFirstOutputMs := none
  burstLastOutputMs := none
  lastOrdinaryFinalizedMs := none
  lastOrdinaryOutputMs := none

/-! ## Observing output -/

variable (p : StabilizationProfile)

def noteTrainable (adaptiveQuietTrainable : Bool) : StabilizationProfile :=
  if p.burstFirstOutputMs.isNone then
    { p with burstAdaptiveQuietTrainable := adaptiveQuietTrainable }
  else
    { p with
      burstAdaptiveQuietTrainable := p.burstAdaptiveQuietTrainable && adaptiveQuietTrainable }

def continuesLate (nowMs finalized : Nat) (lastInputMs : Option Nat) : Bool :=
  decide (nowMs > finalized) && decide (nowMs - finalized ≤ lateContinuationWindowMs) &&
    lastInputMs.all (fun input => decide (input < finalized)) && p.burstAdaptiveQuietTrainable

def raiseLate (raised : Nat) : StabilizationProfile :=
  { p with
    lateRaiseCheckpoint := some (p.lateRaiseCheckpoint.getD (p.delayMs, p.learnedFloorMs))
    delayMs := max p.delayMs raised
    learnedFloorMs := max p.learnedFloorMs raised
    cleanBursts := 0
    lastOrdinaryFinalizedMs := none
    lastOrdinaryOutputMs := none }

variable (nowMs : Nat)

def noteLateContinuation (lastInputMs : Option Nat) : StabilizationProfile :=
  match p.lastOrdinaryFinalizedMs, p.lastOrdinaryOutputMs with
  | some finalized, some previousOutput =>
    if p.continuesLate nowMs finalized lastInputMs then
      p.raiseLate (min (saturatingAdd u128Max (nowMs - previousOutput) adaptiveDiffMargin)
        maxAdaptiveDiffDelay)
    else p
  | _, _ => p

def noteGap : StabilizationProfile :=
  match p.burstLastOutputMs with
  | some previous => { p with maximumGapMs := max p.maximumGapMs (min (nowMs - previous) maxAdaptiveDiffDelay) }
  | none => p

def extendBurst : StabilizationProfile :=
  { p with
    burstFirstOutputMs := some (p.burstFirstOutputMs.getD nowMs)
    burstLastOutputMs := some nowMs }

def observeOutput (lastInputMs : Option Nat)
    (adaptiveQuietTrainable : Bool) : StabilizationProfile :=
  (((p.noteTrainable adaptiveQuietTrainable).noteLateContinuation nowMs lastInputMs).noteGap
    nowMs).extendBurst nowMs

/-! ## Ending a burst -/

def observedTarget : Nat :=
  max minAdaptiveDiffDelay
    (min (saturatingAdd u16Max p.maximumGapMs adaptiveDiffMargin) maxAdaptiveDiffDelay)

/-- Every third clean burst the delay decays, down to the floor that was learned. -/
def decay (observedTarget : Nat) : StabilizationProfile :=
  if p.cleanBursts ≥ adaptiveDiffCleanBursts then
    let floor := if observedTarget < p.learnedFloorMs then max (p.learnedFloorMs - 1) observedTarget
      else p.learnedFloorMs
    { p with
      learnedFloorMs := floor
      delayMs := max (p.delayMs - adaptiveDiffDecay) floor
      cleanBursts := 0 }
  else p

def learn (nowMs lastOutputMs : Nat) : StabilizationProfile :=
  let counted := { p with
    learnedFloorMs := max p.learnedFloorMs p.observedTarget
    cleanBursts := saturatingAdd u8Max p.cleanBursts 1 }
  { counted.decay p.observedTarget with
    lastOrdinaryFinalizedMs := some nowMs
    lastOrdinaryOutputMs := some lastOutputMs
    lateRaiseCheckpoint := none }

/-- `if let Some((delay_ms, learned_floor_ms)) = self.late_raise_checkpoint.take()`. -/
def takeBackRaise : StabilizationProfile :=
  match p.lateRaiseCheckpoint with
  | some (delayMs, learnedFloorMs) =>
    { p with delayMs := delayMs, learnedFloorMs := learnedFloorMs, lateRaiseCheckpoint := none }
  | none => p

def forget : StabilizationProfile :=
  { p.takeBackRaise with
    cleanBursts := 0
    lastOrdinaryFinalizedMs := none
    lastOrdinaryOutputMs := none }

def closeBurst : StabilizationProfile :=
  { p with
    maximumGapMs := 0
    burstAdaptiveQuietTrainable := true
    burstFirstOutputMs := none
    burstLastOutputMs := none }

def finishBurst (nowMs lastOutputMs : Nat) (ordinary : Bool) : StabilizationProfile :=
  if ordinary && p.burstAdaptiveQuietTrainable then (p.learn nowMs lastOutputMs).closeBurst
  else p.forget.closeBurst

def rebaseBurstDeadline : StabilizationProfile :=
  { p with burstFirstOutputMs := some nowMs, burstLastOutputMs := some nowMs }

def cancelBurstContext : StabilizationProfile := p.forget.closeBurst

def resetContext (_ : StabilizationProfile) : StabilizationProfile := default

def burst : Option StabilizationBurst :=
  p.burstLastOutputMs.map fun lastOutputMs =>
    { firstOutputMs := p.burstFirstOutputMs.getD lastOutputMs
      lastOutputMs := lastOutputMs
      delayMs := if p.burstAdaptiveQuietTrainable then p.delayMs else max p.delayMs diffDelay }

end StabilizationProfile

/-! ## Runs -/

inductive ProfileCall
  | observeOutput (nowMs : Nat) (lastInputMs : Option Nat) (adaptiveQuietTrainable : Bool)
  | finishBurst (nowMs lastOutputMs : Nat) (ordinary : Bool)
  | rebaseBurstDeadline (nowMs : Nat)
  | cancelBurstContext
  | resetContext
deriving DecidableEq

namespace ProfileCall

def apply (p : StabilizationProfile) : ProfileCall → StabilizationProfile
  | observeOutput nowMs lastInputMs trainable => p.observeOutput nowMs lastInputMs trainable
  | finishBurst nowMs lastOutputMs ordinary => p.finishBurst nowMs lastOutputMs ordinary
  | rebaseBurstDeadline nowMs => p.rebaseBurstDeadline nowMs
  | cancelBurstContext => p.cancelBurstContext
  | resetContext => p.resetContext

def staysInBurst : ProfileCall → Bool
  | observeOutput .. | rebaseBurstDeadline _ => true
  | _ => false

end ProfileCall

namespace StabilizationProfile

variable (p : StabilizationProfile)

def run (calls : List ProfileCall) : StabilizationProfile :=
  calls.foldl ProfileCall.apply p

@[simp] theorem run_nil : p.run [] = p := rfl

@[simp] theorem run_append (calls more : List ProfileCall) :
    p.run (calls ++ more) = (p.run calls).run more := List.foldl_append

@[simp] theorem run_cons (call : ProfileCall) (calls : List ProfileCall) :
    p.run (call :: calls) = (call.apply p).run calls := rfl

def learned : Nat × Nat := (p.delayMs, p.learnedFloorMs)

def origin : Nat × Nat := p.lateRaiseCheckpoint.getD p.learned

/-! ## The origin of a burst -/

section Origin
variable (p : StabilizationProfile)

@[simp] theorem noteTrainable_learned (trainable : Bool) : (p.noteTrainable trainable).learned = p.learned := by
  rw [noteTrainable]
  split <;> rfl

@[simp] theorem noteTrainable_origin (trainable : Bool) : (p.noteTrainable trainable).origin = p.origin := by
  rw [noteTrainable]
  split <;> rfl

section

variable (nowMs : Nat)
include nowMs

@[simp] theorem noteGap_learned : (p.noteGap nowMs).learned = p.learned := by
  rw [noteGap]
  split <;> rfl

@[simp] theorem noteGap_origin : (p.noteGap nowMs).origin = p.origin := by
  rw [noteGap]
  split <;> rfl

@[simp] theorem extendBurst_learned : (p.extendBurst nowMs).learned = p.learned := rfl

@[simp] theorem extendBurst_origin : (p.extendBurst nowMs).origin = p.origin := rfl

variable (lastInputMs : Option Nat)

theorem noteLateContinuation_cases : p.noteLateContinuation nowMs lastInputMs = p ∨
      ∃ raised ≤ maxAdaptiveDiffDelay, p.noteLateContinuation nowMs lastInputMs = p.raiseLate raised := by
  rw [noteLateContinuation]
  split
  · split
    · exact .inr ⟨_, Nat.min_le_right _ _, rfl⟩
    · exact .inl rfl
  · exact .inl rfl

@[simp] theorem noteLateContinuation_origin : (p.noteLateContinuation nowMs lastInputMs).origin = p.origin := by
  rcases p.noteLateContinuation_cases nowMs lastInputMs with hsame | ⟨raised, -, hraised⟩
  · rw [hsame]
  · rw [hraised]
    rfl

@[simp] theorem observeOutput_origin (trainable : Bool) :
    (p.observeOutput nowMs lastInputMs trainable).origin = p.origin := by
  simp [observeOutput]

end

theorem takeBackRaise_learned : p.takeBackRaise.learned = p.origin := by
  rw [takeBackRaise]
  split
  · rename_i hcheckpoint
    simp [origin, hcheckpoint, learned]
  · rename_i hcheckpoint
    simp [origin, hcheckpoint]

@[simp] theorem takeBackRaise_checkpoint : p.takeBackRaise.lateRaiseCheckpoint = none := by
  rw [takeBackRaise]
  split
  · rfl
  · assumption

theorem forget_learned : p.forget.learned = p.origin := p.takeBackRaise_learned

@[simp] theorem forget_checkpoint : p.forget.lateRaiseCheckpoint = none := p.takeBackRaise_checkpoint

end Origin

/-! ## Bounds -/

def Adaptive (ms : Nat) : Prop := minAdaptiveDiffDelay ≤ ms ∧ ms ≤ maxAdaptiveDiffDelay

def BothAdaptive (values : Nat × Nat) : Prop := Adaptive values.1 ∧ Adaptive values.2

theorem Adaptive.max {a b : Nat} (ha : Adaptive a) (hb : b ≤ maxAdaptiveDiffDelay) : Adaptive (max a b) := by
  obtain ⟨hmin, hmax⟩ := ha
  exact ⟨by omega, by omega⟩

theorem observedTarget_adaptive : Adaptive p.observedTarget :=
  ⟨Nat.le_max_left _ _, Nat.max_le.mpr ⟨by decide, Nat.min_le_right _ _⟩⟩

/-- The values are within the bounds, and only an open burst can go back. -/
structure Sound (p : StabilizationProfile) : Prop where
  learned : BothAdaptive p.learned
  origin : BothAdaptive p.origin
  closed : p.burstFirstOutputMs = none → p.lateRaiseCheckpoint = none

theorem default_sound : default.Sound where
  learned := ⟨⟨by decide, by decide⟩, by decide, by decide⟩
  origin := ⟨⟨by decide, by decide⟩, by decide, by decide⟩
  closed _ := rfl

variable {p : StabilizationProfile}

theorem Sound.origin_eq (h : p.Sound) (hclosed : p.burstFirstOutputMs = none) : p.origin = p.learned := by
  rw [StabilizationProfile.origin, h.closed hclosed, Option.getD_none]

theorem Sound.observeOutput (h : p.Sound) (nowMs : Nat) (lastInputMs : Option Nat)
    (trainable : Bool) : (p.observeOutput nowMs lastInputMs trainable).Sound where
  learned := by
    simp only [StabilizationProfile.observeOutput, extendBurst_learned, noteGap_learned]
    have hnoted : BothAdaptive (p.noteTrainable trainable).learned := by simpa using h.learned
    rcases (p.noteTrainable trainable).noteLateContinuation_cases nowMs lastInputMs with
      hsame | ⟨raised, hraised, hraise⟩
    · rwa [hsame]
    · rw [hraise]
      exact ⟨hnoted.1.max hraised, hnoted.2.max hraised⟩
  origin := by
    rw [observeOutput_origin]
    exact h.origin
  closed hopen := by simp [StabilizationProfile.observeOutput, extendBurst] at hopen

theorem Sound.rebaseBurstDeadline (h : p.Sound) (nowMs : Nat) : (p.rebaseBurstDeadline nowMs).Sound where
  learned := h.learned
  origin := h.origin
  closed hopen := by simp [StabilizationProfile.rebaseBurstDeadline] at hopen

theorem closeBurst_sound (hlearned : BothAdaptive p.learned)
    (hcheckpoint : p.lateRaiseCheckpoint = none) : p.closeBurst.Sound where
  learned := hlearned
  origin := by
    have hcheckpoint' : p.closeBurst.lateRaiseCheckpoint = none := hcheckpoint
    rwa [StabilizationProfile.origin, hcheckpoint', Option.getD_none]
  closed _ := hcheckpoint

theorem decay_learned (h : BothAdaptive p.learned) {target : Nat} (htarget : Adaptive target) :
    BothAdaptive (p.decay target).learned := by
  obtain ⟨hdelay, hfloor⟩ := h
  have hlowered : Adaptive (if target < p.learnedFloorMs then max (p.learnedFloorMs - 1) target
      else p.learnedFloorMs) := by
    split
    · rw [Nat.max_comm]
      exact htarget.max (Nat.le_trans (Nat.sub_le _ _) hfloor.2)
    · exact hfloor
  rw [decay]
  split
  · refine ⟨?_, hlowered⟩
    simp only [Nat.max_comm (p.delayMs - adaptiveDiffDecay)]
    exact hlowered.max (Nat.le_trans (Nat.sub_le _ _) hdelay.2)
  · exact ⟨hdelay, hfloor⟩

theorem learn_learned (h : BothAdaptive p.learned) (nowMs lastOutputMs : Nat) :
    BothAdaptive (p.learn nowMs lastOutputMs).learned := by
  have hraised := h.2.max p.observedTarget_adaptive.2
  exact decay_learned (p := { p with
    learnedFloorMs := max p.learnedFloorMs p.observedTarget
    cleanBursts := saturatingAdd u8Max p.cleanBursts 1 }) ⟨h.1, hraised⟩ p.observedTarget_adaptive

theorem Sound.finishBurst (h : p.Sound) (nowMs lastOutputMs : Nat) (ordinary : Bool) :
    (p.finishBurst nowMs lastOutputMs ordinary).Sound := by
  rw [StabilizationProfile.finishBurst]
  split
  · exact closeBurst_sound (learn_learned h.learned nowMs lastOutputMs) rfl
  · exact closeBurst_sound (p.forget_learned ▸ h.origin) p.forget_checkpoint

theorem Sound.cancelBurstContext (h : p.Sound) : p.cancelBurstContext.Sound :=
  closeBurst_sound (p.forget_learned ▸ h.origin) p.forget_checkpoint

theorem Sound.apply (h : p.Sound) (call : ProfileCall) : (call.apply p).Sound := by
  cases call with
  | observeOutput nowMs lastInputMs trainable => exact h.observeOutput nowMs lastInputMs trainable
  | finishBurst nowMs lastOutputMs ordinary => exact h.finishBurst nowMs lastOutputMs ordinary
  | rebaseBurstDeadline nowMs => exact h.rebaseBurstDeadline nowMs
  | cancelBurstContext => exact h.cancelBurstContext
  | resetContext => exact default_sound

theorem Sound.run (h : p.Sound) (calls : List ProfileCall) : (p.run calls).Sound := by
  induction calls generalizing p with
  | nil => exact h
  | cons call calls ih => exact ih (h.apply call)

theorem run_origin {calls : List ProfileCall} (hstays : ∀ call ∈ calls, call.staysInBurst) :
    (p.run calls).origin = p.origin := by
  induction calls generalizing p with
  | nil => rfl
  | cons call calls ih =>
    obtain ⟨hcall, hcalls⟩ := List.forall_mem_cons.mp hstays
    rw [run_cons, ih hcalls]
    cases call with
    | observeOutput nowMs lastInputMs trainable => exact p.observeOutput_origin nowMs lastInputMs trainable
    | rebaseBurstDeadline nowMs => rfl
    | _ => simp [ProfileCall.staysInBurst] at hcall

theorem apply_closed {call : ProfileCall} (hends : ¬ call.staysInBurst) :
    (call.apply p).burstFirstOutputMs = none := by
  cases call with
  | finishBurst nowMs lastOutputMs ordinary =>
    simp only [ProfileCall.apply, StabilizationProfile.finishBurst]
    split <;> rfl
  | cancelBurstContext => rfl
  | resetContext => rfl
  | _ => simp [ProfileCall.staysInBurst] at hends

theorem exists_burst (hclosed : p.burstFirstOutputMs = none) (calls : List ProfileCall) :
    ∃ before burst, calls = before ++ burst ∧ (p.run before).burstFirstOutputMs = none ∧
      ∀ call ∈ burst, call.staysInBurst := by
  induction calls using List.reverseRecOn with
  | nil => exact ⟨[], [], rfl, hclosed, by simp⟩
  | append_singleton calls call ih =>
    obtain ⟨before, burst, rfl, hbefore, hburst⟩ := ih
    by_cases hstays : call.staysInBurst
    · refine ⟨before, burst ++ [call], by simp, hbefore, fun other hother => ?_⟩
      rcases List.mem_append.mp hother with hother | hother
      · exact hburst other hother
      · rwa [List.mem_singleton.mp hother]
    · refine ⟨before ++ burst ++ [call], [], by simp, ?_, by simp⟩
      rw [run_append]
      exact apply_closed hstays

/-- The delay of the burst that a decision is about is bounded as well. -/
theorem run_burst_adaptive {calls : List ProfileCall} {current : StabilizationBurst}
    (h : (default.run calls).burst = some current) : Adaptive current.delayMs := by
  obtain ⟨hdelay, -⟩ := (default_sound.run calls).learned
  rw [burst, Option.map_eq_some_iff] at h
  obtain ⟨_, -, rfl⟩ := h
  dsimp only
  split
  · exact hdelay
  · exact hdelay.max (by decide)

/-- **The adaptive delay is bounded and can be rolled back.** When the last burst is cancelled, or finished
without being ordinary and trainable throughout, the delay and the learned floor are what they were before its
first call. -/
theorem run_bounded_and_rolled_back (calls : List ProfileCall) :
    (Adaptive (default.run calls).delayMs ∧ Adaptive (default.run calls).learnedFloorMs) ∧
      (∃ before burst, calls = before ++ burst ∧
        (default.run before).burstFirstOutputMs = none ∧ ∀ call ∈ burst, call.staysInBurst) ∧
      ∀ before burst, calls = before ++ burst → (default.run before).burstFirstOutputMs = none →
        (∀ call ∈ burst, call.staysInBurst) →
        (default.run calls).cancelBurstContext.learned = (default.run before).learned ∧
        ∀ nowMs lastOutputMs ordinary, (ordinary && (default.run calls).burstAdaptiveQuietTrainable) = false →
          ((default.run calls).finishBurst nowMs lastOutputMs ordinary).learned =
            (default.run before).learned := by
  refine ⟨(default_sound.run calls).learned, exists_burst rfl calls, ?_⟩
  rintro before burst rfl hclosed hburst
  have horigin : (default.run (before ++ burst)).forget.learned = (default.run before).learned := by
    rw [forget_learned, run_append, run_origin hburst]
    exact (default_sound.run before).origin_eq hclosed
  refine ⟨horigin, fun nowMs lastOutputMs ordinary hplain => ?_⟩
  rw [StabilizationProfile.finishBurst, hplain]
  exact horigin

end StabilizationProfile

/-! ## The decision at a moment -/

structure PresentedUpdateStatus where
  explicitlyStable : Bool
  completesLinearOutputRecord : Bool
  promptTransactionOpen : Bool
  parserContinuation : Bool
  structuralSemanticInputRepaint : Bool
deriving DecidableEq

inductive StabilizationCommitReason
  | explicitlyStable
  | linearOutputRecord
  | quietWindow
  | hardDeadline
deriving DecidableEq

inductive StabilizationDecision
  | blockedByApplicationTransaction
  | waitUntil (deadlineMs : Nat)
  | commit (reason : StabilizationCommitReason)
deriving DecidableEq

namespace StabilizationBurst

variable (burst : StabilizationBurst)

def hardDeadline : Nat := saturatingAdd u128Max burst.firstOutputMs maxDiffDelay

def semanticRepaintDeadline : Nat :=
  min (saturatingAdd u128Max burst.firstOutputMs semanticInputRepaintSettleMs) burst.hardDeadline

def quietDeadline : Nat := saturatingAdd u128Max burst.lastOutputMs burst.delayMs

end StabilizationBurst

def stabilizationDecision (nowMs : Nat) (burst : StabilizationBurst)
    (update : PresentedUpdateStatus) (applicationTransactionOpen : Bool) : StabilizationDecision :=
  if applicationTransactionOpen then .blockedByApplicationTransaction
  else if update.promptTransactionOpen && decide (nowMs < burst.hardDeadline) then
    .waitUntil burst.hardDeadline
  else if update.structuralSemanticInputRepaint && decide (nowMs < burst.semanticRepaintDeadline) then
    .waitUntil burst.semanticRepaintDeadline
  else if update.explicitlyStable then .commit .explicitlyStable
  else if update.completesLinearOutputRecord then .commit .linearOutputRecord
  else if update.parserContinuation then
    if nowMs ≥ burst.hardDeadline then .commit .hardDeadline else .waitUntil burst.hardDeadline
  else if nowMs ≥ burst.quietDeadline then .commit .quietWindow
  else if nowMs ≥ burst.hardDeadline then .commit .hardDeadline
  else .waitUntil (min burst.quietDeadline burst.hardDeadline)

theorem stabilizationDecision_waitUntil {nowMs deadlineMs : Nat} {burst : StabilizationBurst}
    {update : PresentedUpdateStatus} {applicationTransactionOpen : Bool}
    (h : stabilizationDecision nowMs burst update applicationTransactionOpen =
      .waitUntil deadlineMs) : nowMs < deadlineMs ∧ deadlineMs ≤ burst.hardDeadline := by
  have hrepaint : burst.semanticRepaintDeadline ≤ burst.hardDeadline := Nat.min_le_right _ _
  unfold stabilizationDecision at h
  split_ifs at h with _ hprompt hrow _ _ _ hhard hquiet hhard <;>
    simp only [StabilizationDecision.waitUntil.injEq] at h <;> subst h
  · simp only [Bool.and_eq_true, decide_eq_true_eq] at hprompt
    exact ⟨hprompt.2, Nat.le_refl _⟩
  · simp only [Bool.and_eq_true, decide_eq_true_eq] at hrow
    exact ⟨hrow.2, hrepaint⟩
  · exact ⟨Nat.lt_of_not_ge hhard, Nat.le_refl _⟩
  · exact ⟨by omega, Nat.min_le_right _ _⟩

end Lector.Stabilization
