import Lector.Control.Delivery
import Lector.Gateway.Steps

/-! Whole runs of a router: the calls its transport makes, and what holds of every router that a
fresh one reaches. -/
namespace Lector.Gateway
open Bytes Control TmuxControlParser

/-! ## Calls -/

inductive Op
  | push (bytes : Bytes)
  | finishDirect
  | finishTransport
  | expireTermination

def Op.run (r : TmuxGatewayRouter) : Op → TmuxGatewayRouter × List GatewayEvent
  | .push bytes =>
    match r.push bytes with
    | (r', .ok events) => (r', events)
    | (r', .error _) => (r', [])
  | .finishDirect => (r.finishDirect.1, [])
  | .finishTransport => r.finishTransport
  | .expireTermination => r.expireTermination

def runOps (r : TmuxGatewayRouter) : List Op → TmuxGatewayRouter × List GatewayEvent
  | [] => (r, [])
  | op :: ops =>
    let rest := runOps (op.run r).1 ops
    (rest.1, (op.run r).2 ++ rest.2)

theorem runOps_append (r : TmuxGatewayRouter) (ops later : List Op) : runOps r (ops ++ later) =
      ((runOps (runOps r ops).1 later).1, (runOps r ops).2 ++ (runOps (runOps r ops).1 later).2) := by
  induction ops generalizing r with
  | nil => rfl
  | cons op ops ih =>
    rw [List.cons_append, runOps, runOps, ih]
    simp only [List.append_assoc]

theorem runOps_single (r : TmuxGatewayRouter) (op : Op) : runOps r [op] = op.run r := by
  simp [runOps]

theorem runOps_induction {P : TmuxGatewayRouter → Prop} (hop : ∀ r op, P r → P (Op.run r op).1)
    {r : TmuxGatewayRouter} (hr : P r) (ops : List Op) : P (runOps r ops).1 := by
  induction ops generalizing r with
  | nil => exact hr
  | cons op ops ih => exact ih (hop r op hr)

/-! ## The connection after its exit record -/

/-- A string terminator is awaited only between records, with no block open. -/
structure ActiveControl.Settled (a : ActiveControl) : Prop where
  begun : ∀ n, a.parser.state ≠ .start n
  recovering : a.recovering = true → a.sawExit = false
  escape : a.terminatorEscapeSeen = true → a.sawExit = true ∨ a.recovering = true
  line : a.sawExit = true → a.parser.line = []
  pendingCommand : a.sawExit = true → a.parser.pendingCommand = none
  terminator : a.sawExit = true → a.terminatorEscapeSeen = true → a.parser.state ≠ .records

theorem startedControl_settled (id : UInt64) : (startedControl id).Settled where
  begun := by simp [startedControl]
  recovering := by simp [startedControl]
  escape := by simp [startedControl]
  line := by simp [startedControl]
  pendingCommand := by simp [startedControl]
  terminator := by simp [startedControl]

variable {p q parser : TmuxControlParser} {events : List ControlEvent}

theorem processBlockLine_isExit {pending : PendingCommand} {line : Bytes}
    (h : p.processBlockLine pending line = .ok (q, events)) : events.any isExit = false := by
  unfold processBlockLine at h
  split at h
  · cases h; rfl
  split at h
  · cases h; rfl
  split at h
  · cases h
  split at h
  · cases h
  split at h
  · cases h
  · cases h; rfl

theorem processRecord_isExit {line : Bytes}
    (h : p.processRecord line = .ok (q, events)) (hexit : events.any isExit = true) : q = p := by
  unfold processRecord at h
  split at h
  · rename_i rest _
    cases ht : parseCommandTag rest with
    | error e => rw [ht] at h; cases h
    | ok tag => rw [ht] at h; cases h; simp at hexit
  repeat' split at h
  all_goals try cases h
  cases hr : recordEvent line with
  | error e => rw [hr] at h; cases h
  | ok event => rw [hr] at h; cases h; rfl

variable {byte : UInt8}

section

variable (h : p.pushByte byte = .ok (q, events))
include h

theorem pushByte_isExit (hexit : events.any isExit = true) : q.line = [] ∧ q.pendingCommand = none := by
  unfold TmuxControlParser.pushByte at h
  split at h
  · split at h
    · cases h
    split at h <;> (cases h; simp [isExit] at hexit)
  · split at h
    · cases h; simp at hexit
    split at h
    · unfold processLine at h
      split at h
      · rw [processBlockLine_isExit h] at hexit; cases hexit
      · rename_i hpending
        rw [processRecord_isExit h hexit]
        exact ⟨rfl, hpending⟩
    split at h
    · cases h
    · cases h; simp at hexit
  · split at h
    · cases h
    · cases h; simp [isExit] at hexit
  · cases h
  · cases h

theorem pushByte_begun (hp : ∀ n, p.state ≠ .start n) (n) : q.state ≠ .start n := by
  unfold TmuxControlParser.pushByte at h
  split at h
  · rename_i hs; exact absurd hs (hp _)
  · rename_i hs
    split at h
    · cases h; simp
    split at h
    · rw [(processLine_frame h).1]; simp [hs]
    split at h
    · cases h
    · cases h; simp [hs]
  · split at h
    · cases h
    · cases h; simp
  · cases h
  · cases h

theorem pushByte_settled (hbegun : ∀ n, p.state ≠ .start n)
    (hline : p.line = []) (hpending : p.pendingCommand = none) (hbyte : p.state = .records → byte = esc) :
    q.line = [] ∧ q.pendingCommand = none ∧ q.state ≠ .records := by
  unfold TmuxControlParser.pushByte at h
  split at h
  · rename_i hs; exact absurd hs (hbegun _)
  · rename_i hs
    rw [if_pos (by simp [hline, hpending, hbyte hs])] at h
    cases h
    exact ⟨hline, hpending, by simp⟩
  · split at h
    · cases h
    · cases h; exact ⟨hline, hpending, by simp⟩
  · cases h
  · cases h

end

theorem push_single_ok (h : p.push [byte] = (q, .ok events)) : p.pushByte byte = .ok (q, events) := by
  by_cases hp : p.state = .failed
  · simp [push, hp] at h
  · rw [push_single hp] at h
    cases hb : p.pushByte byte with
    | error e => rw [hb] at h; cases h
    | ok r => rw [hb] at h; cases h; rfl

theorem push_single_error {source : ControlParseError} (h : p.push [byte] = (q, .error source)) :
    q.state = .failed := by
  by_cases hp : p.state = .failed
  · simp only [push, if_pos hp, Prod.mk.injEq] at h
    exact h.1 ▸ hp
  · rw [push_single hp] at h
    cases hb : p.pushByte byte with
    | error e => rw [hb] at h; cases h; rfl
    | ok r => rw [hb] at h; cases h

theorem finish_cases (p : TmuxControlParser) : p.finish.1 = p ∨ p.finish.1 = p.poison := by
  unfold finish
  repeat' split
  all_goals simp

theorem ActiveControl.Settled.accepted {a : ActiveControl} (h : a.Settled)
    (hwait : (a.sawExit && !a.terminatorEscapeSeen && byte != esc) = false) (hlive : a.recovering = false)
    {parsed : List ControlEvent} (hparse : a.parser.push [byte] = (parser, .ok parsed)) :
    (acceptedRecord (recordedByte a byte) parser parsed byte).Settled := by
  have hbyte := push_single_ok hparse
  have hsettled : a.sawExit = true →
      parser.line = [] ∧ parser.pendingCommand = none ∧ parser.state ≠ .records := by
    intro hexit
    refine pushByte_settled hbyte h.begun (h.line hexit) (h.pendingCommand hexit) fun hs => ?_
    have hescape : a.terminatorEscapeSeen = false := by
      cases hseen : a.terminatorEscapeSeen with
      | false => rfl
      | true => exact absurd hs (h.terminator hexit hseen)
    simpa [hexit, hescape] using hwait
  refine ⟨pushByte_begun hbyte h.begun, by simp [acceptedRecord, recordedByte, hlive], ?_, ?_, ?_,
    ?_⟩ <;> simp only [acceptedRecord, recordedByte, Bool.or_eq_true, Bool.and_eq_true]
  · rintro (hseen | ⟨hexit, -⟩)
    · rcases h.escape hseen with hexit | hrec
      · exact .inl (.inl hexit)
      · exact .inr hrec
    · exact .inl (.inl hexit)
  · rintro (hexit | hexit)
    · exact (hsettled hexit).1
    · exact (pushByte_isExit hbyte hexit).1
  · rintro (hexit | hexit)
    · exact (hsettled hexit).2.1
    · exact (pushByte_isExit hbyte hexit).2
  · intro _ hseen
    have hexit : a.sawExit = true := by
      rcases hseen with hseen | ⟨hexit, -⟩
      · simpa [hlive] using h.escape hseen
      · exact hexit
    exact (hsettled hexit).2.2

/-! ## The calls other than `push` -/

namespace TmuxGatewayRouter

variable {r : TmuxGatewayRouter} {a : ActiveControl}

theorem finishDirect_direct (h : r.active = none) :
    r.finishDirect = (r.withMarkerPrefix .empty, .ok r.markerPrefix.bytes) := by
  obtain ⟨markerPrefix, active, nextConnectionId⟩ := r
  cases h
  rfl

theorem finishDirect_active (h : r.active = some a) :
    r.finishDirect.1 = r ∨ r.finishDirect.1 = r.withActive { a with parser := a.parser.poison } := by
  obtain ⟨markerPrefix, active, nextConnectionId⟩ := r
  cases h
  simp only [finishDirect]
  split
  · exact .inl rfl
  · rcases hfinish : a.parser.finish with ⟨parser, result⟩
    have hparser : parser = a.parser ∨ parser = a.parser.poison := by
      have hcases := finish_cases a.parser
      rwa [hfinish] at hcases
    cases result <;>
      (rcases hparser with rfl | rfl
       · exact .inl rfl
       · exact .inr rfl)

theorem finishTransport_direct (h : r.active = none) : r.finishTransport = (r.withMarkerPrefix .empty,
      if r.markerPrefix.bytes.isEmpty then [] else [.directOutput r.markerPrefix.bytes]) := by
  obtain ⟨markerPrefix, active, nextConnectionId⟩ := r
  cases h
  rfl

theorem finishTransport_active (h : r.active = some a) :
    r.finishTransport = ((r.close a.connectionId).withMarkerPrefix .empty,
      [if a.recovering then .connectionEnded a.connectionId
        else .connectionFailed a.connectionId
          (if a.sawExit then .missingTerminator else .transportEof)]) := by
  simp only [finishTransport, h]
  split <;> rfl

theorem expireTermination_direct (h : r.active = none) : r.expireTermination = (r, []) := by
  simp [expireTermination, h]

theorem expireTermination_active (h : r.active = some a) : r.expireTermination =
      if a.sawExit then (r.close a.connectionId, [.connectionFailed a.connectionId .terminatorTimeout])
      else (r, []) := by
  cases hexit : a.sawExit <;> simp [expireTermination, h, hexit]

end TmuxGatewayRouter

/-! ## Reachable routers -/

namespace TmuxGatewayRouter

/-- What holds of every router that starts with the connection id `first`. -/
structure WellFormed (first : UInt64) (r : TmuxGatewayRouter) : Prop where
  idle : r.active = none → r.nextConnectionId = first
  busy : ∀ a, r.active = some a → a.connectionId = first ∧ checkedSucc first ≠ none
  bare : r.active ≠ none → r.markerPrefix = .empty
  settled : ∀ a, r.active = some a → a.Settled

theorem wellFormed_fresh (first : UInt64) : (withFirstConnectionId first).WellFormed first where
  idle _ := rfl
  busy a h := by cases h
  bare h := absurd rfl h
  settled a h := by cases h

variable {first : UInt64} {r : TmuxGatewayRouter}

section

variable (h : r.WellFormed first)
include h

theorem WellFormed.close {a : ActiveControl} (ha : r.active = some a) :
    (r.close a.connectionId).WellFormed first where
  idle _ := (h.busy a ha).1
  busy a h := by cases h
  bare h := absurd rfl h
  settled a h := by cases h

theorem WellFormed.withActive {a b : ActiveControl}
    (ha : r.active = some a) (hid : b.connectionId = a.connectionId) (hb : b.Settled) :
    (r.withActive b).WellFormed first where
  idle h := by cases h
  busy c hc := by cases hc; exact ⟨hid.trans (h.busy a ha).1, (h.busy a ha).2⟩
  bare _ := h.bare (by simp [ha])
  settled c hc := by cases hc; exact hb

theorem WellFormed.withMarkerPrefix (hactive : r.active = none)
    (m : MarkerPrefix) : (r.withMarkerPrefix m).WellFormed first where
  idle := h.idle
  busy := h.busy
  bare ha := absurd hactive ha
  settled := h.settled

theorem WellFormed.start (hactive : r.active = none) {next : UInt64}
    (hnext : checkedSucc r.nextConnectionId = some next) :
    WellFormed first ⟨.empty, some (startedControl r.nextConnectionId), next⟩ where
  idle h := by cases h
  busy a ha := by
    cases ha
    have hid := h.idle hactive
    exact ⟨hid, by rw [← hid, hnext]; simp⟩
  bare _ := rfl
  settled a ha := by cases ha; exact startedControl_settled _

end

end TmuxGatewayRouter

open TmuxGatewayRouter

theorem quarantined_settled {a : ActiveControl} (hfailed : parser.state = .failed) :
    (quarantined { recordedByte a byte with parser }).Settled where
  begun n := by simp [quarantined, hfailed]
  recovering _ := rfl
  escape h := by cases h
  line h := by cases h
  pendingCommand h := by cases h
  terminator h := by cases h

theorem draining_settled {a : ActiveControl} (h : a.Settled) (hrec : a.recovering = true)
    (seen : Bool) : ActiveControl.Settled { a with terminatorEscapeSeen := seen } where
  begun := h.begun
  recovering := h.recovering
  escape _ := .inr hrec
  line := h.line
  pendingCommand := h.pendingCommand
  terminator hexit := by
    have hno : a.sawExit = false := h.recovering hrec
    simp [hno] at hexit

theorem Step.wellFormed {first : UInt64} {s s' : PushState} {it : Iteration}
    (hstep : Step s byte it) (hit : it = .advance s' ∨ it = .reconsider s')
    (hs : s.router.WellFormed first) : s'.router.WellFormed first := by
  cases hstep <;> rcases hit with hit | hit <;> cases hit
  case drained a hactive _ _ => exact hs.close hactive
  case draining a hactive hrec _ =>
    exact hs.withActive hactive rfl (draining_settled (hs.settled a hactive) hrec _)
  case missing a hactive _ _ => exact hs.close hactive
  case handedBack a hparses _ _ _ _ => exact hs.close hparses.1
  case quarantined a hparses parser source hparse _ =>
    exact hs.withActive hparses.1 rfl (quarantined_settled (push_single_error hparse))
  case parsed a hparses parser parsed hparse _ =>
    exact hs.withActive hparses.1 rfl ((hs.settled a hparses.1).accepted hparses.2.2 hparses.2.1 hparse)
  case ended a hparses _ _ _ _ => exact hs.close hparses.1
  case matched hactive _ longer _ => exact hs.withMarkerPrefix hactive longer
  case started hactive _ _ next hnext => exact hs.start hactive hnext
  case passed => exact hs
  case released hactive _ _ => exact hs.withMarkerPrefix hactive .empty

theorem pushByte_wellFormed {first : UInt64} {s s' : PushState}
    (hs : s.router.WellFormed first) (h : pushByte s byte = .ok s') : s'.router.WellFormed first :=
  pushByte_induction (P := fun s => s.router.WellFormed first)
    (fun _ _ hs hstep => hstep.wellFormed (.inl rfl) hs)
    (fun _ _ hs hstep => hstep.wellFormed (.inr rfl) hs) hs h

theorem pushByte_failure {first : UInt64} {s : PushState} {r : TmuxGatewayRouter}
    {error : GatewayError} (hs : s.router.WellFormed first) (h : pushByte s byte = .error (r, error)) :
    checkedSucc first = none ∧ r.active = none ∧ r.WellFormed first := by
  induction hn : retries s using Nat.strongRecOn generalizing s with
  | _ n ih =>
    cases hit : iteration s byte with
    | advance t => rw [pushByte_advance hit] at h; cases h
    | reconsider t =>
      rw [pushByte_reconsider hit] at h
      exact ih (retries t) (hn ▸ reconsider_retries hit) ((step_iff.mpr hit).wellFormed (.inr rfl) hs) h rfl
    | fail r' error' =>
      rw [pushByte_fail hit] at h
      cases h
      cases step_iff.mpr hit with
      | exhausted hactive _ _ hnext =>
        exact ⟨by rw [← hs.idle hactive, hnext], hactive, hs.withMarkerPrefix hactive .empty⟩

namespace TmuxGatewayRouter

variable {first : UInt64}

theorem pushLoop_wellFormed {s s' : PushState} {bytes : Bytes}
    (hs : s.router.WellFormed first) (h : pushLoop s bytes = .ok s') : s'.router.WellFormed first :=
  pushLoop_induction (P := fun s => s.router.WellFormed first)
    (fun _ _ _ hs hb => pushByte_wellFormed hs hb) hs h

variable {r : TmuxGatewayRouter}

theorem pushLoop_failure {s : PushState} {bytes : Bytes}
    {error : GatewayError} (hs : s.router.WellFormed first) (h : pushLoop s bytes = .error (r, error)) :
    checkedSucc first = none ∧ r.active = none ∧ r.WellFormed first := by
  induction bytes generalizing s with
  | nil => cases h
  | cons byte bytes ih =>
    rw [pushLoop] at h
    cases hb : pushByte s byte with
    | error failure => rw [hb] at h; cases h; exact pushByte_failure hs hb
    | ok t => rw [hb] at h; exact ih (pushByte_wellFormed hs hb) h

theorem pushLoop_total (hfirst : checkedSucc first ≠ none) {s : PushState}
    (hs : s.router.WellFormed first) (bytes : Bytes) : ∃ s', pushLoop s bytes = .ok s' := by
  cases h : pushLoop s bytes with
  | ok s' => exact ⟨s', rfl⟩
  | error failure => exact absurd (pushLoop_failure hs h).1 hfirst

theorem WellFormed.push (h : r.WellFormed first) (bytes : Bytes) : (r.push bytes).1.WellFormed first := by
  unfold TmuxGatewayRouter.push
  cases hloop : pushLoop ⟨r, [], []⟩ bytes with
  | error failure => exact (pushLoop_failure (s := ⟨r, [], []⟩) h hloop).2.2
  | ok s => exact pushLoop_wellFormed (s := ⟨r, [], []⟩) h hloop

theorem run_push_router (r : TmuxGatewayRouter) (bytes : Bytes) :
    ((Op.push bytes).run r).1 = (r.push bytes).1 := by
  rw [Op.run]
  rcases r.push bytes with ⟨-, - | -⟩ <;> rfl

theorem WellFormed.pushOp (h : r.WellFormed first)
    (bytes : Bytes) : ((Op.push bytes).run r).1.WellFormed first :=
  run_push_router r bytes ▸ h.push bytes

theorem poisoned_settled {a : ActiveControl} (h : a.Settled) :
    ActiveControl.Settled { a with parser := a.parser.poison } where
  begun n := by simp [poison]
  recovering := h.recovering
  escape := h.escape
  line _ := rfl
  pendingCommand _ := rfl
  terminator _ _ := by simp [poison]

theorem WellFormed.op (h : r.WellFormed first) (op : Op) : (op.run r).1.WellFormed first := by
  cases hactive : r.active with
  | none =>
    cases op with
    | push bytes => exact h.pushOp bytes
    | finishDirect =>
      rw [Op.run, finishDirect_direct hactive]
      exact h.withMarkerPrefix hactive .empty
    | finishTransport =>
      rw [Op.run, finishTransport_direct hactive]
      exact h.withMarkerPrefix hactive .empty
    | expireTermination => rw [Op.run, expireTermination_direct hactive]; exact h
  | some a =>
    cases op with
    | push bytes => exact h.pushOp bytes
    | finishDirect =>
      rw [Op.run]
      rcases finishDirect_active hactive with hr | hr <;> rw [hr]
      · exact h
      · exact h.withActive hactive rfl (poisoned_settled (h.settled a hactive))
    | finishTransport =>
      rw [Op.run, finishTransport_active hactive]
      exact (h.close hactive).withMarkerPrefix rfl .empty
    | expireTermination =>
      rw [Op.run, expireTermination_active hactive]
      split
      · exact h.close hactive
      · exact h

theorem wellFormed_runOps (first : UInt64) (ops : List Op) :
    (runOps (withFirstConnectionId first) ops).1.WellFormed first :=
  runOps_induction (P := WellFormed first) (fun _ op h => h.op op) (wellFormed_fresh first) ops

end TmuxGatewayRouter

end Lector.Gateway
