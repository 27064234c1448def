import Lector.Foundations.Execution
import Lector.Output.Scheduler

/-! `OutputScheduler::drain_ready` against an arbitrary writer: the list of its future answers and
the record of what it did. A call that runs out of answers never returns. `finished` is a ghost
field: what was written in full since the last fatal error. -/
namespace Lector.Output
open Bytes Loop

/-! ## Writers -/

inductive WriteResponse
  | accepted (count : Nat)
  | interrupted
  | wouldBlock
  | failed

inductive FlushResponse
  | flushed
  | interrupted
  | wouldBlock
  | failed

inductive WriterEvent
  | accepted (bytes : Bytes)
  | flushed
  | failed
deriving DecidableEq

structure Writer where
  writes : List WriteResponse
  flushes : List FlushResponse
  events : List WriterEvent

def Writer.scripted (writes : List WriteResponse) (flushes : List FlushResponse) : Writer :=
  ⟨writes, flushes, []⟩

def acceptedBytes (events : List WriterEvent) : Bytes :=
  events.flatMap fun
    | .accepted bytes => bytes
    | _ => []

/-! ## Reports -/

structure CompletedRender (Scene Bundle : Type) where
  predicted : Scene
  geometry : TerminalGeometry
  accessibility : Bundle

structure DrainReport (Scene Bundle : Type) where
  bytesWritten : Nat
  completedRenders : List (CompletedRender Scene Bundle)
  completedEffects : List ScheduledTerminalEffect
  blocked : Bool
  writeBudgetExhausted : Bool
  synchronizationTimedOut : Bool
  applicationSynchronizationBypassCompleted : Option UInt64

variable {Scene Bundle : Type}

def DrainReport.default : DrainReport Scene Bundle := ⟨0, [], [], false, false, false, none⟩

structure Drain (Scene Bundle : Type) where
  scheduler : OutputScheduler Scene Bundle
  report : DrainReport Scene Bundle
  writer : Writer
  finished : List (ActiveTransaction Scene Bundle)

/-- How a call ends. A starved call is still waiting for the writer's next answer. -/
inductive Outcome
  | returned
  | failed
  | starved
deriving DecidableEq

/-- A part of a call either lets the call go on, with a result, or ends it. -/
inductive Phase (Scene Bundle α : Type)
  | next (d : Drain Scene Bundle) (result : α)
  | stop (outcome : Outcome) (d : Drain Scene Bundle)

namespace Phase

variable {α β : Type}

def andThen (p : Phase Scene Bundle α) (f : Drain Scene Bundle → α → Phase Scene Bundle β) :
    Phase Scene Bundle β :=
  match p with
  | next d a => f d a
  | stop outcome d => stop outcome d

def drain : Phase Scene Bundle α → Drain Scene Bundle
  | next d _ => d
  | stop _ d => d

end Phase

/-! ## Activation -/

def withoutSynchronizationMarkers : Bytes → Bytes
  | [] => []
  | byte :: rest =>
    match _h : stripPrefix synchronizedOutputStart (byte :: rest) with
    | some tail => withoutSynchronizationMarkers tail
    | none =>
      match _h' : stripPrefix synchronizedOutputEnd (byte :: rest) with
      | some tail => withoutSynchronizationMarkers tail
      | none => byte :: withoutSynchronizationMarkers rest
termination_by source => source.length
decreasing_by
  · rw [(stripPrefix_eq_some _ _ _).mp _h]
    simp [synchronizedOutputStart, ascii]
    omega
  · rw [(stripPrefix_eq_some _ _ _).mp _h']
    simp [synchronizedOutputEnd, ascii]
    omega
  · simp

def containsSynchronizationMarker (source : Bytes) : Bool :=
  (splitAround synchronizedOutputStart source).isSome || (splitAround synchronizedOutputEnd source).isSome

/-- One outer synchronization wrapper if the terminal has them, and no markers inside. -/
def scheduledBytes (supported : Bool) (transactions : List OutputTransaction) : Bytes :=
  let stripped := transactions.flatMap fun t => withoutSynchronizationMarkers t.bytes
  if supported then synchronizedOutputStart ++ stripped ++ synchronizedOutputEnd
  else
    match transactions with
    | [t] => if containsSynchronizationMarker t.bytes then stripped else t.bytes
    | _ => stripped

def ScheduledOutputClass.activeKind : ScheduledOutputClass → ActiveTransactionKind
  | .control => .control

def PendingBytes.activated (pending : PendingBytes) : ActiveTransaction Scene Bundle :=
  ⟨pending.kind.activeKind, pending.bytes, 0, none, []⟩

def ScheduledTerminalEffect.activated (effect : ScheduledTerminalEffect) : ActiveTransaction Scene Bundle :=
  ⟨.effect, encodeTerminalEffect effect.event, 0, none, [effect]⟩

def PendingRender.activated (supported : Bool) (render : PendingRender Scene Bundle) :
    ActiveTransaction Scene Bundle :=
  ⟨.render, scheduledBytes supported render.batch.transactions, 0, some render.tracked, []⟩

def bellTransactions (count : Nat) : List (ActiveTransaction Scene Bundle) :=
  if 0 < count then [⟨.bell, List.replicate count bellByte, 0, none, []⟩] else []

namespace OutputScheduler

variable (s : OutputScheduler Scene Bundle)

def activations : List (ActiveTransaction Scene Bundle) :=
  s.pendingBytes.map PendingBytes.activated ++ s.pendingEffects.map ScheduledTerminalEffect.activated ++
    (s.pendingRender.map (PendingRender.activated s.synchronizedOutputSupported)).toList ++
    bellTransactions s.pendingBells

def activatePending : OutputScheduler Scene Bundle :=
  if s.active.isEmpty then
    { s with
      active := s.activations
      pendingBytes := []
      pendingEffects := []
      pendingRender := none
      pendingBells := 0
      pendingSinceMs := none }
  else s

def failed : OutputScheduler Scene Bundle :=
  { s with
    active := []
    awaitingFlushRenders := []
    awaitingFlushEffects := []
    flushRequired := false
    waitingForWritable := false
    pendingBytes := []
    pendingRender := none
    pendingEffects := []
    pendingBells := 0
    pendingSinceMs := none
    applicationSynchronization := none
    bypassNextRender := false
    applicationSynchronizationBypassGeneration := none
    synchronizationTimeoutReleaseGeneration := none
    needsReconciliation := true }

def newestGeneration : Option UInt64 :=
  (s.pendingRender.map PendingRender.generation).or
    ((s.active.reverse.findSome? fun t => t.completedRender.map TrackedRender.generation).or
      (s.awaitingFlushRenders.getLast?.map TrackedRender.generation))

def hasWork : Bool :=
  !s.active.isEmpty || !s.pendingBytes.isEmpty || s.pendingRender.isSome ||
    !s.pendingEffects.isEmpty || s.pendingBells != 0

end OutputScheduler

/-! ## Parts of a call -/

def TrackedRender.completed [SceneGeometry Scene] (render : TrackedRender Scene Bundle) :
    CompletedRender Scene Bundle :=
  ⟨render.predicted, SceneGeometry.geometry render.predicted, render.accessibility⟩

namespace Drain

variable (d : Drain Scene Bundle)

def fail (writer : Writer) : Drain Scene Bundle :=
  { d with
    scheduler := d.scheduler.failed
    writer := { writer with events := writer.events ++ [.failed] }
    finished := [] }

def setWaiting (waiting : Bool) : Drain Scene Bundle :=
  { d with scheduler := { d.scheduler with waitingForWritable := waiting } }

def block (writer : Writer) : Drain Scene Bundle :=
  { d with
    scheduler := { d.scheduler with waitingForWritable := true }
    report := { d.report with blocked := true }
    writer := writer }

section Completion

variable [SceneGeometry Scene]

def completeRender (d : Drain Scene Bundle) (render : TrackedRender Scene Bundle) : Drain Scene Bundle :=
  let releases := some render.generation == d.scheduler.synchronizationTimeoutReleaseGeneration
  let bypasses := some render.generation == d.scheduler.applicationSynchronizationBypassGeneration
  { d with
    scheduler := { d.scheduler with
      synchronizationTimeoutReleaseGeneration :=
        if releases then none else d.scheduler.synchronizationTimeoutReleaseGeneration
      applicationSynchronizationBypassGeneration :=
        if bypasses then none else d.scheduler.applicationSynchronizationBypassGeneration }
    report := { d.report with
      completedRenders := d.report.completedRenders ++ [TrackedRender.completed render]
      synchronizationTimedOut := d.report.synchronizationTimedOut || releases
      applicationSynchronizationBypassCompleted :=
        if bypasses then some render.generation
        else d.report.applicationSynchronizationBypassCompleted } }

def completeAwaiting : Drain Scene Bundle :=
  let renders := d.scheduler.awaitingFlushRenders
  let effects := d.scheduler.awaitingFlushEffects
  let taken := { d with scheduler := { d.scheduler with
    awaitingFlushRenders := []
    awaitingFlushEffects := [] } }
  let reported := renders.foldl completeRender taken
  { reported with report := { reported.report with
    completedEffects := reported.report.completedEffects ++ effects } }

def flush (writer : Writer) : Drain Scene Bundle :=
  { d with
    scheduler := { d.scheduler with flushRequired := false }
    writer := { writer with events := writer.events ++ [.flushed] } }

def flushRound (d : Drain Scene Bundle) : Drain Scene Bundle ⊕ Phase Scene Bundle PUnit :=
  match d.writer.flushes with
  | [] => .inr (.stop .starved d)
  | answer :: flushes =>
    let writer := { d.writer with flushes := flushes }
    match answer with
    | .flushed => .inr (.next (d.flush writer).completeAwaiting ⟨⟩)
    | .interrupted => .inl { d with writer := writer }
    | .wouldBlock => .inr (.stop .returned (d.block writer))
    | .failed => .inr (.stop .failed (d.fail writer))

def flushBody : Body (Drain Scene Bundle) (Phase Scene Bundle PUnit) where
  round := flushRound
  measure d := d.writer.flushes.length
  lowers d d' h := by
    unfold flushRound at h
    split at h
    · exact absurd h (by simp)
    · rename_i answer flushes hflushes
      cases answer with
      | interrupted =>
        obtain rfl := Sum.inl.inj h
        simp [hflushes]
      | flushed => exact absurd h (by simp)
      | wouldBlock => exact absurd h (by simp)
      | failed => exact absurd h (by simp)

def flushWriter : Phase Scene Bundle PUnit := Loop.run flushBody d

def flushIfRequired : Phase Scene Bundle PUnit :=
  if d.scheduler.flushRequired then d.flushWriter else .next d ⟨⟩

end Completion

variable (t : ActiveTransaction Scene Bundle)

def finishFront (rest : List (ActiveTransaction Scene Bundle)) : Drain Scene Bundle :=
  { d with
    scheduler := { d.scheduler with
      active := rest
      awaitingFlushRenders := d.scheduler.awaitingFlushRenders ++ t.completedRender.toList
      awaitingFlushEffects := d.scheduler.awaitingFlushEffects ++ t.completedEffects }
    finished := d.finished ++ [t] }

def advanceFront (rest : List (ActiveTransaction Scene Bundle))
    (count : Nat) (writer : Writer) : Drain Scene Bundle :=
  { d with
    scheduler := { d.scheduler with
      active := { t with offset := t.offset + count } :: rest
      flushRequired := true }
    report := { d.report with bytesWritten := d.report.bytesWritten + count }
    writer := { writer with events := writer.events ++ [.accepted (t.remaining.take count)] } }

def reachesBypass : Bool :=
  t.rendersGeneration d.scheduler.applicationSynchronizationBypassGeneration

def writeFront (budget : Nat) (t : ActiveTransaction Scene Bundle)
    (rest : List (ActiveTransaction Scene Bundle)) :
    Drain Scene Bundle ⊕ Phase Scene Bundle Bool :=
  match d.writer.writes with
  | [] => .inr (.stop .starved d)
  | answer :: writes =>
    let writer := { d.writer with writes := writes }
    let offered := min t.remaining.length (budget - d.report.bytesWritten)
    match answer with
    | .accepted count =>
      if min count offered = 0 then .inr (.stop .failed (d.fail writer))
      else .inl (d.advanceFront t rest (min count offered) writer)
    | .interrupted => .inl { d with writer := writer }
    | .wouldBlock => .inr (.stop .returned (d.block writer))
    | .failed => .inr (.stop .failed (d.fail writer))

def writeRound (budget : Nat) (finishOnly : Bool) (d : Drain Scene Bundle) :
    Drain Scene Bundle ⊕ Phase Scene Bundle Bool :=
  if budget ≤ d.report.bytesWritten then .inr (.next d false)
  else
    match d.scheduler.active with
    | [] => .inr (.next d false)
    | t :: rest =>
      if finishOnly ∧ t.offset = 0 then .inr (.next d false)
      else if t.remaining = [] then
        if d.reachesBypass t then .inr (.next (d.finishFront t rest) true)
        else .inl (d.finishFront t rest)
      else d.writeFront budget t rest

theorem writeFront_lowers {budget : Nat} {t : ActiveTransaction Scene Bundle}
    {rest : List (ActiveTransaction Scene Bundle)} {d d' : Drain Scene Bundle}
    (hactive : d.scheduler.active = t :: rest) (h : d.writeFront budget t rest = .inl d') :
    d'.writer.writes.length < d.writer.writes.length ∧
      d'.scheduler.active.length = d.scheduler.active.length := by
  unfold writeFront at h
  split at h
  · cases h
  · rename_i answer writes hwrites
    cases answer with
    | accepted count =>
      simp only at h
      split at h
      · cases h
      · obtain rfl := Sum.inl.inj h
        simp [advanceFront, hwrites, hactive]
    | interrupted =>
      obtain rfl := Sum.inl.inj h
      simp [hwrites]
    | wouldBlock => cases h
    | failed => cases h

def writeBody (budget : Nat) (finishOnly : Bool) : Body (Drain Scene Bundle) (Phase Scene Bundle Bool) where
  round := writeRound budget finishOnly
  measure d := d.writer.writes.length + d.scheduler.active.length
  lowers d d' h := by
    unfold writeRound at h
    split at h
    · exact absurd h (by simp)
    · split at h
      · exact absurd h (by simp)
      · rename_i t rest hactive
        split at h
        · exact absurd h (by simp)
        · split at h
          · split at h
            · exact absurd h (by simp)
            · obtain rfl := Sum.inl.inj h
              simp [finishFront, hactive]
          · have hlow := writeFront_lowers hactive h
            omega

def popRound (p : Drain Scene Bundle × Bool) : (Drain Scene Bundle × Bool) ⊕ Drain Scene Bundle :=
  if p.2 then .inr p.1
  else
    match p.1.scheduler.active with
    | [] => .inr p.1
    | t :: rest =>
      if t.remaining = [] then .inl (p.1.finishFront t rest, p.1.reachesBypass t) else .inr p.1

def popBody : Body (Drain Scene Bundle × Bool) (Drain Scene Bundle) where
  round := popRound
  measure p := p.1.scheduler.active.length
  lowers p p' h := by
    unfold popRound at h
    split at h
    · exact absurd h (by simp)
    · split at h
      · exact absurd h (by simp)
      · rename_i t rest hactive
        split at h
        · obtain rfl := Sum.inl.inj h
          simp [finishFront, hactive]
        · exact absurd h (by simp)

/-! ## The call -/

/-- A hold that went on for too long ends; its newest render tells when it has been shown. -/
def releaseHold : Drain Scene Bundle :=
  { d with
    scheduler := { d.scheduler with
      applicationSynchronization := some .ignoringUntilClose
      synchronizationTimeoutReleaseGeneration := d.scheduler.newestGeneration }
    report := { d.report with
      synchronizationTimedOut := d.report.synchronizationTimedOut || d.scheduler.newestGeneration.isNone } }

variable (nowMs : Nat) (force : Bool)

/-- The application's hold: it ends the call, or lets it finish the started transaction only. -/
def holdOutput : Phase Scene Bundle Bool :=
  match d.scheduler.applicationSynchronization with
  | some (.active startedMs lastActivityMs) =>
    let config := d.scheduler.config
    let idleTimedOut := saturatingAdd 128 lastActivityMs config.synchronizationTimeoutMs ≤ nowMs
    let hardTimedOut := saturatingAdd 128 startedMs config.synchronizationHardTimeoutMs ≤ nowMs
    if idleTimedOut ∨ hardTimedOut then .next d.releaseHold false
    else if force ∨ d.scheduler.applicationSynchronizationBypassGeneration.isSome then
      .next d false
    else if d.scheduler.active.head?.any fun t => 0 < t.offset then .next d true
    else .stop .returned d
  | _ => .next d false

def beforeLatencyDeadline : Bool :=
  !force && d.scheduler.active.isEmpty && d.scheduler.pendingSinceMs.any fun started =>
    nowMs < saturatingAdd 128 started d.scheduler.config.latencyBudgetMs

def conclude : Drain Scene Bundle :=
  { d with report := { d.report with writeBudgetExhausted := d.scheduler.hasWork } }

variable [SceneGeometry Scene]

def completeIfFlushed : Drain Scene Bundle :=
  if d.scheduler.flushRequired then d else d.completeAwaiting

def writeActive (finishOnly : Bool) : Phase Scene Bundle PUnit :=
  let activated := { d with scheduler := d.scheduler.activatePending }
  let budget := max d.scheduler.config.writeBudgetBytes 1
  (Loop.run (writeBody budget finishOnly) activated).andThen fun written reached =>
    (Loop.run popBody (written, reached)).flushIfRequired.andThen fun flushed _ =>
      .next flushed.completeIfFlushed.conclude ⟨⟩

def drainUnblocked : Phase Scene Bundle PUnit :=
  (d.setWaiting (!force && d.scheduler.waitingForWritable)).flushIfRequired.andThen fun flushed _ =>
    (flushed.holdOutput nowMs force).andThen fun held finishOnly =>
      if held.beforeLatencyDeadline nowMs force then .stop .returned held
      else held.writeActive finishOnly

def drainReady : Phase Scene Bundle PUnit :=
  if d.scheduler.needsReconciliation then .stop .returned d
  else if d.scheduler.waitingForWritable && !force then .stop .returned d
  else d.drainUnblocked nowMs force

end Drain

end Lector.Output
