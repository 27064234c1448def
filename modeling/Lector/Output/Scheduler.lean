import Lector.Output.Effects

/-! The output scheduler (`OutputScheduler` in `src/output_scheduler.rs`): its state, its enqueue
operations and the other calls that do not write. A predicted scene and an accessibility bundle are
payloads that it only passes on. -/
namespace Lector.Output

def synchronizedOutputStart : Bytes := ascii "\x1b[?2026h"
def synchronizedOutputEnd : Bytes := ascii "\x1b[?2026l"
def controlBacklogLimitBytes : Nat := 64 * 1024

/-! ## State -/

structure OutputSchedulerConfig where
  latencyBudgetMs : Nat
  synchronizationTimeoutMs : Nat
  synchronizationHardTimeoutMs : Nat
  writeBudgetBytes : Nat
  maximumPendingBytes : Nat

def OutputSchedulerConfig.default : OutputSchedulerConfig where
  latencyBudgetMs := 0
  synchronizationTimeoutMs := 100
  synchronizationHardTimeoutMs := 2000
  writeBudgetBytes := 64 * 1024
  maximumPendingBytes := 2 * 1024 * 1024

inductive ScheduledOutputClass
  | control
deriving DecidableEq

inductive EnqueueOutcome
  | queued
  | replacedObsoleteRender
  | droppedForCapacity
deriving DecidableEq

structure TerminalGeometry where
  rows : UInt16
  cols : UInt16
  cellWidthPx : UInt32
  cellHeightPx : UInt32
deriving DecidableEq

/-- `PresentedScene::geometry`, the one thing the scheduler asks of a scene. -/
class SceneGeometry (Scene : Type) where
  geometry : Scene → TerminalGeometry

structure OutputTransaction where
  bytes : Bytes

structure RenderBatch (Scene : Type) where
  transactions : List OutputTransaction
  predicted : Scene

structure PendingBytes where
  kind : ScheduledOutputClass
  bytes : Bytes

structure PendingRender (Scene Bundle : Type) where
  batch : RenderBatch Scene
  byteLen : Nat
  generation : UInt64
  accessibility : Bundle

structure TrackedRender (Scene Bundle : Type) where
  predicted : Scene
  generation : UInt64
  accessibility : Bundle

inductive ActiveTransactionKind
  | control
  | render
  | effect
  | bell
deriving DecidableEq

structure ActiveTransaction (Scene Bundle : Type) where
  kind : ActiveTransactionKind
  bytes : Bytes
  offset : Nat
  completedRender : Option (TrackedRender Scene Bundle)
  completedEffects : List ScheduledTerminalEffect

inductive ApplicationSynchronization
  | active (startedMs lastActivityMs : Nat)
  | ignoringUntilClose
deriving DecidableEq

structure OutputScheduler (Scene Bundle : Type) where
  config : OutputSchedulerConfig
  synchronizedOutputSupported : Bool
  pendingBytes : List PendingBytes
  pendingRender : Option (PendingRender Scene Bundle)
  pendingEffects : List ScheduledTerminalEffect
  pendingBells : Nat
  pendingSinceMs : Option Nat
  active : List (ActiveTransaction Scene Bundle)
  awaitingFlushRenders : List (TrackedRender Scene Bundle)
  awaitingFlushEffects : List ScheduledTerminalEffect
  flushRequired : Bool
  waitingForWritable : Bool
  applicationSynchronization : Option ApplicationSynchronization
  bypassNextRender : Bool
  applicationSynchronizationBypassGeneration : Option UInt64
  nextRenderGeneration : UInt64
  synchronizationTimeoutReleaseGeneration : Option UInt64
  needsReconciliation : Bool

variable {Scene Bundle : Type}

def PendingRender.tracked (render : PendingRender Scene Bundle) : TrackedRender Scene Bundle :=
  ⟨render.batch.predicted, render.generation, render.accessibility⟩

namespace ActiveTransaction

def remaining (t : ActiveTransaction Scene Bundle) : Bytes := t.bytes.drop t.offset

def isUnstarted (kind : ActiveTransactionKind) (t : ActiveTransaction Scene Bundle) : Bool :=
  t.kind == kind && t.offset == 0

def rendersGeneration (generation : Option UInt64) (t : ActiveTransaction Scene Bundle) : Bool :=
  t.completedRender.any fun render => some render.generation == generation

end ActiveTransaction

namespace OutputScheduler

def new (config : OutputSchedulerConfig) (synchronizedOutputSupported : Bool) :
    OutputScheduler Scene Bundle where
  config := config
  synchronizedOutputSupported := synchronizedOutputSupported
  pendingBytes := []
  pendingRender := none
  pendingEffects := []
  pendingBells := 0
  pendingSinceMs := none
  active := []
  awaitingFlushRenders := []
  awaitingFlushEffects := []
  flushRequired := false
  waitingForWritable := false
  applicationSynchronization := none
  bypassNextRender := false
  applicationSynchronizationBypassGeneration := none
  nextRenderGeneration := 1
  synchronizationTimeoutReleaseGeneration := none
  needsReconciliation := false

variable (s : OutputScheduler Scene Bundle)

/-! ## Accounting -/

def activeByteCount : Nat := (s.active.map fun t => t.bytes.length - t.offset).sum

def pendingByteCount : Nat :=
  let queued := (s.pendingBytes.map fun pending => pending.bytes.length).sum
  let render := s.pendingRender.elim 0 PendingRender.byteLen
  let effects := (s.pendingEffects.map fun effect => terminalEventRetainedBytes effect.event).sum
  saturatingAdd 64 (saturatingAdd 64 (saturatingAdd 64 (saturatingAdd 64 s.activeByteCount queued)
    render) effects) s.pendingBells

def retainedEffectBytes : Nat :=
  ((s.pendingEffects ++ s.awaitingFlushEffects ++ s.active.flatMap (·.completedEffects)).map
    fun effect => terminalEventRetainedBytes effect.event).sum

def controlBytes : Nat :=
  saturatingAdd 64 (s.pendingBytes.map fun pending => pending.bytes.length).sum
    ((s.active.filter (·.kind == .control)).map fun t => t.bytes.length - t.offset).sum

def exceeds (extra : Nat) : Bool := s.config.maximumPendingBytes < saturatingAdd 64 s.pendingByteCount extra

def notePending (nowMs : Nat) : OutputScheduler Scene Bundle :=
  { s with pendingSinceMs := some (s.pendingSinceMs.getD nowMs) }

/-! ## Control bytes -/

/-- A render of this generation ends a synchronization hold, so it is never evicted. -/
def isReleaseBoundary (generation : UInt64) : Bool :=
  some generation == s.synchronizationTimeoutReleaseGeneration ||
    some generation == s.applicationSynchronizationBypassGeneration

def survivesEviction (t : ActiveTransaction Scene Bundle) : Bool :=
  0 < t.offset || t.kind == .control ||
    t.completedRender.any fun render => s.isReleaseBoundary render.generation

def evictUnstarted : OutputScheduler Scene Bundle :=
  { s with
    pendingRender := s.pendingRender.filter fun render => s.isReleaseBoundary render.generation
    pendingEffects := []
    pendingBells := 0
    active := s.active.filter s.survivesEviction }

def coalesceBytes (maximum : Nat) (pending : List PendingBytes) (kind : ScheduledOutputClass)
    (bytes : Bytes) : List PendingBytes :=
  match pending.getLast? with
  | some last =>
    if last.kind = kind ∧ saturatingAdd 64 last.bytes.length bytes.length ≤ maximum then
      pending.dropLast ++ [⟨last.kind, last.bytes ++ bytes⟩]
    else pending ++ [⟨kind, bytes⟩]
  | none => pending ++ [⟨kind, bytes⟩]

def pushBytes (kind : ScheduledOutputClass) (bytes : Bytes) : OutputScheduler Scene Bundle :=
  { s with
    pendingBytes := coalesceBytes s.config.maximumPendingBytes s.pendingBytes kind bytes }

def enqueueBytes (kind : ScheduledOutputClass) (bytes : Bytes) (nowMs : Nat) : OutputScheduler Scene Bundle :=
  if bytes = [] then s
  else if controlBacklogLimitBytes < bytes.length ∨
      controlBacklogLimitBytes < saturatingAdd 64 s.controlBytes bytes.length then s
  else
    let evicted := if s.exceeds bytes.length then s.evictUnstarted else s
    if evicted.exceeds bytes.length then evicted
    else (evicted.notePending nowMs).pushBytes kind bytes

def prepareForLifecycleCleanup : OutputScheduler Scene Bundle :=
  let active := s.active.filter fun t => 0 < t.offset
  { s with
    pendingBytes := []
    pendingRender := none
    pendingEffects := []
    pendingBells := 0
    active := active
    awaitingFlushRenders := []
    applicationSynchronization := none
    bypassNextRender := false
    applicationSynchronizationBypassGeneration := none
    synchronizationTimeoutReleaseGeneration := none
    pendingSinceMs :=
      if active.isEmpty && s.awaitingFlushEffects.isEmpty then none else s.pendingSinceMs }

/-! ## Renders -/

variable (batch : RenderBatch Scene)

def renderBatchByteLen (synchronizedOutputSupported : Bool) : Option Nat := do
  let total ← batch.transactions.foldlM (fun total t => checkedAdd total t.bytes.length) 0
  checkedAdd total
    (if synchronizedOutputSupported then
      synchronizedOutputStart.length + synchronizedOutputEnd.length
    else 0)

def replaceableActiveIndex : Option Nat := s.active.findIdx? (·.isUnstarted .render)

def replaceableActive : Option (ActiveTransaction Scene Bundle) :=
  s.replaceableActiveIndex.bind fun index => s.active[index]?

def withdrawBells : OutputScheduler Scene Bundle :=
  let bells := s.active.filter (·.isUnstarted .bell)
  { s with
    active := s.active.filter fun t => !t.isUnstarted .bell
    pendingBells := bells.foldl (fun count t => saturatingAdd 64 count t.bytes.length)
      s.pendingBells }

def removeActiveRender (index : Nat) (nowMs : Nat) : OutputScheduler Scene Bundle :=
  let withdrawn := withdrawBells { s with active := s.active.eraseIdx index }
  { withdrawn with pendingSinceMs := some (nowMs - s.config.latencyBudgetMs) }

def replacesGeneration (generation : Option UInt64) : Bool :=
  s.pendingRender.any (fun render => some render.generation == generation) ||
    s.replaceableActive.any (·.rendersGeneration generation)

def nextGeneration (generation : UInt64) : UInt64 :=
  if generation + 1 = 0 then 1 else generation + 1

/-- The render is accepted: unstarted renders make way, and it inherits their release marks. -/
def acceptRender (renderBytes : Nat) (accessibility : Bundle)
    (bypassRequested : Bool) (nowMs : Nat) : EnqueueOutcome × OutputScheduler Scene Bundle :=
  let replacesTimeoutRelease := s.replacesGeneration s.synchronizationTimeoutReleaseGeneration
  let replacesBypass := s.replacesGeneration s.applicationSynchronizationBypassGeneration
  let cleared := match s.replaceableActiveIndex with
    | some index => s.removeActiveRender index nowMs
    | none => s
  let generation := s.nextRenderGeneration
  let marked := { cleared with
    nextRenderGeneration := nextGeneration generation
    synchronizationTimeoutReleaseGeneration :=
      if replacesTimeoutRelease then some generation
      else s.synchronizationTimeoutReleaseGeneration
    applicationSynchronizationBypassGeneration :=
      if bypassRequested || replacesBypass then some generation
      else s.applicationSynchronizationBypassGeneration }
  let outcome := if s.pendingRender.isSome || s.replaceableActiveIndex.isSome then
      EnqueueOutcome.replacedObsoleteRender else .queued
  (outcome, { marked.notePending nowMs with
    pendingRender := some ⟨batch, renderBytes, generation, accessibility⟩ })

def enqueueRenderWithAccessibility (accessibility : Bundle)
    (nowMs : Nat) : EnqueueOutcome × OutputScheduler Scene Bundle :=
  let taken := { s with bypassNextRender := false }
  match renderBatchByteLen batch s.synchronizedOutputSupported with
  | none => (.droppedForCapacity, taken)
  | some renderBytes =>
    let replaceablePending := s.pendingRender.elim 0 PendingRender.byteLen
    let replaceableActive := s.replaceableActive.elim 0 fun t => t.bytes.length
    let retained := s.pendingByteCount - replaceablePending - replaceableActive
    if s.config.maximumPendingBytes < renderBytes ∨
        s.config.maximumPendingBytes < saturatingAdd 64 retained renderBytes then
      (.droppedForCapacity, taken)
    else taken.acceptRender batch renderBytes accessibility s.bypassNextRender nowMs

def setSynchronizedOutputSupported (supported : Bool) : OutputScheduler Scene Bundle :=
  let wrapper := saturatingAdd 64 synchronizedOutputStart.length synchronizedOutputEnd.length
  let resize := fun render : PendingRender Scene Bundle =>
    { render with byteLen :=
        if supported then saturatingAdd 64 render.byteLen wrapper else render.byteLen - wrapper }
  { s with
    pendingRender :=
      if supported != s.synchronizedOutputSupported then s.pendingRender.map resize
      else s.pendingRender
    synchronizedOutputSupported := supported }

/-! ## Effects and bells -/

/-- Titles and directories describe a current state, so a newer one replaces those waiting. -/
def isStateEffect (kind : TerminalEventKind) : Bool := kind == .title || kind == .workingDirectory

variable (owner : SurfaceId)

def sameEffect (kind : TerminalEventKind) (e : ScheduledTerminalEffect) : Bool :=
  e.owner == owner && terminalEventKind e.event == kind

def supersedeEffects (kind : TerminalEventKind) : OutputScheduler Scene Bundle :=
  { s with
    pendingEffects := s.pendingEffects.filter fun e => !sameEffect owner kind e
    active := s.active.filter fun t =>
      t.offset != 0 || t.kind != .effect || !t.completedEffects.any (sameEffect owner kind) }

def removePendingEffect (kind : TerminalEventKind) : OutputScheduler Scene Bundle :=
  match s.pendingEffects.findIdx? (sameEffect owner kind) with
  | some index => { s with pendingEffects := s.pendingEffects.eraseIdx index }
  | none => s

def enqueueTerminalEffect (event : TerminalEvent) (nowMs : Nat) : OutputScheduler Scene Bundle :=
  let event := boundTerminalEffect event s.config.maximumPendingBytes
  let kind := terminalEventKind event
  let superseded := if isStateEffect kind then s.supersedeEffects owner kind else s
  let retained := terminalEventRetainedBytes event
  let roomier :=
    if s.config.maximumPendingBytes < saturatingAdd 64 superseded.retainedEffectBytes retained then
      superseded.removePendingEffect owner kind
    else superseded
  if roomier.exceeds retained then roomier
  else
    { roomier.notePending nowMs with pendingEffects := roomier.pendingEffects ++ [⟨owner, event⟩] }

def enqueueBell (count : Nat) (nowMs : Nat) : OutputScheduler Scene Bundle :=
  let retained := min count (s.config.maximumPendingBytes - s.pendingByteCount)
  if count = 0 ∨ retained = 0 then s
  else { s.notePending nowMs with pendingBells := saturatingAdd 64 s.pendingBells retained }

/-! ## Synchronization and recovery -/

def observeApplicationSynchronization (synchronized opened activity : Bool) (nowMs : Nat) :
    OutputScheduler Scene Bundle :=
  if synchronized then
    match s.applicationSynchronization with
    | some .ignoringUntilClose =>
      if opened then
        { s with
          applicationSynchronization := some (.active nowMs nowMs)
          synchronizationTimeoutReleaseGeneration := none }
      else s
    | some (.active startedMs _) =>
      if activity then { s with applicationSynchronization := some (.active startedMs nowMs) } else s
    | none => { s with applicationSynchronization := some (.active nowMs nowMs) }
  else
    { s with
      applicationSynchronization := none
      bypassNextRender := false
      synchronizationTimeoutReleaseGeneration := none }

def setApplicationSynchronizationBypassed (bypassed : Bool) : OutputScheduler Scene Bundle :=
  { s with bypassNextRender := bypassed && s.applicationSynchronization.isSome }

def recover : OutputScheduler Scene Bundle :=
  { s with needsReconciliation := false, waitingForWritable := false }

def notifyWritable : OutputScheduler Scene Bundle := { s with waitingForWritable := false }

end OutputScheduler

end Lector.Output
