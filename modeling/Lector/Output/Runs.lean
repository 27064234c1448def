import Lector.Output.Lanes

/-! Runs of the output scheduler: any sequence of its calls against any writer, with the accepted
renders and the reports. -/
namespace Lector.Output
open List OutputScheduler PendingBytes Drain

/-! ## Calls -/

inductive Command
  | enqueueBytes (kind : ScheduledOutputClass) (bytes : Bytes) (nowMs : Nat)
  | enqueueTerminalEffect (owner : SurfaceId) (event : TerminalEvent) (nowMs : Nat)
  | enqueueBell (count : Nat) (nowMs : Nat)
  | setSynchronizedOutputSupported (supported : Bool)
  | observeApplicationSynchronization (synchronized opened activity : Bool) (nowMs : Nat)
  | setApplicationSynchronizationBypassed (bypassed : Bool)
  | prepareForLifecycleCleanup
  | recover
  | notifyWritable

variable {Scene Bundle : Type}

namespace Command

def apply (c : Command) (s : OutputScheduler Scene Bundle) : OutputScheduler Scene Bundle :=
  match c with
  | enqueueBytes kind bytes nowMs => s.enqueueBytes kind bytes nowMs
  | enqueueTerminalEffect owner event nowMs => s.enqueueTerminalEffect owner event nowMs
  | enqueueBell count nowMs => s.enqueueBell count nowMs
  | setSynchronizedOutputSupported supported => s.setSynchronizedOutputSupported supported
  | observeApplicationSynchronization synchronized opened activity nowMs =>
    s.observeApplicationSynchronization synchronized opened activity nowMs
  | setApplicationSynchronizationBypassed bypassed => s.setApplicationSynchronizationBypassed bypassed
  | prepareForLifecycleCleanup => s.prepareForLifecycleCleanup
  | recover => s.recover
  | notifyWritable => s.notifyWritable

def offer (maximum : Nat) : Command → Offer
  | enqueueBytes _ bytes _ => ⟨[], [bytes], 0⟩
  | enqueueTerminalEffect owner event _ => ⟨[⟨owner, boundTerminalEffect event maximum⟩], [], 0⟩
  | enqueueBell count _ => ⟨[], [], count⟩
  | _ => .none

theorem apply_advances (c : Command) (s : OutputScheduler Scene Bundle) :
    Advances (c.offer s.config.maximumPendingBytes) s (c.apply s) := by
  cases c with
  | enqueueBytes kind bytes nowMs => exact s.enqueueBytes_advances kind bytes nowMs
  | enqueueTerminalEffect owner event nowMs => exact s.enqueueTerminalEffect_advances owner event nowMs
  | enqueueBell count nowMs => exact s.enqueueBell_advances count nowMs
  | setSynchronizedOutputSupported supported => exact s.setSynchronizedOutputSupported_advances supported
  | observeApplicationSynchronization synchronized opened activity nowMs =>
    exact s.observeApplicationSynchronization_advances synchronized opened activity nowMs
  | setApplicationSynchronizationBypassed bypassed => exact .same rfl rfl rfl rfl rfl rfl rfl rfl rfl
  | prepareForLifecycleCleanup => exact s.prepareForLifecycleCleanup_advances
  | recover => exact .same rfl rfl rfl rfl rfl rfl rfl rfl rfl
  | notifyWritable => exact .same rfl rfl rfl rfl rfl rfl rfl rfl rfl

end Command

inductive Op (Scene Bundle : Type)
  | command (c : Command)
  | render (batch : RenderBatch Scene) (accessibility : Bundle) (nowMs : Nat)
  | drain (nowMs : Nat) (force : Bool)

def Op.offer (maximum : Nat) : Op Scene Bundle → Offer
  | .command c => c.offer maximum
  | .render _ _ _ => .none
  | .drain _ _ => .none

/-! ## Runs -/

structure AcceptedRender (Scene Bundle : Type) where
  batch : RenderBatch Scene
  generation : UInt64
  accessibility : Bundle

def AcceptedRender.tracked (a : AcceptedRender Scene Bundle) : TrackedRender Scene Bundle :=
  ⟨a.batch.predicted, a.generation, a.accessibility⟩

/-- A returned report, with the writer's record and the finished transactions at that moment. -/
structure Receipt (Scene Bundle : Type) where
  report : DrainReport Scene Bundle
  events : List WriterEvent
  finished : List (ActiveTransaction Scene Bundle)

structure Run (Scene Bundle : Type) where
  scheduler : OutputScheduler Scene Bundle
  writer : Writer
  finished : List (ActiveTransaction Scene Bundle)
  accepted : List (AcceptedRender Scene Bundle)
  receipts : List (Receipt Scene Bundle)
  hung : Bool

namespace Run

def start (config : OutputSchedulerConfig) (synchronizedOutputSupported : Bool)
    (writes : List WriteResponse) (flushes : List FlushResponse) : Run Scene Bundle :=
  ⟨.new config synchronizedOutputSupported, .scripted writes flushes, [], [], [], false⟩

def enqueueRender (r : Run Scene Bundle) (batch : RenderBatch Scene) (accessibility : Bundle)
    (nowMs : Nat) : Run Scene Bundle :=
  let enqueued := r.scheduler.enqueueRenderWithAccessibility batch accessibility nowMs
  { r with
    scheduler := enqueued.2
    accepted :=
      if enqueued.1 = .droppedForCapacity then r.accepted
      else r.accepted ++ [⟨batch, r.scheduler.nextRenderGeneration, accessibility⟩] }

def opened (r : Run Scene Bundle) : Drain Scene Bundle := ⟨r.scheduler, .default, r.writer, r.finished⟩

def close {α : Type} (r : Run Scene Bundle) (p : Phase Scene Bundle α) : Run Scene Bundle :=
  { r with
    scheduler := p.drain.scheduler
    writer := p.drain.writer
    finished := p.drain.finished
    receipts :=
      if p.outcome = .returned then
        r.receipts ++ [⟨p.drain.report, p.drain.writer.events, p.drain.finished⟩]
      else r.receipts
    hung := decide (p.outcome = .starved) }

variable [SceneGeometry Scene]

def step (r : Run Scene Bundle) (op : Op Scene Bundle) : Run Scene Bundle :=
  if r.hung then r
  else
    match op with
    | .command c => { r with scheduler := c.apply r.scheduler }
    | .render batch accessibility nowMs => r.enqueueRender batch accessibility nowMs
    | .drain nowMs force => r.close (r.opened.drainReady nowMs force)

def runOps (r : Run Scene Bundle) (ops : List (Op Scene Bundle)) : Run Scene Bundle := ops.foldl step r

theorem runOps_append (r : Run Scene Bundle) (ops more : List (Op Scene Bundle)) :
    r.runOps (ops ++ more) = (r.runOps ops).runOps more := foldl_append

end Run

/-! ## Moves keep the work -/

section Activation

variable (s : OutputScheduler Scene Bundle)

theorem rendersOf_activations :
    rendersOf s.activations = (s.pendingRender.map PendingRender.tracked).toList := by
  have hbytes : rendersOf (s.pendingBytes.map activated : List (ActiveTransaction Scene Bundle)) = [] := by
    simp [rendersOf, activated]
  have heffects : rendersOf (s.pendingEffects.map ScheduledTerminalEffect.activated :
      List (ActiveTransaction Scene Bundle)) = [] := by
    simp [rendersOf, ScheduledTerminalEffect.activated]
  have hbells : rendersOf (bellTransactions s.pendingBells : List (ActiveTransaction Scene Bundle)) = [] := by
    unfold bellTransactions
    split
    · rfl
    · rfl
  simp only [activations, rendersOf_append, hbytes, heffects, hbells]
  cases s.pendingRender with
  | none => rfl
  | some render => rfl

theorem effectsOf_activations : effectsOf s.activations = s.pendingEffects := by
  have hbytes : effectsOf (s.pendingBytes.map activated : List (ActiveTransaction Scene Bundle)) = [] := by
    simp [effectsOf, activated]
  have heffects : effectsOf (s.pendingEffects.map ScheduledTerminalEffect.activated :
      List (ActiveTransaction Scene Bundle)) = s.pendingEffects := by
    simp [effectsOf, ScheduledTerminalEffect.activated, flatMap_map]
  have hbells : effectsOf (bellTransactions s.pendingBells : List (ActiveTransaction Scene Bundle)) = [] := by
    unfold bellTransactions
    split
    · rfl
    · rfl
  simp only [activations, effectsOf_append, hbytes, heffects, hbells]
  cases s.pendingRender with
  | none => simp [effectsOf]
  | some render => simp [effectsOf, PendingRender.activated]

theorem controlsOf_activations : controlsOf s.activations = s.pendingBytes.map bytes := by
  have hbytes : controlsOf (s.pendingBytes.map activated :
      List (ActiveTransaction Scene Bundle)) = s.pendingBytes.map bytes := by
    have hkind : ∀ pending : PendingBytes, pending.kind.activeKind = .control := by
      intro pending
      cases pending.kind
      rfl
    simp [controlsOf, activated, filter_map, hkind, Function.comp_def]
  have heffects : controlsOf (s.pendingEffects.map ScheduledTerminalEffect.activated :
      List (ActiveTransaction Scene Bundle)) = [] := by
    simp [controlsOf, ScheduledTerminalEffect.activated]
  have hbells : controlsOf (bellTransactions s.pendingBells :
      List (ActiveTransaction Scene Bundle)) = [] := by
    unfold bellTransactions
    split
    · rfl
    · rfl
  simp only [activations, controlsOf_append, hbytes, heffects, hbells]
  cases s.pendingRender with
  | none => simp [controlsOf]
  | some render => simp [controlsOf, PendingRender.activated]

theorem bellsOf_activations : bellsOf s.activations = s.pendingBells := by
  have hbytes : bellsOf (s.pendingBytes.map activated : List (ActiveTransaction Scene Bundle)) = 0 := by
    have hkind : ∀ pending : PendingBytes, (pending.kind.activeKind == .bell) = false := by
      intro pending
      cases pending.kind
      rfl
    simp [bellsOf, activated, filter_map, hkind, Function.comp_def]
  have heffects : bellsOf (s.pendingEffects.map ScheduledTerminalEffect.activated :
      List (ActiveTransaction Scene Bundle)) = 0 := by
    have hkind : (ActiveTransactionKind.effect == .bell) = false := rfl
    simp [bellsOf, ScheduledTerminalEffect.activated, filter_map, hkind, Function.comp_def]
  have hbells : bellsOf (bellTransactions s.pendingBells :
      List (ActiveTransaction Scene Bundle)) = s.pendingBells := by
    unfold bellTransactions
    split
    · simp [bellsOf]
    · simp only [bellsOf, filter_nil, map_nil, sum_nil]
      omega
  simp only [activations, bellsOf_append, hbytes, heffects, hbells]
  cases s.pendingRender with
  | none => simp [bellsOf]
  | some render => simp [bellsOf, PendingRender.activated]

end Activation

section Moves

variable [SceneGeometry Scene] {d d' d'' : Drain Scene Bundle}

def OutputScheduler.unreported (s : OutputScheduler Scene Bundle) :
    List (TrackedRender Scene Bundle) := s.awaitingFlushRenders ++ s.renderLane

/-- Finished and queued work is the same; what is reported leaves the front of the unreported
renders. -/
structure KeepsWork (d d' : Drain Scene Bundle) : Prop where
  renders : rendersOf d'.finished ++ d'.scheduler.renderLane = rendersOf d.finished ++ d.scheduler.renderLane
  effects : effectsOf d'.finished ++ d'.scheduler.effectLane = effectsOf d.finished ++ d.scheduler.effectLane
  controls : controlsOf d'.finished ++ d'.scheduler.controlLane =
    controlsOf d.finished ++ d.scheduler.controlLane
  bells : bellsOf d'.finished + d'.scheduler.bellLane = bellsOf d.finished + d.scheduler.bellLane
  reported : ∃ reported : List (TrackedRender Scene Bundle), d'.report.completedRenders =
      d.report.completedRenders ++ reported.map TrackedRender.completed ∧
    reported ++ d'.scheduler.unreported = d.scheduler.unreported
  nextRenderGeneration : d'.scheduler.nextRenderGeneration = d.scheduler.nextRenderGeneration
  config : d'.scheduler.config = d.scheduler.config

theorem KeepsWork.trans (h : KeepsWork d d') (h' : KeepsWork d' d'') : KeepsWork d d'' where
  renders := h'.renders.trans h.renders
  effects := h'.effects.trans h.effects
  controls := h'.controls.trans h.controls
  bells := h'.bells.trans h.bells
  reported := by
    obtain ⟨reported, hcompleted, hunreported⟩ := h.reported
    obtain ⟨reported', hcompleted', hunreported'⟩ := h'.reported
    refine ⟨reported ++ reported', ?_, ?_⟩
    · rw [hcompleted', hcompleted, map_append, append_assoc]
    · rw [append_assoc, hunreported', hunreported]
  nextRenderGeneration := h'.nextRenderGeneration.trans h.nextRenderGeneration
  config := h'.config.trans h.config

theorem KeepsWork.same (hactive : d'.scheduler.active = d.scheduler.active)
    (hrender : d'.scheduler.pendingRender = d.scheduler.pendingRender)
    (heffects : d'.scheduler.pendingEffects = d.scheduler.pendingEffects)
    (hbytes : d'.scheduler.pendingBytes = d.scheduler.pendingBytes)
    (hbells : d'.scheduler.pendingBells = d.scheduler.pendingBells)
    (hawaiting : d'.scheduler.awaitingFlushRenders = d.scheduler.awaitingFlushRenders)
    (hgeneration : d'.scheduler.nextRenderGeneration = d.scheduler.nextRenderGeneration)
    (hconfig : d'.scheduler.config = d.scheduler.config)
    (hcompleted : d'.report.completedRenders = d.report.completedRenders)
    (hfinished : d'.finished = d.finished) : KeepsWork d d' := by
  refine ⟨?_, ?_, ?_, ?_, ⟨[], by simpa using hcompleted, ?_⟩, hgeneration, hconfig⟩
  · simp only [renderLane, hactive, hrender, hfinished]
  · simp only [effectLane, hactive, heffects, hfinished]
  · simp only [controlLane, hactive, hbytes, hfinished]
  · simp only [bellLane, hactive, hbells, hfinished]
  · simp only [OutputScheduler.unreported, renderLane, hactive, hrender, hawaiting, nil_append]

theorem KeepsWork.refl : KeepsWork d d := .same rfl rfl rfl rfl rfl rfl rfl rfl rfl rfl

theorem foldl_completeRender (renders : List (TrackedRender Scene Bundle)) (d : Drain Scene Bundle) :
    ∃ release bypass report, renders.foldl completeRender d =
      { d with
        scheduler := { d.scheduler with
          synchronizationTimeoutReleaseGeneration := release
          applicationSynchronizationBypassGeneration := bypass }
        report := report } ∧
      report.completedRenders = d.report.completedRenders ++ renders.map TrackedRender.completed := by
  induction renders generalizing d with
  | nil => exact ⟨_, _, _, rfl, by simp⟩
  | cons render renders ih =>
    obtain ⟨release, bypass, report, heq, hcompleted⟩ := ih (completeRender d render)
    refine ⟨release, bypass, report, by rw [foldl_cons, heq]; rfl, ?_⟩
    rw [hcompleted]
    simp [completeRender]

theorem completeAwaiting_spec (d : Drain Scene Bundle) : ∃ release bypass report, d.completeAwaiting =
      { d with
        scheduler := { d.scheduler with
          awaitingFlushRenders := []
          awaitingFlushEffects := []
          synchronizationTimeoutReleaseGeneration := release
          applicationSynchronizationBypassGeneration := bypass }
        report := report } ∧
      report.completedRenders = d.report.completedRenders ++
        d.scheduler.awaitingFlushRenders.map TrackedRender.completed := by
  obtain ⟨release, bypass, report, heq, hcompleted⟩ := foldl_completeRender
    d.scheduler.awaitingFlushRenders { d with scheduler := { d.scheduler with
      awaitingFlushRenders := []
      awaitingFlushEffects := [] } }
  refine ⟨release, bypass, { report with
    completedEffects := report.completedEffects ++ d.scheduler.awaitingFlushEffects }, ?_, hcompleted⟩
  unfold completeAwaiting
  simp only
  rw [heq]

omit [SceneGeometry Scene] in
theorem unreported_eq {s s' : OutputScheduler Scene Bundle}
    (hawaiting : s'.awaitingFlushRenders = s.awaitingFlushRenders)
    (hlane : s'.renderLane = s.renderLane) : s'.unreported = s.unreported := by
  rw [OutputScheduler.unreported, OutputScheduler.unreported, hawaiting, hlane]

theorem activate_keepsWork (d : Drain Scene Bundle) :
    KeepsWork d { d with scheduler := d.scheduler.activatePending } := by
  cases hactive : d.scheduler.active with
  | cons t rest =>
    have hsame : d.scheduler.activatePending = d.scheduler := by
      simp [OutputScheduler.activatePending, hactive]
    rw [hsame]
    exact .refl
  | nil =>
    have hactivated : d.scheduler.activatePending = { d.scheduler with
        active := d.scheduler.activations
        pendingBytes := []
        pendingEffects := []
        pendingRender := none
        pendingBells := 0
        pendingSinceMs := none } := by
      simp [OutputScheduler.activatePending, hactive]
    have hrenders : d.scheduler.activatePending.renderLane = d.scheduler.renderLane := by
      rw [hactivated, renderLane, renderLane, hactive, rendersOf_activations]
      simp [rendersOf]
    refine ⟨?_, ?_, ?_, ?_, ⟨[], by simp, ?_⟩, ?_, ?_⟩
    · rw [hrenders]
    · rw [hactivated, effectLane, effectLane, hactive, effectsOf_activations]
      simp [effectsOf]
    · rw [hactivated, controlLane, controlLane, hactive, controlsOf_activations]
      simp [controlsOf]
    · rw [hactivated, bellLane, bellLane, hactive, bellsOf_activations]
      simp [bellsOf]
    · exact unreported_eq (by rw [hactivated]) hrenders
    · rw [hactivated]
    · rw [hactivated]

theorem Move.keepsWork (h : Move d d') : KeepsWork d d' := by
  cases h with
  | wait waiting => exact .same rfl rfl rfl rfl rfl rfl rfl rfl rfl rfl
  | block writer same => exact .same rfl rfl rfl rfl rfl rfl rfl rfl rfl rfl
  | retry writer same => exact .same rfl rfl rfl rfl rfl rfl rfl rfl rfl rfl
  | release startedMs lastActivityMs held => exact .same rfl rfl rfl rfl rfl rfl rfl rfl rfl rfl
  | flush writer same => exact .same rfl rfl rfl rfl rfl rfl rfl rfl rfl rfl
  | conclude => exact .same rfl rfl rfl rfl rfl rfl rfl rfl rfl rfl
  | activate => exact activate_keepsWork d
  | write t rest count writer front some fits same =>
    have hrenders : (d.advanceFront t rest count writer).scheduler.renderLane = d.scheduler.renderLane := by
      simp only [renderLane, advanceFront, front, rendersOf_cons]
    refine ⟨by rw [hrenders]; rfl, ?_, ?_, ?_, ⟨[], by simp [advanceFront], ?_⟩, rfl, rfl⟩
    · simp [effectLane, advanceFront, front, effectsOf]
    · simp [controlLane, advanceFront, front, controlsOf, filter_cons, apply_ite]
    · simp [bellLane, advanceFront, front, bellsOf, filter_cons, apply_ite]
    · exact unreported_eq rfl hrenders
  | pop t rest front done =>
    refine ⟨?_, ?_, ?_, ?_, ⟨[], by simp [finishFront], ?_⟩, rfl, rfl⟩
    · have hsingle : rendersOf [t] = t.completedRender.toList := by
        rw [rendersOf_cons]
        simp [rendersOf]
      simp only [renderLane, finishFront, front, rendersOf_append, rendersOf_cons t rest, hsingle, append_assoc]
    · simp [effectLane, finishFront, front, effectsOf]
    · have hcons : controlsOf (t :: rest) = controlsOf [t] ++ controlsOf rest :=
        controlsOf_append [t] rest
      simp only [controlLane, finishFront, front, controlsOf_append, hcons, append_assoc]
    · simp only [bellLane, finishFront, front, bellsOf_append]
      have hcons : bellsOf (t :: rest) = bellsOf [t] + bellsOf rest := bellsOf_append [t] rest
      omega
    · simp only [OutputScheduler.unreported, renderLane, finishFront, front,
        rendersOf_cons t rest, append_assoc, nil_append]
  | complete flushed =>
    obtain ⟨release, bypass, report, heq, hcompleted⟩ := completeAwaiting_spec d
    rw [heq]
    exact ⟨rfl, rfl, rfl, rfl, ⟨d.scheduler.awaitingFlushRenders, hcompleted, rfl⟩, rfl, rfl⟩

theorem Moves.keepsWork (h : Moves d d') : KeepsWork d d' := by
  induction h with
  | refl => exact .refl
  | tail _ hmove ih => exact ih.trans hmove.keepsWork

/-! ### Views -/

section Views

variable {β : Type} (view : ActiveTransaction Scene Bundle → List β)

/-- In the order of writing: finished, active and still to be activated. -/
def seen (finished : List (ActiveTransaction Scene Bundle)) (s : OutputScheduler Scene Bundle) : List β :=
  (finished ++ s.active ++ s.activations).flatMap view

/-- **A call of `drain_ready` moves the boundary of what is written along a view, and nothing else.** -/
theorem Move.seen_eq (hoffset : ∀ t offset, view { t with offset := offset } = view t) (h : Move d d') :
    seen view d'.finished d'.scheduler = seen view d.finished d.scheduler := by
  cases h with
  | wait waiting => rfl
  | block writer same => rfl
  | retry writer same => rfl
  | release startedMs lastActivityMs held => rfl
  | flush writer same => rfl
  | conclude => rfl
  | activate =>
    simp only [OutputScheduler.activatePending]
    split
    · rename_i hempty
      simp [seen, activations, bellTransactions, isEmpty_iff.mp hempty]
    · rfl
  | write t rest count writer front some fits same =>
    have hactivations : (d.advanceFront t rest count writer).scheduler.activations =
        d.scheduler.activations := rfl
    unfold seen
    rw [hactivations]
    simp only [advanceFront, front, flatMap_append, flatMap_cons, hoffset]
  | pop t rest front done =>
    have hactivations : (d.finishFront t rest).scheduler.activations = d.scheduler.activations := rfl
    unfold seen
    rw [hactivations]
    simp only [finishFront, front, append_assoc, singleton_append]
  | complete flushed =>
    obtain ⟨release, bypass, report, heq, -⟩ := completeAwaiting_spec d
    rw [heq]
    rfl

theorem Moves.seen_eq (hoffset : ∀ t offset, view { t with offset := offset } = view t) (h : Moves d d') :
    seen view d'.finished d'.scheduler = seen view d.finished d.scheduler := by
  induction h with
  | refl => rfl
  | tail _ hmove ih => exact (hmove.seen_eq view hoffset).trans ih

end Views

end Moves

end Lector.Output
