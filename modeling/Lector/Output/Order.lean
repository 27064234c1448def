import Lector.Output.Ledger

/-! No interleaving. Whatever is called in whatever order, and however the writer cuts its writes,
the accepted bytes are whole transactions and a prefix of the front one, and every piece of work is
written at most once. -/
namespace Lector.Output
open Batching List OutputScheduler

variable {Scene Bundle : Type}

/-! ## Offered work -/

def Op.offeredRender : Op Scene Bundle → Option (RenderBatch Scene × Bundle)
  | .render batch accessibility _ => some (batch, accessibility)
  | _ => none

section Offers

variable (maximum : Nat) (ops : List (Op Scene Bundle))

def offeredRenders : List (RenderBatch Scene × Bundle) := ops.filterMap Op.offeredRender

def offeredEffects : List ScheduledTerminalEffect := ops.flatMap fun op => (op.offer maximum).effects

def offeredControls : List Bytes := ops.flatMap fun op => (op.offer maximum).controls

def offeredBells : Nat := (ops.map fun op => (op.offer maximum).bells).sum

end Offers

/-! ## Every piece of work once -/

/-- A selection of what was offered, in order and without repetition. -/
structure Once (maximum : Nat) (ops : List (Op Scene Bundle)) (r : Run Scene Bundle) : Prop where
  config : r.scheduler.config.maximumPendingBytes = maximum
  accepted : (r.accepted.map fun a => (a.batch, a.accessibility)).Sublist (offeredRenders ops)
  renders : (rendersOf r.finished ++ r.scheduler.renderLane).Sublist
    (r.accepted.map AcceptedRender.tracked)
  effects : (effectsOf r.finished ++ r.scheduler.effectLane).Sublist (offeredEffects maximum ops)
  controls : Batched (controlsOf r.finished ++ r.scheduler.controlLane) (offeredControls maximum ops)
  bells : bellsOf r.finished + r.scheduler.bellLane ≤ offeredBells maximum ops

section Steps

variable {maximum : Nat} {ops : List (Op Scene Bundle)} {r : Run Scene Bundle}

theorem once_start (config : OutputSchedulerConfig) (supported : Bool)
    (writes : List WriteResponse) (flushes : List FlushResponse) :
    Once config.maximumPendingBytes [] (Run.start config supported writes flushes : Run Scene Bundle) := by
  refine ⟨rfl, .refl _, .refl _, .refl _, batched_nil, le_rfl⟩

section

variable (h : Once maximum ops r)
include h

theorem Once.offer_more (op : Op Scene Bundle) : Once maximum (ops ++ [op]) r where
  config := h.config
  accepted := h.accepted.trans (by
    rw [offeredRenders, offeredRenders, filterMap_append]
    exact sublist_append_left _ _)
  renders := h.renders
  effects := h.effects.trans (by
    rw [offeredEffects, offeredEffects, flatMap_append]
    exact sublist_append_left _ _)
  controls := h.controls.mono (by
    rw [offeredControls, offeredControls, flatMap_append]
    exact sublist_append_left _ _)
  bells := le_trans h.bells (by
    rw [offeredBells, offeredBells, map_append, sum_append]
    exact Nat.le_add_right _ _)

theorem Once.command (c : Command) :
    Once maximum (ops ++ [.command c]) { r with scheduler := c.apply r.scheduler } := by
  have hadv := c.apply_advances r.scheduler
  rw [h.config] at hadv
  refine ⟨hadv.config ▸ h.config, (h.offer_more _).accepted, ?_, ?_, ?_, ?_⟩
  · exact ((Sublist.refl _).append hadv.renders).trans h.renders
  · rw [offeredEffects, flatMap_append, flatMap_singleton]
    apply ((Sublist.refl _).append hadv.effects).trans
    rw [← append_assoc]
    exact h.effects.append (Sublist.refl _)
  · rw [offeredControls, flatMap_append, flatMap_singleton]
    exact hadv.controls _ _ h.controls
  · have hbefore := h.bells
    have hoffered := hadv.bells
    have hsum : offeredBells maximum (ops ++ [Op.command c]) =
        offeredBells maximum ops + (c.offer maximum).bells := by
      simp [offeredBells, Op.offer]
    simp only
    omega

theorem Once.withdraw {s : OutputScheduler Scene Bundle}
    (hadv : Advances .none r.scheduler s) : Once maximum ops { r with scheduler := s } := by
  refine ⟨hadv.config ▸ h.config, h.accepted, ?_, ?_, ?_, le_trans ?_ h.bells⟩
  · exact ((Sublist.refl _).append hadv.renders).trans h.renders
  · have heffects := hadv.effects
    simp only [Offer.none, append_nil] at heffects
    exact ((Sublist.refl _).append heffects).trans h.effects
  · have hcontrols := hadv.controls _ _ h.controls
    simp only [Offer.none, append_nil] at hcontrols
    exact hcontrols
  · exact Nat.add_le_add_left hadv.bells _

theorem Once.render (batch : RenderBatch Scene) (accessibility : Bundle) (nowMs : Nat) :
    Once maximum (ops ++ [.render batch accessibility nowMs]) (r.enqueueRender batch accessibility nowMs) := by
  obtain ⟨hdropped, hadv⟩ | ⟨hkept, hacc⟩ := r.scheduler.enqueueRender_cases batch accessibility nowMs
  · rw [Run.enqueueRender, if_pos hdropped]
    exact (h.withdraw hadv).offer_more _
  · rw [Run.enqueueRender, if_neg hkept]
    obtain ⟨s₀, hadv, hactive, heffects, hbytes, hbells, -, -, hconfig⟩ := hacc.withdrawn
    obtain ⟨byteLen, hpending⟩ := hacc.pending
    have h₀ := (h.withdraw hadv).offer_more (.render batch accessibility nowMs)
    refine ⟨hconfig ▸ h₀.config, ?_, ?_, ?_, ?_, ?_⟩
    · rw [offeredRenders, filterMap_append, map_append]
      exact h.accepted.append (Sublist.refl _)
    · simp only [renderLane, hactive, hpending, map_append]
      rw [← append_assoc]
      apply Sublist.append _ (Sublist.refl _)
      apply Sublist.trans _ h₀.renders
      exact (Sublist.refl _).append (sublist_append_left _ _)
    · simp only [effectLane, hactive, heffects]
      exact h₀.effects
    · simp only [controlLane, hactive, hbytes]
      exact h₀.controls
    · simp only [bellLane, hactive, hbells]
      exact h₀.bells

end

variable [SceneGeometry Scene]

theorem Once.drain (h : Once maximum ops r) {α : Type} {p : Phase Scene Bundle α}
    (hp : p.Follows r.opened) : Once maximum ops (r.close p) := by
  obtain ⟨-, hmoves⟩ | ⟨-, d, hmoves, writer, -, hfailed⟩ := hp
  · have hkeeps := hmoves.keepsWork
    exact ⟨hkeeps.config ▸ h.config, h.accepted, hkeeps.renders ▸ h.renders,
      hkeeps.effects ▸ h.effects, hkeeps.controls ▸ h.controls,
      le_trans (le_of_eq hkeeps.bells) h.bells⟩
  · have hconfig : d.scheduler.config = r.scheduler.config := hmoves.keepsWork.config
    refine ⟨?_, h.accepted, ?_, ?_, ?_, ?_⟩
    · rw [← h.config, ← hconfig]
      simp only [Run.close, hfailed]
      rfl
    · simp [Run.close, hfailed, Drain.fail, OutputScheduler.failed, renderLane, rendersOf]
    · simp [Run.close, hfailed, Drain.fail, OutputScheduler.failed, effectLane, effectsOf]
    · apply h.controls.sublist
      simp [Run.close, hfailed, Drain.fail, OutputScheduler.failed, controlLane, controlsOf]
    · simp [Run.close, hfailed, Drain.fail, OutputScheduler.failed, bellLane, bellsOf]

theorem Once.step (h : Once maximum ops r) (op : Op Scene Bundle) : Once maximum (ops ++ [op]) (r.step op) := by
  unfold Run.step
  split
  · exact h.offer_more op
  · cases op with
    | command c => exact h.command c
    | render batch accessibility nowMs => exact h.render batch accessibility nowMs
    | drain nowMs force => exact (h.drain (Drain.drainReady_follows _ nowMs force)).offer_more _

theorem Once.runOps (h : Once maximum ops r) (more : List (Op Scene Bundle)) :
    Once maximum (ops ++ more) (r.runOps more) := by
  induction more generalizing ops r with
  | nil =>
    rw [append_nil]
    exact h
  | cons op more ih =>
    have hrest := ih (h.step op)
    rw [append_assoc] at hrest
    exact hrest

end Steps

/-! ## The law -/

namespace Run

variable [SceneGeometry Scene]

/-- **Accepted output is never interleaved.** In every run without a fatal error the writer has accepted
finished transactions, one after the other, and a prefix of the front one. What they carry was accepted before,
each piece once and in order. -/
theorem accepted_serial (config : OutputSchedulerConfig) (supported : Bool)
    (writes : List WriteResponse) (flushes : List FlushResponse) (ops : List (Op Scene Bundle))
    (r : Run Scene Bundle) (hr : r = (start config supported writes flushes).runOps ops)
    (hfatal : WriterEvent.failed ∉ r.writer.events) : ∃ finished : List (ActiveTransaction Scene Bundle),
      acceptedBytes r.writer.events = finished.flatMap ActiveTransaction.bytes ++
        r.scheduler.active.head?.elim [] (fun t => t.bytes.take t.offset) ∧
      (∀ t ∈ r.scheduler.active.tail, t.offset = 0) ∧
      (∀ t ∈ finished ++ r.scheduler.active, Genuine r.accepted t) ∧
      (r.accepted.map fun a => (a.batch, a.accessibility)).Sublist (offeredRenders ops) ∧
      (rendersOf finished ++ r.scheduler.renderLane).Sublist
        (r.accepted.map AcceptedRender.tracked) ∧
      (effectsOf finished ++ r.scheduler.effectLane).Sublist
        (offeredEffects config.maximumPendingBytes ops) ∧
      Batched (controlsOf finished ++ r.scheduler.controlLane)
        (offeredControls config.maximumPendingBytes ops) ∧
      bellsOf finished + r.scheduler.bellLane ≤ offeredBells config.maximumPendingBytes ops := by
  have hsound : r.Sound := hr ▸ sound_runOps (sound_start config supported writes flushes) ops
  have honce : Once config.maximumPendingBytes ops r := by
    have hrun := (once_start config supported writes flushes).runOps ops
    rw [← hr] at hrun
    exact hrun
  obtain ⟨past, recent, hevents, hpast, -, hserial, -⟩ := hsound.written
  have hnone : past = [] := by
    obtain hpast | hpast := hpast
    · exact hpast
    · have hmem : WriterEvent.failed ∈ r.writer.events := by
        show WriterEvent.failed ∈ r.opened.writer.events
        rw [hevents]
        exact mem_append_left _ hpast
      exact absurd hmem hfatal
  have hrecent : r.writer.events = recent := by
    rw [hnone] at hevents
    exact hevents
  refine ⟨r.finished, ?_, hserial.behind, hsound.genuine, honce.accepted, honce.renders,
    honce.effects, honce.controls, honce.bells⟩
  rw [hrecent, hserial.output_eq]
  show _ ++ transactionLayout.started r.scheduler.active = _
  cases r.scheduler.active with
  | nil => rfl
  | cons t rest => rfl

instance : SceneGeometry TerminalGeometry := ⟨id⟩

def textFrame (text : String) : RenderBatch TerminalGeometry := ⟨[⟨ascii text⟩], ⟨24, 80, 0, 0⟩⟩

/-- A frame is replaced while the bytes before it are half written, and a bell follows. -/
def replacingOps : List (Op TerminalGeometry Nat) :=
  [.command (.enqueueBytes .control (ascii "AB") 0), .render (textFrame "old") 1 0,
    .drain 0 false, .command .notifyWritable, .render (textFrame "new") 2 1,
    .command (.enqueueBell 1 1), .drain 1 false, .drain 2 false]

def replacingRun : Run TerminalGeometry Nat :=
  (start .default false [.accepted 1, .interrupted, .wouldBlock, .accepted 9, .accepted 2,
    .wouldBlock] [.flushed, .flushed, .flushed]).runOps replacingOps

theorem accepted_serial_replaced : acceptedBytes replacingRun.writer.events = ascii "ABne" ∧
      ∃ finished : List (ActiveTransaction TerminalGeometry Nat),
        acceptedBytes replacingRun.writer.events = finished.flatMap ActiveTransaction.bytes ++
          replacingRun.scheduler.active.head?.elim [] (fun t => t.bytes.take t.offset) := by
  obtain ⟨finished, hserial, -⟩ := accepted_serial .default false
    [.accepted 1, .interrupted, .wouldBlock, .accepted 9, .accepted 2, .wouldBlock]
    [.flushed, .flushed, .flushed] replacingOps replacingRun rfl (by decide +kernel)
  exact ⟨by decide +kernel, finished, hserial⟩

end Run

end Lector.Output
