import Lector.Output.Bypass

/-! When `drain_ready` is due (`next_deadline_ms`), and what a call at that time gets done. Deadline
and readiness are decided by two functions, which agree. -/
namespace Lector.Output
open Loop WriteResponse OutputScheduler
open Option hiding max mem_map min
open List hiding max min

variable {Scene Bundle : Type}

/-! ## The deadline -/

namespace OutputScheduler

variable (s : OutputScheduler Scene Bundle)

def synchronizationDeadlineMs : Option Nat :=
  match s.applicationSynchronization with
  | some (.active startedMs lastActivityMs) =>
    some (min (saturatingAdd 128 lastActivityMs s.config.synchronizationTimeoutMs)
      (saturatingAdd 128 startedMs s.config.synchronizationHardTimeoutMs))
  | _ => none

def holdsOutput : Bool :=
  match s.applicationSynchronization with
  | some (.active _ _) => true
  | _ => false

def holdBlocksUnstartedActive : Bool :=
  s.holdsOutput && s.applicationSynchronizationBypassGeneration.isNone &&
    s.active.head?.any fun t => t.offset == 0

def earliest : Option Nat → Option Nat → Option Nat
  | some first, some second => some (min first second)
  | some first, none => some first
  | none, second => second

def nextDeadlineMs : Option Nat :=
  if s.waitingForWritable then none
  else if !s.hasWork && !s.flushRequired then s.synchronizationDeadlineMs
  else if (!s.active.isEmpty || s.flushRequired) && !s.holdBlocksUnstartedActive then some 0
  else if s.applicationSynchronizationBypassGeneration.isNone && s.synchronizationDeadlineMs.isSome then
    s.synchronizationDeadlineMs
  else
    earliest (s.pendingSinceMs.map fun started => saturatingAdd 128 started s.config.latencyBudgetMs)
      s.synchronizationDeadlineMs

end OutputScheduler

/-! ## What is queued is worth a call -/

namespace ActiveTransaction

variable (t : ActiveTransaction Scene Bundle)

def Reported : Prop := t.completedRender.isSome ∨ t.completedEffects ≠ []

def Worthwhile : Prop := t.remaining ≠ [] ∨ t.Reported

/-- The same of the whole transaction, however much of it is written. -/
def Fruitful : Prop := t.bytes ≠ [] ∨ t.Reported

theorem Worthwhile.fruitful {t : ActiveTransaction Scene Bundle} (h : t.Worthwhile) : t.Fruitful := by
  refine h.imp (fun hremaining hbytes => hremaining ?_) id
  rw [remaining, hbytes, drop_nil]

theorem Fruitful.worthwhile {t : ActiveTransaction Scene Bundle} (h : t.Fruitful)
    (hunstarted : t.offset = 0) : t.Worthwhile := by
  refine h.imp (fun hbytes => ?_) id
  rwa [remaining, hunstarted, drop_zero]

end ActiveTransaction

namespace OutputScheduler

/-- What is queued has a budget, nothing active is complete, and only the front has been started. -/
structure Poised (s : OutputScheduler Scene Bundle) : Prop where
  idle : s.pendingSinceMs = none →
    s.pendingBytes = [] ∧ s.pendingRender = none ∧ s.pendingEffects = [] ∧ s.pendingBells = 0
  queued : ∀ pending ∈ s.pendingBytes, pending.bytes ≠ []
  active : ∀ t ∈ s.active, t.Worthwhile
  behind : ∀ t ∈ s.active.tail, t.offset = 0

variable {s s' : OutputScheduler Scene Bundle}

theorem poised_new (config : OutputSchedulerConfig) (supported : Bool) :
    (new config supported : OutputScheduler Scene Bundle).Poised where
  idle _ := ⟨rfl, rfl, rfl, rfl⟩
  queued _ h := absurd h not_mem_nil
  active _ h := absurd h not_mem_nil
  behind _ h := absurd h not_mem_nil

theorem poised_failed : s.failed.Poised where
  idle _ := ⟨rfl, rfl, rfl, rfl⟩
  queued _ h := absurd h not_mem_nil
  active _ h := absurd h not_mem_nil
  behind _ h := absurd h not_mem_nil

theorem Poised.shrink (h : s.Poised) (hactive : s'.active.Sublist s.active)
    (hbytes : s'.pendingBytes.Sublist s.pendingBytes)
    (hrender : s.pendingRender = none → s'.pendingRender = none)
    (heffects : s'.pendingEffects.Sublist s.pendingEffects) (hbells : s'.pendingBells ≤ s.pendingBells)
    (hsince : s'.pendingSinceMs = s.pendingSinceMs) : s'.Poised where
  idle hnone := by
    obtain ⟨hb, hr, he, hl⟩ := h.idle (hsince ▸ hnone)
    rw [hb] at hbytes
    rw [he] at heffects
    exact ⟨sublist_nil.mp hbytes, hrender hr, sublist_nil.mp heffects, by omega⟩
  queued pending hmem := h.queued pending (hbytes.subset hmem)
  active t hmem := h.active t (hactive.subset hmem)
  behind t hmem := h.behind t (hactive.tail.subset hmem)

theorem Poised.admit (h : s.Poised) (hactive : s'.active.Sublist s.active)
    (hqueued : ∀ pending ∈ s'.pendingBytes, pending.bytes ≠ [])
    (hsince : s'.pendingSinceMs.isSome) : s'.Poised where
  idle hnone := by
    rw [hnone] at hsince
    cases hsince
  queued := hqueued
  active t hmem := h.active t (hactive.subset hmem)
  behind t hmem := h.behind t (hactive.tail.subset hmem)

theorem coalesceBytes_nonempty {maximum : Nat} {pending : List PendingBytes} {kind : ScheduledOutputClass}
    {bytes : Bytes} (hpending : ∀ p ∈ pending, p.bytes ≠ []) (hbytes : bytes ≠ []) :
    ∀ p ∈ coalesceBytes maximum pending kind bytes, p.bytes ≠ [] := by
  have happend : ∀ p ∈ pending ++ [⟨kind, bytes⟩], p.bytes ≠ [] := by
    intro p hp
    obtain hp | hp := mem_append.mp hp
    · exact hpending p hp
    · rw [mem_singleton.mp hp]
      exact hbytes
  unfold coalesceBytes
  split
  · split
    · intro p hp
      obtain hp | hp := mem_append.mp hp
      · exact hpending p (dropLast_subset _ hp)
      · rw [mem_singleton.mp hp]
        simp [hbytes]
    · exact happend
  · exact happend

section

variable (h : s.Poised)
include h

theorem Poised.evictUnstarted : s.evictUnstarted.Poised := by
  refine h.shrink filter_sublist (.refl _) (fun hnone => ?_) (nil_sublist _) (Nat.zero_le _) rfl
  simp only [OutputScheduler.evictUnstarted, hnone, filter_none]

theorem Poised.enqueueBytes (kind : ScheduledOutputClass) (bytes : Bytes) (nowMs : Nat) :
    (s.enqueueBytes kind bytes nowMs).Poised := by
  unfold OutputScheduler.enqueueBytes
  split
  · exact h
  · rename_i hbytes
    split
    · exact h
    · have hevicted : (if s.exceeds bytes.length then s.evictUnstarted else s).Poised := by
        split
        · exact h.evictUnstarted
        · exact h
      simp only
      generalize (if s.exceeds bytes.length then s.evictUnstarted else s) = evicted at hevicted
      split
      · exact hevicted
      · exact hevicted.admit (.refl _) (coalesceBytes_nonempty hevicted.queued hbytes) rfl

theorem Poised.prepareForLifecycleCleanup : s.prepareForLifecycleCleanup.Poised where
  idle _ := ⟨rfl, rfl, rfl, rfl⟩
  queued _ hmem := absurd hmem not_mem_nil
  active t hmem := h.active t (mem_of_mem_filter hmem)
  behind t hmem := h.behind t ((filter_sublist (l := s.active)).tail.subset hmem)

theorem Poised.enqueueRender (batch : RenderBatch Scene) (accessibility : Bundle)
    (nowMs : Nat) : (s.enqueueRenderWithAccessibility batch accessibility nowMs).2.Poised := by
  have htaken : { s with bypassNextRender := false }.Poised :=
    h.shrink (.refl _) (.refl _) id (.refl _) (le_rfl) rfl
  unfold enqueueRenderWithAccessibility
  simp only
  split
  · exact htaken
  · split
    · exact htaken
    · unfold acceptRender
      cases hindex : replaceableActiveIndex { s with bypassNextRender := false } with
      | none => exact htaken.admit (.refl _) htaken.queued rfl
      | some index =>
        refine htaken.admit (Sublist.trans filter_sublist (eraseIdx_sublist _ _)) htaken.queued rfl

theorem Poised.setSynchronizedOutputSupported (supported : Bool) :
    (s.setSynchronizedOutputSupported supported).Poised := by
  refine h.shrink (.refl _) (.refl _) (fun hnone => ?_) (.refl _) (le_rfl) rfl
  simp [OutputScheduler.setSynchronizedOutputSupported, hnone]

variable (owner : SurfaceId)

theorem Poised.supersedeEffects (kind : TerminalEventKind) : (s.supersedeEffects owner kind).Poised :=
  h.shrink filter_sublist (.refl _) id filter_sublist (le_rfl) rfl

theorem Poised.removePendingEffect (kind : TerminalEventKind) : (s.removePendingEffect owner kind).Poised := by
  unfold OutputScheduler.removePendingEffect
  split
  · exact h.shrink (.refl _) (.refl _) id (eraseIdx_sublist _ _) (le_rfl) rfl
  · exact h

theorem Poised.enqueueTerminalEffect (event : TerminalEvent)
    (nowMs : Nat) : (s.enqueueTerminalEffect owner event nowMs).Poised := by
  obtain ⟨roomier, hroomier, heq | ⟨-, heq⟩⟩ := s.enqueueTerminalEffect_rule (P := Poised) rfl owner nowMs h
    (h.supersedeEffects owner _) fun _ h' => h'.removePendingEffect owner _
  · rw [heq]
    exact hroomier
  · rw [heq]
    exact hroomier.admit (.refl _) hroomier.queued rfl

theorem Poised.enqueueBell (count nowMs : Nat) : (s.enqueueBell count nowMs).Poised := by
  unfold OutputScheduler.enqueueBell
  simp only
  split
  · exact h
  · exact h.admit (.refl _) h.queued rfl

theorem Poised.same (hactive : s'.active = s.active) (hbytes : s'.pendingBytes = s.pendingBytes)
    (hrender : s'.pendingRender = s.pendingRender) (heffects : s'.pendingEffects = s.pendingEffects)
    (hbells : s'.pendingBells = s.pendingBells) (hsince : s'.pendingSinceMs = s.pendingSinceMs) : s'.Poised :=
  h.shrink (hactive ▸ .refl _) (hbytes ▸ .refl _) (fun hnone => hrender.trans hnone)
    (heffects ▸ .refl _) (le_of_eq hbells) hsince

theorem Poised.observeApplicationSynchronization (synchronized opened activity : Bool)
    (nowMs : Nat) : (s.observeApplicationSynchronization synchronized opened activity nowMs).Poised := by
  unfold OutputScheduler.observeApplicationSynchronization
  split
  · split
    · split
      · exact h.same rfl rfl rfl rfl rfl rfl
      · exact h
    · split
      · exact h.same rfl rfl rfl rfl rfl rfl
      · exact h
    · exact h.same rfl rfl rfl rfl rfl rfl
  · exact h.same rfl rfl rfl rfl rfl rfl

end

end OutputScheduler

theorem Command.apply_poised {s : OutputScheduler Scene Bundle} (h : s.Poised) (c : Command) :
    (c.apply s).Poised := by
  cases c with
  | enqueueBytes kind bytes nowMs => exact h.enqueueBytes kind bytes nowMs
  | enqueueTerminalEffect owner event nowMs => exact h.enqueueTerminalEffect owner event nowMs
  | enqueueBell count nowMs => exact h.enqueueBell count nowMs
  | setSynchronizedOutputSupported supported => exact h.setSynchronizedOutputSupported supported
  | observeApplicationSynchronization synchronized opened activity nowMs =>
    exact h.observeApplicationSynchronization synchronized opened activity nowMs
  | setApplicationSynchronizationBypassed bypassed => exact h.same rfl rfl rfl rfl rfl rfl
  | prepareForLifecycleCleanup => exact h.prepareForLifecycleCleanup
  | recover => exact h.same rfl rfl rfl rfl rfl rfl
  | notifyWritable => exact h.same rfl rfl rfl rfl rfl rfl

/-! ## Calls of `drain_ready` -/

namespace OutputScheduler

/-- Inside a call: only the front transaction can have been started, and it can be complete. -/
structure Loaded (s : OutputScheduler Scene Bundle) : Prop where
  idle : s.pendingSinceMs = none →
    s.pendingBytes = [] ∧ s.pendingRender = none ∧ s.pendingEffects = [] ∧ s.pendingBells = 0
  queued : ∀ pending ∈ s.pendingBytes, pending.bytes ≠ []
  active : ∀ t ∈ s.active, t.Fruitful
  behind : ∀ t ∈ s.active.tail, t.offset = 0

variable {s : OutputScheduler Scene Bundle}

theorem Poised.loaded (h : s.Poised) : s.Loaded :=
  ⟨h.idle, h.queued, fun t hmem => (h.active t hmem).fruitful, h.behind⟩

theorem Loaded.poised (h : s.Loaded)
    (hfront : ∀ t rest, s.active = t :: rest → t.offset = 0 ∨ t.remaining ≠ []) : s.Poised := by
  refine ⟨h.idle, h.queued, ?_, h.behind⟩
  cases hactive : s.active with
  | nil => exact fun t hmem => absurd hmem not_mem_nil
  | cons front rest =>
    intro t hmem
    have hfruitful : t.Fruitful := h.active t (hactive ▸ hmem)
    obtain rfl | hmem := mem_cons.mp hmem
    · obtain hunstarted | hremaining := hfront t rest hactive
      · exact hfruitful.worthwhile hunstarted
      · exact .inl hremaining
    · exact hfruitful.worthwhile (h.behind t (by rwa [hactive]))

theorem activations_worthwhile (h : ∀ pending ∈ s.pendingBytes, pending.bytes ≠ []) :
    ∀ t ∈ s.activations, t.Worthwhile := by
  intro t hmem
  simp only [activations, mem_append, mem_map, mem_toList, map_eq_some_iff] at hmem
  obtain ((⟨pending, hpending, rfl⟩ | ⟨-, -, rfl⟩) | ⟨-, -, rfl⟩) | hbells := hmem
  · exact .inl (h pending hpending)
  · exact .inr (.inr (by simp [ScheduledTerminalEffect.activated]))
  · exact .inr (.inl rfl)
  · unfold bellTransactions at hbells
    split at hbells
    · rename_i hcount
      rw [mem_singleton.mp hbells]
      exact .inl (by simp [ActiveTransaction.remaining, ne_of_gt hcount])
    · cases hbells

theorem Poised.activatePending (h : s.Poised) : s.activatePending.Poised := by
  unfold OutputScheduler.activatePending
  split
  · exact ⟨fun _ => ⟨rfl, rfl, rfl, rfl⟩, forall_mem_nil _,
      activations_worthwhile h.queued, fun t hmem => activations_unstarted s t (mem_of_mem_tail hmem)⟩
  · exact h

end OutputScheduler

namespace Drain

variable {d : Drain Scene Bundle}

section Completion

variable [SceneGeometry Scene]

theorem completeAwaiting_poised (h : d.scheduler.Poised) : d.completeAwaiting.scheduler.Poised := by
  obtain ⟨release, bypass, report, heq, -⟩ := completeAwaiting_spec d
  rw [heq]
  exact h.same rfl rfl rfl rfl rfl rfl

theorem flushIfRequired_poised (h : d.scheduler.Poised) :
    d.flushIfRequired.Yields (fun d _ => d.scheduler.Poised) (fun d => d.scheduler.Poised) := by
  unfold flushIfRequired
  split
  · refine run_rule (P := fun d => d.scheduler.Poised) flushBody (fun d h => ?_) d h
    show (flushRound d).elim _ (Phase.Yields (fun d _ => d.scheduler.Poised) fun d => d.scheduler.Poised)
    unfold flushRound
    split
    · exact h
    · rename_i answer flushes _
      cases answer with
      | flushed => exact completeAwaiting_poised (h.same rfl rfl rfl rfl rfl rfl)
      | interrupted => exact h
      | wouldBlock => exact h.same rfl rfl rfl rfl rfl rfl
      | failed => exact poised_failed
  · exact h

end Completion

section Rounds

variable {t : ActiveTransaction Scene Bundle} {rest : List (ActiveTransaction Scene Bundle)}

theorem advanceFront_loaded (h : d.scheduler.Loaded) (hfront : d.scheduler.active = t :: rest)
    (count : Nat) (writer : Writer) : (d.advanceFront t rest count writer).scheduler.Loaded where
  idle := h.idle
  queued := h.queued
  active u hmem := by
    obtain rfl | hmem := mem_cons.mp hmem
    · exact h.active t (hfront ▸ mem_cons_self)
    · exact h.active u (hfront ▸ mem_cons_of_mem _ hmem)
  behind u hmem := h.behind u (by rwa [hfront])

theorem finishFront_unstarted (h : d.scheduler.Loaded) (hfront : d.scheduler.active = t :: rest) :
    ∀ u ∈ (d.finishFront t rest).scheduler.active, u.offset = 0 :=
  fun u hmem => h.behind u (by rwa [hfront])

theorem finishFront_loaded (h : d.scheduler.Loaded) (hfront : d.scheduler.active = t :: rest) :
    (d.finishFront t rest).scheduler.Loaded where
  idle := h.idle
  queued := h.queued
  active u hmem := h.active u (hfront ▸ mem_cons_of_mem _ hmem)
  behind u hmem := finishFront_unstarted h hfront u (mem_of_mem_tail hmem)

/-- Where the write loop leaves: past the bypassing render nothing has been started. -/
def Stopped (d : Drain Scene Bundle) (reached : Bool) : Prop :=
  d.scheduler.Loaded ∧ (reached = true → ∀ t ∈ d.scheduler.active, t.offset = 0)

theorem writeFront_stopped {budget : Nat} (h : d.scheduler.Loaded)
    (hfront : d.scheduler.active = t :: rest) (hremaining : t.remaining ≠ []) :
    (d.writeFront budget t rest).elim (fun d => d.scheduler.Loaded)
      (Phase.Yields Stopped fun d => d.scheduler.Poised) := by
  have hpoised : d.scheduler.Poised := by
    refine h.poised fun u us heq => .inr ?_
    rw [hfront] at heq
    obtain ⟨rfl, -⟩ := cons.inj heq
    exact hremaining
  unfold writeFront
  split
  · exact hpoised
  · rename_i answer writes _
    cases answer with
    | accepted count =>
      dsimp only
      split
      · exact poised_failed
      · exact advanceFront_loaded h hfront _ _
    | interrupted => exact h
    | wouldBlock => exact hpoised.same rfl rfl rfl rfl rfl rfl
    | failed => exact poised_failed

theorem writeLoop_stopped (budget : Nat) (finishOnly : Bool) (h : d.scheduler.Loaded) :
    (Loop.run (writeBody budget finishOnly) d).Yields Stopped (fun d => d.scheduler.Poised) := by
  have hstay : ∀ d : Drain Scene Bundle, d.scheduler.Loaded → Stopped d false :=
    fun d h => ⟨h, fun hreached => absurd hreached Bool.false_ne_true⟩
  refine run_rule (P := fun d => d.scheduler.Loaded) _ (fun d h => ?_) d h
  show (writeRound budget finishOnly d).elim _ (Phase.Yields Stopped fun d => d.scheduler.Poised)
  unfold writeRound
  split
  · exact hstay d h
  · split
    · exact hstay d h
    · rename_i t rest hactive
      split
      · exact hstay d h
      · split
        · split
          · exact ⟨finishFront_loaded h hactive, fun _ => finishFront_unstarted h hactive⟩
          · exact finishFront_loaded h hactive
        · rename_i hremaining
          exact writeFront_stopped h hactive hremaining

theorem popLoop_poised {reached : Bool} (h : d.Stopped reached) :
    (Loop.run popBody (d, reached)).scheduler.Poised := by
  refine run_rule (P := fun p : Drain Scene Bundle × Bool => p.1.Stopped p.2)
    (Q := fun d => d.scheduler.Poised) popBody (fun p h => ?_) (d, reached) h
  show (popRound p).elim _ _
  unfold popRound
  split
  · rename_i hreached
    refine h.1.poised fun t rest hactive => .inl ?_
    exact h.2 hreached t (hactive ▸ mem_cons_self)
  · split
    · rename_i hactive
      refine h.1.poised fun t rest hcons => ?_
      rw [hactive] at hcons
      cases hcons
    · rename_i t rest hactive
      split
      · exact ⟨finishFront_loaded h.1 hactive, fun _ => finishFront_unstarted h.1 hactive⟩
      · rename_i hremaining
        refine h.1.poised fun u us hcons => .inr ?_
        rw [hactive] at hcons
        obtain ⟨rfl, -⟩ := cons.inj hcons
        exact hremaining

theorem holdOutput_poised (nowMs : Nat) (force : Bool) (h : d.scheduler.Poised) :
    (d.holdOutput nowMs force).Yields (fun d _ => d.scheduler.Poised) (fun d => d.scheduler.Poised) := by
  unfold holdOutput
  split
  · simp only
    split
    · exact h.same rfl rfl rfl rfl rfl rfl
    · split
      · exact h
      · split
        · exact h
        · exact h
  · exact h

end Rounds

variable [SceneGeometry Scene]

theorem writeActive_poised (finishOnly : Bool) (h : d.scheduler.Poised) :
    (d.writeActive finishOnly).Yields (fun d _ => d.scheduler.Poised) (fun d => d.scheduler.Poised) := by
  apply Phase.Yields.andThen (writeLoop_stopped (d := { d with scheduler := d.scheduler.activatePending })
    _ finishOnly h.activatePending.loaded)
  intro written reached hstopped
  apply Phase.Yields.andThen (flushIfRequired_poised (popLoop_poised hstopped))
  intro flushed _ hflushed
  unfold completeIfFlushed
  split
  · exact hflushed
  · exact completeAwaiting_poised hflushed

/-- **What a call leaves is worth another call**, however it ends. -/
theorem drainReady_poised (h : d.scheduler.Poised) (nowMs : Nat) (force : Bool) :
    (d.drainReady nowMs force).drain.scheduler.Poised := by
  have hyields : (d.drainReady nowMs force).Yields (fun d _ => d.scheduler.Poised)
      (fun d => d.scheduler.Poised) := by
    unfold drainReady
    split
    · exact h
    · split
      · exact h
      · apply Phase.Yields.andThen (flushIfRequired_poised
          (d := d.setWaiting (!force && d.scheduler.waitingForWritable)) (h.same rfl rfl rfl rfl rfl rfl))
        intro flushed _ hflushed
        apply Phase.Yields.andThen (holdOutput_poised nowMs force hflushed)
        intro held finishOnly hheld
        split
        · exact hheld
        · exact writeActive_poised finishOnly hheld
  cases hphase : d.drainReady nowMs force with
  | next d' a =>
    rw [hphase] at hyields
    exact hyields
  | stop outcome d' =>
    rw [hphase] at hyields
    exact hyields

end Drain

/-! ## Runs -/

namespace Run

variable [SceneGeometry Scene] {r : Run Scene Bundle}

theorem poised_step (h : r.scheduler.Poised) (op : Op Scene Bundle) : (r.step op).scheduler.Poised := by
  unfold step
  split
  · exact h
  · cases op with
    | command c => exact c.apply_poised h
    | render batch accessibility nowMs => exact h.enqueueRender batch accessibility nowMs
    | drain nowMs force => exact Drain.drainReady_poised (d := r.opened) h nowMs force

theorem poised_runOps (h : r.scheduler.Poised) (ops : List (Op Scene Bundle)) :
    (r.runOps ops).scheduler.Poised := by
  induction ops generalizing r with
  | nil => exact h
  | cons op ops ih => exact ih (poised_step h op)

end Run

/-! ## A writer that accepts bytes -/

namespace WriteResponse

def accepts : WriteResponse → Bool
  | accepted count => 0 < count
  | interrupted => true
  | _ => false

def takes : WriteResponse → Bool
  | accepted count => 0 < count
  | _ => false

end WriteResponse

namespace FlushResponse

def accepts : FlushResponse → Bool
  | flushed => true
  | interrupted => true
  | _ => false

def takes : FlushResponse → Bool
  | flushed => true
  | _ => false

end FlushResponse

/-- The writer never blocks or fails, and it answers for `bytes` bytes and `flushes` flushes. -/
structure Writer.Accepts (w : Writer) (bytes flushes : Nat) : Prop where
  writing : ∀ answer ∈ w.writes, answer.accepts = true
  flushing : ∀ answer ∈ w.flushes, answer.accepts = true
  enoughWrites : bytes ≤ w.writes.countP WriteResponse.takes
  enoughFlushes : flushes ≤ w.flushes.countP FlushResponse.takes

theorem Writer.Accepts.mono {w : Writer} {bytes flushes bytes' flushes' : Nat} (h : w.Accepts bytes flushes)
    (hbytes : bytes' ≤ bytes) (hflushes : flushes' ≤ flushes) : w.Accepts bytes' flushes' :=
  ⟨h.writing, h.flushing, le_trans hbytes h.enoughWrites, le_trans hflushes h.enoughFlushes⟩

namespace Drain

def Gained (d : Drain Scene Bundle) : Prop :=
  0 < d.report.bytesWritten ∨ d.report.completedRenders ≠ [] ∨ d.report.completedEffects ≠ [] ∨
    d.scheduler.awaitingFlushRenders ≠ [] ∨ d.scheduler.awaitingFlushEffects ≠ []

def Achieved (d : Drain Scene Bundle) : Prop :=
  0 < d.report.bytesWritten ∨ d.report.completedRenders ≠ [] ∨ d.report.completedEffects ≠ []

theorem Achieved.gained {d : Drain Scene Bundle} (h : d.Achieved) : d.Gained := h.imp id (Or.imp id .inl)

def Due (budget : Nat) (finishOnly : Bool) (d : Drain Scene Bundle) : Prop :=
  d.Gained ∨ (d.report.bytesWritten < budget ∧ ∃ t rest, d.scheduler.active = t :: rest ∧
    t.Worthwhile ∧ (finishOnly = true → 0 < t.offset))

variable {d d' : Drain Scene Bundle}

section Completion

variable [SceneGeometry Scene]

theorem foldl_completeRender_report (renders : List (TrackedRender Scene Bundle)) (d : Drain Scene Bundle) :
    (renders.foldl completeRender d).report.bytesWritten = d.report.bytesWritten ∧
      (renders.foldl completeRender d).report.completedEffects = d.report.completedEffects := by
  induction renders generalizing d with
  | nil => exact ⟨rfl, rfl⟩
  | cons render renders ih => exact ih (completeRender d render)

theorem completeAwaiting_report (d : Drain Scene Bundle) :
    d.completeAwaiting.report.bytesWritten = d.report.bytesWritten ∧
      d.completeAwaiting.report.completedEffects =
        d.report.completedEffects ++ d.scheduler.awaitingFlushEffects := by
  obtain ⟨hbytes, heffects⟩ := foldl_completeRender_report d.scheduler.awaitingFlushRenders
    { d with scheduler := { d.scheduler with
      awaitingFlushRenders := []
      awaitingFlushEffects := [] } }
  exact ⟨hbytes, congrArg (· ++ d.scheduler.awaitingFlushEffects) heffects⟩

theorem completeAwaiting_achieved (h : d.Gained) : d.completeAwaiting.Achieved := by
  obtain ⟨hbytes, heffects⟩ := completeAwaiting_report d
  obtain ⟨release, bypass, report, heq, hrenders⟩ := completeAwaiting_spec d
  have hcompleted : d.completeAwaiting.report.completedRenders =
      d.report.completedRenders ++ d.scheduler.awaitingFlushRenders.map TrackedRender.completed := by
    rw [heq]
    exact hrenders
  unfold Achieved
  rw [hbytes, heffects, hcompleted]
  obtain h | h | h | h | h := h
  · exact .inl h
  · exact .inr (.inl (by simp [h]))
  · exact .inr (.inr (by simp [h]))
  · exact .inr (.inl (by simp [h]))
  · exact .inr (.inr (by simp [h]))

theorem completeAwaiting_frame (d : Drain Scene Bundle) : d.completeAwaiting.writer = d.writer ∧
      d.completeAwaiting.scheduler.flushRequired = d.scheduler.flushRequired ∧
      d.completeAwaiting.scheduler.config = d.scheduler.config := by
  obtain ⟨release, bypass, report, heq, -⟩ := completeAwaiting_spec d
  rw [heq]
  exact ⟨rfl, rfl, rfl⟩

theorem flushIfRequired_accepts {bytes flushes : Nat} (h : d.writer.Accepts bytes (flushes + 1)) :
    ∃ flushed, d.flushIfRequired = .next flushed ⟨⟩ ∧ flushed.writer.Accepts bytes flushes ∧
      ((d.scheduler.flushRequired = false ∧ flushed = d) ∨
        (d.scheduler.flushRequired = true ∧ ∃ writer, flushed = (d.flush writer).completeAwaiting)) := by
  unfold flushIfRequired
  split
  · rename_i hrequired
    obtain ⟨flushed, hloop, haccepts, hflushed⟩ := run_rule
      (P := fun e => ∃ writer : Writer, e = { d with writer := writer } ∧ writer.Accepts bytes (flushes + 1))
      (Q := fun p : Phase Scene Bundle PUnit => ∃ flushed, p = .next flushed ⟨⟩ ∧
        flushed.writer.Accepts bytes flushes ∧
        ∃ writer, flushed = (d.flush writer).completeAwaiting)
      flushBody
      (by
        rintro _ ⟨writer, rfl, haccepts⟩
        show (flushRound _).elim _ _
        have henough := haccepts.enoughFlushes
        unfold flushRound
        split
        · rename_i hanswers
          rw [hanswers] at henough
          simp at henough
        · rename_i answer answers hanswers
          have hanswer := haccepts.flushing answer (hanswers ▸ mem_cons_self)
          have hlater : ∀ answer ∈ answers, answer.accepts = true := fun answer hmem =>
            haccepts.flushing answer (hanswers ▸ mem_cons_of_mem _ hmem)
          rw [hanswers] at henough
          cases answer with
          | flushed =>
            refine ⟨_, rfl, ?_, _, rfl⟩
            rw [(completeAwaiting_frame _).1]
            refine ⟨haccepts.writing, hlater, haccepts.enoughWrites, ?_⟩
            rw [countP_cons_of_pos rfl] at henough
            exact Nat.le_of_succ_le_succ henough
          | interrupted =>
            refine ⟨_, rfl, haccepts.writing, hlater, haccepts.enoughWrites, ?_⟩
            simpa [FlushResponse.takes] using henough
          | wouldBlock => exact absurd hanswer (by simp [FlushResponse.accepts])
          | failed => exact absurd hanswer (by simp [FlushResponse.accepts]))
      d ⟨d.writer, rfl, h⟩
    exact ⟨flushed, hloop, haccepts, .inr ⟨hrequired, hflushed⟩⟩
  · rename_i hflush
    exact ⟨d, rfl, h.mono (le_rfl) (Nat.le_succ _), .inl ⟨eq_false_of_ne_true hflush, rfl⟩⟩

end Completion

section Rounds

variable {budget flushes : Nat} {finishOnly : Bool} {t : ActiveTransaction Scene Bundle}
  {rest : List (ActiveTransaction Scene Bundle)}

theorem finishFront_gained (h : d.Gained ∨ t.Reported) : (d.finishFront t rest).Gained := by
  obtain (h | h | h | h | h) | h | h := h
  · exact .inl h
  · exact .inr (.inl h)
  · exact .inr (.inr (.inl h))
  · exact .inr (.inr (.inr (.inl (by simp [finishFront, h]))))
  · exact .inr (.inr (.inr (.inr (by simp [finishFront, h]))))
  · obtain ⟨render, hrender⟩ := isSome_iff_exists.mp h
    exact .inr (.inr (.inr (.inl (by simp [finishFront, hrender]))))
  · exact .inr (.inr (.inr (.inr (by simp [finishFront, h]))))

theorem Due.front (h : d.Due budget finishOnly) (hfront : d.scheduler.active = t :: rest) :
    d.Gained ∨ t.Worthwhile := by
  refine h.imp id ?_
  rintro ⟨-, u, us, hactive, hworthwhile, -⟩
  rw [hfront] at hactive
  obtain ⟨rfl, -⟩ := cons.inj hactive
  exact hworthwhile

theorem Due.finishFront (h : d.Due budget finishOnly) (hfront : d.scheduler.active = t :: rest)
    (hdone : t.remaining = []) : (d.finishFront t rest).Gained := by
  refine finishFront_gained ((h.front hfront).imp id fun hworthwhile => ?_)
  exact hworthwhile.resolve_left fun hremaining => hremaining hdone

theorem Due.gained (h : d.Due budget finishOnly) (hbudget : budget ≤ d.report.bytesWritten ∨
    d.scheduler.active = [] ∨ ∃ t rest, d.scheduler.active = t :: rest ∧ finishOnly = true ∧ t.offset = 0) :
    d.Gained := by
  refine h.resolve_right ?_
  rintro ⟨hbelow, t, rest, hactive, -, hstarted⟩
  obtain h | h | ⟨u, us, hcons, honly, hunstarted⟩ := hbudget
  · omega
  · rw [hactive] at h
    cases h
  · rw [hactive] at hcons
    obtain ⟨rfl, -⟩ := cons.inj hcons
    exact absurd (hstarted honly) (by omega)

theorem writeFront_accepts (finishOnly : Bool) (h : d.writer.Accepts (budget - d.report.bytesWritten) flushes)
    (hbelow : d.report.bytesWritten < budget) (hremaining : t.remaining ≠ []) :
    ∃ d', d.writeFront budget t rest = .inl d' ∧ d'.writer.Accepts (budget - d'.report.bytesWritten) flushes ∧
      (d.Due budget finishOnly → d'.Due budget finishOnly) := by
  have henough := h.enoughWrites
  unfold writeFront
  cases hwrites : d.writer.writes with
  | nil =>
    rw [hwrites, countP_nil] at henough
    omega
  | cons answer writes =>
    have hlater : ∀ later ∈ writes, later.accepts = true :=
      fun later hmem => h.writing later (hwrites ▸ mem_cons_of_mem _ hmem)
    have hanswer := h.writing answer (hwrites ▸ mem_cons_self)
    cases answer with
    | accepted count =>
      have hcount : 0 < count := by simpa [accepts] using hanswer
      have hpos : 0 < min count (min t.remaining.length (budget - d.report.bytesWritten)) := by
        have hlength := length_pos_iff.mpr hremaining
        omega
      simp only
      rw [if_neg (ne_of_gt hpos)]
      refine ⟨_, rfl, ⟨hlater, h.flushing, ?_, h.enoughFlushes⟩, fun _ => .inl (.inl ?_)⟩
      · rw [hwrites, countP_cons_of_pos (by simpa [takes] using hcount)] at henough
        simp only [advanceFront]
        omega
      · simp only [advanceFront]
        omega
    | interrupted =>
      refine ⟨_, rfl, ⟨hlater, h.flushing, ?_, h.enoughFlushes⟩, id⟩
      rwa [hwrites, countP_cons_of_neg (by simp [takes])] at henough
    | wouldBlock => exact absurd hanswer (by simp [accepts])
    | failed => exact absurd hanswer (by simp [accepts])

structure Runs (budget flushes : Nat) (due : Prop) (d : Drain Scene Bundle) : Prop where
  accepts : d.writer.Accepts (budget - d.report.bytesWritten) flushes
  gained : due → d.Gained

theorem writeLoop_accepts (finishOnly : Bool) (h : d.writer.Accepts (budget - d.report.bytesWritten) flushes) :
    ∃ written reached, Loop.run (writeBody budget finishOnly) d = .next written reached ∧
      written.Runs budget flushes (d.Due budget finishOnly) := by
  refine run_rule (P := fun e => e.writer.Accepts (budget - e.report.bytesWritten) flushes ∧
      (d.Due budget finishOnly → e.Due budget finishOnly))
    (Q := fun p => ∃ written reached, p = .next written reached ∧
      written.Runs budget flushes (d.Due budget finishOnly))
    (writeBody budget finishOnly) ?_ d ⟨h, id⟩
  rintro e ⟨haccepts, hdue⟩
  show (writeRound budget finishOnly e).elim _ _
  unfold writeRound
  split
  · rename_i hspent
    exact ⟨_, _, rfl, haccepts, fun hd => (hdue hd).gained (.inl hspent)⟩
  · rename_i hbelow
    split
    · rename_i hactive
      exact ⟨_, _, rfl, haccepts, fun hd => (hdue hd).gained (.inr (.inl hactive))⟩
    · rename_i t rest hactive
      split
      · rename_i hunstarted
        exact ⟨_, _, rfl, haccepts, fun hd =>
          (hdue hd).gained (.inr (.inr ⟨t, rest, hactive, hunstarted.1, hunstarted.2⟩))⟩
      · split
        · rename_i hdone
          split
          · exact ⟨_, _, rfl, haccepts, fun hd => (hdue hd).finishFront hactive hdone⟩
          · exact ⟨haccepts, fun hd => .inl ((hdue hd).finishFront hactive hdone)⟩
        · rename_i hremaining
          obtain ⟨d', heq, haccepts', hdue'⟩ := writeFront_accepts finishOnly haccepts
            (Nat.lt_of_not_le hbelow) hremaining
          rw [heq]
          exact ⟨haccepts', fun hd => hdue' (hdue hd)⟩

theorem popLoop_runs {due : Prop} (reached : Bool) (h : d.Runs budget flushes due) :
    (Loop.run popBody (d, reached)).Runs budget flushes due := by
  refine run_rule (P := fun p : Drain Scene Bundle × Bool => p.1.Runs budget flushes due)
    (Q := fun d => d.Runs budget flushes due) popBody (fun p h => ?_) (d, reached) h
  show (popRound p).elim _ _
  unfold popRound
  split
  · exact h
  · split
    · exact h
    · split
      · exact ⟨h.accepts, fun hd => finishFront_gained (.inl (h.gained hd))⟩
      · exact h

end Rounds

section Call

variable [SceneGeometry Scene] {finishOnly : Bool}

theorem writeActive_accepts (finishOnly : Bool)
    (h : d.writer.Accepts (max d.scheduler.config.writeBudgetBytes 1) 1) (hnew : d.report.bytesWritten = 0) :
    ∃ d', d.writeActive finishOnly = .next d' ⟨⟩ ∧ d'.scheduler.flushRequired = false ∧
      (Due (max d.scheduler.config.writeBudgetBytes 1) finishOnly
        { d with scheduler := d.scheduler.activatePending } → d'.Achieved) := by
  obtain ⟨written, reached, hloop, hruns⟩ := writeLoop_accepts finishOnly
    (d := { d with scheduler := d.scheduler.activatePending })
    (show d.writer.Accepts (max d.scheduler.config.writeBudgetBytes 1 - d.report.bytesWritten) 1 by
      rwa [hnew, Nat.sub_zero])
  have hpopped := popLoop_runs reached hruns
  obtain ⟨flushed, hflush, -, hcases⟩ := flushIfRequired_accepts hpopped.accepts
  refine ⟨flushed.completeIfFlushed.conclude, ?_, ?_, fun hdue => ?_⟩
  · unfold writeActive
    simp only
    rw [hloop]
    simp only [Phase.andThen]
    rw [hflush]
  · show flushed.completeIfFlushed.scheduler.flushRequired = false
    have hrequired : flushed.scheduler.flushRequired = false := by
      obtain ⟨hrequired, rfl⟩ | ⟨-, writer, rfl⟩ := hcases
      · exact hrequired
      · rw [(completeAwaiting_frame _).2.1]
        rfl
    unfold completeIfFlushed
    rw [if_neg (by simp [hrequired]), (completeAwaiting_frame _).2.1, hrequired]
  · have hgained := hpopped.gained hdue
    obtain ⟨hrequired, rfl⟩ | ⟨-, writer, rfl⟩ := hcases
    · unfold completeIfFlushed
      rw [if_neg (by simp [hrequired])]
      exact completeAwaiting_achieved hgained
    · have hachieved : ((Loop.run popBody (written, reached)).flush writer).completeAwaiting.Achieved :=
        completeAwaiting_achieved hgained
      unfold completeIfFlushed
      split
      · exact hachieved
      · exact completeAwaiting_achieved hachieved.gained

end Call

end Drain

/-! ## Work and its deadline -/

namespace OutputScheduler

variable {s : OutputScheduler Scene Bundle}

theorem synchronizationDeadlineMs_isSome : s.synchronizationDeadlineMs.isSome = s.holdsOutput := by
  unfold synchronizationDeadlineMs holdsOutput
  split
  · rfl
  · rfl

theorem Poised.since (h : s.Poised) (hwork : s.hasWork = true) (hactive : s.active = []) :
    ∃ started, s.pendingSinceMs = some started := by
  cases hsince : s.pendingSinceMs with
  | some started => exact ⟨started, rfl⟩
  | none =>
    obtain ⟨hbytes, hrender, heffects, hbells⟩ := h.idle hsince
    simp [hasWork, hactive, hbytes, hrender, heffects, hbells] at hwork

theorem activations_nonempty (hwork : s.hasWork = true) (hactive : s.active = []) : s.activations ≠ [] := by
  intro hnone
  simp only [activations, append_eq_nil_iff, map_eq_nil_iff, toList_eq_nil_iff, map_eq_none_iff] at hnone
  obtain ⟨⟨⟨hbytes, heffects⟩, hrender⟩, hbells⟩ := hnone
  have hcount : s.pendingBells = 0 := by
    unfold bellTransactions at hbells
    split at hbells
    · cases hbells
    · omega
  simp [hasWork, hactive, hbytes, hrender, heffects, hcount] at hwork

theorem Poised.front (h : s.Poised) (hwork : s.hasWork = true) :
    ∃ t rest, s.activatePending.active = t :: rest ∧ t.Worthwhile := by
  have hpoised := h.activatePending
  cases hactive : s.activatePending.active with
  | cons t rest => exact ⟨t, rest, rfl, hpoised.active t (hactive ▸ mem_cons_self)⟩
  | nil =>
    unfold OutputScheduler.activatePending at hactive
    split at hactive
    · rename_i hempty
      exact absurd hactive (activations_nonempty hwork (isEmpty_iff.mp hempty))
    · rename_i hnonempty
      exact absurd (isEmpty_iff.mpr hactive) hnonempty

theorem nextDeadlineMs_cases (h : s.Poised) (hwriting : s.waitingForWritable = false)
    (hwork : s.hasWork = true ∨ s.flushRequired = true) :
    ∃ deadlineMs, s.nextDeadlineMs = some deadlineMs ∧
      ((s.holdBlocksUnstartedActive = false ∧ (s.active ≠ [] ∨ s.flushRequired = true)) ∨
        (s.applicationSynchronizationBypassGeneration = none ∧
          s.synchronizationDeadlineMs = some deadlineMs) ∨
        (s.active = [] ∧ (s.applicationSynchronizationBypassGeneration.isSome ∨ s.holdsOutput = false) ∧
          ∃ started, s.pendingSinceMs = some started ∧
          earliest (some (saturatingAdd 128 started s.config.latencyBudgetMs)) s.synchronizationDeadlineMs =
            some deadlineMs)) := by
  unfold nextDeadlineMs
  rw [if_neg (by simp [hwriting]), if_neg (by cases hw : s.hasWork <;> simp_all)]
  split
  · rename_i hready
    refine ⟨0, rfl, .inl ?_⟩
    simpa [and_comm] using hready
  · rename_i hnotReady
    split
    · rename_i hheld
      obtain ⟨hbypass, hdeadline⟩ := Bool.and_eq_true_iff.mp hheld
      obtain ⟨deadlineMs, hdeadline⟩ := isSome_iff_exists.mp hdeadline
      exact ⟨deadlineMs, hdeadline, .inr (.inl ⟨isNone_iff_eq_none.mp hbypass, hdeadline⟩)⟩
    · rename_i hnotHeld
      have hopen : ¬(s.active ≠ [] ∨ s.flushRequired = true) := by
        intro hbusy
        have hblocks : s.holdBlocksUnstartedActive = true := by
          by_contra hfree
          exact hnotReady (by simpa [hfree] using hbusy)
        simp only [holdBlocksUnstartedActive, Bool.and_eq_true] at hblocks
        exact hnotHeld (by simp [hblocks.1.2, synchronizationDeadlineMs_isSome, hblocks.1.1])
      have hactive : s.active = [] := by
        by_contra hbusy
        exact hopen (.inl hbusy)
      have hqueued : s.hasWork = true := hwork.resolve_right fun hflush => hopen (.inr hflush)
      obtain ⟨started, hsince⟩ := h.since hqueued hactive
      rw [hsince]
      obtain ⟨deadlineMs, hdeadline⟩ :
          ∃ deadlineMs, earliest (some (saturatingAdd 128 started s.config.latencyBudgetMs))
            s.synchronizationDeadlineMs = some deadlineMs := by
        cases s.synchronizationDeadlineMs with
        | none => exact ⟨_, rfl⟩
        | some hold => exact ⟨_, rfl⟩
      refine ⟨deadlineMs, hdeadline, .inr (.inr ⟨hactive, ?_, started, rfl, hdeadline⟩)⟩
      rw [synchronizationDeadlineMs_isSome] at hnotHeld
      cases hbypass : s.applicationSynchronizationBypassGeneration with
      | some g => exact .inl rfl
      | none => exact .inr (by simpa [hbypass] using hnotHeld)

end OutputScheduler

/-! ## A call at its deadline -/

namespace Drain

variable {d : Drain Scene Bundle} {nowMs deadlineMs : Nat} {force : Bool}

theorem holdOutput_released (hdeadline : d.scheduler.synchronizationDeadlineMs = some deadlineMs)
    (hnow : deadlineMs ≤ nowMs) : d.holdOutput nowMs force = .next d.releaseHold false := by
  unfold synchronizationDeadlineMs at hdeadline
  split at hdeadline
  · rename_i startedMs lastActivityMs hheld
    have heq := some.inj hdeadline
    unfold holdOutput
    rw [hheld]
    simp only
    rw [if_pos (by omega)]
  · cases hdeadline

theorem holdOutput_open (force : Bool)
    (hbefore : ∀ deadlineMs, d.scheduler.synchronizationDeadlineMs = some deadlineMs → nowMs < deadlineMs)
    (hgoes : d.scheduler.applicationSynchronizationBypassGeneration.isSome ∨ d.scheduler.holdsOutput = false ∨
      ∃ t rest, d.scheduler.active = t :: rest ∧ 0 < t.offset) :
    ∃ finishOnly, d.holdOutput nowMs force = .next d finishOnly ∧
      (finishOnly = true → ∃ t rest, d.scheduler.active = t :: rest ∧ 0 < t.offset) := by
  unfold holdOutput
  split
  · rename_i startedMs lastActivityMs hheld
    have hdeadline := hbefore (min (saturatingAdd 128 lastActivityMs
      d.scheduler.config.synchronizationTimeoutMs) (saturatingAdd 128 startedMs
        d.scheduler.config.synchronizationHardTimeoutMs))
      (by simp only [synchronizationDeadlineMs, hheld])
    rw [if_neg (by omega)]
    split
    · exact ⟨false, rfl, fun h => absurd h Bool.false_ne_true⟩
    · rename_i hclosed
      obtain hbypass | hholds | hstarted := hgoes
      · exact absurd (.inr hbypass) hclosed
      · exact absurd hholds (by simp [holdsOutput, hheld])
      · obtain ⟨t, rest, hactive, hoffset⟩ := hstarted
        refine ⟨true, ?_, fun _ => ⟨t, rest, hactive, hoffset⟩⟩
        rw [if_pos (by simpa [hactive] using hoffset)]
  · exact ⟨false, rfl, fun h => absurd h Bool.false_ne_true⟩

theorem holdOutput_frame (d : Drain Scene Bundle) (nowMs : Nat) (force : Bool) :
    d.holdOutput nowMs force = .stop .returned d ∨ ∃ held finishOnly,
      d.holdOutput nowMs force = .next held finishOnly ∧ held.writer = d.writer ∧
        held.report.bytesWritten = d.report.bytesWritten ∧
        held.scheduler.flushRequired = d.scheduler.flushRequired ∧
        held.scheduler.config = d.scheduler.config := by
  unfold holdOutput
  split
  · simp only
    split
    · exact .inr ⟨_, _, rfl, rfl, rfl, rfl, rfl⟩
    · split
      · exact .inr ⟨_, _, rfl, rfl, rfl, rfl, rfl⟩
      · split
        · exact .inr ⟨_, _, rfl, rfl, rfl, rfl, rfl⟩
        · exact .inl rfl
  · exact .inr ⟨_, _, rfl, rfl, rfl, rfl, rfl⟩

theorem holdOutput_due (force : Bool) (h : d.scheduler.Poised) (hwriting : d.scheduler.waitingForWritable = false)
    (hwork : d.scheduler.hasWork = true) (hflush : d.scheduler.flushRequired = false)
    (hdeadline : d.scheduler.nextDeadlineMs = some deadlineMs) (hnow : deadlineMs ≤ nowMs) :
    ∃ held finishOnly, d.holdOutput nowMs force = .next held finishOnly ∧
      ((d.scheduler.holdsOutput = true ∧ held = d.releaseHold ∧ finishOnly = false) ∨
        (held = d ∧ d.beforeLatencyDeadline nowMs force = false ∧
          (finishOnly = true → ∃ t rest, d.scheduler.active = t :: rest ∧ 0 < t.offset))) := by
  by_cases htimedOut : ∃ holdMs, d.scheduler.synchronizationDeadlineMs = some holdMs ∧ holdMs ≤ nowMs
  · obtain ⟨holdMs, hhold, hpassed⟩ := htimedOut
    refine ⟨_, _, holdOutput_released hhold hpassed, .inl ⟨?_, rfl, rfl⟩⟩
    rw [← synchronizationDeadlineMs_isSome, hhold]
    rfl
  · have hbefore : ∀ holdMs, d.scheduler.synchronizationDeadlineMs = some holdMs → nowMs < holdMs :=
      fun holdMs hhold => Nat.lt_of_not_le fun hle => htimedOut ⟨holdMs, hhold, hle⟩
    obtain ⟨deadlineMs', hdeadline', hcases⟩ := nextDeadlineMs_cases h hwriting (.inl hwork)
    obtain rfl : deadlineMs' = deadlineMs := some.inj (hdeadline'.symm.trans hdeadline)
    obtain ⟨hfree, hbusy⟩ | ⟨-, hhold⟩ | ⟨hactive, hopen, started, hsince, hearliest⟩ := hcases
    · have hactive := hbusy.resolve_right (by simp [hflush])
      obtain ⟨t, rest, hactive⟩ := exists_cons_of_ne_nil hactive
      have hgoes : d.scheduler.applicationSynchronizationBypassGeneration.isSome ∨
          d.scheduler.holdsOutput = false ∨ ∃ t rest, d.scheduler.active = t :: rest ∧ 0 < t.offset := by
        simp only [holdBlocksUnstartedActive, hactive, head?_cons, any_some,
          Bool.and_eq_false_iff, beq_eq_false_iff_ne, isNone_eq_false_iff] at hfree
        obtain (hholds | hbypass) | hoffset := hfree
        · exact .inr (.inl hholds)
        · exact .inl hbypass
        · exact .inr (.inr ⟨t, rest, hactive, pos_of_ne_zero hoffset⟩)
      obtain ⟨finishOnly, heq, hstarted⟩ := holdOutput_open force hbefore hgoes
      refine ⟨d, finishOnly, heq, .inr ⟨rfl, ?_, hstarted⟩⟩
      simp [beforeLatencyDeadline, hactive]
    · exact absurd (hbefore deadlineMs' hhold) (by omega)
    · have hlatency : saturatingAdd 128 started d.scheduler.config.latencyBudgetMs ≤ nowMs := by
        cases hhold : d.scheduler.synchronizationDeadlineMs with
        | none =>
          rw [hhold] at hearliest
          cases hearliest
          exact hnow
        | some holdMs =>
          rw [hhold] at hearliest
          have hmin := some.inj hearliest
          have := hbefore holdMs hhold
          omega
      obtain ⟨finishOnly, heq, hstarted⟩ := holdOutput_open force hbefore (hopen.imp id .inl)
      refine ⟨d, finishOnly, heq, .inr ⟨rfl, ?_, hstarted⟩⟩
      simp [beforeLatencyDeadline, hsince, not_lt.mpr hlatency]

/-- A byte, a render or an effect; the flush; or the end of the hold with a later deadline. -/
def MakesProgress (s : OutputScheduler Scene Bundle) (nowMs : Nat) (d : Drain Scene Bundle) : Prop :=
  d.Achieved ∨ (s.flushRequired = true ∧ d.scheduler.flushRequired = false) ∨
    (s.holdsOutput = true ∧ d.scheduler.holdsOutput = false ∧
      ∃ laterMs, d.scheduler.nextDeadlineMs = some laterMs ∧ nowMs < laterMs)

theorem releaseHold_later (hwriting : d.scheduler.waitingForWritable = false)
    (hwork : d.scheduler.hasWork = true) (hflush : d.scheduler.flushRequired = false)
    (hbefore : d.releaseHold.beforeLatencyDeadline nowMs force = true) :
    ∃ laterMs, d.releaseHold.scheduler.nextDeadlineMs = some laterMs ∧ nowMs < laterMs := by
  simp only [beforeLatencyDeadline, Bool.and_eq_true, Option.any_eq_true, decide_eq_true_eq] at hbefore
  obtain ⟨⟨-, hactive⟩, started, hsince, hlatency⟩ := hbefore
  refine ⟨saturatingAdd 128 started d.scheduler.config.latencyBudgetMs, ?_, hlatency⟩
  have hwriting' : d.releaseHold.scheduler.waitingForWritable = false := hwriting
  have hwork' : d.releaseHold.scheduler.hasWork = true := hwork
  have hflush' : d.releaseHold.scheduler.flushRequired = false := hflush
  have hnone : d.releaseHold.scheduler.synchronizationDeadlineMs = none := rfl
  unfold nextDeadlineMs
  simp only [hwriting', hwork', hflush', hactive, hsince, hnone, isSome_none, Bool.and_false]
  rfl

variable [SceneGeometry Scene]

theorem drainUnblocked_due (h : d.scheduler.Poised) (hwriting : d.scheduler.waitingForWritable = false)
    (hwork : d.scheduler.hasWork = true) (hflush : d.scheduler.flushRequired = false)
    (hdeadline : d.scheduler.nextDeadlineMs = some deadlineMs) (hnow : deadlineMs ≤ nowMs)
    (haccepts : d.writer.Accepts (max d.scheduler.config.writeBudgetBytes 1) 1)
    (hnew : d.report.bytesWritten = 0) :
    let p := (d.holdOutput nowMs force).andThen fun held finishOnly =>
      if held.beforeLatencyDeadline nowMs force then .stop .returned held else held.writeActive finishOnly
    p.outcome = .returned ∧ MakesProgress d.scheduler nowMs p.drain := by
  obtain ⟨held, finishOnly, heq, hcases⟩ := holdOutput_due force h hwriting hwork hflush hdeadline hnow
  have hsame : held.scheduler.Poised ∧ held.scheduler.hasWork = true ∧
      held.writer.Accepts (max held.scheduler.config.writeBudgetBytes 1) 1 ∧
      held.report.bytesWritten = 0 := by
    obtain ⟨-, rfl, -⟩ | ⟨rfl, -⟩ := hcases
    · exact ⟨h.same rfl rfl rfl rfl rfl rfl, hwork, haccepts, hnew⟩
    · exact ⟨h, hwork, haccepts, hnew⟩
  obtain ⟨hpoised, hheldWork, hheldAccepts, hheldNew⟩ := hsame
  simp only [heq, Phase.andThen]
  split
  · rename_i hbefore
    refine ⟨rfl, .inr (.inr ?_)⟩
    obtain ⟨hholds, rfl, -⟩ | ⟨rfl, hready, -⟩ := hcases
    · exact ⟨hholds, rfl, releaseHold_later hwriting hwork hflush hbefore⟩
    · rw [hready] at hbefore
      exact absurd hbefore Bool.false_ne_true
  · obtain ⟨written, hwritten, -, hachieved⟩ := writeActive_accepts finishOnly hheldAccepts hheldNew
    rw [hwritten]
    refine ⟨rfl, .inl (hachieved (.inr ⟨?_, ?_⟩))⟩
    · show held.report.bytesWritten < _
      omega
    · obtain ⟨t, rest, hactive, hworthwhile⟩ := hpoised.front hheldWork
      refine ⟨t, rest, hactive, hworthwhile, fun honly => ?_⟩
      obtain ⟨-, -, hfalse⟩ | ⟨rfl, -, hstarted⟩ := hcases
      · rw [hfalse] at honly
        exact absurd honly Bool.false_ne_true
      · obtain ⟨u, us, hcons, hoffset⟩ := hstarted honly
        have hkept : held.scheduler.activatePending.active = held.scheduler.active := by
          simp [activatePending, hcons]
        rw [hkept, hcons] at hactive
        obtain ⟨rfl, -⟩ := cons.inj hactive
        exact hoffset

theorem drainUnblocked_flushed (nowMs : Nat) (force : Bool) (hflush : d.scheduler.flushRequired = false)
    (haccepts : d.writer.Accepts (max d.scheduler.config.writeBudgetBytes 1) 1)
    (hnew : d.report.bytesWritten = 0) :
    let p := (d.holdOutput nowMs force).andThen fun held finishOnly =>
      if held.beforeLatencyDeadline nowMs force then .stop .returned held else held.writeActive finishOnly
    p.outcome = .returned ∧ p.drain.scheduler.flushRequired = false := by
  obtain heq | ⟨held, finishOnly, heq, hwriter, hbytes, hrequired, hconfig⟩ := holdOutput_frame d nowMs force
  · simp only [heq]
    exact ⟨rfl, hflush⟩
  · simp only [heq, Phase.andThen]
    split
    · exact ⟨rfl, hrequired.trans hflush⟩
    · obtain ⟨written, hwritten, hdone, -⟩ := writeActive_accepts (d := held) finishOnly
        (by rwa [hwriter, hconfig]) (hbytes.trans hnew)
      rw [hwritten]
      exact ⟨rfl, hdone⟩

/-- **A call at its deadline gets something done**, whoever forces it. -/
theorem drainReady_progress (h : d.scheduler.Poised) (hwriting : d.scheduler.waitingForWritable = false)
    (hreconciled : d.scheduler.needsReconciliation = false)
    (hwork : d.scheduler.hasWork = true ∨ d.scheduler.flushRequired = true)
    (hdeadline : d.scheduler.nextDeadlineMs = some deadlineMs) (hnow : deadlineMs ≤ nowMs)
    (haccepts : d.writer.Accepts (max d.scheduler.config.writeBudgetBytes 1) 2)
    (hnew : d.report.bytesWritten = 0) : (d.drainReady nowMs force).outcome = .returned ∧
      MakesProgress d.scheduler nowMs (d.drainReady nowMs force).drain := by
  have hunblocked : d.drainReady nowMs force = d.drainUnblocked nowMs force := by
    unfold drainReady
    rw [if_neg (by simp [hreconciled]), if_neg (by simp [hwriting])]
  have hwait : d.setWaiting (!force && d.scheduler.waitingForWritable) = d := by
    have hsame : (!force && d.scheduler.waitingForWritable) = d.scheduler.waitingForWritable := by
      simp [hwriting]
    rw [hsame]
    rfl
  obtain ⟨flushed, heq, hflushed, hcases⟩ := flushIfRequired_accepts haccepts
  rw [hunblocked, drainUnblocked, hwait, heq]
  cases hflush : d.scheduler.flushRequired with
  | false =>
    obtain rfl : flushed = d := by
      obtain ⟨-, rfl⟩ | ⟨hrequired, -⟩ := hcases
      · rfl
      · exact absurd (hflush.symm.trans hrequired) Bool.false_ne_true
    exact drainUnblocked_due h hwriting (hwork.resolve_right (by simp [hflush])) hflush hdeadline hnow hflushed
      hnew
  | true =>
    obtain ⟨hfalse, -⟩ | ⟨-, writer, rfl⟩ := hcases
    · exact absurd (hfalse.symm.trans hflush) Bool.false_ne_true
    · obtain ⟨houtcome, hdone⟩ := drainUnblocked_flushed nowMs force
        (d := (d.flush writer).completeAwaiting) ((completeAwaiting_frame _).2.1)
        (by rw [(completeAwaiting_frame _).2.2]; exact hflushed)
        ((completeAwaiting_report _).1.trans hnew)
      exact ⟨houtcome, .inr (.inl ⟨hflush, hdone⟩)⟩

end Drain

namespace Run

variable [SceneGeometry Scene]

/-- **No stall and no spin.** In every state a run reaches, queued or unflushed work has a deadline, and
a call at the deadline with a writer that accepts bytes returns and gets something done. -/
theorem deadline_progress (config : OutputSchedulerConfig) (supported : Bool) (writes : List WriteResponse)
    (flushes : List FlushResponse) (ops : List (Op Scene Bundle)) :
    let s := ((start config supported writes flushes : Run Scene Bundle).runOps ops).scheduler
    s.waitingForWritable = false → s.needsReconciliation = false →
      (s.hasWork = true ∨ s.flushRequired = true) →
      ∃ deadlineMs, s.nextDeadlineMs = some deadlineMs ∧
        ∀ (nowMs : Nat) (force : Bool) (writer : Writer) (finished : List (ActiveTransaction Scene Bundle)),
          deadlineMs ≤ nowMs → writer.Accepts (max s.config.writeBudgetBytes 1) 2 →
          let p := (⟨s, .default, writer, finished⟩ : Drain Scene Bundle).drainReady nowMs force
          p.outcome = .returned ∧ Drain.MakesProgress s nowMs p.drain := by
  intro s hwriting hreconciled hwork
  have hpoised : s.Poised := poised_runOps (poised_new config supported) ops
  obtain ⟨deadlineMs, hdeadline, -⟩ := nextDeadlineMs_cases hpoised hwriting hwork
  refine ⟨deadlineMs, hdeadline, fun nowMs force writer finished hnow haccepts => ?_⟩
  exact Drain.drainReady_progress (d := ⟨s, .default, writer, finished⟩) hpoised hwriting hreconciled hwork
    hdeadline hnow haccepts rfl

def bellRun : Run TerminalGeometry Nat :=
  (start ⟨5, 10, 2000, 1, 64⟩ false [] []).runOps [.command (.enqueueBell 1 3)]

/-- The bell is due at 8. -/
theorem deadline_progress_bell : bellRun.scheduler.nextDeadlineMs = some 8 ∧
      Drain.MakesProgress bellRun.scheduler 8
        ((⟨bellRun.scheduler, .default, .scripted [.interrupted, .accepted 1] [.flushed, .flushed], []⟩ :
          Drain TerminalGeometry Nat).drainReady 8 false).drain := by
  have hdeadline : bellRun.scheduler.nextDeadlineMs = some 8 := by decide
  obtain ⟨deadlineMs, heq, hprogress⟩ := @deadline_progress TerminalGeometry Nat _
    ⟨5, 10, 2000, 1, 64⟩ false [] [] [.command (.enqueueBell 1 3)] (by decide) (by decide) (.inl (by decide))
  obtain rfl : deadlineMs = 8 := some.inj (heq.symm.trans hdeadline)
  refine ⟨hdeadline, (hprogress 8 false _ [] (le_rfl) ⟨?_, ?_, ?_, ?_⟩).2⟩
  · decide
  · decide
  · decide
  · decide

/-- A render under an application's hold, with a latency budget longer than the hold's timeout. -/
def heldRun : Run TerminalGeometry Nat :=
  (start ⟨50, 10, 2000, 1, 64⟩ false [] []).runOps
    [.command (.observeApplicationSynchronization true true true 0), .render (textFrame "new") 1 0]

/-- The call at the deadline only ends the hold. -/
theorem deadline_ends_hold :
    heldRun.scheduler.pendingRender.isSome ∧ heldRun.scheduler.waitingForWritable = false ∧
      heldRun.scheduler.needsReconciliation = false ∧ heldRun.scheduler.nextDeadlineMs = some 10 ∧
      let d := ((⟨heldRun.scheduler, .default, .scripted [.accepted 1] [.flushed, .flushed], []⟩ :
        Drain TerminalGeometry Nat).drainReady 10 false).drain
      d.report.bytesWritten = 0 ∧ d.report.completedRenders.length = 0 ∧
        d.report.synchronizationTimedOut = false := by
  refine ⟨by decide, by decide, by decide, by decide, ?_⟩
  exact ⟨rfl, rfl, rfl⟩

end Run

end Lector.Output
