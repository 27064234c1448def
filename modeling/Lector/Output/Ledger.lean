import Lector.Output.Runs

/-! The ledger of a run: what the writer accepted since the last fatal error is the finished
transactions and the started part of the front one. -/
namespace Lector.Output
open SerialQueue List OutputScheduler

variable {Scene Bundle : Type}

/-! ## Writer events -/

section Events

variable (es : List WriterEvent) (bytes : Bytes)

@[simp] theorem acceptedBytes_append (fs : List WriterEvent) :
    acceptedBytes (es ++ fs) = acceptedBytes es ++ acceptedBytes fs := flatMap_append

@[simp] theorem acceptedBytes_accepted : acceptedBytes [.accepted bytes] = bytes := by
  simp [acceptedBytes]

@[simp] theorem acceptedBytes_flushed : acceptedBytes [.flushed] = [] := rfl

@[simp] theorem acceptedBytes_failed : acceptedBytes [.failed] = [] := rfl

def unflushed : List WriterEvent → Bytes :=
  List.foldl (fun bytes event => match event with
    | .accepted more => bytes ++ more
    | .flushed => []
    | .failed => bytes) []

theorem unflushed_accepted : unflushed (es ++ [.accepted bytes]) = unflushed es ++ bytes := by
  simp [unflushed]

@[simp] theorem unflushed_flushed : unflushed (es ++ [.flushed]) = [] := by simp [unflushed]

theorem unflushed_failed : unflushed (es ++ [.failed]) = unflushed es := by simp [unflushed]

variable {es}

theorem flush_after_accepted (h : unflushed es = []) :
    ∃ before after, es = before ++ after ∧ acceptedBytes before = acceptedBytes es ∧
      (acceptedBytes es ≠ [] → WriterEvent.flushed ∈ after) := by
  induction es using reverseRecOn with
  | nil => exact ⟨[], [], rfl, rfl, fun hne => absurd rfl hne⟩
  | append_singleton es event ih =>
    cases event with
    | accepted bytes =>
      rw [unflushed_accepted, append_eq_nil_iff] at h
      obtain ⟨hes, rfl⟩ := h
      obtain ⟨before, after, rfl, hbefore, hflushed⟩ := ih hes
      refine ⟨before, after ++ [.accepted []], by simp, by simpa using hbefore, ?_⟩
      intro hne
      have hsame : acceptedBytes (before ++ after) ≠ [] := by simpa using hne
      exact mem_append_left _ (hflushed hsame)
    | flushed => exact ⟨es, [.flushed], rfl, by simp, fun _ => mem_singleton.mpr rfl⟩
    | failed =>
      rw [unflushed_failed] at h
      obtain ⟨before, after, rfl, hbefore, hflushed⟩ := ih h
      refine ⟨before, after ++ [.failed], by simp, by simpa using hbefore, ?_⟩
      intro hne
      have hsame : acceptedBytes (before ++ after) ≠ [] := by simpa using hne
      exact mem_append_left _ (hflushed hsame)

end Events

/-! ## Invariants -/

/-- The writer accepted the finished transactions and the started part of the front one. -/
def Written (events : List WriterEvent) (finished active : List (ActiveTransaction Scene Bundle))
    (flushRequired : Bool) : Prop :=
  ∃ past recent, events = past ++ recent ∧ (past = [] ∨ .failed ∈ past) ∧ .failed ∉ recent ∧
    Serial transactionLayout finished active (acceptedBytes recent) ∧
    (flushRequired = false → unflushed recent = [])

/-- Each kind of transaction carries what was accepted for it, and nothing else. -/
def Genuine (accepted : List (AcceptedRender Scene Bundle)) (t : ActiveTransaction Scene Bundle) : Prop :=
  match t.kind with
  | .control => t.completedRender = none ∧ t.completedEffects = []
  | .effect => t.completedRender = none ∧
      ∃ e, t.completedEffects = [e] ∧ t.bytes = encodeTerminalEffect e.event
  | .bell => t.completedRender = none ∧ t.completedEffects = [] ∧
      ∃ count, t.bytes = List.replicate count bellByte
  | .render => t.completedEffects = [] ∧ ∃ a ∈ accepted, t.completedRender = some a.tracked ∧
      ∃ supported, t.bytes = scheduledBytes supported a.batch.transactions

/-- The render was accepted, written in full behind those before it, and flushed unless it has no
bytes. -/
def Confirmed (accepted : List (AcceptedRender Scene Bundle)) (events : List WriterEvent)
    (finished : List (ActiveTransaction Scene Bundle)) (render : TrackedRender Scene Bundle) : Prop :=
  ∃ a ∈ accepted, render = a.tracked ∧ ∃ earlier t later, finished = earlier ++ t :: later ∧
    t.completedRender = some render ∧
    (∃ supported, t.bytes = scheduledBytes supported a.batch.transactions) ∧
    ∃ past before after, events = past ++ before ++ after ∧
      (earlier ++ [t]).flatMap ActiveTransaction.bytes <+: acceptedBytes before ∧
      (t.bytes ≠ [] → WriterEvent.flushed ∈ after)

structure Sound (accepted : List (AcceptedRender Scene Bundle)) (d : Drain Scene Bundle) : Prop where
  written : Written d.writer.events d.finished d.scheduler.active d.scheduler.flushRequired
  genuine : ∀ t ∈ d.finished ++ d.scheduler.active, Genuine accepted t
  pending : ∀ p, d.scheduler.pendingRender = some p →
    ∃ a ∈ accepted, p.batch = a.batch ∧ p.tracked = a.tracked
  awaiting : ∀ render ∈ d.scheduler.awaitingFlushRenders, ∃ t ∈ d.finished, t.completedRender = some render

/-! ## Growth -/

section Growth

variable {accepted more : List (AcceptedRender Scene Bundle)}

theorem Genuine.mono {t : ActiveTransaction Scene Bundle} (h : Genuine accepted t) :
    Genuine (accepted ++ more) t := by
  unfold Genuine at h ⊢
  split
  · rename_i hkind
    rw [hkind] at h
    exact h
  · rename_i hkind
    rw [hkind] at h
    exact h
  · rename_i hkind
    rw [hkind] at h
    exact h
  · rename_i hkind
    rw [hkind] at h
    obtain ⟨heffects, a, ha, hrest⟩ := h
    exact ⟨heffects, a, mem_append_left _ ha, hrest⟩

theorem Confirmed.mono {events : List WriterEvent} {finished : List (ActiveTransaction Scene Bundle)}
    {render : TrackedRender Scene Bundle} (h : Confirmed accepted events finished render)
    (es : List WriterEvent) (fs : List (ActiveTransaction Scene Bundle)) :
    Confirmed (accepted ++ more) (events ++ es) (finished ++ fs) render := by
  obtain ⟨a, ha, hrender, earlier, t, later, rfl, ht, hbytes, past, before, after, rfl, hbefore, hflushed⟩ := h
  exact ⟨a, mem_append_left _ ha, hrender, earlier, t, later ++ fs, by simp, ht, hbytes, past,
    before, after ++ es, by simp, hbefore, fun hne => mem_append_left _ (hflushed hne)⟩

end Growth

/-! ## Moves -/

section Moves

variable {accepted : List (AcceptedRender Scene Bundle)} {d d' : Drain Scene Bundle}

theorem activations_unstarted (s : OutputScheduler Scene Bundle) : ∀ t ∈ s.activations, t.offset = 0 := by
  intro t ht
  simp only [activations, mem_append, mem_map, Option.mem_toList, Option.map_eq_some_iff] at ht
  obtain ((⟨-, -, rfl⟩ | ⟨-, -, rfl⟩) | ⟨-, -, rfl⟩) | hbell := ht
  · rfl
  · rfl
  · rfl
  · unfold bellTransactions at hbell
    split at hbell
    · rw [mem_singleton.mp hbell]
    · exact absurd hbell (by simp)

theorem activations_genuine (s : OutputScheduler Scene Bundle) (hpending : ∀ p, s.pendingRender = some p →
      ∃ a ∈ accepted, p.batch = a.batch ∧ p.tracked = a.tracked) :
    ∀ t ∈ s.activations, Genuine accepted t := by
  intro t ht
  simp only [activations, mem_append, mem_map, Option.mem_toList, Option.map_eq_some_iff] at ht
  obtain ((⟨pending, -, rfl⟩ | ⟨effect, -, rfl⟩) | ⟨render, hrender, rfl⟩) | hbell := ht
  · cases pending.kind
    simp [Genuine, PendingBytes.activated, ScheduledOutputClass.activeKind]
  · exact ⟨rfl, effect, rfl, rfl⟩
  · obtain ⟨a, ha, hbatch, htracked⟩ := hpending render hrender
    exact ⟨rfl, a, ha, congrArg some htracked, s.synchronizedOutputSupported, by rw [← hbatch]; rfl⟩
  · unfold bellTransactions at hbell
    split at hbell
    · rw [mem_singleton.mp hbell]
      exact ⟨rfl, rfl, _, rfl⟩
    · exact absurd hbell (by simp)

variable [SceneGeometry Scene]

theorem Move.written (h : Move d d')
    (hw : Written d.writer.events d.finished d.scheduler.active d.scheduler.flushRequired) :
    Written d'.writer.events d'.finished d'.scheduler.active d'.scheduler.flushRequired := by
  obtain ⟨past, recent, hevents, hpast, hrecent, hserial, hflush⟩ := hw
  cases h with
  | wait waiting => exact ⟨past, recent, hevents, hpast, hrecent, hserial, hflush⟩
  | block writer same => exact ⟨past, recent, same.trans hevents, hpast, hrecent, hserial, hflush⟩
  | retry writer same => exact ⟨past, recent, same.trans hevents, hpast, hrecent, hserial, hflush⟩
  | release startedMs lastActivityMs held => exact ⟨past, recent, hevents, hpast, hrecent, hserial, hflush⟩
  | conclude => exact ⟨past, recent, hevents, hpast, hrecent, hserial, hflush⟩
  | activate =>
    refine ⟨past, recent, hevents, hpast, hrecent, ?_, ?_⟩
    · simp only [activatePending]
      split
      · rename_i hempty
        rw [isEmpty_iff.mp hempty] at hserial
        have happend := hserial.append (activations_unstarted d.scheduler)
        exact happend
      · exact hserial
    · simp only [activatePending]
      split
      · exact hflush
      · exact hflush
  | write t rest count writer front some fits same =>
    rw [front] at hserial
    refine ⟨past, recent ++ [.accepted (t.remaining.take count)], ?_, hpast, ?_, ?_, ?_⟩
    · simp [Drain.advanceFront, same, hevents]
    · simp [hrecent]
    · rw [acceptedBytes_append, acceptedBytes_accepted]
      exact hserial.write rfl rfl
    · exact fun hfalse => absurd hfalse (by simp [Drain.advanceFront])
  | pop t rest front done =>
    rw [front] at hserial
    exact ⟨past, recent, hevents, hpast, hrecent, hserial.pop done, hflush⟩
  | flush writer same =>
    refine ⟨past, recent ++ [.flushed], ?_, hpast, ?_, ?_, ?_⟩
    · simp [Drain.flush, same, hevents]
    · simp [hrecent]
    · rw [acceptedBytes_append, acceptedBytes_flushed, append_nil]
      exact hserial
    · exact fun _ => unflushed_flushed recent
  | complete flushed =>
    obtain ⟨release, bypass, report, heq, -⟩ := completeAwaiting_spec d
    rw [heq]
    exact ⟨past, recent, hevents, hpast, hrecent, hserial, hflush⟩

omit [SceneGeometry Scene] in
theorem Genuine.render {t : ActiveTransaction Scene Bundle} (h : Genuine accepted t)
    {render : TrackedRender Scene Bundle} (ht : t.completedRender = some render) :
    ∃ a ∈ accepted, render = a.tracked ∧
      ∃ supported, t.bytes = scheduledBytes supported a.batch.transactions := by
  unfold Genuine at h
  split at h
  · exact absurd (h.1.symm.trans ht) (by simp)
  · exact absurd (h.1.symm.trans ht) (by simp)
  · exact absurd (h.1.symm.trans ht) (by simp)
  · obtain ⟨-, a, ha, hrender, hbytes⟩ := h
    exact ⟨a, ha, Option.some.inj (ht.symm.trans hrender), hbytes⟩

omit [SceneGeometry Scene] in
theorem Sound.confirms (h : Sound accepted d) (hflushed : d.scheduler.flushRequired = false)
    {render : TrackedRender Scene Bundle} (hrender : render ∈ d.scheduler.awaitingFlushRenders) :
    Confirmed accepted d.writer.events d.finished render := by
  obtain ⟨past, recent, hevents, -, -, hserial, hflush⟩ := h.written
  obtain ⟨t, ht, htrender⟩ := h.awaiting render hrender
  obtain ⟨a, ha, rfl, hbytes⟩ := (h.genuine t (mem_append_left _ ht)).render htrender
  obtain ⟨before, after, rfl, hbefore, hafter⟩ := flush_after_accepted (hflush hflushed)
  obtain ⟨earlier, later, hfinished⟩ := append_of_mem ht
  have hprefix : (earlier ++ [t]).flatMap ActiveTransaction.bytes <+: acceptedBytes before := by
    rw [hbefore, hserial.output_eq, hfinished]
    exact ⟨later.flatMap ActiveTransaction.bytes ++ transactionLayout.started d.scheduler.active,
      by simp [transactionLayout]⟩
  refine ⟨a, ha, rfl, earlier, t, later, hfinished, htrender, hbytes, past, before, after,
    by rw [hevents, append_assoc], hprefix, ?_⟩
  intro hne
  apply hafter
  intro hnil
  exact hne (by simp_all)

theorem Move.sound (hmove : Move d d') (h : Sound accepted d) : Sound accepted d' := by
  have hwritten := hmove.written h.written
  cases hmove with
  | wait waiting => exact ⟨hwritten, h.genuine, h.pending, h.awaiting⟩
  | block writer same => exact ⟨hwritten, h.genuine, h.pending, h.awaiting⟩
  | retry writer same => exact ⟨hwritten, h.genuine, h.pending, h.awaiting⟩
  | release startedMs lastActivityMs held => exact ⟨hwritten, h.genuine, h.pending, h.awaiting⟩
  | flush writer same => exact ⟨hwritten, h.genuine, h.pending, h.awaiting⟩
  | conclude => exact ⟨hwritten, h.genuine, h.pending, h.awaiting⟩
  | activate =>
    cases hactive : d.scheduler.active with
    | cons t rest =>
      have hsame : d.scheduler.activatePending = d.scheduler := by
        simp [activatePending, hactive]
      rw [hsame]
      exact h
    | nil =>
      refine ⟨hwritten, ?_, ?_, ?_⟩
      · intro t ht
        simp only [activatePending, hactive] at ht
        obtain ht | ht := mem_append.mp ht
        · exact h.genuine t (mem_append_left _ ht)
        · exact activations_genuine d.scheduler h.pending t ht
      · intro p hp
        simp [activatePending, hactive] at hp
      · intro render hrender
        simp only [activatePending, hactive] at hrender
        exact h.awaiting render hrender
  | write t rest count writer front some fits same =>
    refine ⟨hwritten, ?_, h.pending, h.awaiting⟩
    intro u hu
    have hgenuine := h.genuine
    rw [front] at hgenuine
    obtain hu | hu := mem_append.mp hu
    · exact hgenuine u (mem_append_left _ hu)
    · obtain rfl | hu := mem_cons.mp hu
      · exact hgenuine t (mem_append_right _ mem_cons_self)
      · exact hgenuine u (mem_append_right _ (mem_cons_of_mem _ hu))
  | pop t rest front done =>
    have hgenuine := h.genuine
    rw [front] at hgenuine
    refine ⟨hwritten, ?_, h.pending, ?_⟩
    · intro u hu
      apply hgenuine u
      simpa [Drain.finishFront] using hu
    · intro render hrender
      obtain hrender | hrender := mem_append.mp hrender
      · obtain ⟨u, hu, hurender⟩ := h.awaiting render hrender
        exact ⟨u, mem_append_left _ hu, hurender⟩
      · exact ⟨t, mem_append_right _ (mem_singleton.mpr rfl), Option.mem_toList.mp hrender⟩
  | complete flushed =>
    obtain ⟨release, bypass, report, heq, -⟩ := completeAwaiting_spec d
    rw [heq] at hwritten ⊢
    exact ⟨hwritten, h.genuine, h.pending, by simp⟩

theorem Moves.sound (hmoves : Moves d d') (h : Sound accepted d) : Sound accepted d' := by
  induction hmoves with
  | refl => exact h
  | tail _ hmove ih => exact hmove.sound ih

omit [SceneGeometry Scene] in
theorem FailsTo.sound (hfail : FailsTo d d') : Sound accepted d' := by
  obtain ⟨writer, -, rfl⟩ := hfail
  refine ⟨⟨writer.events ++ [.failed], [], by simp [Drain.fail], by simp, by simp, ?_, fun _ => rfl⟩,
    by simp [Drain.fail, failed], by simp [Drain.fail, failed],
    by simp [Drain.fail, failed]⟩
  exact serial_nil

theorem Phase.Follows.sound {α : Type} {p : Phase Scene Bundle α} (hp : p.Follows d)
    (h : Sound accepted d) : Sound accepted p.drain := by
  obtain ⟨-, hmoves⟩ | ⟨-, d', -, hfail⟩ := hp
  · exact hmoves.sound h
  · exact hfail.sound

end Moves

/-! ## Runs -/

section Runs

variable {accepted : List (AcceptedRender Scene Bundle)} {s s' : OutputScheduler Scene Bundle}
  {report : DrainReport Scene Bundle} {writer : Writer}
  {finished : List (ActiveTransaction Scene Bundle)} {offer : Offer}

theorem Advances.sound (hadv : Advances offer s s') (h : Sound accepted ⟨s, report, writer, finished⟩) :
    Sound accepted ⟨s', report, writer, finished⟩ := by
  obtain ⟨past, recent, hevents, hpast, hrecent, hserial, hflush⟩ := h.written
  refine ⟨⟨past, recent, hevents, hpast, hrecent, hserial.prune hadv.active, ?_⟩, ?_, ?_, ?_⟩
  · intro hfalse
    exact hflush (hadv.flushRequired ▸ hfalse)
  · intro t ht
    apply h.genuine t
    obtain ht | ht := mem_append.mp ht
    · exact mem_append_left _ ht
    · exact mem_append_right _ (hadv.active.sublist.subset ht)
  · intro p' hp'
    obtain ⟨p, hp, hbatch, htracked⟩ := hadv.pending p' hp'
    obtain ⟨a, ha, habatch, hatracked⟩ := h.pending p hp
    exact ⟨a, ha, hbatch.trans habatch, htracked.trans hatracked⟩
  · exact fun render hrender => h.awaiting render (hadv.awaiting.subset hrender)

theorem Sound.mono (h : Sound accepted ⟨s, report, writer, finished⟩)
    (more : List (AcceptedRender Scene Bundle)) : Sound (accepted ++ more) ⟨s, report, writer, finished⟩ := by
  refine ⟨h.written, fun t ht => (h.genuine t ht).mono, ?_, h.awaiting⟩
  intro p hp
  obtain ⟨a, ha, hrest⟩ := h.pending p hp
  exact ⟨a, mem_append_left _ ha, hrest⟩

theorem Accepts.sound {batch : RenderBatch Scene} {accessibility : Bundle}
    (hacc : OutputScheduler.Accepts batch accessibility s s')
    (h : Sound accepted ⟨s, report, writer, finished⟩) :
    Sound (accepted ++ [⟨batch, s.nextRenderGeneration, accessibility⟩])
      ⟨s', report, writer, finished⟩ := by
  obtain ⟨s₀, hadv, hactive, -, -, -, hawaiting, hflush, -⟩ := hacc.withdrawn
  obtain ⟨byteLen, hpending⟩ := hacc.pending
  have h₀ := (hadv.sound h).mono [⟨batch, s.nextRenderGeneration, accessibility⟩]
  refine ⟨?_, ?_, ?_, ?_⟩
  · have hwritten := h₀.written
    rw [hactive, hflush]
    exact hwritten
  · rw [hactive]
    exact h₀.genuine
  · intro p hp
    obtain rfl := Option.some.inj (hpending.symm.trans hp)
    exact ⟨_, mem_append_right _ (mem_singleton.mpr rfl), rfl, rfl⟩
  · rw [hawaiting]
    exact h₀.awaiting

namespace Run

variable {r : Run Scene Bundle}

def Sound (r : Run Scene Bundle) : Prop := Output.Sound r.accepted r.opened

theorem sound_start (config : OutputSchedulerConfig) (supported : Bool) (writes : List WriteResponse)
    (flushes : List FlushResponse) : (start config supported writes flushes : Run Scene Bundle).Sound := by
  refine ⟨⟨[], [], rfl, .inl rfl, by simp, serial_nil, fun _ => rfl⟩, ?_, ?_, ?_⟩
  · simp [start, opened, new]
  · simp [start, opened, new]
  · simp [start, opened, new]

theorem sound_enqueueRender (h : r.Sound) (batch : RenderBatch Scene) (accessibility : Bundle)
    (nowMs : Nat) : (r.enqueueRender batch accessibility nowMs).Sound := by
  obtain ⟨hdropped, hadv⟩ | ⟨hkept, hacc⟩ := r.scheduler.enqueueRender_cases batch accessibility nowMs
  · rw [Run.enqueueRender, if_pos hdropped]
    exact hadv.sound h
  · rw [Run.enqueueRender, if_neg hkept]
    exact Accepts.sound hacc h

variable [SceneGeometry Scene]

theorem sound_close (h : r.Sound) {α : Type} {p : Phase Scene Bundle α} (hp : p.Follows r.opened) :
    (r.close p).Sound := by
  obtain ⟨hwritten, hgenuine, hpending, hawaiting⟩ := hp.sound h
  exact ⟨hwritten, hgenuine, hpending, hawaiting⟩

theorem sound_step (h : r.Sound) (op : Op Scene Bundle) : (r.step op).Sound := by
  unfold step
  split
  · exact h
  · cases op with
    | command c => exact (c.apply_advances r.scheduler).sound h
    | render batch accessibility nowMs => exact sound_enqueueRender h batch accessibility nowMs
    | drain nowMs force => exact sound_close h (Drain.drainReady_follows _ nowMs force)

theorem sound_runOps (h : r.Sound) (ops : List (Op Scene Bundle)) : (r.runOps ops).Sound := by
  induction ops generalizing r with
  | nil => exact h
  | cons op ops ih => exact ih (sound_step h op)

end Run

end Runs

end Lector.Output
