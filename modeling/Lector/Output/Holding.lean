import Lector.Output.Order

/-! The application's hold. While an application keeps its synchronized output open, calls of
`drain_ready` write at most the rest of the transaction whose first byte was written before. -/
namespace Lector.Output
open SerialQueue List OutputScheduler Drain

variable {Scene Bundle : Type}

/-! ## Marked generations -/

def clearMark (renders : List (TrackedRender Scene Bundle)) (mark : Option UInt64) : Option UInt64 :=
  if renders.any fun render => some render.generation == mark then none else mark

theorem clearMark_none (renders : List (TrackedRender Scene Bundle)) : clearMark renders none = none := by
  unfold clearMark
  split
  · rfl
  · rfl

theorem clearMark_cons (render : TrackedRender Scene Bundle)
    (renders : List (TrackedRender Scene Bundle)) (mark : Option UInt64) :
    clearMark (render :: renders) mark =
      clearMark renders (if some render.generation == mark then none else mark) := by
  cases hmark : some render.generation == mark with
  | true =>
    rw [if_pos rfl, clearMark_none, clearMark, any_cons, hmark]
    rfl
  | false =>
    rw [if_neg Bool.false_ne_true, clearMark, any_cons, hmark, Bool.false_or]
    rfl

section Completion

variable [SceneGeometry Scene]

theorem foldl_completeRender_marks (renders : List (TrackedRender Scene Bundle)) (d : Drain Scene Bundle) :
    (renders.foldl completeRender d).scheduler.applicationSynchronizationBypassGeneration =
        clearMark renders d.scheduler.applicationSynchronizationBypassGeneration ∧
      (renders.foldl completeRender d).scheduler.synchronizationTimeoutReleaseGeneration =
        clearMark renders d.scheduler.synchronizationTimeoutReleaseGeneration := by
  induction renders generalizing d with
  | nil => exact ⟨rfl, rfl⟩
  | cons render renders ih =>
    rw [foldl_cons, clearMark_cons, clearMark_cons]
    exact ih (completeRender d render)

theorem completeAwaiting_marks (d : Drain Scene Bundle) :
    d.completeAwaiting.scheduler.applicationSynchronizationBypassGeneration =
        clearMark d.scheduler.awaitingFlushRenders
          d.scheduler.applicationSynchronizationBypassGeneration ∧
      d.completeAwaiting.scheduler.synchronizationTimeoutReleaseGeneration =
        clearMark d.scheduler.awaitingFlushRenders
          d.scheduler.synchronizationTimeoutReleaseGeneration :=
  foldl_completeRender_marks _ _

end Completion

/-! ## Held calls -/

namespace OutputScheduler

/-- A call under the hold: not forced, before both deadlines, and with no render let through. -/
structure Holds (s : OutputScheduler Scene Bundle) (nowMs : Nat) (force : Bool) : Prop where
  unforced : force = false
  unexpired : ∃ startedMs lastActivityMs,
    s.applicationSynchronization = some (.active startedMs lastActivityMs) ∧
    nowMs < saturatingAdd 128 lastActivityMs s.config.synchronizationTimeoutMs ∧
    nowMs < saturatingAdd 128 startedMs s.config.synchronizationHardTimeoutMs
  unbypassed : s.applicationSynchronizationBypassGeneration = none

instance (s : OutputScheduler Scene Bundle) (nowMs : Nat) (force : Bool) : Decidable (s.Holds nowMs force) :=
  match hsync : s.applicationSynchronization with
  | some (.active startedMs lastActivityMs) =>
    decidable_of_iff (force = false ∧
        (nowMs < saturatingAdd 128 lastActivityMs s.config.synchronizationTimeoutMs ∧
          nowMs < saturatingAdd 128 startedMs s.config.synchronizationHardTimeoutMs) ∧
        s.applicationSynchronizationBypassGeneration = none)
      ⟨fun ⟨hforce, hdeadlines, hbypass⟩ => ⟨hforce, ⟨_, _, hsync, hdeadlines⟩, hbypass⟩,
        fun ⟨hforce, ⟨_, _, hactive, hdeadlines⟩, hbypass⟩ => ⟨hforce, by
          rw [hsync] at hactive
          obtain ⟨rfl, rfl⟩ := ApplicationSynchronization.active.inj (Option.some.inj hactive)
          exact hdeadlines, hbypass⟩⟩
  | some .ignoringUntilClose => isFalse fun ⟨_, ⟨_, _, hactive, _⟩, _⟩ => by
    rw [hsync] at hactive
    exact absurd hactive (by simp)
  | none => isFalse fun ⟨_, ⟨_, _, hactive, _⟩, _⟩ => by
    rw [hsync] at hactive
    exact absurd hactive (by simp)

variable (s : OutputScheduler Scene Bundle)

/-- The transaction whose first byte was written and whose last one was not acknowledged. -/
def startedFront : Option (ActiveTransaction Scene Bundle) := s.active.head?.filter fun t => 0 < t.offset

def owed : Bytes := s.startedFront.elim [] ActiveTransaction.remaining

def Behind : Prop := ∀ t ∈ s.active.tail, t.offset = 0

variable {s}

theorem startedFront_cons {t : ActiveTransaction Scene Bundle} {rest : List (ActiveTransaction Scene Bundle)}
    (hfront : s.active = t :: rest) (hstarted : 0 < t.offset) : s.startedFront = some t := by
  rw [startedFront, hfront, head?_cons]
  simp [hstarted]

theorem startedFront_unstarted (h : ∀ t ∈ s.active, t.offset = 0) : s.startedFront = none := by
  rw [startedFront, Option.filter_eq_none_iff]
  intro t ht
  have hzero := h t (mem_of_mem_head? ht)
  simp [hzero]

theorem Behind.started (h : s.Behind) {t : ActiveTransaction Scene Bundle} (ht : t ∈ s.active)
    (hstarted : 0 < t.offset) : s.startedFront = some t := by
  cases hactive : s.active with
  | nil =>
    rw [hactive] at ht
    cases ht
  | cons front rest =>
    rw [hactive] at ht
    obtain rfl | ht := mem_cons.mp ht
    · exact startedFront_cons hactive hstarted
    · have hzero : t.offset = 0 := h t (by rw [hactive]; exact ht)
      omega

theorem startedFront_prune {s' : OutputScheduler Scene Bundle} (h : s.Behind)
    (hprune : Prunes transactionLayout s.active s'.active) : s'.startedFront = s.startedFront := by
  cases hfront : s.startedFront with
  | none =>
    apply startedFront_unstarted
    intro t ht
    by_contra hzero
    have hstarted := h.started (hprune.sublist.subset ht) (pos_of_ne_zero hzero)
    rw [hfront] at hstarted
    cases hstarted
  | some t =>
    obtain ⟨hhead, hstarted⟩ := Option.filter_eq_some_iff.mp hfront
    obtain ⟨rest, hactive⟩ : ∃ rest, s.active = t :: rest := head?_eq_some_iff.mp hhead
    have hpos : 0 < t.offset := by simpa using hstarted
    have hmem := hprune.keeps t (hactive ▸ mem_cons_self) hpos
    have hsub := hprune.sublist
    rw [hactive] at hsub
    have hrest : ∀ u ∈ rest, u.offset = 0 := by
      intro u hu
      exact h u (by rw [hactive]; exact hu)
    cases hs' : s'.active with
    | nil =>
      rw [hs'] at hmem
      cases hmem
    | cons u us =>
      rw [hs'] at hsub hmem
      cases hsub with
      | cons _ hsub =>
        have hzero := hrest t (hsub.subset hmem)
        omega
      | cons_cons _ hsub => exact startedFront_cons hs' hpos

end OutputScheduler

/-! ## What a held call does -/

/-- The writer takes at most the rest of the started front, and no other transaction with bytes. -/
structure OnlyFinishes (d₀ d : Drain Scene Bundle) : Prop where
  writes : ∃ es, d.writer.events = d₀.writer.events ++ es ∧
    acceptedBytes es ++ d.scheduler.owed <+: d₀.scheduler.owed
  started : ∀ t, d.scheduler.startedFront = some t →
    ∃ t₀, d₀.scheduler.startedFront = some t₀ ∧ t.bytes = t₀.bytes
  finished : ∀ t ∈ d.finished, t ∈ d₀.finished ∨ t.bytes = [] ∨
    ∃ t₀, d₀.scheduler.startedFront = some t₀ ∧ t.bytes = t₀.bytes

namespace OnlyFinishes

variable {d₀ d d' : Drain Scene Bundle}

theorem refl : OnlyFinishes d d := ⟨⟨[], by simp, prefix_refl _⟩, fun t ht => ⟨t, ht, rfl⟩, fun _ ht => .inl ht⟩

theorem trans (h : OnlyFinishes d₀ d) (h' : OnlyFinishes d d') : OnlyFinishes d₀ d' := by
  obtain ⟨es, hes, howed⟩ := h.writes
  obtain ⟨es', hes', howed'⟩ := h'.writes
  have hstarted : ∀ t, d.scheduler.startedFront = some t →
      ∃ t₀, d₀.scheduler.startedFront = some t₀ ∧ t.bytes = t₀.bytes := h.started
  refine ⟨⟨es ++ es', by rw [hes', hes, append_assoc], ?_⟩, ?_, ?_⟩
  · rw [acceptedBytes_append, append_assoc]
    exact ((prefix_append_right_inj _).mpr howed').trans howed
  · intro t ht
    obtain ⟨t₁, ht₁, hbytes⟩ := h'.started t ht
    obtain ⟨t₀, ht₀, hbytes₀⟩ := hstarted t₁ ht₁
    exact ⟨t₀, ht₀, hbytes.trans hbytes₀⟩
  · intro t ht
    obtain ht | hempty | ⟨t₁, ht₁, hbytes⟩ := h'.finished t ht
    · exact h.finished t ht
    · exact .inr (.inl hempty)
    · obtain ⟨t₀, ht₀, hbytes₀⟩ := hstarted t₁ ht₁
      exact .inr (.inr ⟨t₀, ht₀, hbytes.trans hbytes₀⟩)

theorem quiet (es : List WriterEvent) (hevents : d'.writer.events = d.writer.events ++ es)
    (hes : acceptedBytes es = []) (hfront : d'.scheduler.startedFront = d.scheduler.startedFront)
    (hfinished : d'.finished = d.finished) : OnlyFinishes d d' := by
  refine ⟨⟨es, hevents, ?_⟩, ?_, ?_⟩
  · rw [hes, nil_append, owed, hfront]
    exact prefix_refl _
  · intro t ht
    exact ⟨t, hfront ▸ ht, rfl⟩
  · intro t ht
    exact .inl (hfinished ▸ ht)

theorem write {t : ActiveTransaction Scene Bundle} {rest : List (ActiveTransaction Scene Bundle)}
    {count : Nat} {writer : Writer} (hfront : d.scheduler.active = t :: rest) (hstarted : 0 < t.offset)
    (hsame : writer.events = d.writer.events) : OnlyFinishes d (d.advanceFront t rest count writer) := by
  have hbefore : d.scheduler.startedFront = some t := startedFront_cons hfront hstarted
  have hafter : (d.advanceFront t rest count writer).scheduler.startedFront =
      some { t with offset := t.offset + count } :=
    startedFront_cons rfl (lt_of_lt_of_le hstarted (Nat.le_add_right _ _))
  have hcut : t.remaining.take count ++ t.bytes.drop (t.offset + count) = t.remaining := by
    rw [ActiveTransaction.remaining, ← drop_drop, take_append_drop]
  refine ⟨⟨[.accepted (t.remaining.take count)], by simp [advanceFront, hsame], ?_⟩, ?_, ?_⟩
  · rw [acceptedBytes_accepted, owed, owed, hbefore, hafter]
    exact ⟨[], (append_nil _).trans hcut⟩
  · intro u hu
    rw [hafter] at hu
    cases hu
    exact ⟨t, hbefore, rfl⟩
  · exact fun u hu => .inl hu

theorem pop {t : ActiveTransaction Scene Bundle} {rest : List (ActiveTransaction Scene Bundle)}
    (hfront : d.scheduler.active = t :: rest) (hbehind : d.scheduler.Behind)
    (hdone : t.remaining = []) : OnlyFinishes d (d.finishFront t rest) := by
  have hrest : ∀ u ∈ rest, u.offset = 0 := by
    intro u hu
    exact hbehind u (by rw [hfront]; exact hu)
  have hafter : (d.finishFront t rest).scheduler.startedFront = none := startedFront_unstarted hrest
  refine ⟨⟨[], by simp [finishFront], ?_⟩, ?_, ?_⟩
  · have hnone : (d.finishFront t rest).scheduler.owed = [] := by
      rw [owed, hafter]
      rfl
    rw [hnone]
    exact nil_prefix
  · intro u hu
    rw [hafter] at hu
    cases hu
  · intro u hu
    obtain hu | hu := mem_append.mp hu
    · exact .inl hu
    · obtain rfl := mem_singleton.mp hu
      by_cases hstarted : 0 < u.offset
      · exact .inr (.inr ⟨u, startedFront_cons hfront hstarted, rfl⟩)
      · have hzero : u.offset = 0 := Nat.eq_zero_of_not_pos hstarted
        rw [ActiveTransaction.remaining, hzero, drop_zero] at hdone
        exact .inr (.inl hdone)

theorem fail (d : Drain Scene Bundle) {writer : Writer} (hsame : writer.events = d.writer.events) :
    OnlyFinishes d (d.fail writer) := by
  refine ⟨⟨[.failed], by simp [Drain.fail, hsame], ?_⟩, ?_, ?_⟩
  · exact nil_prefix
  · intro t ht
    exact absurd ht (by simp [Drain.fail, failed, startedFront])
  · intro t ht
    exact absurd ht (by simp [Drain.fail])

end OnlyFinishes

section Calls

variable [SceneGeometry Scene] {d₀ d : Drain Scene Bundle} {nowMs : Nat}

/-- What holds at every moment of a held call that began as `d₀`. -/
structure Held (d₀ : Drain Scene Bundle) (nowMs : Nat) (d : Drain Scene Bundle) : Prop where
  finishes : OnlyFinishes d₀ d
  behind : d.scheduler.Behind
  holds : d.scheduler.Holds nowMs false

theorem held_kept : Kept (fun t => 0 < t.offset) (Held d₀ nowMs) (OnlyFinishes d₀) where
  block d writer h same := by
    refine ⟨h.finishes.trans ?_, h.behind, ⟨rfl, h.holds.unexpired, h.holds.unbypassed⟩⟩
    exact .quiet [] (by simp [block, same]) rfl rfl rfl
  retry d writer h same := by
    refine ⟨h.finishes.trans ?_, h.behind, h.holds⟩
    exact .quiet [] (by simpa using same) rfl rfl rfl
  write d t rest count writer h front started _ _ same := by
    refine ⟨h.finishes.trans (.write front started same), ?_, ⟨rfl, h.holds.unexpired, h.holds.unbypassed⟩⟩
    intro u hu
    exact h.behind u (by rw [front]; exact hu)
  pop d t rest h front done := by
    refine ⟨h.finishes.trans (.pop front h.behind done), ?_, ⟨rfl, h.holds.unexpired, h.holds.unbypassed⟩⟩
    intro u hu
    exact h.behind u (by rw [front]; exact mem_of_mem_tail hu)
  flush d writer h same := by
    refine ⟨h.finishes.trans ?_, h.behind, ⟨rfl, h.holds.unexpired, h.holds.unbypassed⟩⟩
    exact .quiet [.flushed] (by simp [flush, same]) rfl rfl rfl
  complete d h _ := by
    have hmarks := (completeAwaiting_marks d).1
    rw [h.holds.unbypassed, clearMark_none] at hmarks
    obtain ⟨release, bypass, report, heq, -⟩ := completeAwaiting_spec d
    rw [heq] at hmarks ⊢
    refine ⟨h.finishes.trans ?_, h.behind, ⟨rfl, h.holds.unexpired, hmarks⟩⟩
    exact .quiet [] (by simp) rfl rfl rfl
  fail d writer h same := h.finishes.trans (.fail d same)

omit [SceneGeometry Scene] in
theorem holdOutput_held (h : d.scheduler.Holds nowMs false) : d.holdOutput nowMs false =
      if d.scheduler.active.head?.any fun t => 0 < t.offset then .next d true
      else .stop .returned d := by
  obtain ⟨startedMs, lastActivityMs, hactive, hidle, hhard⟩ := h.unexpired
  unfold holdOutput
  rw [hactive]
  simp only
  rw [if_neg (by omega), if_neg (by simp [h.unbypassed])]

theorem heldTail_ensures {P F : Drain Scene Bundle → Prop} (hkept : Kept (fun t => 0 < t.offset) P F)
    (hconclude : ∀ d, P d → P d.conclude) (hholds : d.scheduler.Holds nowMs false) (h : P d) :
    ((d.holdOutput nowMs false).andThen fun held finishOnly =>
      if held.beforeLatencyDeadline nowMs false then .stop .returned held
      else held.writeActive finishOnly).Ensures P F := by
  rw [holdOutput_held hholds]
  split
  · rename_i hstarted
    simp only [Phase.andThen]
    split
    · exact Phase.ensures_returned h
    · have hactivated : d.scheduler.activatePending = d.scheduler := by
        unfold activatePending
        rw [if_neg]
        intro hempty
        rw [isEmpty_iff.mp hempty] at hstarted
        cases hstarted
      apply writeActive_ensures true hkept (fun t ht => ht rfl) hconclude
      rw [hactivated]
      exact h
  · exact Phase.ensures_returned h

/-- **A held call writes nothing but the rest of the started front.** -/
theorem drainReady_held {force : Bool} (h : d.scheduler.Holds nowMs force) (hbehind : d.scheduler.Behind) :
    (d.drainReady nowMs force).Ensures (OnlyFinishes d) (OnlyFinishes d) := by
  obtain rfl := h.unforced
  have hweaken : ∀ {α : Type} {p : Phase Scene Bundle α},
      p.Ensures (Held d nowMs) (OnlyFinishes d) → p.Ensures (OnlyFinishes d) (OnlyFinishes d) := by
    rintro α p (⟨hkept, hheld⟩ | hfailed)
    · exact .inl ⟨hkept, hheld.finishes⟩
    · exact .inr hfailed
  have hconclude : ∀ d' : Drain Scene Bundle, Held d nowMs d' → Held d nowMs d'.conclude :=
    fun d' h' => ⟨h'.finishes.trans (.quiet [] (by simp [conclude]) rfl rfl rfl), h'.behind, h'.holds⟩
  unfold drainReady
  split
  · exact Phase.ensures_returned .refl
  · split
    · exact Phase.ensures_returned .refl
    · apply hweaken
      have hstart : Held d nowMs (d.setWaiting (!false && d.scheduler.waitingForWritable)) :=
        ⟨.quiet [] (by simp [setWaiting]) rfl rfl rfl, hbehind, ⟨rfl, h.unexpired, h.unbypassed⟩⟩
      apply (flushIfRequired_ensures held_kept hstart).andThen
      intro flushed _ _ hflushed
      exact heldTail_ensures held_kept hconclude hflushed.holds hflushed

end Calls

/-! ## Held runs -/

namespace Run

variable [SceneGeometry Scene] {r : Run Scene Bundle}

/-- Every call of `drain_ready` meets the hold. The calls between them are arbitrary. -/
def HeldThroughout : Run Scene Bundle → List (Op Scene Bundle) → Prop
  | _, [] => True
  | r, op :: ops =>
    (∀ nowMs force, op = .drain nowMs force → r.scheduler.Holds nowMs force) ∧ HeldThroughout (r.step op) ops

omit [SceneGeometry Scene] in
theorem Sound.behind (h : r.Sound) : r.scheduler.Behind := by
  obtain ⟨past, recent, -, -, -, hserial, -⟩ := h.written
  exact hserial.behind

omit [SceneGeometry Scene] in
theorem onlyFinishes_prune (h : r.Sound) {s : OutputScheduler Scene Bundle}
    (hprune : Prunes transactionLayout r.scheduler.active s.active)
    (accepted : List (AcceptedRender Scene Bundle)) :
    OnlyFinishes r.opened { r with scheduler := s, accepted := accepted }.opened :=
  .quiet [] (by simp [opened]) rfl (startedFront_prune h.behind hprune) rfl

theorem onlyFinishes_step (h : r.Sound) {op : Op Scene Bundle}
    (hheld : ∀ nowMs force, op = .drain nowMs force → r.scheduler.Holds nowMs force) :
    OnlyFinishes r.opened (r.step op).opened := by
  unfold step
  split
  · exact .refl
  · cases op with
    | command c => exact onlyFinishes_prune h (c.apply_advances r.scheduler).active r.accepted
    | render batch accessibility nowMs =>
      obtain ⟨-, hadv⟩ | ⟨-, hacc⟩ := r.scheduler.enqueueRender_cases batch accessibility nowMs
      · exact onlyFinishes_prune h hadv.active _
      · obtain ⟨s₀, hadv, hactive, -⟩ := hacc.withdrawn
        exact onlyFinishes_prune h (hactive ▸ hadv.active) _
    | drain nowMs force =>
      have hholds : r.opened.scheduler.Holds nowMs force := hheld nowMs force rfl
      obtain ⟨-, hfinishes⟩ | ⟨-, hfinishes⟩ := drainReady_held hholds h.behind
      · exact ⟨hfinishes.writes, hfinishes.started, hfinishes.finished⟩
      · exact ⟨hfinishes.writes, hfinishes.started, hfinishes.finished⟩

theorem onlyFinishes_runOps (h : r.Sound) {ops : List (Op Scene Bundle)}
    (hheld : r.HeldThroughout ops) : OnlyFinishes r.opened (r.runOps ops).opened := by
  induction ops generalizing r with
  | nil => exact .refl
  | cons op ops ih =>
    obtain ⟨hop, hrest⟩ := hheld
    exact (onlyFinishes_step h hop).trans (ih (sound_step h op) hrest)

/-- **While the application holds its output, only the started transaction is finished**, as long as every call
of `drain_ready` meets an open synchronization before its deadlines, without a bypass and without force. -/
theorem held_output_only_finishes (config : OutputSchedulerConfig) (supported : Bool)
    (writes : List WriteResponse) (flushes : List FlushResponse) (before ops : List (Op Scene Bundle))
    (r : Run Scene Bundle) (hr : r = (start config supported writes flushes).runOps before)
    (hheld : r.HeldThroughout ops) : OnlyFinishes r.opened (r.runOps ops).opened :=
  onlyFinishes_runOps (hr ▸ sound_runOps (sound_start config supported writes flushes) before) hheld

/-- Control bytes are half written when the application opens its synchronized output. -/
def synchronizedRun : Run TerminalGeometry Nat :=
  (start .default false [.accepted 1, .wouldBlock, .accepted 9, .accepted 9] [.flushed, .flushed]).runOps
    [.command (.enqueueBytes .control (ascii "AB") 0), .drain 0 false,
      .command (.observeApplicationSynchronization true true true 1)]

def synchronizedOps : List (Op TerminalGeometry Nat) :=
  [.render (textFrame "held") 1 2, .command .notifyWritable, .drain 3 false, .drain 4 false]

theorem held_output_only_finishes_half :
    OnlyFinishes synchronizedRun.opened (synchronizedRun.runOps synchronizedOps).opened ∧
      acceptedBytes (synchronizedRun.runOps synchronizedOps).writer.events = ascii "AB" := by
  have hfirst : (synchronizedRun.runOps (synchronizedOps.take 2)).scheduler.Holds 3 false := by
    decide +kernel
  have hsecond : (synchronizedRun.runOps (synchronizedOps.take 3)).scheduler.Holds 4 false := by
    decide +kernel
  refine ⟨held_output_only_finishes .default false _ _ _ synchronizedOps synchronizedRun rfl ?_,
    by decide +kernel⟩
  refine ⟨fun _ _ h => (nomatch h), fun _ _ h => (nomatch h), ?_, ?_, trivial⟩
  · intro nowMs force h
    cases h
    exact hfirst
  · intro nowMs force h
    cases h
    exact hsecond

end Run

end Lector.Output
