import Lector.Output.Holding
import Lector.Output.Receipts

/-! The render that passes the hold. A bypass or a timeout release names a generation, and a render
of that generation is queued or awaits its flush for as long as it is named. -/
namespace Lector.Output
open Loop List
open Option hiding any_eq_true filter

variable {Scene Bundle : Type}

/-! ## Named renders -/

namespace OutputScheduler

variable (s : OutputScheduler Scene Bundle)

def Unstarted (render : TrackedRender Scene Bundle) : Prop :=
  (∃ t ∈ s.active, t.offset = 0 ∧ t.completedRender = some render) ∨
    ∃ p, s.pendingRender = some p ∧ p.tracked = render

def Started (render : TrackedRender Scene Bundle) : Prop :=
  ∃ t ∈ s.active, 0 < t.offset ∧ t.completedRender = some render

def Named (mark : Option UInt64) : Prop := ∀ g, mark = some g → ∃ render ∈ s.unreported, render.generation = g

/-- Not finished yet, and before its first byte the only one that can start. -/
inductive Fresh (g : UInt64) : Prop
  | waiting (render : TrackedRender Scene Bundle) (unstarted : s.Unstarted render)
      (named : render.generation = g)
      (only : ∀ render, s.Unstarted render → render.generation = g)
  | started (render : TrackedRender Scene Bundle) (started : s.Started render)
      (named : render.generation = g)

/-- The render of generation `g` was written in full, and no other is active. -/
def Spent (g : UInt64) : Prop :=
  (∃ render ∈ s.awaitingFlushRenders, render.generation = g) ∧ rendersOf s.active = []

/-- The render that passes the hold was not written yet. -/
def Ready : Prop := ∀ g, s.applicationSynchronizationBypassGeneration = some g → s.Fresh g

/-- Once it was written, it stays the render that passes until the writer has flushed it. -/
def Owned : Prop :=
  ∀ g, s.applicationSynchronizationBypassGeneration = some g →
    s.Fresh g ∨ (s.Spent g ∧ s.flushRequired = true)

variable {s} {s' : OutputScheduler Scene Bundle} {render : TrackedRender Scene Bundle} {g : UInt64}

theorem mem_rendersOf {ts : List (ActiveTransaction Scene Bundle)} :
    render ∈ rendersOf ts ↔ ∃ t ∈ ts, t.completedRender = some render := by
  simp [rendersOf]

theorem Unstarted.alive (h : s.Unstarted render) : render ∈ s.unreported := by
  rw [unreported, renderLane, mem_append, mem_append]
  obtain ⟨t, ht, -, hrender⟩ | ⟨p, hp, rfl⟩ := h
  · exact .inr (.inl (mem_rendersOf.mpr ⟨t, ht, hrender⟩))
  · exact .inr (.inr (by simp [hp]))

theorem Started.alive (h : s.Started render) : render ∈ s.unreported := by
  obtain ⟨t, ht, -, hrender⟩ := h
  rw [unreported, renderLane, mem_append, mem_append]
  exact .inr (.inl (mem_rendersOf.mpr ⟨t, ht, hrender⟩))

theorem Fresh.alive (h : s.Fresh g) : ∃ render ∈ s.unreported, render.generation = g := by
  cases h with
  | waiting render unstarted named only => exact ⟨render, unstarted.alive, named⟩
  | started render started named => exact ⟨render, started.alive, named⟩

theorem Owned.named (h : s.Owned) : s.Named s.applicationSynchronizationBypassGeneration := by
  intro g hg
  obtain hfresh | ⟨⟨⟨render, hrender, hnamed⟩, -⟩, -⟩ := h g hg
  · exact hfresh.alive
  · exact ⟨render, mem_append_left _ hrender, hnamed⟩

theorem Ready.owned (h : s.Ready) : s.Owned := fun g hg => .inl (h g hg)

theorem named_none : s.Named none := fun _ h => absurd h (by simp)

theorem owned_none (h : s.applicationSynchronizationBypassGeneration = none) : s.Owned := by
  intro g hg
  rw [h] at hg
  exact absurd hg (by simp)

/-! ## Withdrawn work -/

/-- A call that withdraws renders, but none that a mark names. -/
structure Spares (s s' : OutputScheduler Scene Bundle) : Prop where
  active : s'.active.Sublist s.active
  pending : ∀ p', s'.pendingRender = some p' → ∃ p, s.pendingRender = some p ∧ p'.tracked = p.tracked
  spared : ∀ render, s.Unstarted render →
    s.applicationSynchronizationBypassGeneration = some render.generation ∨
      s.synchronizationTimeoutReleaseGeneration = some render.generation → s'.Unstarted render
  started : ∀ render, s.Started render → s'.Started render
  awaiting : s'.awaitingFlushRenders = s.awaitingFlushRenders
  flushRequired : s'.flushRequired = s.flushRequired
  bypass : s'.applicationSynchronizationBypassGeneration = s.applicationSynchronizationBypassGeneration
  release : s'.synchronizationTimeoutReleaseGeneration = s.synchronizationTimeoutReleaseGeneration ∨
    s'.synchronizationTimeoutReleaseGeneration = none

namespace Spares

theorem unstarted (h : Spares s s') (hrender : s'.Unstarted render) : s.Unstarted render := by
  obtain ⟨t, ht, hrest⟩ | ⟨p', hp', rfl⟩ := hrender
  · exact .inl ⟨t, h.active.subset ht, hrest⟩
  · obtain ⟨p, hp, hsame⟩ := h.pending p' hp'
    exact .inr ⟨p, hp, hsame.symm⟩

theorem owned (h : Spares s s') (howned : s.Owned) : s'.Owned := by
  intro g hg
  rw [h.bypass] at hg
  obtain hfresh | ⟨⟨⟨render, hrender, hnamed⟩, hnone⟩, hflush⟩ := howned g hg
  · left
    cases hfresh with
    | waiting render unstarted named only =>
      exact .waiting render (h.spared render unstarted (.inl (named ▸ hg))) named
        fun render hrender => only render (h.unstarted hrender)
    | started render started named => exact .started render (h.started render started) named
  · right
    refine ⟨⟨⟨render, h.awaiting ▸ hrender, hnamed⟩, ?_⟩, h.flushRequired.trans hflush⟩
    have hsublist := rendersOf_sublist h.active
    rw [hnone] at hsublist
    exact sublist_nil.mp hsublist

theorem release_named (h : Spares s s') (hnamed : s.Named s.synchronizationTimeoutReleaseGeneration) :
    s'.Named s'.synchronizationTimeoutReleaseGeneration := by
  obtain hsame | hnone := h.release
  · rw [hsame]
    intro g hg
    obtain ⟨render, hrender, rfl⟩ := hnamed g hg
    refine ⟨render, ?_, rfl⟩
    rw [unreported, renderLane, mem_append, mem_append] at hrender
    obtain hawaiting | hactive | hpending := hrender
    · exact mem_append_left _ (h.awaiting ▸ hawaiting)
    · obtain ⟨t, ht, hsome⟩ := mem_rendersOf.mp hactive
      by_cases hstart : t.offset = 0
      · exact (h.spared render (.inl ⟨t, ht, hstart, hsome⟩) (.inr hg)).alive
      · exact (h.started render ⟨t, ht, pos_of_ne_zero hstart, hsome⟩).alive
    · obtain ⟨p, hp, hsame⟩ : ∃ p, s.pendingRender = some p ∧ p.tracked = render := by
        simpa using hpending
      exact (h.spared render (.inr ⟨p, hp, hsame⟩) (.inr hg)).alive
  · rw [hnone]
    exact named_none

theorem same (hactive : s'.active = s.active)
    (hpending : s'.pendingRender.map PendingRender.tracked = s.pendingRender.map PendingRender.tracked)
    (hawaiting : s'.awaitingFlushRenders = s.awaitingFlushRenders)
    (hflush : s'.flushRequired = s.flushRequired)
    (hbypass : s'.applicationSynchronizationBypassGeneration = s.applicationSynchronizationBypassGeneration)
    (hrelease : s'.synchronizationTimeoutReleaseGeneration = s.synchronizationTimeoutReleaseGeneration ∨
      s'.synchronizationTimeoutReleaseGeneration = none) :
    Spares s s' := by
  have hback : ∀ render, (∃ p, s.pendingRender = some p ∧ p.tracked = render) ↔
      ∃ p, s'.pendingRender = some p ∧ p.tracked = render := by
    intro render
    rw [← map_eq_some_iff, ← map_eq_some_iff, hpending]
  refine ⟨hactive ▸ .refl _, ?_, ?_, ?_, hawaiting, hflush, hbypass, hrelease⟩
  · intro p' hp'
    obtain ⟨p, hp, hsame⟩ := (hback p'.tracked).mpr ⟨p', hp', rfl⟩
    exact ⟨p, hp, hsame.symm⟩
  · intro render hrender _
    rw [Unstarted, hactive, ← hback]
    exact hrender
  · intro render hrender
    rw [Started, hactive]
    exact hrender

theorem filter {keep : ActiveTransaction Scene Bundle → Bool}
    (hkeep : ∀ t ∈ s.active, keep t = false → t.completedRender = none)
    (hactive : s'.active = s.active.filter keep) (hpending : s'.pendingRender = s.pendingRender)
    (hawaiting : s'.awaitingFlushRenders = s.awaitingFlushRenders)
    (hflush : s'.flushRequired = s.flushRequired)
    (hbypass : s'.applicationSynchronizationBypassGeneration = s.applicationSynchronizationBypassGeneration)
    (hrelease : s'.synchronizationTimeoutReleaseGeneration = s.synchronizationTimeoutReleaseGeneration) :
    Spares s s' := by
  have hstays : ∀ t ∈ s.active, ∀ render, t.completedRender = some render → t ∈ s'.active := by
    intro t ht render hrender
    rw [hactive, mem_filter]
    refine ⟨ht, ?_⟩
    by_contra hdropped
    exact absurd (hrender.symm.trans (hkeep t ht (eq_false_of_ne_true hdropped))) (by simp)
  refine ⟨hactive ▸ filter_sublist, fun p' hp' => ⟨p', hpending ▸ hp', rfl⟩, ?_, ?_, hawaiting,
    hflush, hbypass, .inl hrelease⟩
  · intro render hrender _
    obtain ⟨t, ht, hstart, hsome⟩ | ⟨p, hp, hsame⟩ := hrender
    · exact .inl ⟨t, hstays t ht render hsome, hstart, hsome⟩
    · exact .inr ⟨p, hpending.trans hp, hsame⟩
  · rintro render ⟨t, ht, hstart, hsome⟩
    exact ⟨t, hstays t ht render hsome, hstart, hsome⟩

theorem trans {s'' : OutputScheduler Scene Bundle} (h : Spares s s') (h' : Spares s' s'')
    (hrelease : s'.synchronizationTimeoutReleaseGeneration =
      s.synchronizationTimeoutReleaseGeneration) : Spares s s'' := by
  refine ⟨h'.active.trans h.active, ?_, ?_, fun render hrender => h'.started _ (h.started _ hrender),
    h'.awaiting.trans h.awaiting, h'.flushRequired.trans h.flushRequired, h'.bypass.trans h.bypass,
    hrelease ▸ h'.release⟩
  · intro p'' hp''
    obtain ⟨p', hp', hsame'⟩ := h'.pending p'' hp''
    obtain ⟨p, hp, hsame⟩ := h.pending p' hp'
    exact ⟨p, hp, hsame'.trans hsame⟩
  · intro render hrender hmark
    refine h'.spared render (h.spared render hrender hmark) ?_
    rw [h.bypass, hrelease]
    exact hmark

theorem refl : Spares s s := same rfl rfl rfl rfl rfl (.inl rfl)

end Spares

variable (s)

theorem isReleaseBoundary_iff :
    s.isReleaseBoundary g = true ↔ s.applicationSynchronizationBypassGeneration = some g ∨
      s.synchronizationTimeoutReleaseGeneration = some g := by
  rw [isReleaseBoundary, Bool.or_eq_true, beq_iff_eq, beq_iff_eq, or_comm, eq_comm, eq_comm (a := some g)]

theorem evictUnstarted_spares : Spares s s.evictUnstarted where
  active := filter_sublist
  pending p' hp' := ⟨p', (filter_eq_some_iff.mp hp').1, rfl⟩
  spared render hrender hmark := by
    have hboundary := s.isReleaseBoundary_iff.mpr hmark
    obtain ⟨t, ht, hstart, hsome⟩ | ⟨p, hp, rfl⟩ := hrender
    · refine .inl ⟨t, mem_filter.mpr ⟨ht, ?_⟩, hstart, hsome⟩
      simp [survivesEviction, hsome, hboundary]
    · exact .inr ⟨p, filter_eq_some_iff.mpr ⟨hp, hboundary⟩, rfl⟩
  started := by
    rintro render ⟨t, ht, hstart, hsome⟩
    refine ⟨t, mem_filter.mpr ⟨ht, ?_⟩, hstart, hsome⟩
    simp [survivesEviction, hstart]
  awaiting := rfl
  flushRequired := rfl
  bypass := rfl
  release := .inl rfl

theorem enqueueBytes_spares (kind : ScheduledOutputClass) (bytes : Bytes) (nowMs : Nat) :
    Spares s (s.enqueueBytes kind bytes nowMs) := by
  unfold enqueueBytes
  split
  · exact .refl
  · split
    · exact .refl
    · have hevicted : Spares s (if s.exceeds bytes.length then s.evictUnstarted else s) ∧
          (if s.exceeds bytes.length then s.evictUnstarted
            else s).synchronizationTimeoutReleaseGeneration =
            s.synchronizationTimeoutReleaseGeneration := by
        split
        · exact ⟨s.evictUnstarted_spares, rfl⟩
        · exact ⟨.refl, rfl⟩
      simp only
      generalize (if s.exceeds bytes.length then s.evictUnstarted else s) = evicted at hevicted ⊢
      split
      · exact hevicted.1
      · exact hevicted.1.trans (.same rfl rfl rfl rfl rfl (.inl rfl)) hevicted.2

theorem enqueueTerminalEffect_spares (hkind : ∀ t ∈ s.active, t.kind = .render ↔
    t.completedRender.isSome) (owner : SurfaceId) (event : TerminalEvent) (nowMs : Nat) :
    Spares s (s.enqueueTerminalEffect owner event nowMs) := by
  have hsupersede : ∀ kind, Spares s (s.supersedeEffects owner kind) := by
    intro kind
    refine .filter ?_ rfl rfl rfl rfl rfl rfl
    intro t ht hdropped
    simp only [Bool.or_eq_false_iff] at hdropped
    have heffect : t.kind = .effect := by simpa using hdropped.1.2
    have hnot : ¬ t.completedRender.isSome := by
      rw [← hkind t ht, heffect]
      exact fun h => ActiveTransactionKind.noConfusion h
    exact not_isSome_iff_eq_none.mp hnot
  have hremove : ∀ (s' : OutputScheduler Scene Bundle) kind, Spares s' (s'.removePendingEffect owner kind) ∧
        (s'.removePendingEffect owner kind).synchronizationTimeoutReleaseGeneration =
          s'.synchronizationTimeoutReleaseGeneration := by
    intro s' kind
    unfold removePendingEffect
    split
    · exact ⟨.same rfl rfl rfl rfl rfl (.inl rfl), rfl⟩
    · exact ⟨.refl, rfl⟩
  obtain ⟨roomier, ⟨hroomier, hrelease⟩, heq | ⟨-, heq⟩⟩ := enqueueTerminalEffect_rule s
    (P := fun s' => Spares s s' ∧
      s'.synchronizationTimeoutReleaseGeneration = s.synchronizationTimeoutReleaseGeneration)
    rfl owner nowMs ⟨.refl, rfl⟩ ⟨hsupersede _, rfl⟩
    fun s' h => ⟨h.1.trans (hremove s' _).1 h.2, (hremove s' _).2.trans h.2⟩
  · rw [heq]
    exact hroomier
  · rw [heq]
    exact hroomier.trans (.same rfl rfl rfl rfl rfl (.inl rfl)) hrelease

theorem command_spares (hkind : ∀ t ∈ s.active, t.kind = .render ↔ t.completedRender.isSome)
    (c : Command) (hcleanup : c ≠ .prepareForLifecycleCleanup) : Spares s (c.apply s) := by
  cases c with
  | enqueueBytes kind bytes nowMs => exact s.enqueueBytes_spares kind bytes nowMs
  | enqueueTerminalEffect owner event nowMs => exact s.enqueueTerminalEffect_spares hkind owner event nowMs
  | enqueueBell count nowMs =>
    simp only [Command.apply]
    unfold enqueueBell
    simp only
    split
    · exact .refl
    · exact .same rfl rfl rfl rfl rfl (.inl rfl)
  | setSynchronizedOutputSupported supported =>
    refine .same rfl ?_ rfl rfl rfl (.inl rfl)
    simp only [Command.apply, setSynchronizedOutputSupported]
    split
    · cases s.pendingRender with
      | none => rfl
      | some p => rfl
    · rfl
  | observeApplicationSynchronization synchronized opened activity nowMs =>
    simp only [Command.apply]
    unfold observeApplicationSynchronization
    split
    · split
      · split
        · exact .same rfl rfl rfl rfl rfl (.inr rfl)
        · exact .refl
      · split
        · exact .same rfl rfl rfl rfl rfl (.inl rfl)
        · exact .refl
      · exact .same rfl rfl rfl rfl rfl (.inl rfl)
    · exact .same rfl rfl rfl rfl rfl (.inr rfl)
  | setApplicationSynchronizationBypassed bypassed => exact .same rfl rfl rfl rfl rfl (.inl rfl)
  | prepareForLifecycleCleanup => exact absurd rfl hcleanup
  | recover => exact .same rfl rfl rfl rfl rfl (.inl rfl)
  | notifyWritable => exact .same rfl rfl rfl rfl rfl (.inl rfl)

/-! ## Accepted renders -/

section Acceptance

variable {s}

theorem replaces_of_unstarted (h : OneRender s.active) {mark : Option UInt64} (hrender : s.Unstarted render)
    (hmark : mark = some render.generation) : s.replacesGeneration mark = true := by
  rw [replacesGeneration, Bool.or_eq_true]
  obtain ⟨t, ht, hstart, hsome⟩ | ⟨p, hp, rfl⟩ := hrender
  · right
    have hkind : t.kind = .render := (h.kind t ht).mpr (by simp [hsome])
    have hunstarted : t.isUnstarted .render = true := by
      simp [ActiveTransaction.isUnstarted, hkind, hstart]
    cases hindex : s.replaceableActiveIndex with
    | none =>
      have hnot := findIdx?_eq_none_iff.mp hindex t ht
      rw [hunstarted] at hnot
      exact absurd hnot (by simp)
    | some index =>
      obtain ⟨hlt, -, -⟩ := findIdx?_eq_some_iff_getElem.mp hindex
      have hothers : rendersOf (s.active.take index ++ s.active.drop (index + 1)) = [] := by
        rw [← eraseIdx_eq_take_drop_succ]
        exact h.erase hindex
      have hnot : ∀ u ∈ s.active.take index ++ s.active.drop (index + 1), u ≠ t := by
        rintro u hu rfl
        have hmem := mem_rendersOf.mpr ⟨u, hu, hsome⟩
        rw [hothers] at hmem
        exact absurd hmem (by simp)
      have hsplit : s.active = s.active.take index ++ s.active[index] :: s.active.drop (index + 1) := by
        rw [getElem_cons_drop, take_append_drop]
      have hfront : t = s.active[index] := by
        rw [hsplit, mem_append, mem_cons] at ht
        obtain hbefore | hsame | hafter := ht
        · exact absurd rfl (hnot t (mem_append_left _ hbefore))
        · exact hsame
        · exact absurd rfl (hnot t (mem_append_right _ hafter))
      rw [replaceableActive, hindex, bind_some, getElem?_eq_getElem hlt, ← hfront]
      simp [ActiveTransaction.rendersGeneration, hsome, hmark]
  · left
    rw [hp, hmark]
    simp [PendingRender.tracked]

theorem unstarted_of_replaces {mark : Option UInt64} (h : s.replacesGeneration mark = true) :
    ∃ render, s.Unstarted render ∧ mark = some render.generation := by
  rw [replacesGeneration, Bool.or_eq_true] at h
  obtain hpending | hactive := h
  · obtain ⟨p, hp, hsame⟩ := (Option.any_eq_true _ _).mp hpending
    exact ⟨p.tracked, .inr ⟨p, hp, rfl⟩, (beq_iff_eq.mp hsame).symm⟩
  · obtain ⟨t, ht, hsame⟩ := (Option.any_eq_true _ _).mp hactive
    obtain ⟨index, hindex, ht⟩ := bind_eq_some_iff.mp ht
    obtain ⟨u, hu, hstart⟩ := s.replaceableActiveIndex_spec hindex
    obtain rfl : t = u := some.inj (ht.symm.trans hu)
    obtain ⟨render, hsome, hnamed⟩ := (Option.any_eq_true _ _).mp hsame
    exact ⟨render, .inl ⟨t, mem_of_getElem? hu, hstart, hsome⟩, (beq_iff_eq.mp hnamed).symm⟩

/-- What is known of the queue after a render was accepted. -/
structure AcceptedAs (s s' : OutputScheduler Scene Bundle) (requested : Bool) : Prop where
  unstarted : ∀ render, s'.Unstarted render → render.generation = s.nextRenderGeneration
  waits : ∃ render, s'.Unstarted render
  started : ∀ render, s.Started render → s'.Started render
  renders : rendersOf s'.active = startedRenders s
  awaiting : s'.awaitingFlushRenders = s.awaitingFlushRenders
  flushRequired : s'.flushRequired = s.flushRequired
  bypass : s'.applicationSynchronizationBypassGeneration =
    if requested || s.replacesGeneration s.applicationSynchronizationBypassGeneration then
      some s.nextRenderGeneration
    else s.applicationSynchronizationBypassGeneration
  release : s'.synchronizationTimeoutReleaseGeneration =
    if s.replacesGeneration s.synchronizationTimeoutReleaseGeneration then
      some s.nextRenderGeneration
    else s.synchronizationTimeoutReleaseGeneration

theorem acceptRender_acceptedAs (h : OneRender s.active) (batch : RenderBatch Scene)
    (renderBytes : Nat) (accessibility : Bundle) (requested : Bool) (nowMs : Nat) :
    AcceptedAs s (s.acceptRender batch renderBytes accessibility requested nowMs).2 requested := by
  have hrenders := acceptRender_active h batch renderBytes accessibility requested nowMs
  obtain ⟨-, ⟨s₀, hadv, hactive, -, -, -, -, hflush, -⟩, ⟨byteLen, hpending⟩, -⟩ :=
    s.acceptRender_accepts batch renderBytes accessibility requested nowMs
  have hawait : (s.acceptRender batch renderBytes accessibility requested nowMs).2.awaitingFlushRenders =
      s.awaitingFlushRenders := by
    cases hindex : s.replaceableActiveIndex with
    | none => simp [acceptRender, hindex, notePending]
    | some index => simp [acceptRender, hindex, notePending, removeActiveRender, withdrawBells]
  have hkept : ∀ render, s.Started render →
      (s.acceptRender batch renderBytes accessibility requested nowMs).2.Started render := by
    rintro render ⟨t, ht, hstart, hsome⟩
    exact ⟨t, hactive ▸ hadv.active.keeps t ht hstart, hstart, hsome⟩
  refine ⟨?_, ⟨_, .inr ⟨_, hpending, rfl⟩⟩, hkept, hrenders, hawait, hflush.trans hadv.flushRequired, rfl, rfl⟩
  rintro render (⟨t, ht, hstart, hsome⟩ | ⟨p, hp, rfl⟩)
  · have hnone : t.completedRender = none := by
      cases hindex : s.replaceableActiveIndex with
      | none =>
        refine h.unstarted hindex ?_ hstart
        simpa [acceptRender, hindex, notePending] using ht
      | some index =>
        have herased : t ∈ s.active.eraseIdx index := by
          simp only [acceptRender, hindex, notePending, removeActiveRender, withdrawBells, mem_filter] at ht
          exact ht.1
        by_contra hrender
        have hmem := mem_rendersOf.mpr ⟨t, herased, hsome⟩
        rw [h.erase hindex] at hmem
        exact absurd hmem (by simp)
    rw [hnone] at hsome
    exact absurd hsome (by simp)
  · cases hp
    rfl

namespace AcceptedAs

variable {requested : Bool}

theorem owned (h : AcceptedAs s s' requested) (hone : OneRender s.active) (howned : s.Owned) : s'.Owned := by
  intro g hg
  rw [h.bypass] at hg
  split at hg
  · cases hg
    obtain ⟨render, hrender⟩ := h.waits
    exact .inl (.waiting render hrender (h.unstarted render hrender) h.unstarted)
  · rename_i hkept
    obtain hfresh | ⟨⟨⟨render, hrender, hnamed⟩, hnone⟩, hflush⟩ := howned g hg
    · left
      cases hfresh with
      | waiting render unstarted named only =>
        have hreplaces := replaces_of_unstarted hone unstarted (named ▸ hg)
        exact absurd (by rw [hreplaces, Bool.or_true]) hkept
      | started render started named => exact .started render (h.started render started) named
    · right
      refine ⟨⟨⟨render, h.awaiting ▸ hrender, hnamed⟩, ?_⟩, h.flushRequired.trans hflush⟩
      have hsublist := rendersOf_sublist (filter_sublist (l := s.active) (p := fun t => 0 < t.offset))
      rw [hnone] at hsublist
      rw [h.renders]
      exact sublist_nil.mp hsublist

theorem release_named (h : AcceptedAs s s' requested) (hone : OneRender s.active)
    (hnamed : s.Named s.synchronizationTimeoutReleaseGeneration) :
    s'.Named s'.synchronizationTimeoutReleaseGeneration := by
  intro g hg
  rw [h.release] at hg
  split at hg
  · cases hg
    obtain ⟨render, hrender⟩ := h.waits
    exact ⟨render, hrender.alive, h.unstarted render hrender⟩
  · rename_i hkept
    obtain ⟨render, hrender, rfl⟩ := hnamed g hg
    have hnot : ¬ s.Unstarted render := fun hrender => hkept (replaces_of_unstarted hone hrender hg)
    refine ⟨render, ?_, rfl⟩
    rw [unreported, renderLane, mem_append, mem_append] at hrender
    obtain hawaiting | hactive | hpending := hrender
    · exact mem_append_left _ (h.awaiting ▸ hawaiting)
    · obtain ⟨t, ht, hsome⟩ := mem_rendersOf.mp hactive
      have hstart : t.offset ≠ 0 := fun hzero => hnot (.inl ⟨t, ht, hzero, hsome⟩)
      exact (h.started render ⟨t, ht, pos_of_ne_zero hstart, hsome⟩).alive
    · exact absurd (.inr (by simpa using hpending)) hnot

end AcceptedAs

theorem enqueueRender_acceptedAs (h : OneRender s.active) (batch : RenderBatch Scene)
    (accessibility : Bundle) (nowMs : Nat) :
    ((s.enqueueRenderWithAccessibility batch accessibility nowMs).1 = .droppedForCapacity ∧
      Spares s (s.enqueueRenderWithAccessibility batch accessibility nowMs).2) ∨
    ((s.enqueueRenderWithAccessibility batch accessibility nowMs).1 ≠ .droppedForCapacity ∧
      AcceptedAs s (s.enqueueRenderWithAccessibility batch accessibility nowMs).2
        s.bypassNextRender) := by
  have htaken : Spares s { s with bypassNextRender := false } := .same rfl rfl rfl rfl rfl (.inl rfl)
  unfold enqueueRenderWithAccessibility
  simp only
  split
  · exact .inl ⟨rfl, htaken⟩
  · split
    · exact .inl ⟨rfl, htaken⟩
    · rename_i renderBytes _ _
      right
      have haccepted := acceptRender_acceptedAs (s := { s with bypassNextRender := false }) h batch
        renderBytes accessibility s.bypassNextRender nowMs
      exact ⟨(acceptRender_accepts _ _ _ _ _ _).1, haccepted.unstarted, haccepted.waits,
        haccepted.started, haccepted.renders, haccepted.awaiting, haccepted.flushRequired,
        haccepted.bypass, haccepted.release⟩

end Acceptance

end OutputScheduler

/-! ## The timeout release -/

section Release

variable [SceneGeometry Scene] {d d' : Drain Scene Bundle}

omit [SceneGeometry Scene] in
theorem newestGeneration_named (s : OutputScheduler Scene Bundle) : s.Named s.newestGeneration := by
  intro g hg
  rw [OutputScheduler.newestGeneration, or_eq_some_iff, or_eq_some_iff] at hg
  obtain hpending | ⟨-, hactive | ⟨-, hawaiting⟩⟩ := hg
  · obtain ⟨p, hp, rfl⟩ := map_eq_some_iff.mp hpending
    exact ⟨p.tracked, OutputScheduler.Unstarted.alive (.inr ⟨p, hp, rfl⟩), rfl⟩
  · obtain ⟨t, ht, hrender⟩ := exists_of_findSome?_eq_some hactive
    obtain ⟨render, hsome, rfl⟩ := map_eq_some_iff.mp hrender
    have hmem := OutputScheduler.mem_rendersOf.mpr ⟨t, mem_reverse.mp ht, hsome⟩
    exact ⟨render, mem_append_right _ (mem_append_left _ hmem), rfl⟩
  · obtain ⟨render, hlast, rfl⟩ := map_eq_some_iff.mp hawaiting
    exact ⟨render, mem_append_left _ (mem_of_getLast? hlast), rfl⟩

theorem KeepsWork.unreported (h : KeepsWork d d')
    (hreport : d'.report.completedRenders = d.report.completedRenders) :
    d'.scheduler.unreported = d.scheduler.unreported := by
  obtain ⟨reported, hcompleted, hunreported⟩ := h.reported
  have hnone : reported = [] := by
    rw [hreport] at hcompleted
    simpa using hcompleted
  rw [← hunreported, hnone, nil_append]

theorem Move.release_named (hmove : Move d d')
    (h : d.scheduler.Named d.scheduler.synchronizationTimeoutReleaseGeneration) :
    d'.scheduler.Named d'.scheduler.synchronizationTimeoutReleaseGeneration := by
  have hkept := hmove.keepsWork
  have hsame : d'.report.completedRenders = d.report.completedRenders →
      d'.scheduler.synchronizationTimeoutReleaseGeneration =
        d.scheduler.synchronizationTimeoutReleaseGeneration →
      d'.scheduler.Named d'.scheduler.synchronizationTimeoutReleaseGeneration := by
    intro hreport hmark g hg
    rw [hkept.unreported hreport]
    exact h g (hmark ▸ hg)
  cases hmove with
  | wait waiting => exact hsame rfl rfl
  | block writer same => exact hsame rfl rfl
  | retry writer same => exact hsame rfl rfl
  | release startedMs lastActivityMs held => exact newestGeneration_named d.scheduler
  | activate =>
    refine hsame rfl ?_
    unfold OutputScheduler.activatePending
    split
    · rfl
    · rfl
  | write t rest count writer front some fits same => exact hsame rfl rfl
  | pop t rest front done => exact hsame rfl rfl
  | flush writer same => exact hsame rfl rfl
  | conclude => exact hsame rfl rfl
  | complete flushed =>
    intro g hg
    have hmark := (completeAwaiting_marks d).2
    rw [hmark, clearMark] at hg
    split at hg
    · exact absurd hg (by simp)
    · rename_i hawaiting
      obtain ⟨render, hrender, rfl⟩ := h g hg
      obtain ⟨release, bypass, report, heq, -⟩ := completeAwaiting_spec d
      rw [heq]
      refine ⟨render, ?_, rfl⟩
      obtain hawaits | hlane := mem_append.mp hrender
      · refine absurd (any_eq_true.mpr ⟨render, hawaits, ?_⟩) hawaiting
        rw [hg]
        exact beq_self_eq_true _
      · exact hlane

theorem Moves.release_named (hmoves : Moves d d')
    (h : d.scheduler.Named d.scheduler.synchronizationTimeoutReleaseGeneration) :
    d'.scheduler.Named d'.scheduler.synchronizationTimeoutReleaseGeneration := by
  induction hmoves with
  | refl => exact h
  | tail _ hmove ih => exact hmove.release_named ih

end Release

/-! ## The bypass inside a call -/

/-- What holds after a part of a call: `Q` where the call goes on, `S` where it ends. -/
def Phase.Yields {α : Type} (Q : Drain Scene Bundle → α → Prop) (S : Drain Scene Bundle → Prop) :
    Phase Scene Bundle α → Prop
  | .next d a => Q d a
  | .stop _ d => S d

theorem Phase.Yields.andThen {α β : Type} {Q : Drain Scene Bundle → α → Prop}
    {Q' : Drain Scene Bundle → β → Prop} {S : Drain Scene Bundle → Prop} {p : Phase Scene Bundle α}
    {f : Drain Scene Bundle → α → Phase Scene Bundle β} (hp : p.Yields Q S)
    (hf : ∀ d a, Q d a → (f d a).Yields Q' S) : (p.andThen f).Yields Q' S := by
  cases p with
  | next d a => exact hf d a hp
  | stop outcome d => exact hp

namespace OutputScheduler

variable {s s' : OutputScheduler Scene Bundle} {g : UInt64}

/-- The render that passes may have been written, and its bytes not yet been flushed. -/
def Settling (s : OutputScheduler Scene Bundle) : Prop :=
  ∀ g, s.applicationSynchronizationBypassGeneration = some g → s.Fresh g ∨ s.Spent g

theorem Ready.settling (h : s.Ready) : s.Settling := fun g hg => .inl (h g hg)

theorem Owned.settling (h : s.Owned) : s.Settling := fun g hg => (h g hg).imp id And.left

theorem Fresh.same (h : s.Fresh g) (hactive : s'.active = s.active)
    (hpending : s'.pendingRender = s.pendingRender) : s'.Fresh g := by
  have hunstarted : s'.Unstarted = s.Unstarted := by
    funext render
    rw [Unstarted, Unstarted, hactive, hpending]
  have hstarted : s'.Started = s.Started := by
    funext render
    rw [Started, Started, hactive]
  cases h with
  | waiting render unstarted named only =>
    exact .waiting render (hunstarted ▸ unstarted) named (hunstarted ▸ only)
  | started render started named => exact .started render (hstarted ▸ started) named

theorem Ready.same (h : s.Ready) (hactive : s'.active = s.active)
    (hpending : s'.pendingRender = s.pendingRender)
    (hbypass : s'.applicationSynchronizationBypassGeneration =
      s.applicationSynchronizationBypassGeneration) : s'.Ready :=
  fun g hg => (h g (hbypass ▸ hg)).same hactive hpending

theorem Fresh.write {t : ActiveTransaction Scene Bundle} {rest : List (ActiveTransaction Scene Bundle)}
    {count : Nat} (h : s.Fresh g) (hfront : s.active = t :: rest) (hcount : 0 < count)
    (hactive : s'.active = { t with offset := t.offset + count } :: rest)
    (hpending : s'.pendingRender = s.pendingRender) : s'.Fresh g := by
  have hhead : { t with offset := t.offset + count } ∈ s'.active := by
    rw [hactive]
    exact mem_cons_self
  have hback : ∀ render, s'.Unstarted render → s.Unstarted render := by
    rintro render (⟨u, hu, hstart, hsome⟩ | ⟨p, hp, hsame⟩)
    · rw [hactive] at hu
      obtain rfl | hu := mem_cons.mp hu
      · exact absurd hstart (by simp only; omega)
      · exact .inl ⟨u, hfront ▸ mem_cons_of_mem _ hu, hstart, hsome⟩
    · exact .inr ⟨p, hpending ▸ hp, hsame⟩
  have hkept : ∀ render, s.Started render → s'.Started render := by
    rintro render ⟨u, hu, hstart, hsome⟩
    rw [hfront] at hu
    obtain rfl | hu := mem_cons.mp hu
    · exact ⟨_, hhead, Nat.add_pos_left hstart _, hsome⟩
    · exact ⟨u, hactive ▸ mem_cons_of_mem _ hu, hstart, hsome⟩
  cases h with
  | started render started named => exact .started render (hkept render started) named
  | waiting render unstarted named only =>
    obtain ⟨u, hu, hstart, hsome⟩ | ⟨p, hp, hsame⟩ := unstarted
    · rw [hfront] at hu
      obtain rfl | hu := mem_cons.mp hu
      · exact .started render ⟨_, hhead, Nat.add_pos_right _ hcount, hsome⟩ named
      · exact .waiting render (.inl ⟨u, hactive ▸ mem_cons_of_mem _ hu, hstart, hsome⟩) named
          fun render hrender => only render (hback render hrender)
    · exact .waiting render (.inr ⟨p, hpending.trans hp, hsame⟩) named
        fun render hrender => only render (hback render hrender)

theorem Fresh.pop {t : ActiveTransaction Scene Bundle} {rest : List (ActiveTransaction Scene Bundle)}
    (h : s.Fresh g) (hfront : s.active = t :: rest)
    (hother : ∀ render, t.completedRender = some render → render.generation ≠ g)
    (hactive : s'.active = rest) (hpending : s'.pendingRender = s.pendingRender) : s'.Fresh g := by
  have hrest : ∀ u ∈ s.active, ∀ render, u.completedRender = some render → render.generation = g →
      u ∈ s'.active := by
    intro u hu render hsome hnamed
    rw [hfront] at hu
    rw [hactive]
    obtain rfl | hu := mem_cons.mp hu
    · exact absurd hnamed (hother render hsome)
    · exact hu
  cases h with
  | started render started named =>
    obtain ⟨u, hu, hstart, hsome⟩ := started
    exact .started render ⟨u, hrest u hu render hsome named, hstart, hsome⟩ named
  | waiting render unstarted named only =>
    refine .waiting render ?_ named fun render hrender => only render ?_
    · obtain ⟨u, hu, hstart, hsome⟩ | ⟨p, hp, hsame⟩ := unstarted
      · exact .inl ⟨u, hrest u hu render hsome named, hstart, hsome⟩
      · exact .inr ⟨p, hpending.trans hp, hsame⟩
    · obtain ⟨u, hu, hstart, hsome⟩ | ⟨p, hp, hsame⟩ := hrender
      · refine .inl ⟨u, ?_, hstart, hsome⟩
        rw [hfront]
        exact mem_cons_of_mem _ (hactive ▸ hu)
      · exact .inr ⟨p, hpending ▸ hp, hsame⟩

theorem Ready.activatePending (h : s.Ready) : s.activatePending.Ready := by
  unfold OutputScheduler.activatePending
  split
  · rename_i hempty
    have hnil : s.active = [] := isEmpty_iff.mp hempty
    have hback : ∀ render, render ∈ rendersOf s.activations →
        ∃ p, s.pendingRender = some p ∧ p.tracked = render := by
      intro render hrender
      rw [rendersOf_activations] at hrender
      simpa using hrender
    intro g hg
    obtain hfresh := h g hg
    cases hfresh with
    | started render started named =>
      obtain ⟨t, ht, -⟩ := started
      rw [hnil] at ht
      exact absurd ht (by simp)
    | waiting render unstarted named only =>
      obtain ⟨t, ht, -⟩ | ⟨p, hp, rfl⟩ := unstarted
      · rw [hnil] at ht
        exact absurd ht (by simp)
      · refine .waiting p.tracked (.inl ⟨p.activated s.synchronizedOutputSupported, ?_, rfl, rfl⟩)
          named ?_
        · simp [activations, hp]
        · rintro render (⟨t, ht, -, hsome⟩ | ⟨q, hq, -⟩)
          · exact only render (.inr (hback render (mem_rendersOf.mpr ⟨t, ht, hsome⟩)))
          · exact absurd hq (by simp)
  · exact h

end OutputScheduler

namespace Drain

variable [SceneGeometry Scene] {d : Drain Scene Bundle}

open OutputScheduler

theorem completeAwaiting_ready (h : d.scheduler.Settling) : d.completeAwaiting.scheduler.Ready := by
  intro g hg
  have hmark := (completeAwaiting_marks d).1
  rw [hmark, clearMark] at hg
  split at hg
  · exact absurd hg (by simp)
  · rename_i hawaiting
    obtain ⟨release, bypass, report, heq, -⟩ := completeAwaiting_spec d
    obtain hfresh | ⟨⟨render, hrender, hnamed⟩, -⟩ := h g hg
    · rw [heq]
      exact hfresh.same rfl rfl
    · refine absurd (any_eq_true.mpr ⟨render, hrender, ?_⟩) hawaiting
      rw [hg, hnamed]
      exact beq_self_eq_true _

omit [SceneGeometry Scene] in
theorem fail_owned (writer : Writer) : (d.fail writer).scheduler.Owned := owned_none rfl

theorem flushWriter_yields (h : d.scheduler.Settling) (hflush : d.scheduler.flushRequired = true) :
    d.flushWriter.Yields (fun d _ => d.scheduler.Ready) (fun d => d.scheduler.Owned) := by
  have howned : ∀ d : Drain Scene Bundle, d.scheduler.Settling ∧ d.scheduler.flushRequired = true →
      d.scheduler.Owned := fun d hd g hg => (hd.1 g hg).imp id fun hspent => ⟨hspent, hd.2⟩
  refine run_rule (P := fun d => d.scheduler.Settling ∧ d.scheduler.flushRequired = true) flushBody
    (fun d h => ?_) d ⟨h, hflush⟩
  show (flushRound d).elim _ (Phase.Yields (fun d _ => d.scheduler.Ready) fun d => d.scheduler.Owned)
  unfold flushRound
  split
  · exact howned d h
  · rename_i answer flushes _
    cases answer with
    | flushed =>
      refine completeAwaiting_ready ?_
      intro g hg
      exact (h.1 g hg).imp (fun hfresh => hfresh.same rfl rfl) id
    | interrupted => exact h
    | wouldBlock =>
      have hblocked := howned d h
      intro g hg
      exact (hblocked g hg).imp (fun hfresh => hfresh.same rfl rfl) id
    | failed => exact fail_owned _

theorem flushIfRequired_ready (h : d.scheduler.Owned) :
    d.flushIfRequired.Yields (fun d _ => d.scheduler.Ready) (fun d => d.scheduler.Owned) := by
  unfold flushIfRequired
  split
  · rename_i hflush
    exact flushWriter_yields h.settling hflush
  · rename_i hflush
    intro g hg
    obtain hfresh | ⟨-, hrequired⟩ := h g hg
    · exact hfresh
    · exact absurd hrequired hflush

theorem flushIfRequired_settles (h : d.scheduler.Settling) :
    d.flushIfRequired.Yields (fun d _ => d.completeIfFlushed.scheduler.Ready)
      (fun d => d.scheduler.Owned) := by
  unfold flushIfRequired
  split
  · rename_i hflush
    have hyields := flushWriter_yields h hflush
    cases hphase : d.flushWriter with
    | stop outcome d' =>
      rw [hphase] at hyields
      exact hyields
    | next d' a =>
      rw [hphase] at hyields
      show d'.completeIfFlushed.scheduler.Ready
      unfold completeIfFlushed
      split
      · exact hyields
      · exact completeAwaiting_ready (Ready.settling hyields)
  · rename_i hflush
    show d.completeIfFlushed.scheduler.Ready
    unfold completeIfFlushed
    rw [if_neg hflush]
    exact completeAwaiting_ready h

section Rounds

omit [SceneGeometry Scene]

variable {t : ActiveTransaction Scene Bundle} {rest : List (ActiveTransaction Scene Bundle)}

theorem finishFront_reached (hsingle : (rendersOf d.scheduler.active).length ≤ 1)
    (hfront : d.scheduler.active = t :: rest) (hreached : d.reachesBypass t = true) :
    (d.finishFront t rest).scheduler.Settling := by
  obtain ⟨render, hsome, hnamed⟩ := (Option.any_eq_true _ _).mp hreached
  intro g hg
  have hgeneration : render.generation = g := some.inj ((beq_iff_eq.mp hnamed).trans hg)
  rw [hfront, rendersOf_cons, hsome] at hsingle
  simp only [toList_some, length_append, length_singleton] at hsingle
  refine .inr ⟨⟨render, ?_, hgeneration⟩, length_eq_zero_iff.mp (by
    simp only [finishFront]
    omega)⟩
  simp [finishFront, hsome]

theorem finishFront_other (h : d.scheduler.Ready) (hfront : d.scheduler.active = t :: rest)
    (hother : d.reachesBypass t = false) : (d.finishFront t rest).scheduler.Ready := by
  intro g hg
  have hg : d.scheduler.applicationSynchronizationBypassGeneration = some g := hg
  refine (h g hg).pop hfront ?_ rfl rfl
  rintro render hsome rfl
  have hreached : d.reachesBypass t = true := by
    rw [reachesBypass, ActiveTransaction.rendersGeneration, hsome, hg]
    simp
  rw [hother] at hreached
  exact absurd hreached Bool.false_ne_true

theorem single_pop (hsingle : (rendersOf d.scheduler.active).length ≤ 1)
    (hfront : d.scheduler.active = t :: rest) :
    (rendersOf (d.finishFront t rest).scheduler.active).length ≤ 1 := by
  rw [hfront, rendersOf_cons, length_append] at hsingle
  exact le_trans (Nat.le_add_left _ _) hsingle

/-- At most one render is active, and the one that passes was not written yet. -/
def ReadySingle (d : Drain Scene Bundle) : Prop := d.scheduler.Ready ∧ (rendersOf d.scheduler.active).length ≤ 1

/-- What a loop leaves: with the bypassing render reached, nothing else was let through. -/
def LeftAt (d : Drain Scene Bundle) (reached : Bool) : Prop :=
  (reached = true → d.scheduler.Settling) ∧ (reached = false → d.ReadySingle)

theorem LeftAt.settling {reached : Bool} (h : d.LeftAt reached) : d.scheduler.Settling := by
  cases reached with
  | true => exact h.1 rfl
  | false => exact (h.2 rfl).1.settling

theorem leftAt_ready (h : d.ReadySingle) : d.LeftAt false :=
  ⟨fun hreached => absurd hreached Bool.false_ne_true, fun _ => h⟩

theorem leftAt_finished (h : d.ReadySingle) (hfront : d.scheduler.active = t :: rest) :
    (d.finishFront t rest).LeftAt (d.reachesBypass t) := by
  constructor
  · exact fun hreached => finishFront_reached h.2 hfront hreached
  · exact fun hother => ⟨finishFront_other h.1 hfront hother, single_pop h.2 hfront⟩

theorem writeFront_yields {budget : Nat} (h : d.ReadySingle) (hfront : d.scheduler.active = t :: rest) :
    (d.writeFront budget t rest).elim ReadySingle (Phase.Yields LeftAt fun d => d.scheduler.Owned) := by
  unfold writeFront
  split
  · exact h.1.owned
  · rename_i answer writes _
    cases answer with
    | accepted count =>
      dsimp only
      split
      · exact fail_owned _
      · rename_i hcount
        refine ⟨fun g hg => (h.1 g hg).write hfront (pos_of_ne_zero hcount) rfl rfl, ?_⟩
        have hsingle := h.2
        rw [hfront, rendersOf_cons] at hsingle
        simp only [advanceFront, rendersOf_cons]
        exact hsingle
    | interrupted => exact h
    | wouldBlock =>
      have hready : (d.block { d.writer with writes := writes }).scheduler.Ready := h.1.same rfl rfl rfl
      exact hready.owned
    | failed => exact fail_owned _

theorem writeLoop_yields (budget : Nat) (finishOnly : Bool) (h : d.ReadySingle) :
    (Loop.run (writeBody budget finishOnly) d).Yields LeftAt (fun d => d.scheduler.Owned) := by
  refine run_rule (P := ReadySingle) _ (fun d h => ?_) d h
  show (writeRound budget finishOnly d).elim _ (Phase.Yields LeftAt fun d => d.scheduler.Owned)
  unfold writeRound
  split
  · exact leftAt_ready h
  · split
    · exact leftAt_ready h
    · rename_i t rest hactive
      split
      · exact leftAt_ready h
      · split
        · split
          · rename_i hreached
            exact hreached ▸ leftAt_finished h hactive
          · rename_i hother
            exact (leftAt_finished h hactive).2 (eq_false_of_ne_true hother)
        · exact writeFront_yields h hactive

theorem popLoop_settling {reached : Bool} (h : d.LeftAt reached) :
    (Loop.run popBody (d, reached)).scheduler.Settling := by
  refine run_rule (P := fun p : Drain Scene Bundle × Bool => p.1.LeftAt p.2)
    (Q := fun d => d.scheduler.Settling) popBody (fun p h => ?_) (d, reached) h
  show (popRound p).elim _ _
  unfold popRound
  split
  · exact h.settling
  · rename_i hgoing
    split
    · exact h.settling
    · rename_i t rest hactive
      split
      · exact leftAt_finished (h.2 (eq_false_of_ne_true hgoing)) hactive
      · exact h.settling

theorem holdOutput_ready (nowMs : Nat) (force : Bool) (h : d.ReadySingle) :
    (d.holdOutput nowMs force).Yields (fun d _ => d.ReadySingle) (fun d => d.scheduler.Owned) := by
  unfold holdOutput
  split
  · simp only
    split
    · exact ⟨h.1.same rfl rfl rfl, h.2⟩
    · split
      · exact h
      · split
        · exact h
        · exact h.1.owned
  · exact h

end Rounds

theorem single_activate (hsingle : (rendersOf d.scheduler.active).length ≤ 1) :
    (rendersOf d.scheduler.activatePending.active).length ≤ 1 :=
  Move.single (.activate d) hsingle

theorem writeActive_owned (finishOnly : Bool) (h : d.ReadySingle) :
    (d.writeActive finishOnly).Yields (fun d _ => d.scheduler.Owned) (fun d => d.scheduler.Owned) := by
  have hactivated : ReadySingle { d with scheduler := d.scheduler.activatePending } :=
    ⟨h.1.activatePending, single_activate h.2⟩
  apply (writeLoop_yields _ finishOnly hactivated).andThen
  intro written reached hleft
  apply (flushIfRequired_settles (popLoop_settling hleft)).andThen
  intro flushed _ hready
  exact (Ready.same hready rfl rfl rfl).owned

/-- **A call keeps the render that passes alive until its flush.** -/
theorem drainReady_owned (h : d.scheduler.Owned) (hsingle : (rendersOf d.scheduler.active).length ≤ 1)
    (nowMs : Nat) (force : Bool) : (d.drainReady nowMs force).drain.scheduler.Owned := by
  have hyields : (d.drainReady nowMs force).Yields (fun d _ => d.scheduler.Owned)
      (fun d => d.scheduler.Owned) := by
    unfold drainReady
    split
    · exact h
    · split
      · exact h
      · have hstart : (d.setWaiting (!force && d.scheduler.waitingForWritable)).scheduler.Owned :=
          fun g hg => (h g hg).imp (fun hfresh => hfresh.same rfl rfl) id
        have hfollows := flushIfRequired_ensures moves_kept
          (d := d.setWaiting (!force && d.scheduler.waitingForWritable)) Relation.ReflTransGen.refl
        have hflushed := flushIfRequired_ready hstart
        unfold drainUnblocked
        generalize (d.setWaiting (!force && d.scheduler.waitingForWritable)).flushIfRequired = flushed
          at hfollows hflushed
        cases flushed with
        | stop outcome d' => exact hflushed
        | next d' a =>
          obtain ⟨-, hmoves⟩ | ⟨hfailed, -⟩ := hfollows
          · have hready : d'.ReadySingle := ⟨hflushed, Moves.single hmoves hsingle⟩
            apply (holdOutput_ready nowMs force hready).andThen
            intro held finishOnly hheld
            split
            · exact hheld.1.owned
            · exact writeActive_owned finishOnly hheld
          · exact absurd hfailed (by simp [Phase.outcome])
  cases hphase : d.drainReady nowMs force with
  | next d' a =>
    rw [hphase] at hyields
    exact hyields
  | stop outcome d' =>
    rw [hphase] at hyields
    exact hyields

end Drain

/-! ## What a call lets through -/

/-- The hold is open, and neither deadline has passed. -/
def OutputScheduler.HoldOpen (s : OutputScheduler Scene Bundle) (nowMs : Nat) : Prop :=
  ∃ startedMs lastActivityMs, s.applicationSynchronization = some (.active startedMs lastActivityMs) ∧
    nowMs < saturatingAdd 128 lastActivityMs s.config.synchronizationTimeoutMs ∧
    nowMs < saturatingAdd 128 startedMs s.config.synchronizationHardTimeoutMs

/-- Since `d₀`, no render was started but one that `mark` names. -/
structure StartsOnly (mark : Option UInt64) (d₀ d : Drain Scene Bundle) : Prop where
  started : ∀ render, d.scheduler.Started render → d₀.scheduler.Started render ∨ mark = some render.generation
  finished : ∀ t ∈ d.finished, t.bytes ≠ [] → ∀ render, t.completedRender = some render →
    t ∈ d₀.finished ∨ d₀.scheduler.Started render ∨ mark = some render.generation

namespace StartsOnly

variable {mark : Option UInt64} {d₀ d d' : Drain Scene Bundle}

theorem refl : StartsOnly mark d d := ⟨fun _ h => .inl h, fun _ ht _ _ _ => .inl ht⟩

theorem same (h : StartsOnly mark d₀ d)
    (hstarted : ∀ render, d'.scheduler.Started render → d.scheduler.Started render)
    (hfinished : d'.finished = d.finished) : StartsOnly mark d₀ d' :=
  ⟨fun render hrender => h.started render (hstarted render hrender), fun t ht => h.finished t (hfinished ▸ ht)⟩

theorem write (h : StartsOnly mark d₀ d) {t : ActiveTransaction Scene Bundle}
    {rest : List (ActiveTransaction Scene Bundle)} {count : Nat} {writer : Writer}
    (hfront : d.scheduler.active = t :: rest)
    (hallowed : 0 < t.offset ∨ ∀ render, t.completedRender = some render →
      mark = some render.generation) : StartsOnly mark d₀ (d.advanceFront t rest count writer) := by
  refine ⟨?_, h.finished⟩
  rintro render ⟨u, hu, hstart, hsome⟩
  obtain rfl | hu := mem_cons.mp hu
  · obtain hstarted | hnamed := hallowed
    · exact h.started render ⟨t, by rw [hfront]; exact mem_cons_self, hstarted, hsome⟩
    · exact .inr (hnamed render hsome)
  · exact h.started render ⟨u, by rw [hfront]; exact mem_cons_of_mem _ hu, hstart, hsome⟩

theorem pop (h : StartsOnly mark d₀ d) {t : ActiveTransaction Scene Bundle}
    {rest : List (ActiveTransaction Scene Bundle)} (hfront : d.scheduler.active = t :: rest)
    (hdone : t.remaining = []) : StartsOnly mark d₀ (d.finishFront t rest) := by
  constructor
  · rintro render ⟨u, hu, hstart, hsome⟩
    exact h.started render ⟨u, by rw [hfront]; exact mem_cons_of_mem _ hu, hstart, hsome⟩
  · intro u hu hbytes render hsome
    obtain hu | hu := mem_append.mp hu
    · exact h.finished u hu hbytes render hsome
    · obtain rfl := mem_singleton.mp hu
      have hstart : 0 < u.offset := by
        have hlength := length_pos_iff.mpr hbytes
        have hdrop : u.bytes.length ≤ u.offset := drop_eq_nil_iff.mp hdone
        omega
      exact .inr (h.started render ⟨u, by rw [hfront]; exact mem_cons_self, hstart, hsome⟩)

end StartsOnly

section Passing

variable [SceneGeometry Scene] {mark : Option UInt64} {nowMs : Nat} {d₀ d : Drain Scene Bundle}

/-- What holds at every moment of a call under an open hold that began as `d₀`. -/
structure Passing (mark : Option UInt64) (nowMs : Nat) (d₀ d : Drain Scene Bundle) : Prop where
  moves : Moves d₀ d
  starts : StartsOnly mark d₀ d
  holdOpen : d.scheduler.HoldOpen nowMs
  mark : d.scheduler.applicationSynchronizationBypassGeneration = mark ∨
    d.scheduler.applicationSynchronizationBypassGeneration = none

/-- A call that failed started no other render before. -/
def FailedPassing (mark : Option UInt64) (d₀ d' : Drain Scene Bundle) : Prop :=
  ∃ d, Moves d₀ d ∧ StartsOnly mark d₀ d ∧ FailsTo d d'

theorem passing_kept : Kept (fun t => 0 < t.offset ∨ ∀ render, t.completedRender = some render →
    mark = some render.generation) (Passing mark nowMs d₀) (FailedPassing mark d₀) where
  block d writer h same :=
    ⟨h.moves.tail (.block d writer same), h.starts.same (fun _ h => h) rfl, h.holdOpen, h.mark⟩
  retry d writer h same :=
    ⟨h.moves.tail (.retry d writer same), h.starts.same (fun _ h => h) rfl, h.holdOpen, h.mark⟩
  write d t rest count writer h front allowed some fits same :=
    ⟨h.moves.tail (.write d t rest count writer front some fits same), h.starts.write front allowed,
      h.holdOpen, h.mark⟩
  pop d t rest h front done :=
    ⟨h.moves.tail (.pop d t rest front done), h.starts.pop front done, h.holdOpen, h.mark⟩
  flush d writer h same :=
    ⟨h.moves.tail (.flush d writer same), h.starts.same (fun _ h => h) rfl, h.holdOpen, h.mark⟩
  complete d h flushed := by
    have hmark := (completeAwaiting_marks d).1
    have hmoves := h.moves.tail (.complete d flushed)
    obtain ⟨release, bypass, report, heq, -⟩ := completeAwaiting_spec d
    rw [heq] at hmark hmoves ⊢
    refine ⟨hmoves, h.starts.same (fun _ h => h) rfl, h.holdOpen, ?_⟩
    rw [hmark, clearMark]
    split
    · exact .inr rfl
    · exact h.mark
  fail d writer h same := ⟨d, h.moves, h.starts, failsTo_fail writer same⟩

theorem passing_kept_held : Kept (fun t => 0 < t.offset)
    (fun d => Passing mark nowMs d₀ d ∧ d.scheduler.applicationSynchronizationBypassGeneration = none)
    (FailedPassing mark d₀) where
  block d writer h same := ⟨passing_kept.block d writer h.1 same, h.2⟩
  retry d writer h same := ⟨passing_kept.retry d writer h.1 same, h.2⟩
  write d t rest count writer h front allowed some fits same :=
    ⟨passing_kept.write d t rest count writer h.1 front (.inl allowed) some fits same, h.2⟩
  pop d t rest h front done := ⟨passing_kept.pop d t rest h.1 front done, h.2⟩
  flush d writer h same := ⟨passing_kept.flush d writer h.1 same, h.2⟩
  complete d h flushed := by
    refine ⟨passing_kept.complete d h.1 flushed, ?_⟩
    rw [(completeAwaiting_marks d).1, h.2, clearMark_none]
  fail d writer h same := passing_kept.fail d writer h.1 same

/-- The renders that can start are named by `mark`. -/
def Expects (mark : Option UInt64) (d : Drain Scene Bundle) : Prop :=
  ∀ t ∈ d.scheduler.active, t.offset = 0 → ∀ render, t.completedRender = some render →
    mark = some render.generation

theorem passing_kept_expected : Kept (fun _ => True)
    (fun d => Passing mark nowMs d₀ d ∧ Expects mark d) (FailedPassing mark d₀) where
  block d writer h same := ⟨passing_kept.block d writer h.1 same, h.2⟩
  retry d writer h same := ⟨passing_kept.retry d writer h.1 same, h.2⟩
  write d t rest count writer h front _ some fits same := by
    have hmem : t ∈ d.scheduler.active := by
      rw [front]
      exact mem_cons_self
    refine ⟨passing_kept.write d t rest count writer h.1 front ?_ some fits same, ?_⟩
    · by_cases hstart : t.offset = 0
      · exact .inr (h.2 t hmem hstart)
      · exact .inl (pos_of_ne_zero hstart)
    · intro u hu hstart
      obtain rfl | hu := mem_cons.mp hu
      · exact absurd hstart (by simp only; omega)
      · exact h.2 u (by rw [front]; exact mem_cons_of_mem _ hu) hstart
  pop d t rest h front done := by
    refine ⟨passing_kept.pop d t rest h.1 front done, fun u hu hstart => ?_⟩
    exact h.2 u (by rw [front]; exact mem_cons_of_mem _ hu) hstart
  flush d writer h same := ⟨passing_kept.flush d writer h.1 same, h.2⟩
  complete d h flushed := by
    have hpassing := passing_kept.complete d h.1 flushed
    obtain ⟨release, bypass, report, heq, -⟩ := completeAwaiting_spec d
    rw [heq] at hpassing ⊢
    exact ⟨hpassing, h.2⟩
  fail d writer h same := passing_kept.fail d writer h.1 same

omit [SceneGeometry Scene] in
theorem single_unique {ts : List (ActiveTransaction Scene Bundle)} (h : (rendersOf ts).length ≤ 1)
    {t u : ActiveTransaction Scene Bundle} (ht : t ∈ ts) (hu : u ∈ ts)
    (htr : t.completedRender.isSome) (hur : u.completedRender.isSome) : t = u := by
  induction ts with
  | nil => exact absurd ht (by simp)
  | cons head tail ih =>
    rw [rendersOf_cons, length_append] at h
    have halone : head.completedRender.isSome → ∀ v ∈ tail, v.completedRender = none := by
      intro hhead v hv
      obtain ⟨render, hsome⟩ := isSome_iff_exists.mp hhead
      rw [hsome] at h
      simp only [toList_some, length_singleton] at h
      have hnone : rendersOf tail = [] := length_eq_zero_iff.mp (by omega)
      by_contra hrender
      obtain ⟨other, hother⟩ := ne_none_iff_exists'.mp hrender
      have hmem := OutputScheduler.mem_rendersOf.mpr ⟨v, hv, hother⟩
      rw [hnone] at hmem
      exact absurd hmem (by simp)
    obtain hthead | ht := mem_cons.mp ht
    · obtain huhead | hu := mem_cons.mp hu
      · exact hthead.trans huhead.symm
      · rw [halone (hthead ▸ htr) u hu] at hur
        exact absurd hur (by simp)
    · obtain huhead | hu := mem_cons.mp hu
      · rw [halone (huhead ▸ hur) t ht] at htr
        exact absurd htr (by simp)
      · exact ih (by omega) ht hu

omit [SceneGeometry Scene] in
theorem expects_of_ready (h : d.ReadySingle) {g : UInt64}
    (hg : d.scheduler.applicationSynchronizationBypassGeneration = some g) : Expects (some g) d := by
  intro t ht hstart render hsome
  have hfresh := h.1 g hg
  cases hfresh with
  | waiting other unstarted named only => exact congrArg some (only render (.inl ⟨t, ht, hstart, hsome⟩)).symm
  | started other started named =>
    obtain ⟨u, hu, hstarted, hother⟩ := started
    have hsame := single_unique h.2 ht hu (by simp [hsome]) (by simp [hother])
    rw [hsame] at hstart
    omega

omit [SceneGeometry Scene] in
theorem holdOutput_passing (hopen : d.scheduler.HoldOpen nowMs) {g : UInt64}
    (hg : d.scheduler.applicationSynchronizationBypassGeneration = some g) :
    d.holdOutput nowMs false = .next d false := by
  obtain ⟨startedMs, lastActivityMs, hactive, hidle, hhard⟩ := hopen
  unfold Drain.holdOutput
  rw [hactive]
  simp only
  rw [if_neg (by omega), if_pos (by simp [hg])]

omit [SceneGeometry Scene] in
theorem activatePending_frame (s : OutputScheduler Scene Bundle) : s.activatePending.config = s.config ∧
      s.activatePending.applicationSynchronization = s.applicationSynchronization ∧
      s.activatePending.applicationSynchronizationBypassGeneration =
        s.applicationSynchronizationBypassGeneration := by
  unfold OutputScheduler.activatePending
  split
  · exact ⟨rfl, rfl, rfl⟩
  · exact ⟨rfl, rfl, rfl⟩

omit [SceneGeometry Scene] in
theorem activatePending_started {s : OutputScheduler Scene Bundle} {render : TrackedRender Scene Bundle}
    (h : s.activatePending.Started render) : s.Started render := by
  obtain ⟨t, ht, hstart, hsome⟩ := h
  unfold OutputScheduler.activatePending at ht
  split at ht
  · have hzero : t.offset = 0 := activations_unstarted s t ht
    omega
  · exact ⟨t, ht, hstart, hsome⟩

/-- **Under an open hold a call starts no render but the one that its bypass names.** -/
theorem drainReady_passes (h : d.scheduler.Owned) (hsingle : (rendersOf d.scheduler.active).length ≤ 1)
    (hopen : d.scheduler.HoldOpen nowMs)
    (hmark : d.scheduler.applicationSynchronizationBypassGeneration = mark) :
    (d.drainReady nowMs false).Ensures (StartsOnly mark d) (FailedPassing mark d) := by
  have hweaken : ∀ {α : Type} {p : Phase Scene Bundle α} {P : Drain Scene Bundle → Prop},
      p.Ensures P (FailedPassing mark d) → (∀ d', P d' → StartsOnly mark d d') →
        p.Ensures (StartsOnly mark d) (FailedPassing mark d) := by
    rintro α p P (⟨hkept, hpassing⟩ | hfailed) hP
    · exact .inl ⟨hkept, hP _ hpassing⟩
    · exact .inr hfailed
  have hconclude : ∀ d', Passing mark nowMs d d' → Passing mark nowMs d d'.conclude :=
    fun d' h' => ⟨h'.moves.tail (.conclude d'), h'.starts.same (fun _ h => h) rfl, h'.holdOpen, h'.mark⟩
  unfold Drain.drainReady
  split
  · exact Phase.ensures_returned .refl
  · split
    · exact Phase.ensures_returned .refl
    · have hstart : Passing mark nowMs d (d.setWaiting (!false && d.scheduler.waitingForWritable)) :=
        ⟨Relation.ReflTransGen.refl.tail (.wait d _), StartsOnly.refl.same (fun _ h => h) rfl, hopen,
          .inl hmark⟩
      have howned : (d.setWaiting (!false && d.scheduler.waitingForWritable)).scheduler.Owned :=
        fun g hg => (h g hg).imp (fun hfresh => hfresh.same rfl rfl) id
      have hflush := Drain.flushIfRequired_ensures passing_kept hstart
      have hready := Drain.flushIfRequired_ready howned
      unfold Drain.drainUnblocked
      generalize (d.setWaiting (!false && d.scheduler.waitingForWritable)).flushIfRequired = flushed
        at hflush hready
      cases flushed with
      | stop outcome d' => exact hweaken hflush fun _ h => h.starts
      | next d' a =>
        obtain ⟨-, hpassing⟩ | ⟨hfailed, -⟩ := hflush
        · have hpassing : Passing mark nowMs d d' := hpassing
          have hone : d'.ReadySingle := ⟨hready, Moves.single hpassing.moves hsingle⟩
          cases hbypass : d'.scheduler.applicationSynchronizationBypassGeneration with
          | none =>
            exact hweaken (heldTail_ensures passing_kept_held (fun d h => ⟨hconclude d h.1, h.2⟩)
              ⟨rfl, hpassing.holdOpen, hbypass⟩ ⟨hpassing, hbypass⟩) fun _ h => h.1.starts
          | some g =>
            obtain hsame | hnone := hpassing.mark
            · obtain rfl : mark = some g := hsame.symm.trans hbypass
              simp only [Phase.andThen]
              rw [holdOutput_passing hpassing.holdOpen hbypass]
              simp only
              split
              · exact Phase.ensures_returned hpassing.starts
              · have hactivated : Drain.ReadySingle { d' with scheduler := d'.scheduler.activatePending } :=
                  ⟨hready.activatePending, Drain.single_activate hone.2⟩
                obtain ⟨hconfig, hhold, hkept⟩ := activatePending_frame d'.scheduler
                refine hweaken (Drain.writeActive_ensures false passing_kept_expected
                  (fun _ _ => trivial) (fun d h => ⟨hconclude d h.1, h.2⟩) ⟨⟨?_, ?_, ?_, ?_⟩, ?_⟩)
                  fun _ h => h.1.starts
                · exact hpassing.moves.tail (.activate d')
                · exact hpassing.starts.same (fun _ h => activatePending_started h) rfl
                · simp only [OutputScheduler.HoldOpen, hconfig, hhold]
                  exact hpassing.holdOpen
                · exact .inl (hkept.trans hbypass)
                · exact expects_of_ready hactivated (hkept.trans hbypass)
            · rw [hbypass] at hnone
              exact absurd hnone (by simp)
        · exact absurd hfailed (by simp [Phase.outcome])

end Passing

/-! ## Runs -/

section Moves

variable [SceneGeometry Scene] {d d' : Drain Scene Bundle}

theorem Move.bypass (hmove : Move d d') : d'.scheduler.applicationSynchronizationBypassGeneration =
        d.scheduler.applicationSynchronizationBypassGeneration ∨
      d'.scheduler.applicationSynchronizationBypassGeneration = none := by
  cases hmove with
  | wait waiting => exact .inl rfl
  | block writer same => exact .inl rfl
  | retry writer same => exact .inl rfl
  | release startedMs lastActivityMs held => exact .inl rfl
  | activate => exact .inl (activatePending_frame d.scheduler).2.2
  | write t rest count writer front some fits same => exact .inl rfl
  | pop t rest front done => exact .inl rfl
  | flush writer same => exact .inl rfl
  | conclude => exact .inl rfl
  | complete flushed =>
    rw [(completeAwaiting_marks d).1, clearMark]
    split
    · exact .inr rfl
    · exact .inl rfl

theorem Moves.bypass (hmoves : Moves d d') : d'.scheduler.applicationSynchronizationBypassGeneration =
        d.scheduler.applicationSynchronizationBypassGeneration ∨
      d'.scheduler.applicationSynchronizationBypassGeneration = none := by
  induction hmoves with
  | refl => exact .inl rfl
  | tail _ hmove ih =>
    obtain hsame | hnone := hmove.bypass
    · rw [hsame]
      exact ih
    · exact .inr hnone

end Moves

namespace Run

variable [SceneGeometry Scene] {r : Run Scene Bundle}

/-- What every state of a run knows of its marks. -/
structure Marked (r : Run Scene Bundle) : Prop where
  sound : r.Sound
  single : (rendersOf r.scheduler.active).length ≤ 1
  owned : r.scheduler.Owned
  release : r.scheduler.Named r.scheduler.synchronizationTimeoutReleaseGeneration

omit [SceneGeometry Scene] in
theorem marked_start (config : OutputSchedulerConfig) (supported : Bool)
    (writes : List WriteResponse) (flushes : List FlushResponse) :
    (start config supported writes flushes : Run Scene Bundle).Marked where
  sound := sound_start config supported writes flushes
  single := by simp [start, OutputScheduler.new, rendersOf]
  owned := OutputScheduler.owned_none rfl
  release := OutputScheduler.named_none

omit [SceneGeometry Scene] in
theorem Marked.oneRender (h : r.Marked) : OneRender r.scheduler.active := h.sound.oneRender h.single

theorem marked_step (h : r.Marked) (op : Op Scene Bundle) : (r.step op).Marked := by
  suffices hmarks : (r.step op).scheduler.Owned ∧
      (r.step op).scheduler.Named (r.step op).scheduler.synchronizationTimeoutReleaseGeneration from
    ⟨sound_step h.sound op, single_step h.single op, hmarks.1, hmarks.2⟩
  unfold step
  split
  · exact ⟨h.owned, h.release⟩
  · cases op with
    | command c =>
      by_cases hcleanup : c = .prepareForLifecycleCleanup
      · rw [hcleanup]
        exact ⟨OutputScheduler.owned_none rfl, OutputScheduler.named_none⟩
      · have hspares := r.scheduler.command_spares h.oneRender.kind c hcleanup
        exact ⟨hspares.owned h.owned, hspares.release_named h.release⟩
    | render batch accessibility nowMs =>
      obtain ⟨-, hspares⟩ | ⟨-, haccepted⟩ :=
        OutputScheduler.enqueueRender_acceptedAs h.oneRender batch accessibility nowMs
      · exact ⟨hspares.owned h.owned, hspares.release_named h.release⟩
      · exact ⟨haccepted.owned h.oneRender h.owned, haccepted.release_named h.oneRender h.release⟩
    | drain nowMs force =>
      refine ⟨Drain.drainReady_owned (d := r.opened) h.owned h.single nowMs force, ?_⟩
      obtain ⟨-, hmoves⟩ | ⟨-, d, -, writer, -, hfailed⟩ := Drain.drainReady_follows r.opened nowMs force
      · exact Moves.release_named hmoves h.release
      · simp only [close, hfailed]
        exact OutputScheduler.named_none

theorem marked_runOps (h : r.Marked) (ops : List (Op Scene Bundle)) : (r.runOps ops).Marked := by
  induction ops generalizing r with
  | nil => exact h
  | cons op ops ih => exact ih (marked_step h op)

/-- A render is accepted with the bypass that was set for it, or with that of a render it replaces. -/
def TakesBypass (r : Run Scene Bundle) (op : Op Scene Bundle) : Prop :=
  ∃ batch accessibility nowMs, op = .render batch accessibility nowMs ∧
    (r.scheduler.enqueueRenderWithAccessibility batch accessibility nowMs).1 ≠ .droppedForCapacity ∧
    (r.scheduler.bypassNextRender = true ∨ ∃ render, r.scheduler.Unstarted render ∧
      r.scheduler.applicationSynchronizationBypassGeneration = some render.generation)

theorem bypass_written (h : r.Marked) (op : Op Scene Bundle) {g : UInt64}
    (hg : (r.step op).scheduler.applicationSynchronizationBypassGeneration = some g) :
    r.scheduler.applicationSynchronizationBypassGeneration = some g ∨
      (g = r.scheduler.nextRenderGeneration ∧ r.TakesBypass op) := by
  unfold step at hg
  split at hg
  · exact .inl hg
  · cases op with
    | command c =>
      by_cases hcleanup : c = .prepareForLifecycleCleanup
      · rw [hcleanup] at hg
        exact absurd hg (by simp [Command.apply, OutputScheduler.prepareForLifecycleCleanup])
      · have hspares := r.scheduler.command_spares h.oneRender.kind c hcleanup
        exact .inl (hspares.bypass.symm.trans hg)
    | render batch accessibility nowMs =>
      obtain ⟨-, hspares⟩ | ⟨hkept, haccepted⟩ :=
        OutputScheduler.enqueueRender_acceptedAs h.oneRender batch accessibility nowMs
      · exact .inl (hspares.bypass.symm.trans hg)
      · have hbypass := haccepted.bypass.symm.trans hg
        split at hbypass
        · rename_i htaken
          refine .inr ⟨(some.inj hbypass).symm, batch, accessibility, nowMs, rfl, hkept, ?_⟩
          exact (Bool.or_eq_true _ _ ▸ htaken).imp id OutputScheduler.unstarted_of_replaces
        · exact .inl hbypass
    | drain nowMs force =>
      obtain ⟨-, hmoves⟩ | ⟨-, d, -, writer, -, hfailed⟩ := Drain.drainReady_follows r.opened nowMs force
      · obtain hsame | hnone := Moves.bypass hmoves
        · exact .inl (hsame.symm.trans hg)
        · exact absurd (hnone.symm.trans hg) (by simp)
      · simp only [close, hfailed] at hg
        exact absurd hg (by simp [Drain.fail, OutputScheduler.failed])

/-- How the release marks of a run are kept in step with its renders. -/
structure KeepsMarks (r : Run Scene Bundle) : Prop where
  bypass : r.scheduler.Named r.scheduler.applicationSynchronizationBypassGeneration
  release : r.scheduler.Named r.scheduler.synchronizationTimeoutReleaseGeneration
  cleared : ∀ op g, (∀ render ∈ (r.step op).scheduler.unreported, render.generation ≠ g) →
    (r.step op).scheduler.applicationSynchronizationBypassGeneration ≠ some g ∧
      (r.step op).scheduler.synchronizationTimeoutReleaseGeneration ≠ some g
  carried : ∀ batch accessibility nowMs,
    let enqueued := r.scheduler.enqueueRenderWithAccessibility batch accessibility nowMs
    enqueued.1 ≠ .droppedForCapacity → ∀ render, r.scheduler.Unstarted render →
      (r.scheduler.applicationSynchronizationBypassGeneration = some render.generation →
        enqueued.2.applicationSynchronizationBypassGeneration = some r.scheduler.nextRenderGeneration) ∧
      (r.scheduler.synchronizationTimeoutReleaseGeneration = some render.generation →
        enqueued.2.synchronizationTimeoutReleaseGeneration = some r.scheduler.nextRenderGeneration)
  written : ∀ op g, (r.step op).scheduler.applicationSynchronizationBypassGeneration = some g →
    r.scheduler.applicationSynchronizationBypassGeneration = some g ∨
      (g = r.scheduler.nextRenderGeneration ∧ r.TakesBypass op)
  passes : ∀ nowMs, r.scheduler.HoldOpen nowMs → (r.opened.drainReady nowMs false).Ensures
    (StartsOnly r.scheduler.applicationSynchronizationBypassGeneration r.opened)
    (FailedPassing r.scheduler.applicationSynchronizationBypassGeneration r.opened)

/-- **A release mark names a render that is alive** in every run: the bypass and the timeout release name a
pending, active or unflushed one, a replacement takes the mark over, and under an open hold a call starts no
other render. -/
theorem marks_alive (config : OutputSchedulerConfig) (supported : Bool)
    (writes : List WriteResponse) (flushes : List FlushResponse) (ops : List (Op Scene Bundle)) :
    ((start config supported writes flushes : Run Scene Bundle).runOps ops).KeepsMarks := by
  have hstart : (start config supported writes flushes : Run Scene Bundle).Marked :=
    marked_start config supported writes flushes
  have hmarked := marked_runOps hstart ops
  refine ⟨hmarked.owned.named, hmarked.release, ?_, ?_, ?_, ?_⟩
  · intro op g hdead
    have hstep := marked_step hmarked op
    constructor
    · intro hg
      obtain ⟨render, halive, hnamed⟩ := hstep.owned.named g hg
      exact hdead render halive hnamed
    · intro hg
      obtain ⟨render, halive, hnamed⟩ := hstep.release g hg
      exact hdead render halive hnamed
  · intro batch accessibility nowMs enqueued hkept render hrender
    obtain ⟨hdropped, -⟩ | ⟨-, haccepted⟩ :=
      OutputScheduler.enqueueRender_acceptedAs hmarked.oneRender batch accessibility nowMs
    · exact absurd hdropped hkept
    · constructor
      · intro hmark
        have hreplaces := OutputScheduler.replaces_of_unstarted hmarked.oneRender hrender hmark
        rw [haccepted.bypass, hreplaces, Bool.or_true, if_pos rfl]
      · intro hmark
        have hreplaces := OutputScheduler.replaces_of_unstarted hmarked.oneRender hrender hmark
        rw [haccepted.release, hreplaces, if_pos rfl]
  · exact fun op g hg => bypass_written hmarked op hg
  · exact fun nowMs hopen => drainReady_passes hmarked.owned hmarked.single hopen rfl

def menuRun : Run TerminalGeometry Nat :=
  (start .default false [] []).runOps
    [.command (.observeApplicationSynchronization true true true 0),
      .command (.setApplicationSynchronizationBypassed true), .render (textFrame "menu") 1 0,
      .render (textFrame "menu again") 2 1]

example : menuRun.scheduler.applicationSynchronizationBypassGeneration = some 2 := by
  decide +kernel

end Run

end Lector.Output
