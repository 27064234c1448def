import Lector.Foundations.Coalesce
import Lector.Foundations.Queues
import Lector.Output.Moves
import Mathlib.Algebra.Order.BigOperators.Group.List

/-! The queued work of a scheduler by kind, in the order in which it will be written, and what the
calls that do not write do to it: they withdraw unstarted work and add new work at the end. -/
namespace Lector.Output
open SerialQueue Batching ActiveTransaction Prunes Bool
open List hiding min

variable {Scene Bundle : Type}

def transactionLayout : Layout (ActiveTransaction Scene Bundle) UInt8 :=
  ⟨ActiveTransaction.bytes, ActiveTransaction.offset⟩

/-! ## Work by kind -/

section Transactions

variable (ts : List (ActiveTransaction Scene Bundle))

def rendersOf : List (TrackedRender Scene Bundle) := ts.filterMap (·.completedRender)

def effectsOf : List ScheduledTerminalEffect := ts.flatMap (·.completedEffects)

def controlsOf : List Bytes := (ts.filter (·.kind == .control)).map (·.bytes)

def bellsOf : Nat := ((ts.filter (·.kind == .bell)).map fun t => t.bytes.length).sum

end Transactions

section Append

variable (ts us : List (ActiveTransaction Scene Bundle))

@[simp] theorem rendersOf_append : rendersOf (ts ++ us) = rendersOf ts ++ rendersOf us := filterMap_append

@[simp] theorem effectsOf_append : effectsOf (ts ++ us) = effectsOf ts ++ effectsOf us := flatMap_append

@[simp] theorem controlsOf_append : controlsOf (ts ++ us) = controlsOf ts ++ controlsOf us := by
  simp [controlsOf]

@[simp] theorem bellsOf_append : bellsOf (ts ++ us) = bellsOf ts + bellsOf us := by
  simp [bellsOf]

end Append

theorem rendersOf_cons (t : ActiveTransaction Scene Bundle) (ts : List (ActiveTransaction Scene Bundle)) :
    rendersOf (t :: ts) = t.completedRender.toList ++ rendersOf ts := by
  cases h : t.completedRender with
  | none => simp [rendersOf, h]
  | some render => simp [rendersOf, h]

section Sublists

variable {ts us : List (ActiveTransaction Scene Bundle)} (h : ts.Sublist us)
include h

theorem rendersOf_sublist : (rendersOf ts).Sublist (rendersOf us) := h.filterMap _

theorem effectsOf_sublist : (effectsOf ts).Sublist (effectsOf us) := h.flatMap _

theorem controlsOf_sublist : (controlsOf ts).Sublist (controlsOf us) := (h.filter _).map _

theorem bellsOf_le : bellsOf ts ≤ bellsOf us := ((h.filter _).map _).sum_le_sum (by simp)

end Sublists

namespace OutputScheduler

variable (s : OutputScheduler Scene Bundle)

def renderLane : List (TrackedRender Scene Bundle) :=
  rendersOf s.active ++ (s.pendingRender.map PendingRender.tracked).toList

def effectLane : List ScheduledTerminalEffect := effectsOf s.active ++ s.pendingEffects

def controlLane : List Bytes := controlsOf s.active ++ s.pendingBytes.map PendingBytes.bytes

def bellLane : Nat := bellsOf s.active + s.pendingBells

end OutputScheduler

/-! ## What calls may do to the lanes -/

/-- The work a call hands over, before the scheduler decides to keep it. -/
structure Offer where
  effects : List ScheduledTerminalEffect
  controls : List Bytes
  bells : Nat

def Offer.none : Offer := ⟨[], [], 0⟩

/-- Started work stays, unstarted work may go, and offered work comes at the end of its lane. -/
structure Advances (offer : Offer) (s s' : OutputScheduler Scene Bundle) : Prop where
  active : Prunes transactionLayout s.active s'.active
  renders : s'.renderLane.Sublist s.renderLane
  pending : ∀ p', s'.pendingRender = some p' →
    ∃ p, s.pendingRender = some p ∧ p'.batch = p.batch ∧ p'.tracked = p.tracked
  effects : s'.effectLane.Sublist (s.effectLane ++ offer.effects)
  controls : ∀ before offered, Batched (before ++ s.controlLane) offered →
    Batched (before ++ s'.controlLane) (offered ++ offer.controls)
  bells : s'.bellLane ≤ s.bellLane + offer.bells
  awaiting : s'.awaitingFlushRenders.Sublist s.awaitingFlushRenders
  flushRequired : s'.flushRequired = s.flushRequired
  nextRenderGeneration : s'.nextRenderGeneration = s.nextRenderGeneration
  config : s'.config = s.config

namespace Advances

variable {s s' s'' : OutputScheduler Scene Bundle} {offer : Offer}

theorem withdraw (hactive : Prunes transactionLayout s.active s'.active)
    (hrender : ∀ p', s'.pendingRender = some p' →
      ∃ p, s.pendingRender = some p ∧ p'.batch = p.batch ∧ p'.tracked = p.tracked)
    (heffects : s'.pendingEffects.Sublist s.pendingEffects)
    (hbytes : s'.pendingBytes.Sublist s.pendingBytes) (hbells : s'.bellLane ≤ s.bellLane)
    (hawaiting : s'.awaitingFlushRenders.Sublist s.awaitingFlushRenders)
    (hflush : s'.flushRequired = s.flushRequired)
    (hgeneration : s'.nextRenderGeneration = s.nextRenderGeneration)
    (hconfig : s'.config = s.config) : Advances .none s s' where
  active := hactive
  renders := by
    apply (rendersOf_sublist hactive.sublist).append
    cases hp' : s'.pendingRender with
    | none => simp
    | some p' =>
      obtain ⟨p, hp, -, htracked⟩ := hrender p' hp'
      simp [hp, htracked]
  pending := hrender
  effects := by
    simp only [Offer.none, append_nil]
    exact (effectsOf_sublist hactive.sublist).append heffects
  controls before offered h := by
    simp only [Offer.none, append_nil]
    apply h.sublist
    exact (Sublist.refl before).append ((controlsOf_sublist hactive.sublist).append (hbytes.map _))
  bells := hbells
  awaiting := hawaiting
  flushRequired := hflush
  nextRenderGeneration := hgeneration
  config := hconfig

theorem trans (h : Advances .none s s') (h' : Advances offer s' s'') : Advances offer s s'' where
  active := h.active.trans h'.active
  renders := h'.renders.trans h.renders
  pending p'' hp'' := by
    obtain ⟨p', hp', hbatch', htracked'⟩ := h'.pending p'' hp''
    obtain ⟨p, hp, hbatch, htracked⟩ := h.pending p' hp'
    exact ⟨p, hp, hbatch'.trans hbatch, htracked'.trans htracked⟩
  effects := by
    have hfirst : s'.effectLane.Sublist s.effectLane := by
      have heffects := h.effects
      simpa [Offer.none] using heffects
    exact h'.effects.trans (hfirst.append (.refl _))
  controls before offered hb := by
    have hfirst := h.controls before offered hb
    simp only [Offer.none, append_nil] at hfirst
    exact h'.controls before offered hfirst
  bells := by
    have hfirst : s'.bellLane ≤ s.bellLane := h.bells
    have hsecond := h'.bells
    omega
  awaiting := h'.awaiting.trans h.awaiting
  flushRequired := h'.flushRequired.trans h.flushRequired
  nextRenderGeneration := h'.nextRenderGeneration.trans h.nextRenderGeneration
  config := h'.config.trans h.config

theorem refuse (h : Advances .none s s') (offer : Offer) : Advances offer s s' where
  active := h.active
  renders := h.renders
  pending := h.pending
  effects := by
    have heffects := h.effects
    simp only [Offer.none, append_nil] at heffects
    exact heffects.trans (sublist_append_left _ _)
  controls before offered hb := by
    have hfirst := h.controls before offered hb
    simp only [Offer.none, append_nil] at hfirst
    exact hfirst.mono (sublist_append_left _ _)
  bells := le_trans h.bells (Nat.le_add_right _ _)
  awaiting := h.awaiting
  flushRequired := h.flushRequired
  nextRenderGeneration := h.nextRenderGeneration
  config := h.config

theorem refl : Advances .none s s :=
  withdraw Prunes.refl (fun p hp => ⟨p, hp, rfl, rfl⟩) (.refl _) (.refl _) (le_rfl) (.refl _) rfl rfl rfl

theorem same (hactive : s'.active = s.active) (hrender : s'.pendingRender = s.pendingRender)
    (heffects : s'.pendingEffects = s.pendingEffects) (hbytes : s'.pendingBytes = s.pendingBytes)
    (hbells : s'.pendingBells = s.pendingBells) (hawaiting : s'.awaitingFlushRenders = s.awaitingFlushRenders)
    (hflush : s'.flushRequired = s.flushRequired)
    (hgeneration : s'.nextRenderGeneration = s.nextRenderGeneration) (hconfig : s'.config = s.config) :
    Advances .none s s' := by
  apply withdraw _ _ _ _ _ _ hflush hgeneration hconfig
  · rw [hactive]
    exact Prunes.refl
  · rw [hrender]
    exact fun p hp => ⟨p, hp, rfl, rfl⟩
  · rw [heffects]
  · rw [hbytes]
  · rw [OutputScheduler.bellLane, OutputScheduler.bellLane, hactive, hbells]
  · rw [hawaiting]

end Advances

namespace OutputScheduler

variable (s : OutputScheduler Scene Bundle)

theorem notePending_advances (nowMs : Nat) : Advances .none s (s.notePending nowMs) :=
  .same rfl rfl rfl rfl rfl rfl rfl rfl rfl

theorem pending_filter {keep : PendingRender Scene Bundle → Bool} (p' : PendingRender Scene Bundle)
    (h : s.pendingRender.filter keep = some p') :
    ∃ p, s.pendingRender = some p ∧ p'.batch = p.batch ∧ p'.tracked = p.tracked :=
  ⟨p', (Option.filter_eq_some_iff.mp h).1, rfl, rfl⟩

theorem evictUnstarted_advances : Advances .none s s.evictUnstarted := by
  have hkeep : ∀ t : ActiveTransaction Scene Bundle, 0 < t.offset → s.survivesEviction t = true := by
    intro t ht
    simp [survivesEviction, ht]
  refine .withdraw (filter hkeep) s.pending_filter (by simp [evictUnstarted]) (.refl _) ?_ (.refl _) rfl rfl rfl
  have hbells := bellsOf_le (filter_sublist (l := s.active) (p := s.survivesEviction))
  simp only [bellLane, evictUnstarted]
  omega

theorem prepareForLifecycleCleanup_advances : Advances .none s s.prepareForLifecycleCleanup := by
  have hkeep : ∀ t : ActiveTransaction Scene Bundle, 0 < t.offset → decide (0 < t.offset) = true := by
    simp
  refine .withdraw (filter hkeep) (by simp [prepareForLifecycleCleanup])
    (by simp [prepareForLifecycleCleanup]) (by simp [prepareForLifecycleCleanup]) ?_
    (by simp [prepareForLifecycleCleanup]) rfl rfl rfl
  have hbells := bellsOf_le (filter_sublist (l := s.active) (p := fun t => decide (0 < t.offset)))
  simp only [bellLane, prepareForLifecycleCleanup]
  omega

theorem setSynchronizedOutputSupported_advances (supported : Bool) :
    Advances .none s (s.setSynchronizedOutputSupported supported) := by
  refine .withdraw refl ?_ (.refl _) (.refl _) (le_rfl) (.refl _) rfl rfl rfl
  intro p' hp'
  simp only [setSynchronizedOutputSupported] at hp'
  split at hp'
  · obtain ⟨p, hp, rfl⟩ := Option.map_eq_some_iff.mp hp'
    exact ⟨p, hp, rfl, rfl⟩
  · exact ⟨p', hp', rfl, rfl⟩

variable (owner : SurfaceId)

theorem supersedeEffects_advances (kind : TerminalEventKind) :
    Advances .none s (s.supersedeEffects owner kind) := by
  refine .withdraw ?_ (fun p hp => ⟨p, hp, rfl, rfl⟩) filter_sublist (.refl _)
    (Nat.add_le_add_right (bellsOf_le filter_sublist) _) (.refl _) rfl rfl rfl
  apply Prunes.filter
  intro t ht
  have hne : t.offset ≠ 0 := ne_of_gt ht
  simp [hne]

theorem removePendingEffect_advances (kind : TerminalEventKind) :
    Advances .none s (s.removePendingEffect owner kind) := by
  unfold removePendingEffect
  split
  · exact .withdraw refl (fun p hp => ⟨p, hp, rfl, rfl⟩) (eraseIdx_sublist _ _)
      (.refl _) (le_rfl) (.refl _) rfl rfl rfl
  · exact .refl

theorem observeApplicationSynchronization_advances (synchronized opened activity : Bool) (nowMs : Nat) :
    Advances .none s (s.observeApplicationSynchronization synchronized opened activity nowMs) := by
  unfold observeApplicationSynchronization
  split
  · split
    · split
      · exact .same rfl rfl rfl rfl rfl rfl rfl rfl rfl
      · exact .refl
    · split
      · exact .same rfl rfl rfl rfl rfl rfl rfl rfl rfl
      · exact .refl
    · exact .same rfl rfl rfl rfl rfl rfl rfl rfl rfl
  · exact .same rfl rfl rfl rfl rfl rfl rfl rfl rfl

/-! ## New work -/

theorem coalesceBytes_batched {maximum : Nat} {pending : List PendingBytes}
    {kind : ScheduledOutputClass} {bytes : Bytes} {before offered : List Bytes}
    (h : Batched (before ++ pending.map PendingBytes.bytes) offered) :
    Batched (before ++ (coalesceBytes maximum pending kind bytes).map PendingBytes.bytes)
      (offered ++ [bytes]) := by
  have hpush : Batched (before ++ (pending ++ [PendingBytes.mk kind bytes]).map PendingBytes.bytes)
      (offered ++ [bytes]) := by
    rw [map_append, ← append_assoc]
    exact h.push bytes
  unfold coalesceBytes
  split
  · rename_i last hlast
    split
    · have hpending := (dropLast_append_getLast? last hlast).symm
      rw [hpending, map_append, ← append_assoc] at h
      rw [map_append, ← append_assoc]
      exact h.extend bytes
    · exact hpush
  · exact hpush

theorem pushBytes_advances (kind : ScheduledOutputClass) (bytes : Bytes) :
    Advances ⟨[], [bytes], 0⟩ s (s.pushBytes kind bytes) where
  active := refl
  renders := .refl _
  pending p hp := ⟨p, hp, rfl, rfl⟩
  effects := by simp [effectLane, pushBytes]
  controls before offered h := by
    rw [controlLane, ← append_assoc] at h ⊢
    exact coalesceBytes_batched h
  bells := le_rfl
  awaiting := .refl _
  flushRequired := rfl
  nextRenderGeneration := rfl
  config := rfl

theorem pushEffect_advances (effect : ScheduledTerminalEffect) :
    Advances ⟨[effect], [], 0⟩ s { s with pendingEffects := s.pendingEffects ++ [effect] } where
  active := refl
  renders := .refl _
  pending p hp := ⟨p, hp, rfl, rfl⟩
  effects := by simp [effectLane]
  controls before offered h := by
    rw [append_nil]
    exact h
  bells := le_rfl
  awaiting := .refl _
  flushRequired := rfl
  nextRenderGeneration := rfl
  config := rfl

theorem addBells_advances (count : Nat) : Advances ⟨[], [], count⟩ s
      { s with pendingBells := saturatingAdd 64 s.pendingBells count } where
  active := refl
  renders := .refl _
  pending p hp := ⟨p, hp, rfl, rfl⟩
  effects := by simp [effectLane]
  controls before offered h := by
    rw [append_nil]
    exact h
  bells := by
    simp only [bellLane, saturatingAdd]
    omega
  awaiting := .refl _
  flushRequired := rfl
  nextRenderGeneration := rfl
  config := rfl

theorem enqueueBytes_advances (kind : ScheduledOutputClass) (bytes : Bytes) (nowMs : Nat) :
    Advances ⟨[], [bytes], 0⟩ s (s.enqueueBytes kind bytes nowMs) := by
  have hevicted : Advances .none s (if s.exceeds bytes.length then s.evictUnstarted else s) := by
    split
    · exact s.evictUnstarted_advances
    · exact .refl
  unfold enqueueBytes
  split
  · exact Advances.refl.refuse _
  · split
    · exact Advances.refl.refuse _
    · simp only
      generalize (if s.exceeds bytes.length then s.evictUnstarted else s) = evicted at hevicted ⊢
      split
      · exact hevicted.refuse _
      · exact hevicted.trans ((notePending_advances _ nowMs).trans (pushBytes_advances _ kind bytes))

theorem enqueueTerminalEffect_rule {P : OutputScheduler Scene Bundle → Prop} {event bounded : TerminalEvent}
    (hbounded : boundTerminalEffect event s.config.maximumPendingBytes = bounded) (owner : SurfaceId)
    (nowMs : Nat) (h : P s) (hsupersede : P (s.supersedeEffects owner (terminalEventKind bounded)))
    (hremove : ∀ s' : OutputScheduler Scene Bundle, P s' →
      P (s'.removePendingEffect owner (terminalEventKind bounded))) :
    ∃ roomier, P roomier ∧ (s.enqueueTerminalEffect owner event nowMs = roomier ∨
      roomier.exceeds (terminalEventRetainedBytes bounded) = false ∧
        s.enqueueTerminalEffect owner event nowMs =
          { roomier.notePending nowMs with
            pendingEffects := roomier.pendingEffects ++ [⟨owner, bounded⟩] }) := by
  unfold enqueueTerminalEffect
  dsimp only
  rw [hbounded]
  have hsuperseded : P (if isStateEffect (terminalEventKind bounded) then
      s.supersedeEffects owner (terminalEventKind bounded) else s) := by
    split
    · exact hsupersede
    · exact h
  generalize (if isStateEffect (terminalEventKind bounded) then _ else s) = superseded at hsuperseded ⊢
  have hroomier : P (if s.config.maximumPendingBytes <
      saturatingAdd 64 superseded.retainedEffectBytes (terminalEventRetainedBytes bounded) then
      superseded.removePendingEffect owner (terminalEventKind bounded) else superseded) := by
    split
    · exact hremove _ hsuperseded
    · exact hsuperseded
  generalize (if s.config.maximumPendingBytes < _ then _ else superseded) = roomier at hroomier ⊢
  refine ⟨roomier, hroomier, ?_⟩
  split
  · exact .inl rfl
  · rename_i hroom
    exact .inr ⟨eq_false_of_ne_true hroom, rfl⟩

theorem enqueueTerminalEffect_advances (event : TerminalEvent) (nowMs : Nat) :
    Advances ⟨[⟨owner, boundTerminalEffect event s.config.maximumPendingBytes⟩], [], 0⟩ s
      (s.enqueueTerminalEffect owner event nowMs) := by
  obtain ⟨roomier, hroomier, heq | ⟨-, heq⟩⟩ := enqueueTerminalEffect_rule s (P := Advances .none s) rfl
    owner nowMs .refl (s.supersedeEffects_advances owner _)
    fun s' h => h.trans (s'.removePendingEffect_advances owner _)
  · rw [heq]
    exact hroomier.refuse _
  · rw [heq]
    exact hroomier.trans ((notePending_advances _ nowMs).trans (pushEffect_advances _ _))

theorem enqueueBell_advances (count nowMs : Nat) : Advances ⟨[], [], count⟩ s (s.enqueueBell count nowMs) := by
  unfold enqueueBell
  simp only
  split
  · exact Advances.refl.refuse _
  · have hadd := (s.notePending_advances nowMs).trans (addBells_advances _
      (min count (s.config.maximumPendingBytes - s.pendingByteCount)))
    exact { hadd with bells := le_trans hadd.bells (by simp only; omega) }

/-! ## Renders -/

/-- A render is accepted: unstarted work may go, and the render is the one now pending. -/
structure Accepts (batch : RenderBatch Scene) (accessibility : Bundle)
    (s s' : OutputScheduler Scene Bundle) : Prop where
  withdrawn : ∃ s₀, Advances .none s s₀ ∧ s'.active = s₀.active ∧
    s'.pendingEffects = s₀.pendingEffects ∧ s'.pendingBytes = s₀.pendingBytes ∧
    s'.pendingBells = s₀.pendingBells ∧ s'.awaitingFlushRenders = s₀.awaitingFlushRenders ∧
    s'.flushRequired = s₀.flushRequired ∧ s'.config = s₀.config
  pending : ∃ byteLen, s'.pendingRender = some ⟨batch, byteLen, s.nextRenderGeneration, accessibility⟩
  nextRenderGeneration : s'.nextRenderGeneration = nextGeneration s.nextRenderGeneration

/-- What the withdrawn bells are worth in a measure of the queue is at least what they add to the count. -/
theorem withdrawBells_measure {measure : List (ActiveTransaction Scene Bundle) → Nat}
    {worth : ActiveTransaction Scene Bundle → Nat} (hcons : ∀ t ts, measure (t :: ts) = worth t + measure ts)
    (hworth : ∀ t, t.isUnstarted .bell = true → t.bytes.length ≤ worth t)
    (ts : List (ActiveTransaction Scene Bundle)) (count : Nat) :
    measure (ts.filter fun t => !t.isUnstarted .bell) + (ts.filter (·.isUnstarted .bell)).foldl
        (fun count t => saturatingAdd 64 count t.bytes.length) count ≤ measure ts + count := by
  induction ts generalizing count with
  | nil => exact le_rfl
  | cons t ts ih =>
    cases hbell : t.isUnstarted .bell with
    | true =>
      have hrest := ih (saturatingAdd 64 count t.bytes.length)
      have hsat : saturatingAdd 64 count t.bytes.length ≤ count + t.bytes.length := min_le_left _ _
      have hlength := hworth t hbell
      simp only [filter_cons, hbell, Bool.not_true, false_eq_true, if_false, if_true, foldl_cons, hcons]
      omega
    | false =>
      have hrest := ih count
      simp only [filter_cons, hbell, Bool.not_false, false_eq_true, if_false, if_true, hcons]
      omega

theorem bellsOf_cons (t : ActiveTransaction Scene Bundle) (ts : List (ActiveTransaction Scene Bundle)) :
    bellsOf (t :: ts) = (if t.kind == .bell then t.bytes.length else 0) + bellsOf ts := by
  rw [bellsOf, filter_cons]
  split
  · rfl
  · exact (zero_add _).symm

theorem removeActiveRender_advances {index : Nat} {t : ActiveTransaction Scene Bundle}
    (hindex : s.active[index]? = some t) (hstart : t.offset = 0) (nowMs : Nat) :
    Advances .none s (s.removeActiveRender index nowMs) := by
  have herase : Prunes transactionLayout s.active (s.active.eraseIdx index) := eraseIdx hindex hstart
  have hkeep : ∀ t : ActiveTransaction Scene Bundle, 0 < t.offset → (!t.isUnstarted .bell) = true := by
    intro t ht
    have hne : t.offset ≠ 0 := ne_of_gt ht
    simp [isUnstarted, hne]
  refine .withdraw (herase.trans (filter hkeep)) (fun p hp => ⟨p, hp, rfl, rfl⟩)
    (.refl _) (.refl _) ?_ (.refl _) rfl rfl rfl
  have hcount := withdrawBells_measure bellsOf_cons (fun t hbell => by
    simp only [isUnstarted, and_eq_true] at hbell
    rw [hbell.1, if_pos rfl]) (s.active.eraseIdx index) s.pendingBells
  have hbells := bellsOf_le herase.sublist
  simp only [bellLane, removeActiveRender, withdrawBells]
  omega

theorem replaceableActiveIndex_spec {index : Nat} (h : s.replaceableActiveIndex = some index) :
    ∃ t, s.active[index]? = some t ∧ t.offset = 0 := by
  obtain ⟨hlt, hunstarted, -⟩ := findIdx?_eq_some_iff_getElem.mp h
  refine ⟨s.active[index], getElem?_eq_getElem hlt, ?_⟩
  simp only [isUnstarted, and_eq_true, beq_iff_eq] at hunstarted
  exact hunstarted.2

theorem acceptRender_accepts (batch : RenderBatch Scene) (renderBytes : Nat) (accessibility : Bundle)
    (bypassRequested : Bool) (nowMs : Nat) :
    (s.acceptRender batch renderBytes accessibility bypassRequested nowMs).1 ≠ .droppedForCapacity ∧
      Accepts batch accessibility s
        (s.acceptRender batch renderBytes accessibility bypassRequested nowMs).2 := by
  constructor
  · unfold acceptRender
    simp only
    split
    · simp
    · simp
  · refine ⟨?_, ⟨renderBytes, rfl⟩, rfl⟩
    cases hindex : s.replaceableActiveIndex with
    | none => exact ⟨s, .refl, by simp [acceptRender, hindex, notePending]⟩
    | some index =>
      obtain ⟨t, ht, hstart⟩ := s.replaceableActiveIndex_spec hindex
      exact ⟨_, s.removeActiveRender_advances ht hstart nowMs, by simp [acceptRender, hindex, notePending]⟩

theorem enqueueRender_cases (batch : RenderBatch Scene) (accessibility : Bundle) (nowMs : Nat) :
    ((s.enqueueRenderWithAccessibility batch accessibility nowMs).1 = .droppedForCapacity ∧
      Advances .none s (s.enqueueRenderWithAccessibility batch accessibility nowMs).2) ∨
    ((s.enqueueRenderWithAccessibility batch accessibility nowMs).1 ≠ .droppedForCapacity ∧
      Accepts batch accessibility s
        (s.enqueueRenderWithAccessibility batch accessibility nowMs).2) := by
  have htaken : Advances .none s { s with bypassNextRender := false } :=
    .same rfl rfl rfl rfl rfl rfl rfl rfl rfl
  unfold enqueueRenderWithAccessibility
  simp only
  split
  · exact .inl ⟨rfl, htaken⟩
  · split
    · exact .inl ⟨rfl, htaken⟩
    · right
      obtain ⟨houtcome, ⟨s₀, hadvances, hsame⟩, hpending, hnext⟩ :=
        acceptRender_accepts { s with bypassNextRender := false } batch _ accessibility
          s.bypassNextRender nowMs
      exact ⟨houtcome, ⟨s₀, htaken.trans hadvances, hsame⟩, hpending, hnext⟩

end OutputScheduler

end Lector.Output
