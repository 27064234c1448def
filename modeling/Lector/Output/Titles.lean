import Lector.Foundations.Announcements
import Lector.Output.Bells
import Lector.Output.Deadlines
import Lector.Presentation.Scene

/-! Titles and working directories of scheduled scenes (`render_prepared_scene` in
`src/app/view_stack.rs`, `drain_scheduled_output` in `src/app.rs`). The presented scene records what
was flushed; an effect is sent where the value differs from the record. -/
namespace Lector.Output
open Announcements Presentation List ActiveTransaction OutputScheduler Run

instance : SceneGeometry PresentedScene := ⟨PresentedScene.geometry⟩

/-! ## The two values -/

inductive WideField
  | title
  | workingDirectory
deriving DecidableEq

namespace WideField

def event : WideField → String → TerminalEvent
  | title, value => .titleChanged value
  | workingDirectory, value => .workingDirectoryChanged value

def kind : WideField → TerminalEventKind
  | title => .title
  | workingDirectory => .workingDirectory

def told : WideField → TerminalEvent → Option String
  | title, .titleChanged value => some value
  | workingDirectory, .workingDirectoryChanged value => some value
  | _, _ => none

def ofEffects : WideField → TerminalWideEffects → Option String
  | title, effects => effects.title
  | workingDirectory, effects => effects.workingDirectory

def ofScene : WideField → PresentedScene → Option String
  | title, scene => scene.title
  | workingDirectory, scene => scene.workingDirectory

instance decidableForall {p : WideField → Prop} [DecidablePred p] : Decidable (∀ f, p f) :=
  decidable_of_iff (p .title ∧ p .workingDirectory) ⟨fun h f => by
    cases f with
    | title => exact h.1
    | workingDirectory => exact h.2, fun h => ⟨h .title, h .workingDirectory⟩⟩

variable (f : WideField)

def shown (scene : PresentedScene) : String := (f.ofScene scene).getD ""

theorem told_event (f g : WideField) (value : String) :
    f.told (g.event value) = if f = g then some value else none := by
  cases f with
  | title => cases g with
    | title => rfl
    | workingDirectory => rfl
  | workingDirectory => cases g with
    | title => rfl
    | workingDirectory => rfl

theorem kind_of_told {f : WideField} {event : TerminalEvent} {value : String}
    (h : f.told event = some value) : terminalEventKind event = f.kind := by
  cases f with
  | title =>
    cases event with
    | titleChanged title => rfl
    | _ => cases h
  | workingDirectory =>
    cases event with
    | workingDirectoryChanged directory => rfl
    | _ => cases h

theorem told_of_kind {f g : WideField} {event : TerminalEvent} (h : terminalEventKind event = g.kind)
    (hne : f ≠ g) : f.told event = none := by
  rw [Option.eq_none_iff_forall_ne_some]
  intro value htold
  have hkind := (kind_of_told htold).symm.trans h
  revert hkind hne
  cases f <;> cases g <;> simp [kind]

theorem isStateEffect_kind : isStateEffect f.kind = true := by
  cases f with
  | title => rfl
  | workingDirectory => rfl

theorem boundTerminalEffect_event (value : String) (maximum : Nat) :
    boundTerminalEffect (f.event value) maximum = f.event (truncateString value (maximum - 16)) := by
  cases f with
  | title => rfl
  | workingDirectory => rfl

theorem kind_event (value : String) : terminalEventKind (f.event value) = f.kind := by
  cases f with
  | title => rfl
  | workingDirectory => rfl

end WideField

def applyTerminalEffect (scene : PresentedScene) : TerminalEvent → PresentedScene
  | .titleChanged title => { scene with title := some title }
  | .workingDirectoryChanged directory => { scene with workingDirectory := some directory }
  | _ => scene

variable (f : WideField)

theorem ofScene_applyTerminalEffect (scene : PresentedScene) (event : TerminalEvent) :
    f.ofScene (applyTerminalEffect scene event) = (f.told event).or (f.ofScene scene) := by
  cases f with
  | title => cases event <;> rfl
  | workingDirectory => cases event <;> rfl

/-! ## The application -/

def rootSource : SurfaceId := ⟨1⟩

/-- A scene with its batch: what the renderer predicts has the effects of the scene. -/
structure PreparedScene where
  effects : TerminalWideEffects
  batch : RenderBatch PresentedScene
  predicts : ∀ f : WideField, f.ofScene batch.predicted = f.ofEffects effects

def PreparedScene.composed (scene : Scene) (rows : List Terminal.Row) (transactions : List OutputTransaction) :
    PreparedScene where
  effects := scene.effects
  batch := ⟨transactions, PresentedScene.around scene rows⟩
  predicts f := by
    cases f with
    | title => rfl
    | workingDirectory => rfl

variable {Bundle : Type}

/-- What `render_prepared_scene` is given and reads, with its clock. -/
structure RenderCall (Bundle : Type) where
  scene : PreparedScene
  accessibility : Bundle
  bellCount : Nat
  opened : Bool
  activity : Bool
  compositorTransition : Bool
  overlayVisible : Bool
  presentedSynchronized : Bool
  effectMs : WideField → Nat
  observedMs : Nat
  renderMs : Nat
  bellMs : Nat

namespace RenderCall

variable (c : RenderCall Bundle)

def value (f : WideField) : String := (f.ofEffects c.scene.effects).getD ""

def bypasses : Bool := c.overlayVisible || c.compositorTransition

def compensates : Bool := c.compositorTransition || (c.overlayVisible && c.presentedSynchronized)

/-- The effect is sent: to compensate, or because the value is not the presented one. -/
def sends (presented : PresentedScene) (f : WideField) : Bool :=
  c.compensates || f.ofEffects c.scene.effects != f.ofScene presented

def effectOp (f : WideField) : Op PresentedScene Bundle :=
  .command (.enqueueTerminalEffect rootSource (f.event (c.value f)) (c.effectMs f))

def effectOps (presented : PresentedScene) (f : WideField) : List (Op PresentedScene Bundle) :=
  if c.sends presented f then [c.effectOp f] else []

def synchronizationOps : List (Op PresentedScene Bundle) :=
  [.command (.observeApplicationSynchronization c.presentedSynchronized c.opened c.activity c.observedMs),
    .command (.setApplicationSynchronizationBypassed c.bypasses)]

def renderOp : Op PresentedScene Bundle := .render c.scene.batch c.accessibility c.renderMs

def bellOp : Op PresentedScene Bundle := .command (.enqueueBell c.bellCount c.bellMs)

def refused (r : Run PresentedScene Bundle) : Bool :=
  (r.scheduler.enqueueRenderWithAccessibility c.scene.batch c.accessibility c.renderMs).1 ==
    .droppedForCapacity

end RenderCall

structure ScheduledApp (Bundle : Type) where
  run : Run PresentedScene Bundle
  presentedScene : PresentedScene

inductive AppOp (Bundle : Type)
  | render (call : RenderCall Bundle)
  | drain (nowMs : Nat) (force : Bool)
  | notifyWritable

namespace ScheduledApp

def start (config : OutputSchedulerConfig) (synchronizedOutputSupported : Bool)
    (writes : List WriteResponse) (flushes : List FlushResponse) (geometry : TerminalGeometry) :
    ScheduledApp Bundle :=
  ⟨.start config synchronizedOutputSupported writes flushes, .blank geometry⟩

variable (app : ScheduledApp Bundle) (c : RenderCall Bundle)

def titled : Run PresentedScene Bundle :=
  app.run.runOps (c.effectOps app.presentedScene .title)

def announced : Run PresentedScene Bundle :=
  (app.titled c).runOps (c.effectOps app.presentedScene .workingDirectory)

def readied : Run PresentedScene Bundle := (app.announced c).runOps c.synchronizationOps

def renderPreparedScene : ScheduledApp Bundle :=
  let ready := app.readied c
  let rendered := ready.step c.renderOp
  { app with run := if c.refused ready then rendered else rendered.step c.bellOp }

def record (presented : PresentedScene) (report : DrainReport PresentedScene Bundle) : PresentedScene :=
  let rendered := report.completedRenders.foldl (fun _ completed => completed.predicted) presented
  report.completedEffects.foldl (fun scene effect => applyTerminalEffect scene effect.event) rendered

def drainScheduledOutput (nowMs : Nat) (force : Bool) : ScheduledApp Bundle :=
  let call := app.run.opened.drainReady nowMs force
  { run := app.run.step (.drain nowMs force)
    presentedScene :=
      if app.run.hung = false ∧ call.outcome = .returned then record app.presentedScene call.drain.report
      else app.presentedScene }

def step : AppOp Bundle → ScheduledApp Bundle
  | .render c => app.renderPreparedScene c
  | .drain nowMs force => app.drainScheduledOutput nowMs force
  | .notifyWritable => { app with run := app.run.step (.command .notifyWritable) }

def runOps (ops : List (AppOp Bundle)) : ScheduledApp Bundle := ops.foldl step app

end ScheduledApp

/-! ## What is told and shown -/

def ActiveTransaction.entries (t : ActiveTransaction PresentedScene Bundle) : List (Entry String) :=
  (t.completedEffects.filterMap fun effect => f.told effect.event).map .told ++
    t.completedRender.toList.map fun render => .shown (f.shown render.predicted)

def entriesOf (ts : List (ActiveTransaction PresentedScene Bundle)) : List (Entry String) :=
  ts.flatMap (entries f)

def toldIn (effects : List ScheduledTerminalEffect) : List String :=
  effects.filterMap fun effect => f.told effect.event

namespace OutputScheduler

variable (s : OutputScheduler PresentedScene Bundle)

def begun : List (ActiveTransaction PresentedScene Bundle) := s.active.filter fun t => 0 < t.offset

def waitingEffects : List ScheduledTerminalEffect :=
  effectsOf (s.active.filter fun t => t.offset = 0) ++ s.pendingEffects

end OutputScheduler

def Run.heard (r : Run PresentedScene Bundle) : List (Entry String) :=
  seen (entries f) r.finished r.scheduler

def Run.settled (r : Run PresentedScene Bundle) : List (Entry String) :=
  entriesOf f (r.finished ++ r.scheduler.begun)

section Entries

variable (f : WideField) {ts us : List (ActiveTransaction PresentedScene Bundle)}
  (s : OutputScheduler PresentedScene Bundle) {r : Run PresentedScene Bundle}

@[simp] theorem entriesOf_append : entriesOf f (ts ++ us) = entriesOf f ts ++ entriesOf f us := flatMap_append

@[simp] theorem toldIn_append (es fs : List ScheduledTerminalEffect) :
    toldIn f (es ++ fs) = toldIn f es ++ toldIn f fs := filterMap_append

theorem tolds_entriesOf (ts : List (ActiveTransaction PresentedScene Bundle)) :
    tolds (entriesOf f ts) = toldIn f (effectsOf ts) := by
  induction ts with
  | nil => rfl
  | cons t ts ih =>
    have htold : tolds (t.entries f) = toldIn f t.completedEffects := by
      unfold entries
      cases t.completedRender with
      | none => simp [toldIn]
      | some render => simp [toldIn]
    show tolds (t.entries f ++ entriesOf f ts) = toldIn f (t.completedEffects ++ effectsOf ts)
    rw [tolds_append, toldIn_append, htold, ih]

theorem showns_entriesOf (ts : List (ActiveTransaction PresentedScene Bundle)) :
    showns (entriesOf f ts) = (rendersOf ts).map fun render => f.shown render.predicted := by
  induction ts with
  | nil => rfl
  | cons t ts ih =>
    have hnone : ∀ values : List String, showns (values.map .told) = ([] : List String) := by
      intro values
      induction values with
      | nil => rfl
      | cons value values ih => exact ih
    have hshown : showns (t.entries f) =
        t.completedRender.toList.map fun render => f.shown render.predicted := by
      unfold entries
      cases t.completedRender with
      | none => simp [hnone]
      | some render => simp [hnone]
    show showns (t.entries f ++ entriesOf f ts) = _
    rw [showns_append, rendersOf_cons, map_append, hshown, ih]

theorem entriesOf_unrendered (h : ∀ t ∈ ts, t.completedRender = none) :
    entriesOf f ts = (toldIn f (effectsOf ts)).map .told := by
  induction ts with
  | nil => rfl
  | cons t ts ih =>
    show t.entries f ++ entriesOf f ts = (toldIn f (t.completedEffects ++ effectsOf ts)).map .told
    rw [ih fun u hmem => h u (mem_cons_of_mem _ hmem), entries, h t mem_cons_self]
    simp [toldIn]

theorem entriesOf_activations : entriesOf f s.activations = (toldIn f s.pendingEffects).map .told ++
      (s.pendingRender.map PendingRender.tracked).toList.map fun render => .shown (f.shown render.predicted) := by
  have hfront : ∀ t ∈ (s.pendingBytes.map PendingBytes.activated ++
      s.pendingEffects.map ScheduledTerminalEffect.activated :
        List (ActiveTransaction PresentedScene Bundle)), t.completedRender = none := by
    intro t hmem
    simp only [mem_append, mem_map] at hmem
    obtain ⟨-, -, rfl⟩ | ⟨-, -, rfl⟩ := hmem
    · rfl
    · rfl
  have heffects : effectsOf (s.pendingBytes.map PendingBytes.activated ++
      s.pendingEffects.map ScheduledTerminalEffect.activated :
        List (ActiveTransaction PresentedScene Bundle)) = s.pendingEffects := by
    simp [effectsOf, PendingBytes.activated, ScheduledTerminalEffect.activated, flatMap_map]
  have hbells : entriesOf f (bellTransactions s.pendingBells :
      List (ActiveTransaction PresentedScene Bundle)) = [] := by
    unfold bellTransactions
    split
    · rfl
    · rfl
  rw [activations, entriesOf_append, entriesOf_append, hbells, append_nil,
    entriesOf_unrendered f hfront, heffects]
  cases s.pendingRender with
  | none => rfl
  | some render => simp [entriesOf, entries, PendingRender.activated]

theorem OutputScheduler.active_split (hbehind : ∀ t ∈ s.active.tail, t.offset = 0) :
    s.active = s.begun ++ s.active.filter fun t => t.offset = 0 := by
  unfold begun
  cases hactive : s.active with
  | nil => rfl
  | cons t rest =>
    rw [hactive] at hbehind
    have hnone : rest.filter (fun t => 0 < t.offset) = [] :=
      filter_eq_nil_iff.mpr fun u hmem => by simp [hbehind u hmem]
    have hall : rest.filter (fun t => t.offset = 0) = rest :=
      filter_eq_self.mpr fun u hmem => by simp [hbehind u hmem]
    obtain hzero | hpos := eq_zero_or_pos t.offset
    · simp [hzero, hnone, hall]
    · have hne : t.offset ≠ 0 := by omega
      simp [hpos, hne, hnone, hall]

section

variable (hbehind : ∀ t ∈ r.scheduler.active.tail, t.offset = 0)
include hbehind

theorem heard_eq :
    r.heard f = r.settled f ++ (entriesOf f (r.scheduler.active.filter fun t => t.offset = 0) ++
      entriesOf f r.scheduler.activations) := by
  unfold heard settled seen
  conv_lhs => rw [r.scheduler.active_split hbehind]
  simp only [entriesOf, flatMap_append, append_assoc]

theorem tolds_heard : r.settled f <+: r.heard f ∧
      tolds (r.heard f) = tolds (r.settled f) ++ toldIn f r.scheduler.waitingEffects := by
  rw [heard_eq f hbehind]
  refine ⟨prefix_append _ _, ?_⟩
  have heffects := effectsOf_activations r.scheduler
  rw [tolds_append, tolds_append, tolds_entriesOf, tolds_entriesOf, heffects, waitingEffects, toldIn_append]

/-- **Behind what is settled, only the pending render shows** where the active renders have been started. -/
theorem heard_pending (hstarted : ∀ t ∈ r.scheduler.active, t.offset = 0 → t.completedRender = none)
    {render : PendingRender PresentedScene Bundle} (hpending : r.scheduler.pendingRender = some render) :
    r.heard f = r.settled f ++ (toldIn f r.scheduler.waitingEffects).map .told ++
      [.shown (f.shown render.batch.predicted)] := by
  have hunrendered : ∀ t ∈ r.scheduler.active.filter fun t => t.offset = 0, t.completedRender = none := by
    intro t hmem
    obtain ⟨hmem, hzero⟩ := mem_filter.mp hmem
    exact hstarted t hmem (by simpa using hzero)
  rw [heard_eq f hbehind, entriesOf_unrendered f hunrendered, entriesOf_activations, hpending,
    waitingEffects, toldIn_append, map_append]
  simp only [append_assoc]
  rfl

end

end Entries

/-! ## Calls that do not write -/

theorem Genuine.carries {accepted : List (AcceptedRender PresentedScene Bundle)}
    {t : ActiveTransaction PresentedScene Bundle} (h : Genuine accepted t) {effect : ScheduledTerminalEffect}
    (hmem : effect ∈ t.completedEffects) : t.kind = .effect ∧ t.completedEffects = [effect] := by
  unfold Genuine at h
  split at h
  · rw [h.2] at hmem
    cases hmem
  · rename_i hkind
    obtain ⟨-, carried, hcarried, -⟩ := h
    rw [hcarried, mem_singleton] at hmem
    exact ⟨hkind, hmem ▸ hcarried⟩
  · rw [h.2.1] at hmem
    cases hmem
  · rw [h.1] at hmem
    cases hmem

/-- What every state of a run of the application has: the effects are its own. -/
structure Rooted (r : Run PresentedScene Bundle) : Prop where
  inLine : r.InLine
  owned : ∀ effect ∈ effectsOf r.finished ++ r.scheduler.effectLane, effect.owner = rootSource

section Superseding

variable {f g : WideField} {s : OutputScheduler PresentedScene Bundle}
  {accepted : List (AcceptedRender PresentedScene Bundle)}

theorem toldIn_supersede (hgenuine : ∀ t ∈ s.active, Genuine accepted t)
    (howned : ∀ effect ∈ s.effectLane, effect.owner = rootSource) :
    toldIn f (s.supersedeEffects rootSource f.kind).waitingEffects = [] := by
  have hother : ∀ effect ∈ s.effectLane, sameEffect rootSource f.kind effect = false →
      f.told effect.event = none := by
    intro effect hmem hsame
    rw [Option.eq_none_iff_forall_ne_some]
    intro value htold
    have hkind := WideField.kind_of_told htold
    simp [sameEffect, howned effect hmem, hkind] at hsame
  refine filterMap_eq_nil_iff.mpr fun effect hmem => ?_
  obtain hmem | hmem := mem_append.mp hmem
  · obtain ⟨t, ht, heffect⟩ := mem_flatMap.mp hmem
    obtain ⟨ht, hzero⟩ := mem_filter.mp ht
    obtain ⟨ht, hkeep⟩ := mem_filter.mp ht
    obtain ⟨hkind, hcarried⟩ := (hgenuine t ht).carries heffect
    refine hother effect (mem_append_left _ (mem_flatMap.mpr ⟨t, ht, heffect⟩)) ?_
    have hzero : t.offset = 0 := by simpa using hzero
    simpa [hzero, hkind, hcarried] using hkeep
  · obtain ⟨hmem, hkeep⟩ := mem_filter.mp hmem
    exact hother effect (mem_append_right _ hmem) (by simpa using hkeep)

theorem toldIn_supersede_other (hgenuine : ∀ t ∈ s.active, Genuine accepted t) (hne : g ≠ f) :
    toldIn g (s.supersedeEffects rootSource f.kind).waitingEffects = toldIn g s.waitingEffects := by
  have hother : ∀ effect, sameEffect rootSource f.kind effect = true → g.told effect.event = none := by
    intro effect hsame
    simp only [sameEffect, Bool.and_eq_true, beq_iff_eq] at hsame
    exact WideField.told_of_kind hsame.2 hne
  have htransactions : ∀ ts : List (ActiveTransaction PresentedScene Bundle), (∀ t ∈ ts, t ∈ s.active) →
      toldIn g (effectsOf (ts.filter fun t => t.offset != 0 || t.kind != .effect ||
        !t.completedEffects.any (sameEffect rootSource f.kind))) = toldIn g (effectsOf ts) := by
    intro ts hts
    induction ts with
    | nil => rfl
    | cons t ts ih =>
      have hrest := ih fun u hu => hts u (mem_cons_of_mem _ hu)
      show _ = toldIn g (t.completedEffects ++ effectsOf ts)
      rw [toldIn_append, ← hrest, filter_cons]
      split
      · exact toldIn_append g _ _
      · rename_i hgone
        simp only [Bool.or_eq_true, not_or, Bool.not_eq_true, Bool.not_eq_false', any_eq_true] at hgone
        obtain ⟨-, effect, hmem, hsame⟩ := hgone
        obtain ⟨-, hcarried⟩ := (hgenuine t (hts t mem_cons_self)).carries hmem
        rw [hcarried]
        simp [toldIn, hother effect hsame]
  have hpending : toldIn g (s.pendingEffects.filter fun e => !sameEffect rootSource f.kind e) =
      toldIn g s.pendingEffects := by
    unfold toldIn
    rw [filterMap_filter]
    refine filterMap_congr fun effect _ => ?_
    cases hsame : sameEffect rootSource f.kind effect with
    | true => simp [hother effect hsame]
    | false => rfl
  rw [waitingEffects, waitingEffects, toldIn_append, toldIn_append]
  simp only [supersedeEffects]
  rw [hpending, filter_comm, htransactions _ fun t hmem => mem_of_mem_filter hmem]

theorem begun_supersede (s : OutputScheduler PresentedScene Bundle) (owner : SurfaceId)
    (kind : TerminalEventKind) : (s.supersedeEffects owner kind).begun = s.begun := by
  unfold begun
  simp only [supersedeEffects]
  rw [filter_filter]
  refine filter_congr fun t _ => ?_
  by_cases hzero : t.offset = 0
  · simp [hzero]
  · simp [hzero]

theorem enqueueTerminalEffect_value (s : OutputScheduler PresentedScene Bundle) (f : WideField)
    (value : String) (nowMs : Nat) :
    ∃ since added, s.enqueueTerminalEffect rootSource (f.event value) nowMs =
        { s.supersedeEffects rootSource f.kind with
          pendingSinceMs := since
          pendingEffects := (s.supersedeEffects rootSource f.kind).pendingEffects ++ added } ∧
      (added = [] ∨
        added = [⟨rootSource, boundTerminalEffect (f.event value) s.config.maximumPendingBytes⟩]) := by
  have hkind : terminalEventKind (boundTerminalEffect (f.event value) s.config.maximumPendingBytes) =
      f.kind := by
    rw [f.boundTerminalEffect_event, f.kind_event]
  have hgone : (s.supersedeEffects rootSource f.kind).removePendingEffect rootSource f.kind =
      s.supersedeEffects rootSource f.kind := by
    have hnone : (s.supersedeEffects rootSource f.kind).pendingEffects.findIdx?
        (sameEffect rootSource f.kind) = none := by
      refine findIdx?_eq_none_iff.mpr fun effect hmem => ?_
      simpa using (mem_filter.mp hmem).2
    unfold removePendingEffect
    rw [hnone]
  unfold enqueueTerminalEffect
  simp only [hkind, f.isStateEffect_kind, if_true, hgone, ite_self]
  split
  · refine ⟨(s.supersedeEffects rootSource f.kind).pendingSinceMs, [], ?_, .inl rfl⟩
    rw [append_nil]
  · exact ⟨_, _, rfl, .inr rfl⟩

end Superseding

structure Undrained (r r' : Run PresentedScene Bundle) : Prop where
  hung : r'.hung = r.hung
  finished : r'.finished = r.finished
  begun : r'.scheduler.begun = r.scheduler.begun
  awaitingRenders : r'.scheduler.awaitingFlushRenders = r.scheduler.awaitingFlushRenders
  awaitingEffects : r'.scheduler.awaitingFlushEffects = r.scheduler.awaitingFlushEffects
  config : r'.scheduler.config = r.scheduler.config

section Calls

variable {r r' r'' : Run PresentedScene Bundle}

theorem Undrained.refl (r : Run PresentedScene Bundle) : Undrained r r := ⟨rfl, rfl, rfl, rfl, rfl, rfl⟩

theorem Undrained.trans (h : Undrained r r') (h' : Undrained r' r'') : Undrained r r'' where
  hung := h'.hung.trans h.hung
  finished := h'.finished.trans h.finished
  begun := h'.begun.trans h.begun
  awaitingRenders := h'.awaitingRenders.trans h.awaitingRenders
  awaitingEffects := h'.awaitingEffects.trans h.awaitingEffects
  config := h'.config.trans h.config

theorem Undrained.settled (h : Undrained r r') (f : WideField) : r'.settled f = r.settled f := by
  unfold Run.settled
  rw [h.finished, h.begun]

theorem Rooted.genuine (h : Rooted r) : ∀ t ∈ r.scheduler.active, Genuine r.accepted t :=
  fun t hmem => h.inLine.sound.genuine t (mem_append_right _ hmem)

theorem Rooted.step (h : Rooted r) (op : Op PresentedScene Bundle) (hpeaceful : r.Peaceful op)
    (hoffer : ∀ effect ∈ (op.offer r.scheduler.config.maximumPendingBytes).effects, effect.owner = rootSource) :
    Rooted (r.step op) := by
  refine ⟨h.inLine.step op, ?_⟩
  have hadvanced : ∀ {offer : Offer} {s' : OutputScheduler PresentedScene Bundle},
      (∀ effect ∈ offer.effects, effect.owner = rootSource) → Advances offer r.scheduler s' →
        ∀ effect ∈ effectsOf r.finished ++ s'.effectLane, effect.owner = rootSource := by
    intro offer s' hoffer hadvances effect hmem
    obtain hmem | hmem := mem_append.mp hmem
    · exact h.owned effect (mem_append_left _ hmem)
    · obtain hmem | hmem := mem_append.mp (hadvances.effects.subset hmem)
      · exact h.owned effect (mem_append_right _ hmem)
      · exact hoffer effect hmem
  unfold Run.step
  split
  · exact h.owned
  · cases op with
    | command c => exact hadvanced hoffer (c.apply_advances r.scheduler)
    | render batch accessibility nowMs =>
      obtain ⟨-, hadvances⟩ | ⟨-, haccepts⟩ := r.scheduler.enqueueRender_cases batch accessibility nowMs
      · exact hadvanced (fun effect hmem => absurd hmem not_mem_nil) hadvances
      · obtain ⟨s₀, hadvances, hactive, heffects, -⟩ := haccepts.withdrawn
        have hlane : (r.scheduler.enqueueRenderWithAccessibility batch accessibility nowMs).2.effectLane =
            s₀.effectLane := by
          rw [effectLane, effectLane, hactive, heffects]
        show ∀ effect ∈ effectsOf r.finished ++
          (r.scheduler.enqueueRenderWithAccessibility batch accessibility nowMs).2.effectLane, _
        rw [hlane]
        exact hadvanced (fun effect hmem => absurd hmem not_mem_nil) hadvances
    | drain nowMs force =>
      obtain ⟨-, hmoves⟩ | ⟨hfailed, -⟩ := Drain.drainReady_follows r.opened nowMs force
      · have heffects := hmoves.keepsWork.effects
        show ∀ effect ∈ effectsOf (r.opened.drainReady nowMs force).drain.finished ++
          (r.opened.drainReady nowMs force).drain.scheduler.effectLane, _
        rw [heffects]
        exact h.owned
      · exact absurd hfailed hpeaceful

def AdmitsEffect (c : RenderCall Bundle) (presented : PresentedScene) (f : WideField)
    (r : Run PresentedScene Bundle) : Prop :=
  c.sends presented f = true → (r.step (c.effectOp f)).scheduler.pendingEffects.getLast? =
    some ⟨rootSource, boundTerminalEffect (f.event (c.value f)) r.scheduler.config.maximumPendingBytes⟩

/-- **Where a value is sent, it is the only one of its kind that waits; elsewhere nothing changes.** -/
theorem Rooted.effectOps (h : Rooted r) (hrunning : r.hung = false) (c : RenderCall Bundle)
    (presented : PresentedScene) (f : WideField) (hadmits : AdmitsEffect c presented f r)
    (hfits : c.sends presented f = true → (c.value f).utf8ByteSize ≤ r.scheduler.config.maximumPendingBytes - 16) :
    Rooted (r.runOps (c.effectOps presented f)) ∧ Undrained r (r.runOps (c.effectOps presented f)) ∧
      toldIn f (r.runOps (c.effectOps presented f)).scheduler.waitingEffects =
        (if c.sends presented f then [c.value f] else toldIn f r.scheduler.waitingEffects) ∧
      ∀ g, g ≠ f → toldIn g (r.runOps (c.effectOps presented f)).scheduler.waitingEffects =
        toldIn g r.scheduler.waitingEffects := by
  unfold RenderCall.effectOps
  cases hsends : c.sends presented f with
  | false => exact ⟨h, .refl r, rfl, fun _ _ => rfl⟩
  | true =>
    have hrooted : Rooted (r.step (c.effectOp f)) := h.step _ trivial fun effect hmem => by
      rw [mem_singleton.mp hmem]
    have hlast := hadmits hsends
    have hstep : r.step (c.effectOp f) = { r with
        scheduler := r.scheduler.enqueueTerminalEffect rootSource (f.event (c.value f)) (c.effectMs f) } := by
      unfold Run.step
      rw [if_neg (by simp [hrunning])]
      rfl
    obtain ⟨since, added, heq, hadded⟩ := enqueueTerminalEffect_value r.scheduler f (c.value f) (c.effectMs f)
    rw [heq] at hstep
    have hbegun := begun_supersede r.scheduler rootSource f.kind
    have hvalue : truncateString (c.value f) (r.scheduler.config.maximumPendingBytes - 16) = c.value f := by
      rw [truncateString, if_pos (hfits hsends)]
    have howned : ∀ effect ∈ r.scheduler.effectLane, effect.owner = rootSource :=
      fun effect hmem => h.owned effect (mem_append_right _ hmem)
    have hadded : added = [⟨rootSource, f.event (c.value f)⟩] := by
      obtain rfl | rfl := hadded
      · -- a refused effect is not the last one: all of its kind were superseded
        rw [hstep] at hlast
        simp only [append_nil] at hlast
        have hmem := mem_of_getLast? hlast
        have hkeep := (mem_filter.mp hmem).2
        simp [sameEffect, f.boundTerminalEffect_event, f.kind_event] at hkeep
      · rw [f.boundTerminalEffect_event, hvalue]
    have hwaiting : ∀ g, toldIn g (r.step (c.effectOp f)).scheduler.waitingEffects =
        toldIn g (r.scheduler.supersedeEffects rootSource f.kind).waitingEffects ++
          toldIn g [⟨rootSource, f.event (c.value f)⟩] := by
      intro g
      rw [hstep, hadded, ← toldIn_append]
      simp only [waitingEffects, append_assoc]
    refine ⟨hrooted, ?_, ?_, fun g hne => ?_⟩
    · show Undrained r (r.step (c.effectOp f))
      rw [hstep]
      exact ⟨rfl, rfl, hbegun, rfl, rfl, rfl⟩
    · show toldIn f (r.step (c.effectOp f)).scheduler.waitingEffects = _
      rw [hwaiting, toldIn_supersede h.genuine howned]
      simp [toldIn, WideField.told_event]
    · show toldIn g (r.step (c.effectOp f)).scheduler.waitingEffects = _
      rw [hwaiting, toldIn_supersede_other h.genuine hne]
      simp [toldIn, WideField.told_event, hne]

/-- A call that leaves the transactions, the effects and the pending render as they are. -/
structure Untouched (s s' : OutputScheduler PresentedScene Bundle) : Prop where
  active : s'.active = s.active
  pendingEffects : s'.pendingEffects = s.pendingEffects
  pendingRender : s'.pendingRender = s.pendingRender
  awaitingRenders : s'.awaitingFlushRenders = s.awaitingFlushRenders
  awaitingEffects : s'.awaitingFlushEffects = s.awaitingFlushEffects
  config : s'.config = s.config

theorem Untouched.waitingEffects {s s' : OutputScheduler PresentedScene Bundle} (h : Untouched s s') :
    s'.waitingEffects = s.waitingEffects := by
  unfold OutputScheduler.waitingEffects
  rw [h.active, h.pendingEffects]

theorem step_command (hrunning : r.hung = false) (c : Command) :
    r.step (.command c) = { r with scheduler := c.apply r.scheduler } := by
  unfold step
  rw [if_neg (by simp [hrunning])]

theorem Untouched.undrained {c : Command} (h : Untouched r.scheduler (c.apply r.scheduler))
    (hrunning : r.hung = false) : Undrained r (r.step (.command c)) := by
  rw [step_command hrunning]
  refine ⟨rfl, rfl, ?_, h.awaitingRenders, h.awaitingEffects, h.config⟩
  unfold begun
  rw [h.active]

variable (s : OutputScheduler PresentedScene Bundle)

theorem observe_untouched (synchronized opened activity : Bool)
    (nowMs : Nat) : Untouched s (s.observeApplicationSynchronization synchronized opened activity nowMs) := by
  unfold observeApplicationSynchronization
  split
  · split
    · split
      · exact ⟨rfl, rfl, rfl, rfl, rfl, rfl⟩
      · exact ⟨rfl, rfl, rfl, rfl, rfl, rfl⟩
    · split
      · exact ⟨rfl, rfl, rfl, rfl, rfl, rfl⟩
      · exact ⟨rfl, rfl, rfl, rfl, rfl, rfl⟩
    · exact ⟨rfl, rfl, rfl, rfl, rfl, rfl⟩
  · exact ⟨rfl, rfl, rfl, rfl, rfl, rfl⟩

theorem bell_untouched (count nowMs : Nat) : Untouched s (s.enqueueBell count nowMs) := by
  unfold enqueueBell
  simp only
  split
  · exact ⟨rfl, rfl, rfl, rfl, rfl, rfl⟩
  · exact ⟨rfl, rfl, rfl, rfl, rfl, rfl⟩

theorem Rooted.command (h : Rooted r) {c : Command} (hcleanup : c ≠ .prepareForLifecycleCleanup)
    (hoffer : (c.offer r.scheduler.config.maximumPendingBytes).effects = []) :
    Rooted (r.step (.command c)) := by
  refine h.step (.command c) ?_ fun effect hmem => ?_
  · cases c with
    | prepareForLifecycleCleanup => exact absurd rfl hcleanup
    | _ => trivial
  · have hmem : effect ∈ (c.offer r.scheduler.config.maximumPendingBytes).effects := hmem
    rw [hoffer] at hmem
    cases hmem

theorem Rooted.synchronizationOps (h : Rooted r) (hrunning : r.hung = false) (c : RenderCall Bundle) :
    Rooted (r.runOps c.synchronizationOps) ∧ Undrained r (r.runOps c.synchronizationOps) ∧
      (r.runOps c.synchronizationOps).scheduler.waitingEffects = r.scheduler.waitingEffects := by
  have hobserved := observe_untouched r.scheduler c.presentedSynchronized c.opened c.activity c.observedMs
  have hfirst := Untouched.undrained (c := .observeApplicationSynchronization c.presentedSynchronized c.opened
    c.activity c.observedMs) hobserved hrunning
  have hrooted := h.command (c := .observeApplicationSynchronization c.presentedSynchronized c.opened
    c.activity c.observedMs) (by simp) rfl
  have hwaiting := hobserved.waitingEffects
  have hstep := step_command hrunning (.observeApplicationSynchronization c.presentedSynchronized c.opened
    c.activity c.observedMs)
  have hrunning' := hfirst.hung.trans hrunning
  have hsecond := Untouched.undrained (c := .setApplicationSynchronizationBypassed c.bypasses)
    ⟨rfl, rfl, rfl, rfl, rfl, rfl⟩ hrunning'
  refine ⟨hrooted.command (by simp) rfl, hfirst.trans hsecond, ?_⟩
  unfold RenderCall.synchronizationOps runOps
  rw [foldl_cons, foldl_cons, step_command hrunning', hstep]
  exact hwaiting

theorem Rooted.bellOp (h : Rooted r) (hrunning : r.hung = false) (c : RenderCall Bundle) :
    Rooted (r.step c.bellOp) ∧ Undrained r (r.step c.bellOp) ∧
      Untouched r.scheduler (r.step c.bellOp).scheduler := by
  have hbell := bell_untouched r.scheduler c.bellCount c.bellMs
  refine ⟨h.command (by simp) rfl, Untouched.undrained (c := .enqueueBell c.bellCount c.bellMs) hbell hrunning,
    ?_⟩
  show Untouched r.scheduler (r.step (.command _)).scheduler
  rw [step_command hrunning]
  exact hbell

theorem enqueueRender_untouched (batch : RenderBatch PresentedScene)
    (accessibility : Bundle) (nowMs : Nat) :
    let s' := (s.enqueueRenderWithAccessibility batch accessibility nowMs).2
    s'.pendingEffects = s.pendingEffects ∧ s'.awaitingFlushRenders = s.awaitingFlushRenders ∧
      s'.awaitingFlushEffects = s.awaitingFlushEffects := by
  unfold enqueueRenderWithAccessibility
  simp only
  split
  · exact ⟨rfl, rfl, rfl⟩
  · split
    · exact ⟨rfl, rfl, rfl⟩
    · unfold acceptRender
      split
      · exact ⟨rfl, rfl, rfl⟩
      · exact ⟨rfl, rfl, rfl⟩

theorem effectsOf_filter {ts : List (ActiveTransaction PresentedScene Bundle)}
    {keep : ActiveTransaction PresentedScene Bundle → Bool}
    (h : ∀ t ∈ ts, keep t = false → t.completedEffects = []) : effectsOf (ts.filter keep) = effectsOf ts := by
  induction ts with
  | nil => rfl
  | cons t ts ih =>
    have hrest := ih fun u hu => h u (mem_cons_of_mem _ hu)
    show _ = t.completedEffects ++ effectsOf ts
    cases hkeep : keep t with
    | true =>
      rw [filter_cons_of_pos hkeep, ← hrest]
      rfl
    | false => rw [filter_cons_of_neg (by simp [hkeep]), hrest, h t mem_cons_self hkeep, nil_append]

theorem Admission.effects {s s' : OutputScheduler PresentedScene Bundle} (h : Admission s s')
    {accepted : List (AcceptedRender PresentedScene Bundle)} (hgenuine : ∀ t ∈ s.active, Genuine accepted t)
    (heffects : s'.pendingEffects = s.pendingEffects) :
    s'.begun = s.begun ∧ s'.waitingEffects = s.waitingEffects := by
  unfold begun waitingEffects
  rw [heffects]
  cases h with
  | joins noRender active bells => exact ⟨by rw [active], by rw [active]⟩
  | pending p replaced active bells => exact ⟨by rw [active], by rw [active]⟩
  | active before after t render noRender split unstarted kind replaced placeless bellsOnly later active bells =>
    have hcarries : ∀ u ∈ s.active, u.kind ≠ .effect → u.completedEffects = [] := by
      intro u hmem hkind
      refine eq_nil_iff_forall_not_mem.mpr fun effect heffect => ?_
      exact hkind ((hgenuine u hmem).carries heffect).1
    have hbells : effectsOf ((after.filter fun u => u.kind != .bell).filter fun u => u.offset = 0) =
        effectsOf (after.filter fun u => u.offset = 0) := by
      have hafter : ∀ u ∈ after, u ∈ s.active := fun u hmem => by
        rw [split]
        exact mem_append_right _ (mem_cons_of_mem _ hmem)
      rw [filter_comm]
      refine effectsOf_filter fun u hmem hbell => hcarries u (hafter u (mem_of_mem_filter hmem)) ?_
      simp only [bne_eq_false_iff_eq] at hbell
      simp [hbell]
    have ht := hcarries t (by rw [split]; simp) (by simp [kind])
    refine ⟨?_, ?_⟩
    · have hnone : ∀ keep : ActiveTransaction PresentedScene Bundle → Bool,
          (after.filter keep).filter (fun u => 0 < u.offset) = [] := fun keep =>
        filter_eq_nil_iff.mpr fun u hmem => by simp [later u (mem_of_mem_filter hmem)]
      have hafter : after.filter (fun u => 0 < u.offset) = [] :=
        filter_eq_nil_iff.mpr fun u hmem => by simp [later u hmem]
      rw [active, split, filter_append, filter_append, hnone, filter_cons_of_neg (by simp [unstarted]), hafter]
    · rw [active, split, filter_append, filter_append, effectsOf_append, effectsOf_append, hbells,
        filter_cons_of_pos (by simp [unstarted])]
      show _ = effectsOf _ ++ (t.completedEffects ++ effectsOf _) ++ _
      rw [ht]
      rfl

/-- **An accepted render waits alone**, and the effects are as they were. -/
theorem Rooted.renderOp (h : Rooted r) (hrunning : r.hung = false) (c : RenderCall Bundle)
    (haccepted : c.refused r = false) : Rooted (r.step c.renderOp) ∧ Undrained r (r.step c.renderOp) ∧
      (r.step c.renderOp).scheduler.waitingEffects = r.scheduler.waitingEffects ∧
      (∀ t ∈ (r.step c.renderOp).scheduler.active, t.offset = 0 → t.completedRender = none) ∧
      ∃ render, (r.step c.renderOp).scheduler.pendingRender = some render ∧ render.batch = c.scene.batch := by
  have haccepted : (r.scheduler.enqueueRenderWithAccessibility c.scene.batch c.accessibility c.renderMs).1 ≠
      .droppedForCapacity := by simpa [RenderCall.refused] using haccepted
  have hrooted : Rooted (r.step c.renderOp) :=
    h.step c.renderOp trivial fun effect hmem => absurd hmem not_mem_nil
  have hone := hrooted.inLine.oneRender
  have hconfig := Run.config_step r c.renderOp
  have hstep : r.step c.renderOp = r.enqueueRender c.scene.batch c.accessibility c.renderMs := by
    unfold Run.step
    rw [if_neg (by simp [hrunning])]
    rfl
  obtain ⟨hadmission, hstarted⟩ := h.inLine.admission c.scene.batch c.accessibility c.renderMs haccepted
  obtain ⟨heffects, hrenders, hawaiting⟩ :=
    enqueueRender_untouched r.scheduler c.scene.batch c.accessibility c.renderMs
  obtain ⟨hbegun, hwaiting⟩ := hadmission.effects h.genuine heffects
  refine ⟨hrooted, ?_⟩
  rw [hstep] at hone hconfig ⊢
  refine ⟨⟨rfl, rfl, hbegun, hrenders, hawaiting, hconfig⟩, hwaiting, fun t hmem hzero => ?_, ?_⟩
  · refine Option.not_isSome_iff_eq_none.mp fun hsome => ?_
    have hpos := hstarted t hmem ((hone.kind t hmem).mpr hsome)
    omega
  · obtain ⟨hdropped, -⟩ | ⟨-, haccepts⟩ :=
      r.scheduler.enqueueRender_cases c.scene.batch c.accessibility c.renderMs
    · exact absurd hdropped haccepted
    · obtain ⟨byteLen, hpending⟩ := haccepts.pending
      exact ⟨_, hpending, rfl⟩

end Calls

/-! ## Calls of `drain_ready` -/

/-- In a call: some of what was finished since `base` is reported, and the rest awaits a flush. -/
def Reporting (base : List (ActiveTransaction PresentedScene Bundle)) (d : Drain PresentedScene Bundle) : Prop :=
  ∃ reported unreported, d.finished = base ++ reported ++ unreported ∧
    effectsOf unreported = d.scheduler.awaitingFlushEffects ∧
    rendersOf unreported = d.scheduler.awaitingFlushRenders ∧
    d.report.completedEffects = effectsOf reported ∧
    d.report.completedRenders = (rendersOf reported).map TrackedRender.completed

section Reports

variable {base : List (ActiveTransaction PresentedScene Bundle)} {d d' : Drain PresentedScene Bundle}

theorem Move.reporting (hmove : Move d d') (h : Reporting base d) : Reporting base d' := by
  cases hmove with
  | wait waiting => exact h
  | block writer same => exact h
  | retry writer same => exact h
  | release startedMs lastActivityMs held => exact h
  | flush writer same => exact h
  | conclude => exact h
  | write t rest count writer front some fits same => exact h
  | activate =>
    obtain ⟨reported, unreported, hfinished, heffects, hrenders, hreport⟩ := h
    refine ⟨reported, unreported, hfinished, ?_, ?_, hreport⟩
    · rw [heffects]
      simp only [activatePending]
      split
      · rfl
      · rfl
    · rw [hrenders]
      simp only [activatePending]
      split
      · rfl
      · rfl
  | pop t rest front done =>
    obtain ⟨reported, unreported, hfinished, heffects, hrenders, hreport⟩ := h
    refine ⟨reported, unreported ++ [t], ?_, ?_, ?_, hreport⟩
    · simp only [Drain.finishFront, hfinished, append_assoc]
    · rw [effectsOf_append, heffects]
      simp [effectsOf, Drain.finishFront]
    · rw [rendersOf_append, hrenders, rendersOf_cons]
      simp [rendersOf, Drain.finishFront]
  | complete flushed =>
    obtain ⟨reported, unreported, hfinished, heffects, hrenders, hreportE, hreportR⟩ := h
    have hreport := (Drain.completeAwaiting_report d).2
    obtain ⟨release, bypass, report, heq, hcompleted⟩ := completeAwaiting_spec d
    rw [heq] at hreport ⊢
    refine ⟨reported ++ unreported, [], ?_, rfl, rfl, ?_, ?_⟩
    · simp only [hfinished, append_assoc, append_nil]
    · rw [hreport, hreportE, effectsOf_append, heffects]
    · rw [hcompleted, hreportR, rendersOf_append, map_append, hrenders]

theorem Moves.reporting (hmoves : Moves d d') (h : Reporting base d) : Reporting base d' := by
  induction hmoves with
  | refl => exact h
  | tail _ hmove ih => exact hmove.reporting ih

theorem shown_record (f : WideField) (presented : PresentedScene) (report : DrainReport PresentedScene Bundle) :
    f.shown (ScheduledApp.record presented report) = (toldIn f report.completedEffects).getLast?.getD
      ((report.completedRenders.map fun completed => f.shown completed.predicted).getLast?.getD
        (f.shown presented)) := by
  have hrenders : ∀ (renders : List (CompletedRender PresentedScene Bundle)) (presented : PresentedScene),
      f.shown (renders.foldl (fun _ completed => completed.predicted) presented) =
        (renders.map fun completed => f.shown completed.predicted).getLast?.getD (f.shown presented) := by
    intro renders
    induction renders with
    | nil => exact fun _ => rfl
    | cons render renders ih =>
      intro presented
      rw [foldl_cons, ih, map_cons, getLast?_cons]
      rfl
  have heffects : ∀ (effects : List ScheduledTerminalEffect) (presented : PresentedScene),
      f.shown (effects.foldl (fun scene effect => applyTerminalEffect scene effect.event) presented) =
        (toldIn f effects).getLast?.getD (f.shown presented) := by
    intro effects
    induction effects with
    | nil => exact fun _ => rfl
    | cons effect effects ih =>
      intro presented
      rw [foldl_cons, ih, WideField.shown, ofScene_applyTerminalEffect, toldIn, toldIn, filterMap_cons]
      cases f.told effect.event with
      | none => rfl
      | some value =>
        simp only [getLast?_cons]
        rfl
  rw [← hrenders, ← heffects]
  rfl

end Reports

/-! ## Runs of the application -/

namespace ScheduledApp

/-- All is honest, its last value is `last`, and the presented scene records what was reported last.
-/
structure Faithful (app : ScheduledApp Bundle) (last : WideField → String) : Prop where
  rooted : Rooted app.run
  honest : ∀ f, Honest "" (app.run.heard f)
  last : ∀ f, lastTold "" (app.run.heard f) = last f
  recorded : ∃ reported unreported, app.run.finished = reported ++ unreported ∧
    effectsOf unreported = app.run.scheduler.awaitingFlushEffects ∧
    rendersOf unreported = app.run.scheduler.awaitingFlushRenders ∧
    ∀ f, f.shown app.presentedScene = lastTold "" (entriesOf f reported)

variable (app : ScheduledApp Bundle)

def Admits : AppOp Bundle → Prop
  | .render c => AdmitsEffect c app.presentedScene .title app.run ∧
      AdmitsEffect c app.presentedScene .workingDirectory (app.titled c) ∧ c.refused (app.readied c) = false
  | _ => True

def Fits : AppOp Bundle → Prop
  | .render c => ∀ f, c.sends app.presentedScene f = true →
      (c.value f).utf8ByteSize ≤ app.run.scheduler.config.maximumPendingBytes - 16
  | _ => True

def newestUnsettled (f : WideField) : Option String :=
  (toldIn f (app.run.scheduler.awaitingFlushEffects ++ app.run.scheduler.effectLane)).getLast?

def Remembers : AppOp Bundle → Prop
  | .render c => ∀ f, c.sends app.presentedScene f = false →
      (app.newestUnsettled f).getD (c.value f) = c.value f
  | _ => True

def Peaceful : AppOp Bundle → Prop
  | .drain nowMs force => app.run.Peaceful (.drain nowMs force)
  | _ => True

def Along (holds : ScheduledApp Bundle → AppOp Bundle → Prop) :
    ScheduledApp Bundle → List (AppOp Bundle) → Prop
  | _, [] => True
  | app, op :: ops => holds app op ∧ Along holds (app.step op) ops

section Decisions

instance decidableAdmitsEffect (c : RenderCall Bundle) (presented : PresentedScene) (f : WideField)
    (r : Run PresentedScene Bundle) : Decidable (AdmitsEffect c presented f r) :=
  inferInstanceAs (Decidable (_ → _))

instance decidableAdmits (app : ScheduledApp Bundle) : (op : AppOp Bundle) → Decidable (app.Admits op)
  | .render _ => inferInstanceAs (Decidable (_ ∧ _ ∧ _))
  | .drain _ _ => .isTrue trivial
  | .notifyWritable => .isTrue trivial

instance decidableFits (app : ScheduledApp Bundle) : (op : AppOp Bundle) → Decidable (app.Fits op)
  | .render c => inferInstanceAs (Decidable (∀ f, c.sends app.presentedScene f = true → _))
  | .drain _ _ => .isTrue trivial
  | .notifyWritable => .isTrue trivial

instance decidableRemembers (app : ScheduledApp Bundle) : (op : AppOp Bundle) → Decidable (app.Remembers op)
  | .render c => inferInstanceAs (Decidable (∀ f, c.sends app.presentedScene f = false → _))
  | .drain _ _ => .isTrue trivial
  | .notifyWritable => .isTrue trivial

instance decidablePeaceful (app : ScheduledApp Bundle) : (op : AppOp Bundle) → Decidable (app.Peaceful op)
  | .drain nowMs force => inferInstanceAs (Decidable ((app.run.opened.drainReady nowMs force).outcome ≠ .failed))
  | .render _ => .isTrue trivial
  | .notifyWritable => .isTrue trivial

instance decidableAlong {holds : ScheduledApp Bundle → AppOp Bundle → Prop} [∀ app op, Decidable (holds app op)] :
    (app : ScheduledApp Bundle) → (ops : List (AppOp Bundle)) → Decidable (Along holds app ops)
  | _, [] => .isTrue trivial
  | app, op :: ops => @instDecidableAnd _ _ _ (decidableAlong (app.step op) ops)

end Decisions

section Steps

variable {app : ScheduledApp Bundle} {last : WideField → String}

section

variable (h : app.Faithful last)
include h

/-- **A value that is not sent was told last.** -/
theorem Faithful.unsent {c : RenderCall Bundle} {f : WideField}
    (hsends : c.sends app.presentedScene f = false)
    (hremembers : (app.newestUnsettled f).getD (c.value f) = c.value f) :
    c.value f = lastTold "" (app.run.heard f) := by
  obtain ⟨reported, unreported, hfinished, heffects, -, hrecorded⟩ := h.recorded
  have htolds : tolds (app.run.heard f) = toldIn f (effectsOf reported) ++
      toldIn f (app.run.scheduler.awaitingFlushEffects ++ app.run.scheduler.effectLane) := by
    have heard : tolds (app.run.heard f) =
        toldIn f (effectsOf (app.run.finished ++ app.run.scheduler.active ++ app.run.scheduler.activations)) :=
      tolds_entriesOf f _
    rw [heard, effectsOf_append, effectsOf_append, effectsOf_activations, hfinished, effectsOf_append, heffects,
      effectLane]
    simp only [toldIn_append, append_assoc]
  rw [lastTold, htolds, getLast?_append]
  cases hnewest : app.newestUnsettled f with
  | some value =>
    rw [hnewest] at hremembers
    unfold newestUnsettled at hnewest
    rw [hnewest]
    exact hremembers.symm
  | none =>
    unfold newestUnsettled at hnewest
    rw [hnewest, ← tolds_entriesOf]
    have hsame : f.ofEffects c.scene.effects = f.ofScene app.presentedScene := by
      simp only [RenderCall.sends, Bool.or_eq_false_iff, bne_eq_false_iff_eq] at hsends
      exact hsends.2
    have hrecorded := hrecorded f
    rw [WideField.shown, ← hsame] at hrecorded
    exact hrecorded

theorem Faithful.announced (hrunning : app.run.hung = false) {c : RenderCall Bundle}
    (hadmits : app.Admits (.render c)) (hfits : app.Fits (.render c)) :
    Rooted (app.announced c) ∧ Undrained app.run (app.announced c) ∧
      ∀ f, toldIn f (app.announced c).scheduler.waitingEffects =
        if c.sends app.presentedScene f then [c.value f] else toldIn f app.run.scheduler.waitingEffects := by
  obtain ⟨hadmitsTitle, hadmitsDirectory, -⟩ := hadmits
  obtain ⟨htitled, htitle, hvalue, hother⟩ :=
    h.rooted.effectOps hrunning c app.presentedScene .title hadmitsTitle (hfits .title)
  obtain ⟨hannounced, hdirectory, hvalue', hother'⟩ := htitled.effectOps (htitle.hung.trans hrunning) c
    app.presentedScene .workingDirectory hadmitsDirectory (by rw [htitle.config]; exact hfits .workingDirectory)
  refine ⟨hannounced, htitle.trans hdirectory, fun f => ?_⟩
  cases f with
  | title => exact (hother' .title (by decide)).trans hvalue
  | workingDirectory =>
    refine hvalue'.trans ?_
    split
    · rfl
    · exact hother .workingDirectory (by decide)

theorem Faithful.renderPreparedScene (hrunning : app.run.hung = false)
    {c : RenderCall Bundle} (hadmits : app.Admits (.render c)) (hfits : app.Fits (.render c))
    (hremembers : app.Remembers (.render c)) : (app.renderPreparedScene c).Faithful c.value := by
  have haccepted := hadmits.2.2
  obtain ⟨hannounced, hundrained₁, hvalues⟩ := h.announced hrunning hadmits hfits
  have hrunning₁ := hundrained₁.hung.trans hrunning
  obtain ⟨hreadied, hundrained₂, hwaiting₂⟩ : Rooted (app.readied c) ∧
      Undrained (app.announced c) (app.readied c) ∧
      (app.readied c).scheduler.waitingEffects = (app.announced c).scheduler.waitingEffects :=
    hannounced.synchronizationOps hrunning₁ c
  have hrunning₂ := hundrained₂.hung.trans hrunning₁
  obtain ⟨hrendered, hundrained₃, hwaiting₃, hstarted, render, hpending, hbatch⟩ :=
    hreadied.renderOp hrunning₂ c haccepted
  obtain ⟨hrooted, hundrained₄, huntouched⟩ := hrendered.bellOp (hundrained₃.hung.trans hrunning₂) c
  have hundrained := ((hundrained₁.trans hundrained₂).trans hundrained₃).trans hundrained₄
  have hrun : (app.renderPreparedScene c).run = ((app.readied c).step c.renderOp).step c.bellOp := by
    show (if c.refused (app.readied c) then _ else _) = _
    rw [haccepted]
    rfl
  have hwaiting : ∀ f, toldIn f (app.renderPreparedScene c).run.scheduler.waitingEffects =
      if c.sends app.presentedScene f then [c.value f] else toldIn f app.run.scheduler.waitingEffects := by
    intro f
    rw [hrun, huntouched.waitingEffects, hwaiting₃, hwaiting₂]
    exact hvalues f
  have hheard : ∀ f, (app.renderPreparedScene c).run.heard f = app.run.settled f ++
      (toldIn f (app.renderPreparedScene c).run.scheduler.waitingEffects).map .told ++ [.shown (c.value f)] := by
    intro f
    have hvalue : f.shown render.batch.predicted = c.value f := by
      rw [hbatch, WideField.shown, c.scene.predicts f]
      rfl
    have hpending := heard_pending f hrooted.inLine.behind
      (fun t hmem => hstarted t (huntouched.active ▸ hmem)) (huntouched.pendingRender.trans hpending)
    rw [hrun, ← hvalue, ← hundrained.settled f]
    exact hpending
  have hvoiced : ∀ f, Honest "" ((app.renderPreparedScene c).run.heard f) ∧
      lastTold "" ((app.renderPreparedScene c).run.heard f) = c.value f := by
    intro f
    obtain ⟨hfront, htolds⟩ := tolds_heard f h.rooted.inLine.behind
    rw [hheard, hwaiting]
    cases hsends : c.sends app.presentedScene f with
    | true => exact (h.honest f).tells hfront
    | false => exact (h.honest f).shows hfront htolds (h.unsent hsends (hremembers f hsends))
  refine ⟨hrun ▸ hrooted, fun f => (hvoiced f).1, fun f => (hvoiced f).2, ?_⟩
  obtain ⟨reported, unreported, hfinished, heffects, hrenders, hrecorded⟩ := h.recorded
  refine ⟨reported, unreported, ?_, ?_, ?_, hrecorded⟩
  · rw [hrun]
    exact hundrained.finished.trans hfinished
  · rw [hrun]
    exact heffects.trans hundrained.awaitingEffects.symm
  · rw [hrun]
    exact hrenders.trans hundrained.awaitingRenders.symm

theorem Faithful.drainScheduledOutput (hrunning : app.run.hung = false) (nowMs : Nat)
    (force : Bool) (hpeaceful : app.run.Peaceful (.drain nowMs force))
    (hreturned : (app.drainScheduledOutput nowMs force).run.hung = false) :
    (app.drainScheduledOutput nowMs force).Faithful last := by
  have hrooted := h.rooted.step (.drain nowMs force) hpeaceful fun effect hmem => absurd hmem not_mem_nil
  have hstep : app.run.step (.drain nowMs force) = app.run.close (app.run.opened.drainReady nowMs force) := by
    unfold Run.step
    rw [if_neg (by simp [hrunning])]
  obtain ⟨houtcome, hmoves⟩ | ⟨hfailed, -⟩ := Drain.drainReady_follows app.run.opened nowMs force
  · have houtcome : (app.run.opened.drainReady nowMs force).outcome = .returned := by
      have hnot : (app.run.step (.drain nowMs force)).hung = false := hreturned
      rw [hstep] at hnot
      cases hcall : (app.run.opened.drainReady nowMs force).outcome with
      | returned => rfl
      | failed => exact absurd hcall houtcome
      | starved => simp [Run.close, hcall] at hnot
    have hheard : ∀ f, (app.run.step (.drain nowMs force)).heard f = app.run.heard f := by
      intro f
      rw [hstep]
      exact hmoves.seen_eq (entries f) fun _ _ => rfl
    refine ⟨hrooted, fun f => (hheard f).symm ▸ h.honest f, fun f => (hheard f).symm ▸ h.last f, ?_⟩
    obtain ⟨base, unreported, hfinished, heffects, hrenders, hrecorded⟩ := h.recorded
    have hstart : Reporting base app.run.opened :=
      ⟨[], unreported, by rw [append_nil]; exact hfinished, heffects, hrenders, rfl, rfl⟩
    obtain ⟨reported, unreported', hfinished', heffects', hrenders', hreportE, hreportR⟩ :=
      hmoves.reporting hstart
    refine ⟨base ++ reported, unreported', ?_, ?_, ?_, fun f => ?_⟩
    · show (app.run.step (.drain nowMs force)).finished = _
      rw [hstep]
      exact hfinished'
    · show _ = (app.run.step (.drain nowMs force)).scheduler.awaitingFlushEffects
      rw [hstep]
      exact heffects'
    · show _ = (app.run.step (.drain nowMs force)).scheduler.awaitingFlushRenders
      rw [hstep]
      exact hrenders'
    · have hhonest : Honest (f.shown app.presentedScene) (entriesOf f reported) := by
        have hall : Honest "" (entriesOf f ((app.run.opened.drainReady nowMs force).drain.finished ++
            (app.run.opened.drainReady nowMs force).drain.scheduler.active ++
            (app.run.opened.drainReady nowMs force).drain.scheduler.activations)) := by
          have hhonest := h.honest f
          rw [← hheard f, hstep] at hhonest
          exact hhonest
        simp only [hfinished', entriesOf_append, append_assoc] at hall
        rw [honest_append, honest_append, ← hrecorded f] at hall
        exact hall.2.1
      have hpresented : (app.drainScheduledOutput nowMs force).presentedScene =
          record app.presentedScene (app.run.opened.drainReady nowMs force).drain.report :=
        if_pos ⟨hrunning, houtcome⟩
      rw [hpresented, shown_record, hreportE, hreportR, ← tolds_entriesOf, map_map, entriesOf_append,
        lastTold_append, ← hrecorded f, ← hhonest.heard, showns_entriesOf]
      rfl
  · exact absurd hfailed hpeaceful

end

theorem hung_step (h : app.run.hung = true) (op : AppOp Bundle) : (app.step op).run.hung = true := by
  have hops : ∀ ops, app.run.runOps ops = app.run := fun ops => runOps_hung h ops
  cases op with
  | render c =>
    have hready : app.readied c = app.run := by
      unfold readied announced titled
      rw [hops, hops, hops]
    show (if c.refused (app.readied c) then _ else _ : Run PresentedScene Bundle).hung = true
    rw [hready, step_hung h, step_hung h, ite_self]
    exact h
  | drain nowMs force =>
    show (app.run.step _).hung = true
    rwa [step_hung h]
  | notifyWritable =>
    show (app.run.step _).hung = true
    rwa [step_hung h]

def shows (f : WideField) (last : String) : AppOp Bundle → String
  | .render c => c.value f
  | _ => last

/-- **One step keeps faith.** -/
theorem Faithful.step (h : app.Faithful last) {op : AppOp Bundle} (hpeaceful : app.Peaceful op)
    (hadmits : app.Admits op) (hfits : app.Fits op) (hremembers : app.Remembers op) :
    (app.step op).run.hung = true ∨ (app.step op).Faithful fun f => shows f (last f) op := by
  cases hrunning : app.run.hung with
  | true => exact .inl (hung_step hrunning op)
  | false =>
    cases op with
    | render c => exact .inr (h.renderPreparedScene hrunning hadmits hfits hremembers)
    | drain nowMs force =>
      cases hhung : (app.drainScheduledOutput nowMs force).run.hung with
      | true => exact .inl hhung
      | false => exact .inr (h.drainScheduledOutput hrunning nowMs force hpeaceful hhung)
    | notifyWritable =>
      have hstep : (app.step .notifyWritable).run =
          { app.run with scheduler := app.run.scheduler.notifyWritable } := step_command hrunning .notifyWritable
      refine .inr ⟨?_, ?_, ?_, ?_⟩
      · exact h.rooted.command (c := .notifyWritable) (by simp) rfl
      · intro f
        rw [hstep]
        exact h.honest f
      · intro f
        rw [hstep]
        exact h.last f
      · rw [hstep]
        exact h.recorded

end Steps

def lastRendered (f : WideField) (ops : List (AppOp Bundle)) : String := ops.foldl (shows f) ""

theorem faithful_start (config : OutputSchedulerConfig) (supported : Bool) (writes : List WriteResponse)
    (flushes : List FlushResponse) (geometry : TerminalGeometry)
    (hmaximum : config.maximumPendingBytes < 2 ^ 64) :
    (start config supported writes flushes geometry : ScheduledApp Bundle).Faithful fun _ => "" where
  rooted := ⟨inLine_start config supported writes flushes hmaximum, fun effect hmem => absurd hmem not_mem_nil⟩
  honest _ := trivial
  last _ := rfl
  recorded := ⟨[], [], rfl, rfl, rfl, fun f => by
    cases f with
    | title => rfl
    | workingDirectory => rfl⟩

variable {app : ScheduledApp Bundle}

theorem Faithful.runOps {last : WideField → String} {ops : List (AppOp Bundle)}
    (h : app.run.hung = true ∨ app.Faithful last) (hpeaceful : Along Peaceful app ops)
    (hadmits : Along Admits app ops) (hfits : Along Fits app ops) (hremembers : Along Remembers app ops) :
    (app.runOps ops).run.hung = true ∨ (app.runOps ops).Faithful fun f => ops.foldl (shows f) (last f) := by
  induction ops generalizing app last with
  | nil => exact h
  | cons op ops ih =>
    have hstep : (app.step op).run.hung = true ∨ (app.step op).Faithful fun f => shows f (last f) op := by
      obtain hhung | h := h
      · exact .inl (hung_step hhung op)
      · exact h.step hpeaceful.1 hadmits.1 hfits.1 hremembers.1
    exact ih hstep hpeaceful.2 hadmits.2 hfits.2 hremembers.2

def lastWritten (f : WideField) (finished : List (ActiveTransaction PresentedScene Bundle)) : String :=
  (toldIn f (effectsOf finished)).getLast?.getD ""

def Quiet (app : ScheduledApp Bundle) : Prop :=
  app.run.hung = false ∧ app.run.scheduler.hasWork = false ∧ app.run.scheduler.flushRequired = false ∧
    app.run.scheduler.awaitingFlushRenders = [] ∧ app.run.scheduler.awaitingFlushEffects = []

instance decidableQuiet (app : ScheduledApp Bundle) : Decidable app.Quiet :=
  inferInstanceAs (Decidable (_ ∧ _ ∧ _ ∧ _ ∧ _))

theorem unfailed_step (h : .failed ∉ app.run.writer.events) {op : AppOp Bundle}
    (hpeaceful : app.Peaceful op) : .failed ∉ (app.step op).run.writer.events := by
  have hcommand : ∀ {r : Run PresentedScene Bundle} (c : Command), .failed ∉ r.writer.events →
      .failed ∉ (r.step (.command c)).writer.events := by
    intro r c h
    unfold Run.step
    split
    · exact h
    · exact h
  have heffects : ∀ {r : Run PresentedScene Bundle} (c : RenderCall Bundle) (f : WideField),
      .failed ∉ r.writer.events → .failed ∉ (r.runOps (c.effectOps app.presentedScene f)).writer.events := by
    intro r c f h
    unfold RenderCall.effectOps
    split
    · exact hcommand _ h
    · exact h
  cases op with
  | render c =>
    have hready : .failed ∉ (app.readied c).writer.events :=
      hcommand _ (hcommand _ (heffects c .workingDirectory (heffects c .title h)))
    have hrendered : .failed ∉ ((app.readied c).step c.renderOp).writer.events :=
      Run.unfailed_step hready trivial
    show .failed ∉ (if c.refused (app.readied c) then _ else _ : Run PresentedScene Bundle).writer.events
    split
    · exact hrendered
    · exact hcommand _ hrendered
  | drain nowMs force => exact Run.unfailed_step h hpeaceful
  | notifyWritable => exact hcommand _ h

theorem unfailed_runOps {ops : List (AppOp Bundle)} (h : .failed ∉ app.run.writer.events)
    (hpeaceful : Along Peaceful app ops) : .failed ∉ (app.runOps ops).run.writer.events := by
  induction ops generalizing app with
  | nil => exact h
  | cons op ops ih => exact ih (unfailed_step h hpeaceful.1) hpeaceful.2

theorem Faithful.quiet {last : WideField → String} (h : app.Faithful last) (hquiet : app.Quiet)
    (f : WideField) : lastWritten f app.run.finished = last f ∧ f.shown app.presentedScene = last f := by
  obtain ⟨-, hwork, -, -, hawaiting⟩ := hquiet
  simp only [hasWork, Bool.or_eq_false_iff, Bool.not_eq_false', List.isEmpty_iff] at hwork
  obtain ⟨⟨⟨⟨hactive, -⟩, -⟩, hpending⟩, -⟩ := hwork
  have hwritten : lastWritten f app.run.finished = last f := by
    have htolds : tolds (app.run.heard f) = toldIn f (effectsOf app.run.finished) := by
      have heard : tolds (app.run.heard f) = toldIn f (effectsOf
          (app.run.finished ++ app.run.scheduler.active ++ app.run.scheduler.activations)) := tolds_entriesOf f _
      rw [heard, effectsOf_append, effectsOf_activations, hactive, hpending, append_nil, append_nil]
    rw [← h.last f, lastTold, htolds, lastWritten]
  refine ⟨hwritten, ?_⟩
  obtain ⟨reported, unreported, hfinished, heffects, -, hrecorded⟩ := h.recorded
  rw [hrecorded f, ← hwritten, lastTold, tolds_entriesOf, lastWritten, hfinished, effectsOf_append, heffects,
    hawaiting, append_nil]

/-- **The newest value wins.** In a run without a fatal error and a refusal, in which a value is left unsent
only where no other is on its way, a quiet state has written the title and the directory of the last scene. -/
theorem newest_value_wins (config : OutputSchedulerConfig) (supported : Bool) (writes : List WriteResponse)
    (flushes : List FlushResponse) (geometry : TerminalGeometry) (ops : List (AppOp Bundle))
    (hmaximum : config.maximumPendingBytes < 2 ^ 64)
    (hpeaceful : Along Peaceful (start config supported writes flushes geometry) ops)
    (hadmits : Along Admits (start config supported writes flushes geometry) ops)
    (hfits : Along Fits (start config supported writes flushes geometry) ops)
    (hremembers : Along Remembers (start config supported writes flushes geometry) ops) :
    let app : ScheduledApp Bundle := (start config supported writes flushes geometry).runOps ops
    app.Quiet → (∀ f, lastWritten f app.run.finished = lastRendered f ops ∧
        f.shown app.presentedScene = lastRendered f ops) ∧
      acceptedBytes app.run.writer.events = app.run.finished.flatMap ActiveTransaction.bytes ∧
      ∀ t ∈ app.run.finished, ∀ effect ∈ t.completedEffects, t.bytes = encodeTerminalEffect effect.event := by
  intro app hquiet
  have hfaithful : app.Faithful fun f => lastRendered f ops := by
    obtain hhung | hfaithful := Faithful.runOps
      (.inr (faithful_start config supported writes flushes geometry hmaximum)) hpeaceful hadmits hfits hremembers
    · have hrunning : app.run.hung = false := hquiet.1
      exact absurd hhung (by rw [hrunning]; exact Bool.false_ne_true)
    · exact hfaithful
  have hserial := hfaithful.rooted.inLine.serial (unfailed_runOps not_mem_nil hpeaceful)
  refine ⟨hfaithful.quiet hquiet, ?_, fun t ht effect hmem => ?_⟩
  · have hactive : app.run.scheduler.active = [] := by
      have hwork := hquiet.2.1
      simp only [hasWork, Bool.or_eq_false_iff, Bool.not_eq_false', List.isEmpty_iff] at hwork
      exact hwork.1.1.1.1
    have hwritten := hserial.output_eq
    rw [hactive] at hwritten
    exact hwritten.trans (append_nil _)
  · have hgenuine := hfaithful.rooted.inLine.sound.genuine t (mem_append_left _ ht)
    obtain ⟨hkind, hcarried⟩ := hgenuine.carries hmem
    rw [Genuine, hkind] at hgenuine
    obtain ⟨-, carried, hsame, hbytes⟩ := hgenuine
    rw [hcarried, cons.injEq] at hsame
    rw [hbytes, hsame.1]

def titledCall (title : Option String) : RenderCall Nat where
  scene :=
    { effects := ⟨title, none, 0⟩
      batch := ⟨[⟨ascii "new"⟩], { PresentedScene.blank ⟨1, 1, 0, 0⟩ with title := title }⟩
      predicts := fun f => by
        cases f with
        | title => rfl
        | workingDirectory => rfl }
  accessibility := 0
  bellCount := 0
  opened := false
  activity := false
  compositorTransition := false
  overlayVisible := false
  presentedSynchronized := false
  effectMs := fun _ => 0
  observedMs := 0
  renderMs := 0
  bellMs := 0

def titledStart : ScheduledApp Nat :=
  start .default false [.accepted 7, .accepted 3, .accepted 7, .accepted 3] [.flushed, .flushed] ⟨1, 1, 0, 0⟩

def steadyOps : List (AppOp Nat) :=
  [.render (titledCall (some "a")), .drain 0 false, .render (titledCall (some "b")), .drain 0 false]

theorem newest_value_wins_steady : lastWritten .title (titledStart.runOps steadyOps).run.finished = "b" ∧
      WideField.shown .title (titledStart.runOps steadyOps).presentedScene = "b" := by
  obtain ⟨hvalues, -⟩ := newest_value_wins .default false
    [.accepted 7, .accepted 3, .accepted 7, .accepted 3] [.flushed, .flushed] ⟨1, 1, 0, 0⟩ steadyOps (by decide)
    (by decide +kernel) (by decide +kernel) (by decide +kernel) (by decide +kernel) (by decide +kernel)
  exact hvalues .title

def revertingOps : List (AppOp Nat) :=
  [.render (titledCall (some "a")), .render (titledCall none), .drain 0 false]

/-- The newer scene has the presented title, so nothing is sent, and the older title is written. -/
theorem reverted_title_stays :
    Along Peaceful titledStart revertingOps ∧ Along Admits titledStart revertingOps ∧
      Along Fits titledStart revertingOps ∧ (titledStart.runOps revertingOps).Quiet ∧
      lastRendered .title revertingOps = "" ∧
      lastWritten .title (titledStart.runOps revertingOps).run.finished = "a" ∧
      (titledStart.runOps revertingOps).presentedScene.title = some "a" := by
  decide +kernel

end ScheduledApp

end Lector.Output
