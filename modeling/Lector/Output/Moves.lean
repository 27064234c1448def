import Lector.Output.Drain

/-! What `drain_ready` can do, said once: every call is a sequence of moves, and a fatal error can
only come last. -/
namespace Lector.Output
open Loop Phase

variable {Scene Bundle : Type} [SceneGeometry Scene]

/-- One thing a call does to the scheduler, the report and the writer. -/
inductive Move : Drain Scene Bundle → Drain Scene Bundle → Prop
  | wait (d : Drain Scene Bundle) (waiting : Bool) : Move d (d.setWaiting waiting)
  | block (d : Drain Scene Bundle) (writer : Writer) (same : writer.events = d.writer.events) :
      Move d (d.block writer)
  | retry (d : Drain Scene Bundle) (writer : Writer) (same : writer.events = d.writer.events) :
      Move d { d with writer := writer }
  | release (d : Drain Scene Bundle) (startedMs lastActivityMs : Nat)
      (held : d.scheduler.applicationSynchronization = some (.active startedMs lastActivityMs)) :
      Move d d.releaseHold
  | activate (d : Drain Scene Bundle) : Move d { d with scheduler := d.scheduler.activatePending }
  | write (d : Drain Scene Bundle) (t : ActiveTransaction Scene Bundle)
      (rest : List (ActiveTransaction Scene Bundle)) (count : Nat) (writer : Writer)
      (front : d.scheduler.active = t :: rest) (some : 0 < count)
      (fits : count ≤ t.remaining.length) (same : writer.events = d.writer.events) :
      Move d (d.advanceFront t rest count writer)
  | pop (d : Drain Scene Bundle) (t : ActiveTransaction Scene Bundle)
      (rest : List (ActiveTransaction Scene Bundle)) (front : d.scheduler.active = t :: rest)
      (done : t.remaining = []) : Move d (d.finishFront t rest)
  | flush (d : Drain Scene Bundle) (writer : Writer) (same : writer.events = d.writer.events) :
      Move d (d.flush writer)
  | complete (d : Drain Scene Bundle) (flushed : d.scheduler.flushRequired = false) :
      Move d d.completeAwaiting
  | conclude (d : Drain Scene Bundle) : Move d d.conclude

abbrev Moves : Drain Scene Bundle → Drain Scene Bundle → Prop := Relation.ReflTransGen Move

/-- `d'` is `d` after a fatal error of the writer. -/
def FailsTo (d d' : Drain Scene Bundle) : Prop :=
  ∃ writer : Writer, writer.events = d.writer.events ∧ d' = d.fail writer

omit [SceneGeometry Scene] in
theorem failsTo_fail {d : Drain Scene Bundle} (writer : Writer)
    (same : writer.events = d.writer.events) : FailsTo d (d.fail writer) := ⟨writer, same, rfl⟩

/-- `P` while the call goes on, `F` after a fatal error; a write may count on `guard`. -/
structure Kept (guard : ActiveTransaction Scene Bundle → Prop) (P F : Drain Scene Bundle → Prop) : Prop where
  block (d : Drain Scene Bundle) (writer : Writer) (h : P d)
    (same : writer.events = d.writer.events) : P (d.block writer)
  retry (d : Drain Scene Bundle) (writer : Writer) (h : P d)
    (same : writer.events = d.writer.events) : P { d with writer := writer }
  write (d : Drain Scene Bundle) (t : ActiveTransaction Scene Bundle)
    (rest : List (ActiveTransaction Scene Bundle)) (count : Nat) (writer : Writer) (h : P d)
    (front : d.scheduler.active = t :: rest) (allowed : guard t) (some : 0 < count)
    (fits : count ≤ t.remaining.length) (same : writer.events = d.writer.events) :
    P (d.advanceFront t rest count writer)
  pop (d : Drain Scene Bundle) (t : ActiveTransaction Scene Bundle)
    (rest : List (ActiveTransaction Scene Bundle)) (h : P d)
    (front : d.scheduler.active = t :: rest) (done : t.remaining = []) : P (d.finishFront t rest)
  flush (d : Drain Scene Bundle) (writer : Writer) (h : P d)
    (same : writer.events = d.writer.events) : P (d.flush writer)
  complete (d : Drain Scene Bundle) (h : P d) (flushed : d.scheduler.flushRequired = false) :
    P d.completeAwaiting
  fail (d : Drain Scene Bundle) (writer : Writer) (h : P d)
    (same : writer.events = d.writer.events) : F (d.fail writer)

namespace Phase

variable {α β : Type} {d₀ : Drain Scene Bundle}

def outcome : Phase Scene Bundle α → Outcome
  | next _ _ => .returned
  | stop outcome _ => outcome

def Ensures (P F : Drain Scene Bundle → Prop) (p : Phase Scene Bundle α) : Prop :=
  (p.outcome ≠ .failed ∧ P p.drain) ∨ (p.outcome = .failed ∧ F p.drain)

section Ensures

omit [SceneGeometry Scene]

variable {P F : Drain Scene Bundle → Prop} {d : Drain Scene Bundle}

theorem ensures_next {a : α} (h : P d) : Ensures P F (next d a) := .inl ⟨by simp [outcome], h⟩

theorem ensures_returned (h : P d) : Ensures P F (stop .returned d : Phase Scene Bundle α) :=
  .inl ⟨by simp [outcome], h⟩

theorem ensures_starved (h : P d) : Ensures P F (stop .starved d : Phase Scene Bundle α) :=
  .inl ⟨by simp [outcome], h⟩

theorem ensures_failed (h : F d) : Ensures P F (stop .failed d : Phase Scene Bundle α) := .inr ⟨rfl, h⟩

theorem Ensures.andThen {p : Phase Scene Bundle α} {f : Drain Scene Bundle → α → Phase Scene Bundle β}
    (hp : Ensures P F p) (hf : ∀ d a, p = next d a → P d → Ensures P F (f d a)) :
    Ensures P F (p.andThen f) := by
  cases p with
  | next d a =>
    obtain ⟨-, h⟩ | ⟨hfailed, -⟩ := hp
    · exact hf d a rfl h
    · cases hfailed
  | stop outcome d => exact hp

end Ensures

/-- The phase is reached by moves from `d₀`, and failing is its last step. -/
def Follows (d₀ : Drain Scene Bundle) (p : Phase Scene Bundle α) : Prop :=
  (p.outcome ≠ .failed ∧ Moves d₀ p.drain) ∨ (p.outcome = .failed ∧ ∃ d, Moves d₀ d ∧ FailsTo d p.drain)

end Phase

namespace Drain

variable {P F : Drain Scene Bundle → Prop} {guard : ActiveTransaction Scene Bundle → Prop}
  {d₀ d : Drain Scene Bundle}

/-! ## Flushing -/

theorem flushWriter_ensures (hkept : Kept guard P F) (h : P d) : d.flushWriter.Ensures P F := by
  refine run_rule (P := P) flushBody (fun d h => ?_) d h
  show (flushRound d).elim P (Phase.Ensures P F)
  unfold flushRound
  split
  · exact ensures_starved h
  · rename_i answer flushes _
    cases answer with
    | flushed =>
      have hflushed := hkept.flush d { d.writer with flushes := flushes } h rfl
      exact ensures_next (hkept.complete _ hflushed rfl)
    | interrupted => exact hkept.retry d _ h rfl
    | wouldBlock => exact ensures_returned (hkept.block d _ h rfl)
    | failed => exact ensures_failed (hkept.fail d _ h rfl)

theorem flushIfRequired_ensures (hkept : Kept guard P F) (h : P d) : d.flushIfRequired.Ensures P F := by
  unfold flushIfRequired
  split
  · exact flushWriter_ensures hkept h
  · exact ensures_next h

/-! ## Writing -/

theorem writeFront_ensures {budget : Nat} {t : ActiveTransaction Scene Bundle}
    {rest : List (ActiveTransaction Scene Bundle)} (hkept : Kept guard P F) (h : P d)
    (hfront : d.scheduler.active = t :: rest) (hguard : guard t) :
    (d.writeFront budget t rest).elim P (Phase.Ensures P F) := by
  unfold writeFront
  split
  · exact ensures_starved h
  · rename_i answer writes _
    cases answer with
    | accepted count =>
      dsimp only
      split
      · exact ensures_failed (hkept.fail d _ h rfl)
      · rename_i hcount
        exact hkept.write d t rest _ _ h hfront hguard (pos_of_ne_zero hcount) (by omega) rfl
    | interrupted => exact hkept.retry d _ h rfl
    | wouldBlock => exact ensures_returned (hkept.block d _ h rfl)
    | failed => exact ensures_failed (hkept.fail d _ h rfl)

theorem writeLoop_ensures (budget : Nat) (finishOnly : Bool) (hkept : Kept guard P F)
    (hguard : ∀ t, (finishOnly = true → 0 < t.offset) → guard t) (h : P d) :
    (Loop.run (writeBody budget finishOnly) d).Ensures P F := by
  refine run_rule (P := P) _ (fun d h => ?_) d h
  show (writeRound budget finishOnly d).elim P (Phase.Ensures P F)
  unfold writeRound
  split
  · exact ensures_next h
  · split
    · exact ensures_next h
    · rename_i t rest hactive
      split
      · exact ensures_next h
      · rename_i hallowed
        have hstarted : finishOnly = true → 0 < t.offset :=
          fun honly => pos_of_ne_zero fun hzero => hallowed ⟨honly, hzero⟩
        split
        · rename_i hdone
          split
          · exact ensures_next (hkept.pop d t rest h hactive hdone)
          · exact hkept.pop d t rest h hactive hdone
        · exact writeFront_ensures hkept h hactive (hguard t hstarted)

theorem popLoop_keeps (reached : Bool) (hkept : Kept guard P F) (h : P d) :
    P (Loop.run popBody (d, reached)) := by
  refine run_rule (P := fun p => P p.1) popBody (fun p h => ?_) (d, reached) h
  show (popRound p).elim (fun p => P p.1) P
  unfold popRound
  split
  · exact h
  · split
    · exact h
    · rename_i t rest hactive
      split
      · rename_i hdone
        exact hkept.pop p.1 t rest h hactive hdone
      · exact h

theorem completeIfFlushed_keeps (hkept : Kept guard P F) (h : P d) : P d.completeIfFlushed := by
  unfold completeIfFlushed
  split
  · exact h
  · rename_i hflush
    exact hkept.complete d h (eq_false_of_ne_true hflush)

theorem writeActive_ensures (finishOnly : Bool) (hkept : Kept guard P F)
    (hguard : ∀ t, (finishOnly = true → 0 < t.offset) → guard t) (hconclude : ∀ d, P d → P d.conclude)
    (h : P { d with scheduler := d.scheduler.activatePending }) :
    (d.writeActive finishOnly).Ensures P F := by
  apply (writeLoop_ensures _ finishOnly hkept hguard h).andThen
  intro written reached _ hwritten
  apply (flushIfRequired_ensures hkept (popLoop_keeps reached hkept hwritten)).andThen
  intro flushed _ _ hflushed
  exact ensures_next (hconclude _ (completeIfFlushed_keeps hkept hflushed))

/-! ## The call -/

theorem moves_kept : Kept (fun _ => True) (Moves d₀) (fun d' => ∃ d, Moves d₀ d ∧ FailsTo d d') where
  block d writer h same := h.tail (.block d writer same)
  retry d writer h same := h.tail (.retry d writer same)
  write d t rest count writer h front _ some fits same :=
    h.tail (.write d t rest count writer front some fits same)
  pop d t rest h front done := h.tail (.pop d t rest front done)
  flush d writer h same := h.tail (.flush d writer same)
  complete d h flushed := h.tail (.complete d flushed)
  fail d writer h same := ⟨d, h, failsTo_fail writer same⟩

theorem holdOutput_ensures (nowMs : Nat) (force : Bool) (h : Moves d₀ d) :
    (d.holdOutput nowMs force).Ensures (Moves d₀) F := by
  unfold holdOutput
  split
  · rename_i startedMs lastActivityMs hheld
    simp only
    split
    · exact ensures_next (h.tail (.release d _ _ hheld))
    · split
      · exact ensures_next h
      · split
        · exact ensures_next h
        · exact ensures_returned h
  · exact ensures_next h

/-- **Every call of `drain_ready` is a sequence of moves, ended by a fatal error or not.** -/
theorem drainReady_follows (d : Drain Scene Bundle) (nowMs : Nat) (force : Bool) :
    (d.drainReady nowMs force).Follows d := by
  show Phase.Ensures (Moves d) (fun d' => ∃ d₁, Moves d d₁ ∧ FailsTo d₁ d') _
  have hstart : Moves d d := Relation.ReflTransGen.refl
  unfold drainReady
  split
  · exact ensures_returned hstart
  · split
    · exact ensures_returned hstart
    · apply (flushIfRequired_ensures moves_kept (hstart.tail (.wait d _))).andThen
      intro flushed _ _ hflushed
      apply (holdOutput_ensures nowMs force hflushed).andThen
      intro held finishOnly _ hheld
      split
      · exact ensures_returned hheld
      · exact writeActive_ensures finishOnly moves_kept (fun _ _ => trivial)
          (fun d h => h.tail (.conclude d)) (hheld.tail (.activate _))

end Drain

end Lector.Output
