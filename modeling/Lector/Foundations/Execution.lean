import Mathlib.Data.List.Basic
import Mathlib.Logic.Relation

/-! Runs: of a step that may be undefined, of a loop, along a labelled relation, of a machine fed one item at a time,
and what is said of every entry of a log. -/

/-! Runs of a step that may be undefined: a run is defined when all its steps are, and what every step
keeps, every run keeps. -/
namespace Lector.PartialRun

variable {σ ε : Type} (step : σ → ε → Option σ)

def run (s : σ) : List ε → Option σ
  | [] => some s
  | event :: events => (step s event).bind fun s' => run s' events

variable {step}

/-- **What the start has and every step keeps holds at the end of every run.** -/
theorem run_invariant {P : σ → Prop} (keeps : ∀ s event s', P s → step s event = some s' → P s') {s s' : σ}
    {events : List ε} (start : P s) (h : run step s events = some s') : P s' := by
  induction events generalizing s with
  | nil =>
    rw [run, Option.some.injEq] at h
    exact h ▸ start
  | cons event events ih =>
    rw [run, Option.bind_eq_some_iff] at h
    obtain ⟨next, hstep, hrest⟩ := h
    exact ih (keeps s event next start hstep) hrest

/-- Every step that a run takes meets a condition on the state before it. -/
def Meets (step : σ → ε → Option σ) (C : σ → ε → Prop) : σ → List ε → Prop
  | _, [] => True
  | s, event :: events => C s event ∧ ∀ s', step s event = some s' → Meets step C s' events

/-- **What the start has and every step that meets the condition keeps** holds at the end of every run
whose steps all meet it. -/
theorem run_invariant_of_meets {C : σ → ε → Prop} {P : σ → Prop}
    (keeps : ∀ s event s', P s → C s event → step s event = some s' → P s') {s s' : σ} {events : List ε}
    (start : P s) (meets : Meets step C s events) (h : run step s events = some s') : P s' := by
  induction events generalizing s with
  | nil =>
    rw [run, Option.some.injEq] at h
    exact h ▸ start
  | cons event events ih =>
    obtain ⟨hevent, hrest⟩ := meets
    rw [run, Option.bind_eq_some_iff] at h
    obtain ⟨next, hstep, hrun⟩ := h
    exact ih (keeps s event next start hevent hstep) (hrest next hstep) hrun

/-- A condition that is evaluated on the way. -/
def checks (step : σ → ε → Option σ) (check : σ → ε → Bool) : σ → List ε → Bool
  | _, [] => true
  | s, event :: events => check s event && (step s event).all fun s' => checks step check s' events

theorem meets_of_checks {C : σ → ε → Prop} (check : σ → ε → Bool)
    (hcheck : ∀ s event, check s event = true → C s event) {s : σ} {events : List ε}
    (h : checks step check s events = true) : Meets step C s events := by
  induction events generalizing s with
  | nil => trivial
  | cons event events ih =>
    rw [checks, Bool.and_eq_true] at h
    refine ⟨hcheck s event h.1, fun s' hstep => ih ?_⟩
    rw [hstep] at h
    exact h.2

end Lector.PartialRun

/-! Loops whose body either goes round again or leaves, and the invariant rule for them. A measure
that every round lowers makes the loop total. -/
namespace Lector.Loop

variable {σ ρ : Type}

/-- A loop body: another round from a new state, or the result of the loop. -/
structure Body (σ ρ : Type) where
  round : σ → σ ⊕ ρ
  measure : σ → Nat
  lowers : ∀ s s', round s = .inl s' → measure s' < measure s

def run (body : Body σ ρ) (s : σ) : ρ :=
  match _h : body.round s with
  | .inl s' => run body s'
  | .inr r => r
termination_by body.measure s
decreasing_by exact body.lowers s s' _h

theorem run_eq (body : Body σ ρ) (s : σ) : run body s = match body.round s with
      | .inl s' => run body s'
      | .inr r => r := by
  rw [run]
  split
  · rename_i s' h
    rw [h]
  · rename_i r h
    rw [h]

/-- **What every round keeps, and every exit turns into `Q`, the loop turns into `Q`.** -/
theorem run_rule {P : σ → Prop} {Q : ρ → Prop} (body : Body σ ρ)
    (hround : ∀ s, P s → (body.round s).elim P Q) (s : σ) (hs : P s) : Q (run body s) := by
  induction hm : body.measure s using Nat.strongRecOn generalizing s with
  | ind m ih =>
    subst hm
    have hnext := hround s hs
    rw [run_eq]
    cases h : body.round s with
    | inl s' =>
      rw [h] at hnext
      exact ih _ (body.lowers s s' h) s' hnext rfl
    | inr r => rwa [h] at hnext

end Lector.Loop

/-! Paths of a labelled transition relation, for event grammars stated as one. -/
namespace Lector.Foundations

variable {σ ε : Type}

inductive Path (step : σ → ε → σ → Prop) : σ → List ε → σ → Prop
  | nil (s : σ) : Path step s [] s
  | cons {s t u : σ} {e : ε} {es : List ε} (head : step s e t) (tail : Path step t es u) :
      Path step s (e :: es) u

namespace Path

variable {step : σ → ε → σ → Prop} {s t u : σ} {e : ε} {es fs : List ε}

theorem append (h : Path step s es t) (h' : Path step t fs u) : Path step s (es ++ fs) u := by
  induction h with
  | nil s => exact h'
  | cons head tail ih => exact cons head (ih h')

theorem single (h : step s e t) : Path step s [e] t := cons h (nil t)

theorem snoc (h : Path step s es t) (h' : step t e u) : Path step s (es ++ [e]) u := h.append (single h')

theorem loops (h : ∀ e ∈ es, step s e s) : Path step s es s := by
  induction es with
  | nil => exact nil s
  | cons e es ih => exact cons (h e (by simp)) (ih fun e' he' => h e' (by simp [he']))

end Path

end Lector.Foundations

/-! Machines fed one item at a time that may fail. `run` is the reference semantics: it stops at
the first failing item and keeps the events of every item before it. -/
namespace Lector.StreamRun
open List

variable {σ α ε ρ : Type}

/-- Where a run ends: the state before the failing item, or after the last one. -/
structure Outcome (σ ε ρ : Type) where
  state : σ
  events : List ε
  failure : Option ρ

variable (events : List ε) (o : Outcome σ ε ρ)

def Outcome.prepend : Outcome σ ε ρ :=
  { o with events := events ++ o.events }

@[simp] theorem prepend_state : (o.prepend events).state = o.state := rfl

@[simp] theorem prepend_events : (o.prepend events).events = events ++ o.events := rfl

@[simp] theorem prepend_failure : (o.prepend events).failure = o.failure := rfl

@[simp] theorem prepend_nil : o.prepend [] = o := rfl

theorem prepend_prepend (first second : List ε) (o : Outcome σ ε ρ) :
    (o.prepend second).prepend first = o.prepend (first ++ second) := by
  simp [Outcome.prepend]

variable (step : σ → α → Except ρ (σ × List ε))

def run : σ → List α → Outcome σ ε ρ
  | s, [] => ⟨s, [], none⟩
  | s, x :: xs =>
    match step s x with
    | .error e => ⟨s, [], some e⟩
    | .ok (s', events) => (run s' xs).prepend events

variable {step}

@[simp] theorem run_nil (s : σ) : run step s [] = ⟨s, [], none⟩ := rfl

variable {s s' : σ}

theorem run_cons_ok {x : α} {events : List ε} (h : step s x = .ok (s', events))
    (xs : List α) : run step s (x :: xs) = (run step s' xs).prepend events := by
  rw [run, h]

theorem run_cons_error {x : α} {e : ρ} (h : step s x = .error e) (xs : List α) :
    run step s (x :: xs) = ⟨s, [], some e⟩ := by
  rw [run, h]

theorem run_append {xs : List α} (h : (run step s xs).failure = none) (ys : List α) : run step s (xs ++ ys) =
      (run step (run step s xs).state ys).prepend (run step s xs).events := by
  induction xs generalizing s with
  | nil => rfl
  | cons x xs ih =>
    cases hx : step s x with
    | error e => simp [run_cons_error hx] at h
    | ok r =>
      rw [run_cons_ok hx] at h
      rw [cons_append, run_cons_ok hx, run_cons_ok hx, ih h, prepend_prepend]
      rfl

theorem run_append_failed {xs : List α} {e : ρ} (h : (run step s xs).failure = some e) (ys : List α) :
    run step s (xs ++ ys) = run step s xs := by
  induction xs generalizing s with
  | nil => simp at h
  | cons x xs ih =>
    cases hx : step s x with
    | error e => rw [cons_append, run_cons_error hx, run_cons_error hx]
    | ok r =>
      rw [run_cons_ok hx] at h
      rw [cons_append, run_cons_ok hx, run_cons_ok hx, ih h]

theorem run_append_ok {xs : List α} {events : List ε} (h : run step s xs = ⟨s', events, none⟩) (ys : List α) :
    run step s (xs ++ ys) = (run step s' ys).prepend events := by
  have hr := run_append (by rw [h]) ys
  rw [h] at hr
  exact hr

theorem run_failure {xs : List α} {e : ρ} (h : (run step s xs).failure = some e) :
    ∃ n, ∃ _ : n < xs.length, (run step s (xs.take n)).failure = none ∧
      (run step s (xs.take (n + 1))).failure = some e ∧
      run step s (xs.take n) = { run step s xs with failure := none } := by
  induction xs generalizing s with
  | nil => simp at h
  | cons x xs ih =>
    cases hx : step s x with
    | error e' => exact ⟨0, by simp, rfl, by simpa [run_cons_error hx] using h, by simp [run_cons_error hx]⟩
    | ok r =>
      rw [run_cons_ok hx] at h
      obtain ⟨n, hn, hbefore, hat, hrun⟩ := ih h
      refine ⟨n + 1, Nat.succ_lt_succ hn, ?_, ?_, ?_⟩
      · rw [take_succ_cons, run_cons_ok hx]
        exact hbefore
      · rw [take_succ_cons, run_cons_ok hx]
        exact hat
      · rw [take_succ_cons, run_cons_ok hx, run_cons_ok hx, hrun]
        rfl

theorem run_invariant {P : σ → Prop} (hstep : ∀ s x s' events, P s → step s x = .ok (s', events) → P s')
    (hs : P s) (xs : List α) : P (run step s xs).state := by
  induction xs generalizing s with
  | nil => exact hs
  | cons x xs ih =>
    cases hx : step s x with
    | error e => rw [run_cons_error hx]; exact hs
    | ok r =>
      obtain ⟨s', events⟩ := r
      rw [run_cons_ok hx]
      exact ih (hstep s x s' events hs hx)

end Lector.StreamRun

/-! Histories: what is said of every entry of a log and the entries before it. -/
namespace Lector
open List

variable {α : Type}

/-- Every entry of the log stands in the relation to the part of the log before it. -/
def Historic (P : List α → α → Prop) (log : List α) : Prop :=
  ∀ before entry after, log = before ++ entry :: after → P before entry

namespace Historic

variable {P : List α → α → Prop} {log : List α}

theorem nil : Historic P [] := by
  intro before entry after h
  cases before with
  | nil => cases h
  | cons first before => cases h

theorem concat {entry : α} (h : Historic P log) (hentry : P log entry) : Historic P (log ++ [entry]) := by
  intro before found after hsplit
  rcases eq_nil_or_concat after with rfl | ⟨rest, last, rfl⟩
  · obtain ⟨rfl, hfound⟩ := append_inj' hsplit rfl
    cases hfound
    exact hentry
  · rw [concat_eq_append, ← cons_append, ← append_assoc] at hsplit
    obtain ⟨hlog, -⟩ := append_inj' hsplit rfl
    exact h before found rest hlog

end Historic

end Lector
