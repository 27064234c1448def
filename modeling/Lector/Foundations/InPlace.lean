import Mathlib.Data.List.Basic

/-! Programs that change their state in place and may stop with an error: what was changed before the
error stays changed. -/
namespace Lector.InPlace

variable {ε σ α β : Type} (x : EStateM ε σ α)

/-- The state that `x` leaves behind, also when it fails, and its result. -/
def exec (s : σ) : σ × Except ε α :=
  match x.run s with
  | .ok a t => (t, .ok a)
  | .error e t => (t, .error e)

/-- The state after `x`, if there was no error. -/
def yield (s : σ) : Except ε σ :=
  match exec x s with
  | (t, .ok _) => .ok t
  | (_, .error e) => .error e

/-- A computation that touches no state, as a step of a program. -/
instance liftExcept : MonadLift (Except ε) (EStateM ε σ) := ⟨fun x s =>
  match x with
  | .ok a => .ok a s
  | .error e => .error e s⟩

/-! ## Running -/

section Exec

variable {x : EStateM ε σ α} {f : α → EStateM ε σ β} {s : σ}

@[simp] theorem exec_pure (a : α) : exec (pure a : EStateM ε σ α) s = (s, .ok a) := rfl

@[simp] theorem exec_throw (e : ε) : exec (throw e : EStateM ε σ α) s = (s, .error e) := rfl

@[simp] theorem exec_get : exec (get : EStateM ε σ σ) s = (s, .ok s) := rfl

@[simp] theorem exec_modify (g : σ → σ) : exec (modify g : EStateM ε σ Unit) s = (g s, .ok ()) := rfl

@[simp] theorem exec_lift (r : Except ε α) : exec (liftM r : EStateM ε σ α) s = (s, r) := by
  cases r <;> rfl

theorem exec_bind : exec (x >>= f) s =
    match exec x s with
    | (t, .ok a) => exec (f a) t
    | (t, .error e) => (t, .error e) := by
  have hbind : (x >>= f).run s = match x.run s with
      | .ok a t => (f a).run t
      | .error e t => .error e t := rfl
  unfold exec
  rw [hbind]
  cases x.run s <;> rfl

@[simp] theorem exec_bind_pure (a : α) : exec (pure a >>= f) s = exec (f a) s := rfl

@[simp] theorem exec_bind_get {g : σ → EStateM ε σ β} : exec (get >>= g) s = exec (g s) s := rfl

@[simp] theorem exec_bind_modify {h : σ → σ} {g : Unit → EStateM ε σ β} :
    exec (modify h >>= g) s = exec (g ()) (h s) := rfl

@[simp] theorem exec_bind_lift_ok (a : α) :
    exec ((liftM (.ok a : Except ε α) : EStateM ε σ α) >>= f) s = exec (f a) s := rfl

@[simp] theorem exec_bind_lift_error (e : ε) :
    exec ((liftM (.error e : Except ε α) : EStateM ε σ α) >>= f) s = (s, .error e) := rfl

@[simp] theorem yield_throw (e : ε) : yield (throw e : EStateM ε σ α) s = .error e := rfl

@[simp] theorem yield_bind_get {g : σ → EStateM ε σ β} : yield (get >>= g) s = yield (g s) s := rfl

@[simp] theorem yield_bind_modify {h : σ → σ} {g : Unit → EStateM ε σ β} :
    yield (modify h >>= g) s = yield (g ()) (h s) := rfl

@[simp] theorem yield_modify (h : σ → σ) : yield (modify h : EStateM ε σ Unit) s = .ok (h s) := rfl

theorem yield_bind {y : EStateM ε σ β} : yield (x >>= fun _ => y) s = (yield x s).bind (yield y) := by
  unfold yield
  rw [exec_bind]
  cases exec x s with
  | mk t r => cases r <;> rfl

theorem yield_forM {ι : Type} {p : ι → EStateM ε σ PUnit} {next : σ → ι → Except ε σ}
    (h : ∀ i s, yield (p i) s = next s i) (items : List ι) (s : σ) :
    yield (items.forM p) s = items.foldlM next s := by
  induction items generalizing s with
  | nil => rfl
  | cons i items ih =>
    have hfirst : (i :: items).forM p = p i >>= fun _ => items.forM p := rfl
    rw [hfirst, yield_bind, h, List.foldlM_cons]
    cases next s i with
    | error e => rfl
    | ok t => exact ih t

end Exec

/-! ## Kinds of programs -/

def Reads : Prop := ∀ s, (exec x s).1 = s

def Sure : Prop := ∀ s e, (exec x s).2 ≠ .error e

/-- All or nothing: an error leaves the state as it was. -/
def Atomic : Prop := ∀ s e, (exec x s).2 = .error e → (exec x s).1 = s

theorem reads_get : Reads (get : EStateM ε σ σ) := fun _ => rfl

theorem reads_lift (r : Except ε α) : Reads (liftM r : EStateM ε σ α) := fun _ => by
  rw [exec_lift]

theorem sure_pure (a : α) : Sure (pure a : EStateM ε σ α) := fun _ _ h => nomatch h

theorem sure_get : Sure (get : EStateM ε σ σ) := fun _ _ h => nomatch h

theorem sure_modify (g : σ → σ) : Sure (modify g : EStateM ε σ Unit) := fun _ _ h => nomatch h

theorem Sure.atomic {x : EStateM ε σ α} (h : Sure x) : Atomic x := fun s e he => absurd he (h s e)

section Sequence

variable {x : EStateM ε σ α} {f : α → EStateM ε σ β}

theorem Sure.bind (hx : Sure x) (hf : ∀ a, Sure (f a)) : Sure (x >>= f) := by
  intro s e
  rw [exec_bind]
  have hxs := hx s
  cases hs : exec x s with
  | mk t r =>
    rw [hs] at hxs
    cases r with
    | ok a => exact hf a t e
    | error e' => exact absurd rfl (hxs e')

theorem Reads.bind_atomic (hx : Reads x) (hf : ∀ a, Atomic (f a)) : Atomic (x >>= f) := by
  intro s e
  rw [exec_bind]
  have hxs := hx s
  cases hs : exec x s with
  | mk t r =>
    rw [hs] at hxs
    cases hxs
    cases r with
    | ok a => exact hf a t e
    | error e' => exact fun _ => rfl

theorem Atomic.bind_sure (hx : Atomic x) (hf : ∀ a, Sure (f a)) : Atomic (x >>= f) := by
  intro s e
  rw [exec_bind]
  have hxs := hx s
  cases hs : exec x s with
  | mk t r =>
    rw [hs] at hxs
    cases r with
    | ok a => exact fun he => absurd he (hf a t e)
    | error e' => exact fun _ => hxs e' rfl

end Sequence

section Branches

variable {c : Prop} [Decidable c] {x y : EStateM ε σ α}

theorem Sure.ite (hx : Sure x) (hy : Sure y) : Sure (if c then x else y) := by
  split
  · exact hx
  · exact hy

end Branches

variable (copy : σ → σ) (build : EStateM ε σ Unit)

/-- A working copy: `build` changes the copy, which is put in place only when there was no error. -/
def replaceBy : EStateM ε σ Unit := do
  let next ← liftM (yield build (copy (← get)))
  set next

theorem exec_replaceBy (s : σ) :
    exec (replaceBy copy build) s =
      match yield build (copy s) with
      | .ok t => (t, .ok ())
      | .error e => (s, .error e) := by
  unfold replaceBy
  rw [exec_bind_get]
  cases yield build (copy s) <;> rfl

theorem atomic_replaceBy : Atomic (replaceBy copy build) := by
  intro s e
  rw [exec_replaceBy]
  cases yield build (copy s) with
  | ok t => exact fun h => nomatch h
  | error e' => exact fun _ => rfl

end Lector.InPlace
