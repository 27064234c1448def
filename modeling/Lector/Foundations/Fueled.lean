import Mathlib.Data.List.Basic

/-! Stateful computations that may fail and that run on bounded fuel. The result `none` is a run
that has not ended yet: it is neither a value nor a failure of the program. -/
namespace Lector.Fueled

abbrev Run (σ ε α : Type) := StateT σ (ExceptT ε Option) α

variable {σ ε α β : Type}

section

variable (m : Run σ ε α)

/-- The outcome of running `m` from `s`. -/
def exec (s : σ) : Option (Except ε (α × σ)) := m s

def outOfFuel : Run σ ε α := fun _ => (none : Option (Except ε (α × σ)))

def settle : Except ε α → Run σ ε α
  | .ok a => pure a
  | .error e => throw e

def isolated {τ : Type} (s : σ) : Run τ ε (α × σ) :=
  fun t => (exec m s).map (Except.map fun r => (r, t))

def Ends (s : σ) (a : α) (s' : σ) : Prop := exec m s = some (.ok (a, s'))

def Halts (s : σ) : Prop := exec m s ≠ none

end

/-- Whatever `m` ends with, `m'` ends with too. -/
def Refines (m m' : Run σ ε α) : Prop := ∀ s r, exec m s = some r → exec m' s = some r

/-! ## Sequencing -/

theorem exec_bind (m : Run σ ε α) (f : α → Run σ ε β) (s : σ) : exec (m >>= f) s = (exec m s).bind fun r =>
      match r with
      | .error e => some (.error e)
      | .ok (a, s') => exec (f a) s' := by
  show Option.bind (exec m s) _ = _
  cases hm : exec m s with
  | none => rfl
  | some r =>
    cases r with
    | error e => rfl
    | ok p => rfl

@[simp] theorem exec_pure (a : α) (s : σ) : exec (pure a : Run σ ε α) s = some (.ok (a, s)) := rfl

@[simp] theorem exec_throw (e : ε) (s : σ) : exec (throw e : Run σ ε α) s = some (.error e) := rfl

@[simp] theorem exec_get (s : σ) : exec (get : Run σ ε σ) s = some (.ok (s, s)) := rfl

@[simp] theorem exec_modify (f : σ → σ) (s : σ) :
    exec (modify f : Run σ ε PUnit) s = some (.ok (⟨⟩, f s)) := rfl

@[simp] theorem exec_outOfFuel (s : σ) : exec (outOfFuel : Run σ ε α) s = none := rfl

variable (x : Except ε α)

theorem exec_settle (s : σ) : exec (settle x : Run σ ε α) s = some (x.map fun a => (a, s)) := by
  cases x with
  | error e => rfl
  | ok a => rfl

theorem exec_isolated {τ : Type} (m : Run σ ε α) (s : σ) (t : τ) :
    exec (isolated m s) t = (exec m s).map (Except.map fun r => (r, t)) := rfl

/-! ## Runs that end with a value -/

variable {m n m' n' : Run σ ε α} {f f' : α → Run σ ε β} {s s'' s' t : σ}

theorem ends_bind {b : β} : Ends (m >>= f) s b s'' ↔ ∃ a s', Ends m s a s' ∧ Ends (f a) s' b s'' := by
  unfold Ends
  rw [exec_bind]
  cases hm : exec m s with
  | none => simp
  | some r =>
    cases r with
    | error e => simp
    | ok p =>
      obtain ⟨a, s'⟩ := p
      simp

@[simp] theorem ends_pure {a b : α} : Ends (pure a : Run σ ε α) s b s' ↔ a = b ∧ s = s' := by simp [Ends]

@[simp] theorem ends_throw {e : ε} {a : α} : Ends (throw e : Run σ ε α) s a s' ↔ False := by simp [Ends]

@[simp] theorem ends_get : Ends (get : Run σ ε σ) s t s' ↔ s = t ∧ s = s' := by
  simp [Ends]

@[simp] theorem ends_modify {f : σ → σ} {u : PUnit} :
    Ends (modify f : Run σ ε PUnit) s u s' ↔ f s = s' := by simp [Ends]

@[simp] theorem ends_outOfFuel {a : α} : Ends (outOfFuel : Run σ ε α) s a s' ↔ False := by simp [Ends]

@[simp] theorem ends_settle {x : Except ε α} {a : α} :
    Ends (settle x : Run σ ε α) s a s' ↔ x = .ok a ∧ s = s' := by
  unfold Ends
  rw [exec_settle]
  cases x with
  | error e => simp [Except.map]
  | ok b => simp [Except.map]

@[simp] theorem ends_isolated {τ : Type} {t t' : τ} {a : α} :
    Ends (isolated m s) t (a, s') t' ↔ Ends m s a s' ∧ t = t' := by
  unfold Ends
  rw [exec_isolated]
  cases hm : exec m s with
  | none => simp
  | some r =>
    cases r with
    | error e => simp [Except.map]
    | ok p => simp [Except.map]

/-! ## Runs that end -/

theorem halts_bind (hm : Halts m s) (hf : ∀ a s', Ends m s a s' → Halts (f a) s') : Halts (m >>= f) s := by
  unfold Halts at *
  rw [exec_bind]
  cases hx : exec m s with
  | none => exact absurd hx hm
  | some r =>
    cases r with
    | error e => simp
    | ok p => exact hf p.1 p.2 hx

@[simp] theorem halts_pure (a : α) (s : σ) : Halts (pure a : Run σ ε α) s := by simp [Halts]

@[simp] theorem halts_throw (e : ε) (s : σ) : Halts (throw e : Run σ ε α) s := by simp [Halts]

@[simp] theorem halts_get (s : σ) : Halts (get : Run σ ε σ) s := by simp [Halts]

@[simp] theorem halts_modify (f : σ → σ) (s : σ) : Halts (modify f : Run σ ε PUnit) s := by
  simp [Halts]

@[simp] theorem halts_settle (s : σ) : Halts (settle x : Run σ ε α) s := by simp [Halts, exec_settle]

theorem halts_isolated {τ : Type} (h : Halts m s) (t : τ) : Halts (isolated m s) t := by
  unfold Halts at *
  rw [exec_isolated, ne_eq, Option.map_eq_none_iff]
  exact h

/-- `m` ends from every state. -/
def Total (m : Run σ ε α) : Prop := ∀ s, Halts m s

theorem Total.bind (hm : Total m) (hf : ∀ a, Total (f a)) :
    Total (m >>= f) := fun s => halts_bind (hm s) fun a s' _ => hf a s'

theorem Total.ite {c : Prop} [Decidable c] (hm : Total m) (hn : Total n) : Total (if c then m else n) := by
  by_cases hc : c
  · rw [if_pos hc]
    exact hm
  · rw [if_neg hc]
    exact hn

theorem total_pure (a : α) : Total (pure a : Run σ ε α) := halts_pure a

theorem total_throw (e : ε) : Total (throw e : Run σ ε α) := halts_throw e

theorem total_get : Total (get : Run σ ε σ) := halts_get

theorem total_modify (f : σ → σ) : Total (modify f : Run σ ε PUnit) := halts_modify f

theorem total_settle : Total (settle x : Run σ ε α) := halts_settle x

/-! ## More fuel -/

theorem Refines.rfl : Refines m m := fun _ _ h => h

theorem refines_outOfFuel (m : Run σ ε α) : Refines outOfFuel m := by
  intro s r h
  simp at h

theorem Refines.bind (hm : Refines m m') (hf : ∀ a, Refines (f a) (f' a)) : Refines (m >>= f) (m' >>= f') := by
  intro s r h
  rw [exec_bind] at h ⊢
  cases hx : exec m s with
  | none => simp [hx] at h
  | some q =>
    rw [hx] at h
    rw [hm s q hx]
    cases q with
    | error e => exact h
    | ok p => exact hf p.1 p.2 r h

theorem Refines.isolated {τ : Type} (h : Refines m m') (s : σ) :
    Refines (isolated m s : Run τ ε (α × σ)) (isolated m' s) := by
  intro t r hr
  rw [exec_isolated] at hr ⊢
  cases hm : exec m s with
  | none => simp [hm] at hr
  | some q => rw [h s q hm, ← hm, hr]

theorem Refines.ite {c : Prop} [Decidable c] (hm : Refines m m')
    (hn : Refines n n') : Refines (if c then m else n) (if c then m' else n') := by
  by_cases hc : c
  · rw [if_pos hc, if_pos hc]
    exact hm
  · rw [if_neg hc, if_neg hc]
    exact hn

end Lector.Fueled
