import Lector.Foundations.Window
import Lector.Terminal.Snapshot

/-! The history that travels with a render receipt (`src/view.rs`). A delta names the interval of rows
it brings and the delta before it; a view checks the whole chain before it touches a row. -/
namespace Lector.Accessibility
open Output Terminal

/-! ## Deltas -/

structure PresentedHistoryBasis where
  screen : ScreenIdentity
  geometry : TerminalGeometry
  origin : Nat
  extent : Nat
deriving DecidableEq

def PresentedHistoryBasis.stop (basis : PresentedHistoryBasis) : Option Nat :=
  checkedAdd basis.origin basis.extent

/-- `rows` replaces the interval from `replaceFrom` to the end of the basis. -/
structure PresentedHistoryDelta (Row : Type) where
  revision : Nat
  baseRevision : Nat
  basis : PresentedHistoryBasis
  replaceFrom : Nat
  rows : List Row
  fullReplacement : Bool
  previous : Option (PresentedHistoryDelta Row)
  depth : Nat
  retainedRows : Nat

structure HistoryState where
  revision : Nat
  basis : PresentedHistoryBasis
deriving DecidableEq

variable {Row : Type} (delta : PresentedHistoryDelta Row)

def HistoryState.fromDelta : HistoryState := ⟨delta.revision, delta.basis⟩

@[elab_as_elim]
theorem PresentedHistoryDelta.chain_induction {motive : PresentedHistoryDelta Row → Prop}
    (step : ∀ delta, (∀ previous, delta.previous = some previous → motive previous) →
      motive delta) : ∀ delta, motive delta
  | ⟨_, _, _, _, _, _, none, _, _⟩ => step _ fun _ h => nomatch h
  | ⟨_, _, _, _, _, _, some previous, _, _⟩ =>
    step _ fun _ h => Option.some.inj h ▸ chain_induction step previous

/-! ## Validation -/

def PresentedHistoryDelta.followsOn (targetEnd : Nat)
    (base : HistoryState) : Option HistoryState := do
  let baseEnd ← base.basis.stop
  if base.revision = delta.baseRevision ∧ base.basis.screen = delta.basis.screen ∧
      base.basis.geometry = delta.basis.geometry ∧ base.basis.origin ≤ delta.basis.origin ∧
      delta.basis.origin ≤ baseEnd ∧ delta.replaceFrom = baseEnd ∧ baseEnd ≤ targetEnd then
    some (.fromDelta delta)
  else none

def PresentedHistoryDelta.check (currentRevision : Nat)
    (current : HistoryState) (older : Option HistoryState) : Option HistoryState :=
  if delta.revision ≤ currentRevision then some current
  else if delta.revision ≤ delta.baseRevision then none
  else do
    let targetEnd ← delta.basis.stop
    if delta.replaceFrom < delta.basis.origin ∨ targetEnd < delta.replaceFrom ∨
        delta.rows.length ≠ targetEnd - delta.replaceFrom then none
    else if delta.fullReplacement then
      if delta.replaceFrom = delta.basis.origin ∧ delta.previous.isNone then some (.fromDelta delta)
      else none
    else if delta.baseRevision = currentRevision then delta.followsOn targetEnd current
    else older.bind (delta.followsOn targetEnd)

def validateHistoryDeltaChainFrom (currentRevision : Nat) (current : HistoryState) :
    PresentedHistoryDelta Row → Option HistoryState
  | ⟨revision, baseRevision, basis, replaceFrom, rows, fullReplacement, none, depth, retained⟩ =>
    PresentedHistoryDelta.check
      ⟨revision, baseRevision, basis, replaceFrom, rows, fullReplacement, none, depth, retained⟩
      currentRevision current none
  | ⟨revision, baseRevision, basis, replaceFrom, rows, fullReplacement, some previous, depth, retained⟩ =>
    PresentedHistoryDelta.check
      ⟨revision, baseRevision, basis, replaceFrom, rows, fullReplacement, some previous, depth, retained⟩
      currentRevision current (validateHistoryDeltaChainFrom currentRevision current previous)

def validateHistoryDeltaChain (presented : HistoryState) :
    Option HistoryState := validateHistoryDeltaChainFrom presented.revision presented delta

theorem validate_eq (currentRevision : Nat)
    (current : HistoryState) : validateHistoryDeltaChainFrom currentRevision current delta =
      delta.check currentRevision current
        (delta.previous.bind (validateHistoryDeltaChainFrom currentRevision current)) := by
  obtain ⟨-, -, -, -, -, -, previous, -, -⟩ := delta
  cases previous with
  | none => rw [validateHistoryDeltaChainFrom]; rfl
  | some previous => rw [validateHistoryDeltaChainFrom]; rfl

/-! ## Application -/

def checkedSub (a b : Nat) : Option Nat := if b ≤ a then some (a - b) else none

/-- `none` is a subtraction below zero or an assertion that fails. -/
def applyHistoryTransition (scrollback : List Row) (base target : HistoryState) (replaceFrom : Nat)
    (fullReplacement : Bool) (rows : List Row) : Option (List Row) := do
  let kept ←
    if fullReplacement then some []
    else if base.basis.screen = target.basis.screen ∧ base.basis.geometry = target.basis.geometry then
      do
        let evicted ← checkedSub target.basis.origin base.basis.origin
        let length ← checkedSub replaceFrom target.basis.origin
        if evicted ≤ scrollback.length then some ((scrollback.drop evicted).take length) else none
    else none
  if (kept ++ rows).length = target.basis.extent then some (kept ++ rows) else none

/-- The last step of `apply_history_delta_chain`, from the chain's own base. -/
def PresentedHistoryDelta.applyTo (scrollback : List Row)
    (base : HistoryState) : Option (List Row × HistoryState) := do
  let applied ← applyHistoryTransition scrollback base (.fromDelta delta) delta.replaceFrom
    delta.fullReplacement delta.rows
  some (applied, .fromDelta delta)

/-- The delta is applied to what `presented` shows, without the chain before it. -/
def PresentedHistoryDelta.isRoot (presented : HistoryState) : Bool :=
  delta.fullReplacement || delta.baseRevision == presented.revision

def applyHistoryDeltaChain (scrollback : List Row) (presented : HistoryState) :
    PresentedHistoryDelta Row → Option (List Row × HistoryState)
  | ⟨revision, baseRevision, basis, replaceFrom, rows, fullReplacement, none, depth, retained⟩ =>
    let delta : PresentedHistoryDelta Row :=
      ⟨revision, baseRevision, basis, replaceFrom, rows, fullReplacement, none, depth, retained⟩
    if revision ≤ presented.revision then some (scrollback, presented)
    else if delta.isRoot presented then delta.applyTo scrollback presented
    else none
  | ⟨revision, baseRevision, basis, replaceFrom, rows, fullReplacement, some previous, depth, retained⟩ =>
    let delta : PresentedHistoryDelta Row :=
      ⟨revision, baseRevision, basis, replaceFrom, rows, fullReplacement, some previous, depth, retained⟩
    if revision ≤ presented.revision then some (scrollback, presented)
    else if delta.isRoot presented then delta.applyTo scrollback presented
    else do
      let older ← applyHistoryDeltaChain scrollback presented previous
      delta.applyTo older.1 older.2

theorem apply_eq (scrollback : List Row) (presented : HistoryState)
    (delta : PresentedHistoryDelta Row) : applyHistoryDeltaChain scrollback presented delta =
      if delta.revision ≤ presented.revision then some (scrollback, presented)
      else if delta.isRoot presented then delta.applyTo scrollback presented
      else (delta.previous.bind (applyHistoryDeltaChain scrollback presented)).bind
        fun older => delta.applyTo older.1 older.2 := by
  obtain ⟨revision, -, -, -, -, -, previous, -, -⟩ := delta
  cases previous with
  | none => rw [applyHistoryDeltaChain]; rfl
  | some previous => rw [applyHistoryDeltaChain]; rfl

/-! ## What a chain shows -/

def HistoryState.window (state : HistoryState) (rows : List Row) : Window Row := ⟨state.basis.origin, rows⟩

def transitions (presented : HistoryState) : PresentedHistoryDelta Row → List (PresentedHistoryDelta Row)
  | ⟨revision, baseRevision, basis, replaceFrom, rows, fullReplacement, none, depth, retained⟩ =>
    if revision ≤ presented.revision then []
    else [⟨revision, baseRevision, basis, replaceFrom, rows, fullReplacement, none, depth, retained⟩]
  | ⟨revision, baseRevision, basis, replaceFrom, rows, fullReplacement, some previous, depth, retained⟩ =>
    let delta : PresentedHistoryDelta Row :=
      ⟨revision, baseRevision, basis, replaceFrom, rows, fullReplacement, some previous, depth, retained⟩
    if revision ≤ presented.revision then []
    else delta :: if delta.isRoot presented then [] else transitions presented previous

theorem transitions_eq (presented : HistoryState) (delta : PresentedHistoryDelta Row) :
    transitions presented delta =
      if delta.revision ≤ presented.revision then []
      else delta :: if delta.isRoot presented then []
        else delta.previous.elim [] (transitions presented) := by
  obtain ⟨revision, -, -, -, -, -, previous, -, -⟩ := delta
  cases previous with
  | none => rw [transitions]; simp
  | some previous => rw [transitions]; rfl

/-- The transition keeps the row at `i`. -/
def PresentedHistoryDelta.Keeps (i : Nat) : Prop :=
  delta.fullReplacement = false ∧ delta.basis.origin ≤ i ∧ i < delta.replaceFrom

instance (delta : PresentedHistoryDelta Row) (i : Nat) : Decidable (delta.Keeps i) :=
  inferInstanceAs (Decidable (_ ∧ _ ∧ _))

def PresentedHistoryDelta.covers (i : Nat) : Bool :=
  delta.replaceFrom ≤ i && i < delta.replaceFrom + delta.rows.length

/-- The base's own row as long as every transition kept it, else that of the last delta that covers
`i`. -/
def shownRow (base : Window Row) (newestFirst : List (PresentedHistoryDelta Row)) (i : Nat) : Option Row :=
  if (base.get? i).isSome ∧ ∀ delta ∈ newestFirst, delta.Keeps i then base.get? i
  else (newestFirst.find? fun delta => delta.covers i).bind fun delta => delta.rows[i - delta.replaceFrom]?

end Lector.Accessibility
