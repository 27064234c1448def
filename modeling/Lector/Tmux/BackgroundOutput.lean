import Lector.Foundations.Queues
import Lector.Topology.Model

/-! Output of panes that are not shown (`src/app/pty.rs`). A little is handled at once in each turn;
the rest waits in a queue for each pane, and a tick drains the queues in turn. -/
namespace Lector.Tmux
open List hiding compareLex min
open FairQueue SortedMap Std Lector.Topology

def hiddenImmediateBudgetBytes : Nat := 4 * 1024
def backgroundDrainBudgetBytes : Nat := 4 * 1024
def backgroundPauseThresholdBytes : Nat := 16 * 1024
def backgroundOutputLimitBytes : Nat := 64 * 1024

/-- `(u64, PaneId)`, in the order of the tuple. -/
structure BackgroundPane where
  connectionId : UInt64
  paneId : PaneId
deriving DecidableEq

instance : Ord BackgroundPane :=
  ⟨compareLex (compareOn BackgroundPane.connectionId) (compareOn BackgroundPane.paneId)⟩

instance : TransOrd BackgroundPane :=
  inferInstanceAs (TransCmp (compareLex (compareOn BackgroundPane.connectionId)
    (compareOn BackgroundPane.paneId)))

instance : LawfulEqOrd BackgroundPane where
  eq_of_compare {a b} h := by
    obtain ⟨hconnection, hpane⟩ := compareLex_eq_eq.mp h
    have hc : a.connectionId = b.connectionId := LawfulEqOrd.eq_of_compare hconnection
    have hp : a.paneId = b.paneId := LawfulEqOrd.eq_of_compare hpane
    obtain ⟨c, p⟩ := a
    obtain ⟨c', p'⟩ := b
    exact congrArg₂ BackgroundPane.mk hc hp

structure BackgroundOutput where
  pendingOutput : ExtTreeMap BackgroundPane Bytes
  pendingOrder : List BackgroundPane
  pendingBytes : Nat
  hiddenOutputBytesThisTurn : Nat

/-- The bell that was lost, and the bytes to capture again or the pause asked for. -/
structure DeferOutcome where
  droppedBell : Bool
  skipped : Option Nat
  wantsPause : Bool
deriving DecidableEq

inductive OutputOutcome
  | skipped
  | processed (bytes : Bytes)
  | deferred (outcome : DeferOutcome)
deriving DecidableEq

namespace BackgroundOutput

def new : BackgroundOutput := ⟨∅, [], 0, 0⟩

variable (b : BackgroundOutput) (key : BackgroundPane)

def discardPane : BackgroundOutput × Nat :=
  let dropped := (b.pendingOutput[key]?).elim 0 List.length
  ({ b with
      pendingOutput := b.pendingOutput.erase key
      pendingBytes := b.pendingBytes - dropped
      pendingOrder := b.pendingOrder.filter (· ≠ key) }, dropped)

def keysOf (connectionIds : List UInt64) : List BackgroundPane :=
  b.pendingOutput.keys.filter fun key => connectionIds.contains key.connectionId

def discardConnections (connectionIds : List UInt64) : BackgroundOutput :=
  (b.keysOf connectionIds).foldl (fun b key => (b.discardPane key).1) b

def deferOutput (bytes : Bytes) : BackgroundOutput × DeferOutcome :=
  if b.pendingBytes + bytes.length > backgroundOutputLimitBytes then
    let droppedBell := bytes.contains 0x07 || (b.pendingOutput[key]?).any fun queued => queued.contains 0x07
    let (discarded, dropped) := b.discardPane key
    (discarded, ⟨droppedBell, some (dropped + bytes.length), false⟩)
  else
    let order := if b.pendingOutput.contains key then b.pendingOrder else b.pendingOrder ++ [key]
    let queued := queueOf b.pendingOutput key ++ bytes
    ({ b with
        pendingOrder := order
        pendingOutput := b.pendingOutput.insert key queued
        pendingBytes := b.pendingBytes + bytes.length },
      ⟨false, none, decide (queued.length ≥ backgroundPauseThresholdBytes)⟩)

/-- For a pane that is or is not visible and is or is not waiting to be captured again. -/
def processOrDefer (visible needsResync : Bool) (key : BackgroundPane) (bytes : Bytes) :
    BackgroundOutput × OutputOutcome :=
  if needsResync then (b, .skipped)
  else if visible then (b, .processed bytes)
  else if !b.pendingOutput.contains key &&
      !decide (b.hiddenOutputBytesThisTurn + bytes.length > hiddenImmediateBudgetBytes) then
    ({ b with hiddenOutputBytesThisTurn := b.hiddenOutputBytesThisTurn + bytes.length }, .processed bytes)
  else
    let (deferred, outcome) := b.deferOutput key bytes
    (deferred, .deferred outcome)

/-- The queue in front of the order gives up to `remaining` bytes. -/
def drainFront (remaining : Nat) (key : BackgroundPane) (order : List BackgroundPane)
    (queued : Bytes) : BackgroundOutput :=
  let rest := queued.drop remaining
  { b with
    pendingOrder := if rest.isEmpty then order else order ++ [key]
    pendingOutput :=
      if rest.isEmpty then b.pendingOutput.erase key else b.pendingOutput.insert key rest
    pendingBytes := b.pendingBytes - min remaining queued.length }

theorem drainFront_decreases {remaining : Nat} (hremaining : remaining ≠ 0) (key : BackgroundPane)
    (order : List BackgroundPane) (queued : Bytes) : remaining - min remaining queued.length +
        (b.drainFront remaining key order queued).pendingOrder.length <
      remaining + (key :: order).length := by
  simp only [drainFront]
  split
  · simp only [length_cons]
    omega
  · rename_i hrest
    have hlong : remaining < queued.length := by simpa using hrest
    simp only [length_append, length_cons, length_nil]
    omega

/-- The batches handed on; it stops early when one of them is not `processed`. -/
def drainLoop (processed : BackgroundPane → Bytes → Bool) (b : BackgroundOutput) (remaining : Nat) :
    BackgroundOutput × List (BackgroundPane × Bytes) :=
  if remaining = 0 then (b, [])
  else
    match _ : b.pendingOrder with
    | [] => (b, [])
    | key :: order =>
      match b.pendingOutput[key]? with
      | none => drainLoop processed { b with pendingOrder := order } remaining
      | some queued =>
        let batch := queued.take remaining
        let b' := b.drainFront remaining key order queued
        if processed key batch then
          let (after, batches) := drainLoop processed b' (remaining - min remaining queued.length)
          (after, (key, batch) :: batches)
        else (b', [(key, batch)])
termination_by remaining + b.pendingOrder.length
decreasing_by
  · simp [*]
  · rename_i hremaining horder _
    rw [horder]
    exact b.drainFront_decreases hremaining key order queued

def drain (processed : BackgroundPane → Bytes → Bool) : BackgroundOutput × List (BackgroundPane × Bytes) :=
  b.drainLoop processed backgroundDrainBudgetBytes

/-! ## What holds of every state -/

structure Accounted (b : BackgroundOutput) (log : List (Passage BackgroundPane UInt8)) : Prop where
  exact : b.pendingBytes = total List.length b.pendingOutput
  bounded : b.pendingBytes ≤ backgroundOutputLimitBytes
  listed : Listed b.pendingOutput b.pendingOrder
  balanced : Balanced b.pendingOutput log
  immediate : b.hiddenOutputBytesThisTurn ≤ hiddenImmediateBudgetBytes

theorem new_accounted : new.Accounted [] where
  exact := rfl
  bounded := Nat.zero_le _
  listed := listed_empty
  balanced := balanced_empty
  immediate := Nat.zero_le _

variable {b} {log : List (Passage BackgroundPane UInt8)}

theorem length_queueOf : (b.pendingOutput[key]?).elim 0 length = (queueOf b.pendingOutput key).length := by
  rw [queueOf]
  cases b.pendingOutput[key]? <;> rfl

section

variable (h : b.Accounted log)
include h

theorem Accounted.discardPane (key : BackgroundPane) :
    (b.discardPane key).1.Accounted (log ++ [.dropped key]) where
  exact := by
    have htotal := total_erase length b.pendingOutput key
    have hexact := h.exact
    simp only [BackgroundOutput.discardPane]
    omega
  bounded := (Nat.sub_le _ _).trans h.bounded
  listed := h.listed.drop key
  balanced := h.balanced.drop key
  immediate := h.immediate

theorem Accounted.foldl_discardPane (keys : List BackgroundPane) :
    (keys.foldl (fun b key => (b.discardPane key).1) b).Accounted (log ++ keys.map .dropped) := by
  induction keys generalizing b log with
  | nil => simpa using h
  | cons key keys ih => simpa using ih (h.discardPane key)

theorem Accounted.enter {key : BackgroundPane} {bytes : Bytes} (hbytes : bytes ≠ [] ∨ key ∈ b.pendingOrder)
    (hfits : ¬ b.pendingBytes + bytes.length > backgroundOutputLimitBytes) :
    (b.deferOutput key bytes).1.Accounted (log ++ [.entered key bytes]) := by
  have htotal := total_insert_add length b.pendingOutput key (queueOf b.pendingOutput key ++ bytes)
  have hqueued := length_queueOf (b := b) key
  have hexact := h.exact
  have hcontains : b.pendingOutput.contains key ↔ key ∈ b.pendingOrder := by
    rw [ExtTreeMap.contains_eq_isSome_getElem?, h.listed.isSome_iff]
  rw [deferOutput, if_neg hfits]
  refine ⟨?_, by dsimp only; omega, ?_, h.balanced.enter key bytes, h.immediate⟩
  · simp only [length_append] at htotal ⊢
    omega
  · by_cases hkey : key ∈ b.pendingOrder
    · rw [if_pos (hcontains.mpr hkey)]
      exact h.listed.enter_more hkey bytes
    · rw [if_neg (hcontains.not.mpr hkey)]
      have hempty : queueOf b.pendingOutput key = [] := by
        simpa [h.listed.listed key] using hkey
      rw [hempty]
      exact h.listed.enter_first hkey (hbytes.resolve_right hkey)

theorem Accounted.drainFront {remaining : Nat} {key : BackgroundPane} {order : List BackgroundPane}
    {queued : Bytes} (horder : b.pendingOrder = key :: order) (hqueued : b.pendingOutput[key]? = some queued) :
    (b.drainFront remaining key order queued).Accounted (log ++ [.left key (queued.take remaining)]) := by
  have hlisted := h.listed
  rw [horder] at hlisted
  have hqueue : queueOf b.pendingOutput key = queued.take remaining ++ queued.drop remaining := by
    rw [queueOf, hqueued, Option.getD_some, take_append_drop]
  have hexact := h.exact
  have hinsert := total_insert_add length b.pendingOutput key (queued.drop remaining)
  have herase := total_erase length b.pendingOutput key
  rw [hqueued, Option.elim_some] at hinsert herase
  refine ⟨?_, (Nat.sub_le _ _).trans h.bounded, ?_, ?_, h.immediate⟩
  · simp only [BackgroundOutput.drainFront]
    split
    · rename_i hrest
      have hshort : queued.length ≤ remaining := by simpa using hrest
      omega
    · simp only [length_drop] at hinsert
      omega
  · simp only [BackgroundOutput.drainFront]
    split
    · exact hlisted.serve_all
    · rename_i hrest
      exact hlisted.serve_part (by simpa using hrest)
  · apply h.balanced.leave hqueue
    intro key'
    simp only [BackgroundOutput.drainFront]
    split
    · rename_i hrest
      rw [queueOf_erase, isEmpty_iff.mp hrest]
    · rw [queueOf_insert]

end

theorem Accounted.drainLoop (processed : BackgroundPane → Bytes → Bool) (h : b.Accounted log)
    (remaining : Nat) : (b.drainLoop processed remaining).1.Accounted
      (log ++ (b.drainLoop processed remaining).2.map fun batch => .left batch.1 batch.2) := by
  fun_induction BackgroundOutput.drainLoop processed b remaining generalizing log with
  | case1 b => simpa using h
  | case2 b remaining hremaining horder => simpa using h
  | case3 b remaining hremaining key order horder hqueued ih =>
    have hkey := (h.listed.isSome_iff key).mpr (by simp [horder])
    simp [hqueued] at hkey
  | case4 b remaining hremaining key order horder queued hqueued batch b' hprocessed after batches
      hrest =>
    rename_i ih
    have hround := ih (h.drainFront horder hqueued)
    rw [hrest] at hround
    simpa using hround
  | case5 b remaining hremaining key order horder queued hqueued batch b' =>
    simpa using h.drainFront horder hqueued

/-! ## Runs -/

/-- What is done with hidden output. `endTurn` is the end of `handle_tick`. -/
inductive BackgroundOp
  | output (visible needsResync : Bool) (key : BackgroundPane) (bytes : Bytes)
  | drain (processed : BackgroundPane → Bytes → Bool)
  | discardPane (key : BackgroundPane)
  | discardConnections (connectionIds : List UInt64)
  | endTurn

def passages (bytes : Bytes) : OutputOutcome → List (Passage BackgroundPane UInt8)
  | .deferred outcome => if outcome.skipped.isNone then [.entered key bytes] else [.dropped key]
  | _ => []

def step (b : BackgroundOutput) : BackgroundOp → BackgroundOutput × List (Passage BackgroundPane UInt8)
  | .output visible needsResync key bytes =>
    let (after, outcome) := b.processOrDefer visible needsResync key bytes
    (after, passages key bytes outcome)
  | .drain processed =>
    let (after, batches) := b.drain processed
    (after, batches.map fun batch => .left batch.1 batch.2)
  | .discardPane key => ((b.discardPane key).1, [.dropped key])
  | .discardConnections connectionIds =>
    (b.discardConnections connectionIds, (b.keysOf connectionIds).map .dropped)
  | .endTurn => ({ b with hiddenOutputBytesThisTurn := 0 }, [])

def run (b : BackgroundOutput) (log : List (Passage BackgroundPane UInt8)) :
    List BackgroundOp → BackgroundOutput × List (Passage BackgroundPane UInt8)
  | [] => (b, log)
  | op :: ops => run (b.step op).1 (log ++ (b.step op).2) ops

theorem Accounted.processOrDefer (h : b.Accounted log) (visible needsResync : Bool)
    (key : BackgroundPane) (bytes : Bytes) : (b.processOrDefer visible needsResync key bytes).1.Accounted
      (log ++ passages key bytes (b.processOrDefer visible needsResync key bytes).2) := by
  have hcontains : b.pendingOutput.contains key ↔ key ∈ b.pendingOrder := by
    rw [ExtTreeMap.contains_eq_isSome_getElem?, h.listed.isSome_iff]
  rw [BackgroundOutput.processOrDefer]
  split
  · simpa [passages] using h
  · split
    · simpa [passages] using h
    · split
      · rename_i himmediate
        simp only [Bool.and_eq_true, Bool.not_eq_true', decide_eq_false_iff_not] at himmediate
        simp only [passages, append_nil]
        exact ⟨h.exact, h.bounded, h.listed, h.balanced, by dsimp only; omega⟩
      · rename_i hdeferred
        by_cases hfits : b.pendingBytes + bytes.length > backgroundOutputLimitBytes
        · simpa [deferOutput, hfits, passages] using h.discardPane key
        · have hbytes : bytes ≠ [] ∨ key ∈ b.pendingOrder := by
            rw [← hcontains, or_iff_not_imp_right]
            rintro hkey rfl
            have himmediate := h.immediate
            simp [hkey] at hdeferred
            omega
          simpa [passages, deferOutput, hfits] using h.enter hbytes hfits

theorem Accounted.step (h : b.Accounted log) (op : BackgroundOp) :
    (b.step op).1.Accounted (log ++ (b.step op).2) := by
  cases op with
  | output visible needsResync key bytes => exact h.processOrDefer visible needsResync key bytes
  | drain processed => exact h.drainLoop processed backgroundDrainBudgetBytes
  | discardPane key => exact h.discardPane key
  | discardConnections connectionIds => exact h.foldl_discardPane (b.keysOf connectionIds)
  | endTurn =>
    simp only [BackgroundOutput.step, append_nil]
    exact ⟨h.exact, h.bounded, h.listed, h.balanced, Nat.zero_le _⟩

theorem Accounted.run (h : b.Accounted log) (ops : List BackgroundOp) :
    (b.run log ops).1.Accounted (b.run log ops).2 := by
  induction ops generalizing b log with
  | nil => exact h
  | cons op ops ih => exact ih (h.step op)

/-- **The accounting of hidden output is exact.** After every sequence of calls the count is that of the queued
bytes, the order holds the panes with output waiting, and what was drained of a pane since its last discard is a
prefix of what was deferred since. -/
theorem run_accounting (ops : List BackgroundOp) : let (b, log) := new.run [] ops
    b.pendingBytes = total length b.pendingOutput ∧ b.pendingBytes ≤ backgroundOutputLimitBytes ∧
      b.pendingOrder.Nodup ∧
      (∀ key, key ∈ b.pendingOrder ↔ queueOf b.pendingOutput key ≠ []) ∧
      ∀ key, leftSinceDrop key log <+: enteredSinceDrop key log ∧
        enteredSinceDrop key log = leftSinceDrop key log ++ queueOf b.pendingOutput key := by
  have h := new_accounted.run ops
  refine ⟨h.exact, h.bounded, h.listed.once, h.listed.listed, fun key => ?_⟩
  exact ⟨⟨_, (h.balanced key).symm⟩, h.balanced key⟩

end BackgroundOutput

end Lector.Tmux
