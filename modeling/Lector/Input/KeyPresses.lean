import Lector.Tmux.KeyNames
import Lector.Topology.Model
import Mathlib.Data.Finset.Erase
import Mathlib.Data.Finset.Insert

/-! Key presses and their releases (`handle_key_event` in `src/app/input.rs`). Presses are kept on
record under the key, and the release is judged by the record. What the rest of the program answers
for an event is its context. -/
namespace Lector.Input
open Bytes Tmux Lector.Topology

def maxDeferredKittyReleases : Nat := 64
def kittyCtrlCReleaseHandoffMs : Nat := 100

/-! ## Events -/

/-- `Code` is the key code of the key library, which names the physical key. -/
structure KeyId (Code : Type) where
  code : Code
  modifiers : KeyModifiers
  state : KeyEventState
deriving DecidableEq

inductive KeyEventKind
  | press
  | repeat
  | release
deriving DecidableEq

structure KeyInput (Code : Type) where
  id : KeyId Code
  kind : KeyEventKind
  raw : Bytes
deriving DecidableEq

def kittyEncoded (raw : Bytes) : Bool := [esc, 0x5b].isPrefixOf raw && [0x75].isSuffixOf raw

inductive ForwardedInputTarget
  | rootPty
  | tmuxPane (connectionId : UInt64) (paneId : PaneId)
deriving DecidableEq

structure ForwardedKeyPress where
  target : ForwardedInputTarget
  kittyKeyboardFlags : UInt8
deriving DecidableEq

structure DeferredKittyRelease where
  target : ForwardedInputTarget
  kittyKeyboardFlags : UInt8
  bytes : Bytes
  releaseAtMs : Nat
deriving DecidableEq

inductive CommandResult
  | handled
  | forwardInput
  | paste
  | ptyInput
deriving DecidableEq

/-- The actions as far as they differ for a press: overlays of tmux, and the click that may place
the cursor. -/
inductive BuiltinAction
  | openReview
  | openLuaRepl
  | tmuxOverlay (preemptsTmuxPrefix : Bool)
  | leftClick (placed : Bool) (result : CommandResult)
  | toggleHelp (result : CommandResult)
  | command (result : CommandResult)
deriving DecidableEq

inductive Binding
  | builtin (action : BuiltinAction)
  | lua
deriving DecidableEq

inductive ViewAction
  | ptyInput
  | tmuxInput (connectionId : UInt64) (paneId : PaneId)
  | pop
  | popupResponse
  | activateTmuxConnection
  | other
deriving DecidableEq

namespace ViewAction

def target : ViewAction → Option ForwardedInputTarget
  | ptyInput => some .rootPty
  | tmuxInput connectionId paneId => some (.tmuxPane connectionId paneId)
  | _ => none

def isTransition : ViewAction → Bool
  | pop | popupResponse | activateTmuxConnection => true
  | _ => false

end ViewAction

/-- What the rest of the program answers while one event is handled. -/
structure KeyContext where
  nowMs : Nat
  quarantine : Bool
  activeTarget : Option ForwardedKeyPress
  passThrough : Bool
  /-- `handle_tmux_prefix_key`, where it is asked. -/
  prefixTakesKey : Bool
  binding : Option Binding
  helpMode : Bool
  tableMode : Bool
  hookHandlesKey : Bool
  /-- The flags of the child, and the bytes for one without the protocol. -/
  kittyKeyboardFlags : UInt8
  legacyChildBytes : Bytes
  action : ViewAction
deriving DecidableEq

namespace KeyContext
variable (ctx : KeyContext)

def commandConsumes (result : CommandResult) : Bool := result != .forwardInput

def actionConsumes : BuiltinAction → Bool
  | .openReview | .openLuaRepl | .tmuxOverlay _ => true
  | .leftClick placed result => placed || commandConsumes result
  | .toggleHelp result | .command result => commandConsumes result

/-- Whether Lector consumes the press, after pass-through and the prefix of tmux. -/
def consumes : Bool :=
  match ctx.binding with
  | some (.builtin (.toggleHelp result)) => actionConsumes (.toggleHelp result)
  | some (.builtin action) => ctx.helpMode || actionConsumes action
  | some .lua => true
  | none => ctx.helpMode || ctx.tableMode || ctx.hookHandlesKey

def preemptsTmuxPrefix : Bool :=
  match ctx.binding with
  | some (.builtin (.tmuxOverlay preempts)) => preempts
  | _ => false

end KeyContext

/-! ## Records -/

inductive KeyOutcome
  | quarantined
  | consumed
  | swallowed
  | ownerChanged
  | deferred
  | dispatched (bytes : Bytes) (action : ViewAction)
deriving DecidableEq

structure KeyPresses (Code : Type) where
  consumed : Finset (KeyId Code)
  viewTransition : Finset (KeyId Code)
  forwarded : KeyId Code → Option ForwardedKeyPress
  deferredKittyReleases : List DeferredKittyRelease

variable {Code : Type}

/-- What the active view gets. A release has no bytes for a child without the Kitty protocol. -/
def childBytes (ctx : KeyContext) (key : KeyInput Code) : Bytes :=
  if ctx.kittyKeyboardFlags ≠ 0 then key.raw
  else if key.kind = .release then []
  else ctx.legacyChildBytes

variable [DecidableEq Code]

namespace KeyPresses

def new : KeyPresses Code := ⟨∅, ∅, fun _ => none, []⟩

variable (s : KeyPresses Code)

def forget (id : KeyId Code) : KeyPresses Code :=
  { s with
    consumed := s.consumed.erase id
    viewTransition := s.viewTransition.erase id
    forwarded := Function.update s.forwarded id none }

/-- The owner that a dispatched key is recorded with: a Kitty press that becomes input of the
application. -/
def recordedOwner (ctx : KeyContext) (key : KeyInput Code) : Option ForwardedKeyPress :=
  if key.kind ≠ .release ∧ kittyEncoded key.raw then
    ctx.action.target.map fun target => ⟨target, ctx.kittyKeyboardFlags⟩
  else none

def dispatchKeyToView (ctx : KeyContext) (key : KeyInput Code) : KeyPresses Code × KeyOutcome :=
  ({ s with
      forwarded := match recordedOwner ctx key with
        | some owner => Function.update s.forwarded key.id (some owner)
        | none => s.forwarded
      viewTransition := if ctx.action.isTransition then insert key.id s.viewTransition
        else s.viewTransition },
    .dispatched (childBytes ctx key) ctx.action)

def deferRelease (ctx : KeyContext) (press : ForwardedKeyPress) (raw : Bytes) : KeyPresses Code :=
  let queued := if s.deferredKittyReleases.length = maxDeferredKittyReleases then
      s.deferredKittyReleases.tail
    else s.deferredKittyReleases
  { s with
    deferredKittyReleases := queued ++
      [⟨press.target, press.kittyKeyboardFlags, raw, ctx.nowMs + kittyCtrlCReleaseHandoffMs⟩] }

variable (isControlC : KeyId Code → Bool)

section

variable (ctx : KeyContext)

section

variable (key : KeyInput Code)

def handleRelease : KeyPresses Code × KeyOutcome :=
  let forgotten := s.forget key.id
  if key.id ∈ s.consumed ∨ key.id ∈ s.viewTransition then (forgotten, .swallowed)
  else
    match s.forwarded key.id with
    | some press =>
      if ctx.activeTarget ≠ some press then (forgotten, .ownerChanged)
      else if isControlC key.id && kittyEncoded key.raw then
        (forgotten.deferRelease ctx press key.raw, .deferred)
      else forgotten.dispatchKeyToView ctx key
    | none => forgotten.dispatchKeyToView ctx key

/-- A press that is dispatched is not on record as consumed, whichever of both comes first on its
route. -/
def handlePress : KeyPresses Code × KeyOutcome :=
  let s := { s with viewTransition := s.viewTransition.erase key.id }
  let consume := ({ s with consumed := insert key.id s.consumed }, KeyOutcome.consumed)
  let dispatch := dispatchKeyToView { s with consumed := s.consumed.erase key.id } ctx key
  if ctx.passThrough then dispatch
  else if !ctx.preemptsTmuxPrefix && ctx.prefixTakesKey then consume
  else if ctx.consumes then consume
  else dispatch

def quarantines : Bool :=
  isControlC key.id && kittyEncoded key.raw && ctx.quarantine

def handleKeyEvent : KeyPresses Code × KeyOutcome :=
  if quarantines isControlC ctx key then (s.forget key.id, .quarantined)
  else if key.kind = .release then s.handleRelease isControlC ctx key
  else s.handlePress ctx key

end

end

/-- A release whose owner is no longer active is dropped, one that is not due stays. -/
def flushDeferredKittyReleases (nowMs : Nat) (activeTarget : Option ForwardedKeyPress) :
    KeyPresses Code × List DeferredKittyRelease :=
  let owned := s.deferredKittyReleases.filter fun release =>
    activeTarget = some ⟨release.target, release.kittyKeyboardFlags⟩
  ({ s with deferredKittyReleases := owned.filter fun release => nowMs < release.releaseAtMs },
    owned.filter fun release => !decide (nowMs < release.releaseAtMs))

/-- What the main loop does with the records. -/
inductive Step (Code : Type)
  | event (ctx : KeyContext) (key : KeyInput Code)
  | flush (nowMs : Nat) (activeTarget : Option ForwardedKeyPress)
deriving DecidableEq

/-- The records after a step, and the releases it writes late. -/
def step : Step Code → KeyPresses Code × List DeferredKittyRelease
  | .event ctx key => ((s.handleKeyEvent isControlC ctx key).1, [])
  | .flush nowMs activeTarget => s.flushDeferredKittyReleases nowMs activeTarget

def run (s : KeyPresses Code) : List (Step Code) → KeyPresses Code × List DeferredKittyRelease
  | [] => (s, [])
  | x :: steps =>
    let (s, written) := s.step isControlC x
    let (s, later) := run s steps
    (s, written ++ later)

def defers : Step Code → Nat
  | .event ctx key => if (s.handleKeyEvent isControlC ctx key).2 = .deferred then 1 else 0
  | .flush _ _ => 0

/-- How many releases a run holds back. -/
def deferrals (s : KeyPresses Code) : List (Step Code) → Nat
  | [] => 0
  | x :: steps => s.defers isControlC x + deferrals (s.step isControlC x).1 steps

/-! ## The records of one key -/

def record (id : KeyId Code) : Bool × Option ForwardedKeyPress :=
  (decide (id ∈ s.consumed ∨ id ∈ s.viewTransition), s.forwarded id)

variable {s isControlC}

theorem handleKeyEvent_record_of_ne (ctx : KeyContext) {key : KeyInput Code} {id : KeyId Code}
    (h : key.id ≠ id) : (s.handleKeyEvent isControlC ctx key).1.record id = s.record id := by
  have hforget : (s.forget key.id).record id = s.record id := by
    simp [forget, record, h.symm]
  have hdispatch : ∀ s : KeyPresses Code, (s.dispatchKeyToView ctx key).1.record id = s.record id := by
    cases howner : recordedOwner ctx key <;> by_cases htransition : ctx.action.isTransition <;>
      simp [dispatchKeyToView, record, howner, htransition, h.symm]
  rw [handleKeyEvent]
  split
  · exact hforget
  · split
    · unfold handleRelease
      split
      · exact hforget
      · split
        · split
          · exact hforget
          · split
            · exact hforget
            · rw [hdispatch, hforget]
        · rw [hdispatch, hforget]
    · unfold handlePress
      split
      · rw [hdispatch]
        simp [record, h.symm]
      · split
        · simp [record, h.symm]
        · split
          · simp [record, h.symm]
          · rw [hdispatch]
            simp [record, h.symm]

theorem run_record_of_ne {steps : List (Step Code)} {id : KeyId Code}
    (h : ∀ ctx key, .event ctx key ∈ steps → key.id.code ≠ id.code) :
    (s.run isControlC steps).1.record id = s.record id := by
  induction steps generalizing s with
  | nil => rfl
  | cons x steps ih =>
    have hrest := ih (s := (s.step isControlC x).1) fun ctx key hkey => h ctx key (.tail _ hkey)
    have hstep : (s.step isControlC x).1.record id = s.record id := by
      cases x with
      | event ctx key =>
        exact handleKeyEvent_record_of_ne ctx fun hid => h ctx key (.head _) (congrArg KeyId.code hid)
      | flush => rfl
    exact hrest.trans hstep

theorem handlePress_cases (s : KeyPresses Code) (ctx : KeyContext) (key : KeyInput Code) :
    ((s.handlePress ctx key).2 = .consumed ∧ ((s.handlePress ctx key).1.record key.id).1 = true) ∨
      ((s.handlePress ctx key).2 = .dispatched (childBytes ctx key) ctx.action ∧
        (s.handlePress ctx key).1.record key.id =
          (ctx.action.isTransition, (recordedOwner ctx key).or (s.forwarded key.id))) := by
  have hdispatch : ∀ s : KeyPresses Code, key.id ∉ s.consumed → key.id ∉ s.viewTransition →
      (s.dispatchKeyToView ctx key).1.record key.id =
        (ctx.action.isTransition, (recordedOwner ctx key).or (s.forwarded key.id)) := by
    intro s hconsumed hstays
    cases howner : recordedOwner ctx key <;> by_cases htransition : ctx.action.isTransition <;>
      simp [dispatchKeyToView, record, howner, htransition, hconsumed, hstays]
  unfold handlePress
  split
  · exact .inr ⟨rfl, hdispatch _ (by simp) (by simp)⟩
  · split
    · exact .inl ⟨rfl, by simp [record]⟩
    · split
      · exact .inl ⟨rfl, by simp [record]⟩
      · exact .inr ⟨rfl, hdispatch _ (by simp) (by simp)⟩

variable (isControlC) in
/-- What becomes of a release whose press was not consumed, by the owner on record. -/
def ownedRelease (owner : Option ForwardedKeyPress) (ctx : KeyContext) (key : KeyInput Code) : KeyOutcome :=
  match owner with
  | some press =>
    if ctx.activeTarget ≠ some press then .ownerChanged
    else if isControlC key.id && kittyEncoded key.raw then .deferred
    else .dispatched (childBytes ctx key) ctx.action
  | none => .dispatched (childBytes ctx key) ctx.action

theorem handleKeyEvent_release {ctx : KeyContext} {key : KeyInput Code} (h : key.kind = .release) :
    (s.handleKeyEvent isControlC ctx key).2 =
      if quarantines isControlC ctx key then .quarantined
      else if (s.record key.id).1 then .swallowed
      else ownedRelease isControlC (s.record key.id).2 ctx key := by
  rw [handleKeyEvent]
  split
  · rfl
  · simp only [handleRelease, record, decide_eq_true_eq]
    split
    · rfl
    · unfold ownedRelease
      split
      · split
        · rfl
        · split
          · rfl
          · rfl
      · rfl

/-! ## Held-back releases -/

variable (isControlC) in
theorem handleKeyEvent_queue (s : KeyPresses Code) (ctx : KeyContext) (key : KeyInput Code) :
    (s.handleKeyEvent isControlC ctx key).2 ≠ .deferred ∧
        (s.handleKeyEvent isControlC ctx key).1.deferredKittyReleases = s.deferredKittyReleases ∨
      ∃ press, (s.record key.id).2 = some press ∧ ctx.activeTarget = some press ∧
        s.handleKeyEvent isControlC ctx key =
          ((s.forget key.id).deferRelease ctx press key.raw, .deferred) := by
  rw [handleKeyEvent]
  split
  · exact .inl ⟨by simp, rfl⟩
  · split
    · unfold handleRelease
      split
      · exact .inl ⟨by simp, rfl⟩
      · split
        · rename_i press hforwarded
          split
          · exact .inl ⟨by simp, rfl⟩
          · rename_i howner
            split
            · exact .inr ⟨press, hforwarded, not_ne_iff.mp howner, rfl⟩
            · exact .inl ⟨by simp [dispatchKeyToView], rfl⟩
        · exact .inl ⟨by simp [dispatchKeyToView], rfl⟩
    · unfold handlePress
      split
      · exact .inl ⟨by simp [dispatchKeyToView], rfl⟩
      · split
        · exact .inl ⟨by simp, rfl⟩
        · split
          · exact .inl ⟨by simp, rfl⟩
          · exact .inl ⟨by simp [dispatchKeyToView], rfl⟩

variable {owner : ForwardedKeyPress} {held : DeferredKittyRelease}

/-- The flushes of a run find the owner of a held-back release in place and its time not yet come. -/
def FlushedEarly (owner : ForwardedKeyPress) (held : DeferredKittyRelease) (steps : List (Step Code)) :
    Prop :=
  ∀ nowMs target, .flush nowMs target ∈ steps → target = some owner ∧ nowMs < held.releaseAtMs

variable (isControlC) in
theorem step_holds {front back : List DeferredKittyRelease} (x : Step Code)
    (howner : owner = ⟨held.target, held.kittyKeyboardFlags⟩)
    (hqueue : s.deferredKittyReleases = front ++ held :: back) (hearly : FlushedEarly owner held [x])
    (hroom : back.length + s.defers isControlC x < maxDeferredKittyReleases) :
    (∃ front back', (s.step isControlC x).1.deferredKittyReleases = front ++ held :: back' ∧
        back'.length ≤ back.length + s.defers isControlC x) ∧
      held ∉ (s.step isControlC x).2 := by
  cases x with
  | event ctx key =>
    refine ⟨?_, by simp [step]⟩
    obtain ⟨-, hkeeps⟩ | ⟨press, -, -, hdefers⟩ := handleKeyEvent_queue isControlC s ctx key
    · exact ⟨front, back, hkeeps.trans hqueue, Nat.le_add_right _ _⟩
    · simp only [defers, hdefers, if_pos] at hroom
      simp only [step, defers, hdefers, if_pos, deferRelease, forget, hqueue]
      split
      · rename_i hfull
        cases front with
        | nil => simp at hfull; omega
        | cons first front => exact ⟨front, back ++ [_], by simp; rfl, by simp⟩
      · exact ⟨front, back ++ [_], by simp; rfl, by simp⟩
  | flush nowMs target =>
    obtain ⟨htarget, hnow⟩ := hearly nowMs target (.head _)
    simp only [step, flushDeferredKittyReleases, hqueue, List.filter_append, List.filter_cons, htarget,
      howner, decide_true, if_pos, hnow]
    refine ⟨⟨_, _, rfl, ?_⟩, by simp [hnow]⟩
    exact (List.filter_sublist.trans List.filter_sublist).length_le.trans (Nat.le_add_right _ _)

theorem run_holds {front back : List DeferredKittyRelease} {steps : List (Step Code)}
    (howner : owner = ⟨held.target, held.kittyKeyboardFlags⟩)
    (hqueue : s.deferredKittyReleases = front ++ held :: back) (hearly : FlushedEarly owner held steps)
    (hroom : back.length + s.deferrals isControlC steps < maxDeferredKittyReleases) :
    held ∈ (s.run isControlC steps).1.deferredKittyReleases ∧ held ∉ (s.run isControlC steps).2 := by
  induction steps generalizing s front back with
  | nil => exact ⟨by simp [run, hqueue], by simp [run]⟩
  | cons x steps ih =>
    simp only [deferrals] at hroom
    obtain ⟨⟨front, back', hnext, hlength⟩, hwritten⟩ := step_holds isControlC x howner hqueue
      (fun nowMs target h => hearly nowMs target (by simp_all)) (by omega)
    obtain ⟨hstays, hlater⟩ := ih hnext (fun nowMs target h => hearly nowMs target (.tail _ h)) (by omega)
    exact ⟨hstays, by simp [run, hwritten, hlater]⟩

variable (isControlC) in
/-- What a held-back release comes to, unless so many later ones are held back that it is pushed out: it is
not written early, and the first flush that finds it due or its owner gone takes every copy of it out, in the
one case to write it. -/
def WrittenOnceDue (owner : ForwardedKeyPress) (held : DeferredKittyRelease) (s : KeyPresses Code) : Prop :=
  ∀ later, FlushedEarly owner held later → s.deferrals isControlC later < maxDeferredKittyReleases →
    let (last, written) := s.run isControlC later
    held ∈ last.deferredKittyReleases ∧ held ∉ written ∧ ∀ nowMs target,
        let (flushed, written) := last.flushDeferredKittyReleases nowMs target
        (target = some owner → held.releaseAtMs ≤ nowMs →
            written.count held = last.deferredKittyReleases.count held ∧
              held ∉ flushed.deferredKittyReleases) ∧
          (target ≠ some owner → held ∉ written ∧ held ∉ flushed.deferredKittyReleases)

theorem writtenOnceDue_deferRelease (ctx : KeyContext) (raw : Bytes) : WrittenOnceDue isControlC owner
      ⟨owner.target, owner.kittyKeyboardFlags, raw, ctx.nowMs + kittyCtrlCReleaseHandoffMs⟩
      (s.deferRelease ctx owner raw) := by
  intro later hearly hroom
  obtain ⟨hstays, hwritten⟩ := run_holds rfl (s := s.deferRelease ctx owner raw) rfl hearly
    (by simpa using hroom)
  refine ⟨hstays, hwritten, fun nowMs target => ⟨?_, ?_⟩⟩
  · rintro rfl hdue
    refine ⟨?_, by simp [hdue]⟩
    rw [List.count_filter (by simpa using hdue), List.count_filter (by simp)]
  · intro htarget
    simp [htarget]

/-- **A release follows its press.** It is not passed on when the press was consumed or its view gave way.
Otherwise it is dispatched too, unless its recorded owner is no longer active or it is a Ctrl-C that is held
back: then it is queued for its owner and written once it is due. -/
theorem release_follows_press (isControlC : KeyId Code → Bool)
    (before between : List (Step Code)) (pressCtx releaseCtx : KeyContext)
    (press release : KeyInput Code) (hpress : press.kind ≠ .release)
    (hrelease : release.kind = .release) (hkey : release.id = press.id)
    (hbetween : ∀ ctx key, .event ctx key ∈ between → key.id.code ≠ press.id.code) :
    let start := (new.run isControlC before).1
    let (after, pressed) := start.handleKeyEvent isControlC pressCtx press
    let owner := (recordedOwner pressCtx press).or (start.forwarded press.id)
    let (final, released) :=
      (after.run isControlC between).1.handleKeyEvent isControlC releaseCtx release
    (pressed = .consumed ∨ pressed = .dispatched (childBytes pressCtx press) pressCtx.action ∧
          pressCtx.action.isTransition →
      released = if quarantines isControlC releaseCtx release then .quarantined else .swallowed) ∧
    (pressed = .dispatched (childBytes pressCtx press) pressCtx.action →
      pressCtx.action.isTransition = false →
      released = if quarantines isControlC releaseCtx release then .quarantined
        else ownedRelease isControlC owner releaseCtx release) ∧
    (pressed = .quarantined →
      released = if quarantines isControlC releaseCtx release then .quarantined
        else .dispatched (childBytes releaseCtx release) releaseCtx.action) ∧
    (released = .deferred → ∃ press, owner = some press ∧ releaseCtx.activeTarget = some press ∧
        WrittenOnceDue isControlC press ⟨press.target, press.kittyKeyboardFlags, release.raw,
          releaseCtx.nowMs + kittyCtrlCReleaseHandoffMs⟩ final) := by
  intro start
  obtain ⟨⟨after, pressed⟩, hpressed⟩ : ∃ r, start.handleKeyEvent isControlC pressCtx press = r :=
    ⟨_, rfl⟩
  rw [hpressed]
  dsimp only
  generalize howner : (recordedOwner pressCtx press).or (start.forwarded press.id) = owner
  have hreleased : ((after.run isControlC between).1.handleKeyEvent isControlC releaseCtx release).2 = _ :=
    handleKeyEvent_release hrelease
  have hrun : (after.run isControlC between).1.record press.id = after.record press.id :=
    run_record_of_ne hbetween
  rw [hkey, hrun] at hreleased
  have hheld := handleKeyEvent_queue isControlC (after.run isControlC between).1 releaseCtx release
  rw [hkey, hrun] at hheld
  obtain ⟨⟨final, released⟩, hfinal⟩ :
      ∃ r, (after.run isControlC between).1.handleKeyEvent isControlC releaseCtx release = r := ⟨_, rfl⟩
  rw [hfinal] at hreleased hheld ⊢
  simp only at hreleased hheld ⊢
  have hdeferred : released = .deferred → ∃ owner, (after.record press.id).2 = some owner ∧
      releaseCtx.activeTarget = some owner ∧ WrittenOnceDue isControlC owner ⟨owner.target,
        owner.kittyKeyboardFlags, release.raw, releaseCtx.nowMs + kittyCtrlCReleaseHandoffMs⟩ final := by
    intro hdeferred
    obtain ⟨hother, -⟩ | ⟨owner, hrecord, hactive, hfinal⟩ := hheld
    · exact absurd hdeferred hother
    · rw [(Prod.mk.inj hfinal).1]
      exact ⟨owner, hrecord, hactive, writtenOnceDue_deferRelease releaseCtx release.raw⟩
  by_cases hquarantine : quarantines isControlC pressCtx press
  · rw [handleKeyEvent, if_pos hquarantine] at hpressed
    obtain ⟨rfl, rfl⟩ := Prod.mk.inj hpressed
    have hrecord : (start.forget press.id).record press.id = (false, none) := by
      simp [forget, record]
    rw [hrecord] at hreleased hdeferred
    refine ⟨by simp, by simp, fun _ => hreleased, fun h => ?_⟩
    obtain ⟨_, hnone, _⟩ := hdeferred h
    cases hnone
  · rw [handleKeyEvent, if_neg hquarantine, if_neg hpress] at hpressed
    have hcases := start.handlePress_cases pressCtx press
    rw [hpressed] at hcases
    obtain ⟨rfl, hrecord⟩ | ⟨rfl, hrecord⟩ := hcases
    · rw [hrecord, if_pos rfl] at hreleased
      refine ⟨fun _ => hreleased, by simp, by simp, fun h => ?_⟩
      rw [h] at hreleased
      split at hreleased
      · cases hreleased
      · cases hreleased
    · rw [hrecord] at hreleased hdeferred
      refine ⟨?_, fun _ hstays => ?_, by simp, ?_⟩
      · rintro (hconsumed | ⟨-, htransition⟩)
        · simp at hconsumed
        · rw [hreleased, htransition, if_pos rfl]
      · rw [hreleased, hstays, howner]
        simp
      · rw [← howner]
        exact hdeferred

end KeyPresses

/-! ### Runs -/

section Examples
open KeyPresses

def held (ctrl : Bool) : KeyModifiers := { noModifiers with ctrl }

def kittyKey (code : Nat) (ctrl : Bool) (kind : KeyEventKind) : KeyInput Nat where
  id := ⟨code, held ctrl, ⟨false, false, false⟩⟩
  kind := kind
  raw := ascii "\x1b[97;5:1u"

/-- The shell or an application with the Kitty protocol has the input, and nothing is bound. -/
def forwarding (flags : UInt8) : KeyContext where
  nowMs := 0
  quarantine := false
  activeTarget := some ⟨.rootPty, flags⟩
  passThrough := false
  prefixTakesKey := false
  binding := none
  helpMode := false
  tableMode := false
  hookHandlesKey := false
  kittyKeyboardFlags := flags
  legacyChildBytes := [0x61]
  action := .ptyInput

def commanding : KeyContext := { forwarding 1 with binding := some (.builtin (.command .handled)) }

/-- A Ctrl-C that a Kitty application got is let go while another key is held, and its release waits for
its 100 milliseconds. -/
theorem release_follows_press_controlC :
    let isControlC : KeyId Nat → Bool := fun id => id.code = 99
    let between := [Step.event (forwarding 1) (kittyKey 98 false .press), .flush 5 none]
    let after := ((new : KeyPresses Nat).handleKeyEvent isControlC (forwarding 1)
      (kittyKey 99 true .press)).1
    let (final, released) := (after.run isControlC between).1.handleKeyEvent isControlC (forwarding 1)
      (kittyKey 99 true .release)
    released = .deferred ∧ (final.flushDeferredKittyReleases 99 (forwarding 1).activeTarget).2 = [] ∧
      (final.flushDeferredKittyReleases 100 (forwarding 1).activeTarget).2 =
        [⟨.rootPty, 1, (kittyKey 99 true .release).raw, 100⟩] ∧
      WrittenOnceDue isControlC ⟨.rootPty, 1⟩ ⟨.rootPty, 1, (kittyKey 99 true .release).raw, 100⟩ final := by
  refine ⟨by decide, by decide, by decide, ?_⟩
  obtain ⟨-, -, -, hdeferred⟩ := release_follows_press (fun id : KeyId Nat => id.code = 99) []
    [.event (forwarding 1) (kittyKey 98 false .press), .flush 5 none] (forwarding 1) (forwarding 1)
    (kittyKey 99 true .press) (kittyKey 99 true .release) (by decide) rfl rfl (by simp [kittyKey])
  obtain ⟨press, -, hactive, hwritten⟩ := hdeferred (by decide)
  cases hactive
  exact hwritten

def pressAndRelease (pressCtx releaseCtx : KeyContext) (press release : KeyInput Nat) :
    KeyOutcome × KeyOutcome :=
  let (after, pressed) := (new : KeyPresses Nat).handleKeyEvent (fun _ => false) pressCtx press
  (pressed, (after.handleKeyEvent (fun _ => false) releaseCtx release).2)

/-- A release whose modifier was let go first, and one whose application gave up the Kitty protocol.
-/
theorem release_without_its_press : pressAndRelease commanding (forwarding 1) (kittyKey 97 true .press)
        (kittyKey 97 false .release) =
      (.consumed, .dispatched (kittyKey 97 false .release).raw .ptyInput) ∧
    pressAndRelease (forwarding 1) (forwarding 0) (kittyKey 97 false .press)
        (kittyKey 97 false .release) =
      (.dispatched (kittyKey 97 false .press).raw .ptyInput, .ownerChanged) := by
  decide

end Examples

end Lector.Input
