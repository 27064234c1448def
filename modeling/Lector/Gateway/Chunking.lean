import Lector.Foundations.Coalesce
import Lector.Gateway.Steps

/-! Chunk independence of the router. Only the buffer of unflushed direct bytes sees a chunk border,
and it is empty whenever a connection is active. -/
namespace Lector.Gateway
open Control Coalesce List

/-! ## Events up to the cuts between direct output -/

def GatewayEvent.readDirect : GatewayEvent → Option (Unit × Bytes)
  | .directOutput bytes => some ((), bytes)
  | _ => none

def directPieces : Pieces Unit UInt8 GatewayEvent where
  text _ bytes := .directOutput bytes
  read := GatewayEvent.readDirect
  read_eq_some := by
    rintro (bytes | id | ⟨id, event⟩ | id | ⟨id, reason⟩) ⟨⟩ a <;> simp [GatewayEvent.readDirect]

def coalesce (events : List GatewayEvent) : List GatewayEvent := directPieces.merge events

abbrev Item := (Unit × UInt8) ⊕ GatewayEvent

def directItems (bytes : Bytes) : List Item := bytes.map fun b => .inl ((), b)

@[simp] theorem directItems_nil : directItems [] = [] := rfl

@[simp] theorem directItems_append (xs ys : Bytes) :
    directItems (xs ++ ys) = directItems xs ++ directItems ys := map_append

@[simp] theorem items_directOutput (bytes : Bytes) :
    directPieces.items (.directOutput bytes) = directItems bytes := rfl

@[simp] theorem expand_emitDirect (events : List GatewayEvent) (direct : Bytes) :
    directPieces.expand (emitDirect events direct) = directPieces.expand events ++ directItems direct := by
  unfold emitDirect
  split
  · rename_i h
    simp [isEmpty_iff.mp h]
  · simp

def PushState.items (s : PushState) : List Item := directPieces.expand s.events ++ directItems s.direct

/-- Two states of the loop that differ in the items emitted `before`; with a connection neither
holds bytes. -/
structure Mirrors (before : List Item) (s s₀ : PushState) : Prop where
  router : s.router = s₀.router
  items : s.items = before ++ s₀.items
  flushed : s.router.active ≠ none → s.direct = []
  flushed₀ : s₀.router.active ≠ none → s₀.direct = []

inductive Iteration.Mirrors (before : List Item) : Iteration → Iteration → Prop
  | advance {s s₀ : PushState} (h : Gateway.Mirrors before s s₀) : Mirrors before (.advance s) (.advance s₀)
  | reconsider {s s₀ : PushState} (h : Gateway.Mirrors before s s₀) :
      Mirrors before (.reconsider s) (.reconsider s₀)
  | fail (r : TmuxGatewayRouter) (error : GatewayError) : Mirrors before (.fail r error) (.fail r error)

variable {before : List Item} {s s₀ s' : PushState}

theorem Mirrors.emit (h : Mirrors before s s₀) (hactive : s.router.active ≠ none) (router : TmuxGatewayRouter)
    (new : List GatewayEvent) (direct : Bytes) (hdirect : router.active ≠ none → direct = []) :
    Mirrors before ⟨router, s.events ++ new, s.direct ++ direct⟩
      ⟨router, s₀.events ++ new, s₀.direct ++ direct⟩ := by
  have hd := h.flushed hactive
  have hd₀ := h.flushed₀ (h.router ▸ hactive)
  have hitems := h.items
  simp only [PushState.items, hd, directItems_nil, append_nil] at hitems
  refine ⟨rfl, ?_, fun ha => by simp [hd, hdirect ha], fun ha => by simp [hd₀, hdirect ha]⟩
  simp [PushState.items, hd, hd₀, hitems]

theorem Mirrors.parses (h : Mirrors before s s₀)
    {a : ActiveControl} {byte : UInt8} (hp : Parses s a byte) : Parses s₀ a byte :=
  ⟨h.router ▸ hp.1, hp.2⟩

theorem Mirrors.iteration (h : Mirrors before s s₀) (byte : UInt8) :
    Iteration.Mirrors before (Gateway.iteration s byte) (Gateway.iteration s₀ byte) := by
  have hr := h.router
  generalize hit : Gateway.iteration s byte = it
  cases step_iff.mpr hit with
  | drained a hactive hrec hst =>
    rw [iteration_of_step (.drained a (hr ▸ hactive) hrec hst), hr]
    simpa using Iteration.Mirrors.advance (h.emit (by simp [hactive]) _ _ [] (by simp))
  | draining a hactive hrec hst =>
    rw [iteration_of_step (.draining a (hr ▸ hactive) hrec hst), hr]
    simpa using Iteration.Mirrors.advance (h.emit (by simp [hactive]) _ [] [] (by simp))
  | missing a hactive hlive hwait =>
    rw [iteration_of_step (.missing a (hr ▸ hactive) hlive hwait), hr]
    simpa using Iteration.Mirrors.reconsider (h.emit (by simp [hactive]) _ _ [] (by simp))
  | handedBack a hparses parser source hparse hback =>
    rw [iteration_of_step (.handedBack a (h.parses hparses) parser source hparse hback), hr]
    exact .advance (h.emit (by simp [hparses.1]) _ _ _ (by simp))
  | quarantined a hparses parser source hparse hback =>
    rw [iteration_of_step (.quarantined a (h.parses hparses) parser source hparse hback), hr]
    simpa using Iteration.Mirrors.advance (h.emit (by simp [hparses.1]) _ _ [] (by simp))
  | parsed a hparses parser parsed hparse hended =>
    rw [iteration_of_step (.parsed a (h.parses hparses) parser parsed hparse hended), hr]
    simpa using Iteration.Mirrors.advance (h.emit (by simp [hparses.1]) _ _ [] (by simp))
  | ended a hparses parser parsed hparse hended =>
    rw [iteration_of_step (.ended a (h.parses hparses) parser parsed hparse hended), hr]
    have hemit := h.emit (by simp [hparses.1]) (s₀.router.close a.connectionId)
      (parsed.map (.control a.connectionId) ++
        [closingEvent (acceptedRecord (recordedByte a byte) parser parsed byte)]) [] (by simp)
    simpa using Iteration.Mirrors.advance hemit
  | matched hactive hbyte longer hextend =>
    rw [iteration_of_step (.matched (hr ▸ hactive) (hr ▸ hbyte) longer (hr ▸ hextend)), hr]
    exact .advance ⟨rfl, h.items, fun ha => h.flushed (hr ▸ ha), h.flushed₀⟩
  | started hactive hbyte hextend next hnext =>
    rw [iteration_of_step (.started (hr ▸ hactive) (hr ▸ hbyte) (hr ▸ hextend) next (hr ▸ hnext)), hr]
    refine .advance ⟨rfl, ?_, by simp, by simp⟩
    have hitems := h.items
    simp only [PushState.items] at hitems ⊢
    simp only [Pieces.expand_append, expand_emitDirect, hitems, append_assoc]
  | exhausted hactive hbyte hextend hnext =>
    rw [iteration_of_step (.exhausted (hr ▸ hactive) (hr ▸ hbyte) (hr ▸ hextend) (hr ▸ hnext)), hr]
    exact .fail _ _
  | passed hactive hbyte hempty =>
    rw [iteration_of_step (.passed (hr ▸ hactive) (hr ▸ hbyte) (hr ▸ hempty)), hr]
    refine .advance ⟨rfl, ?_, fun ha => absurd (hr ▸ hactive) ha, fun ha => absurd (hr ▸ hactive) ha⟩
    have hitems := h.items
    simp only [PushState.items] at hitems ⊢
    rw [directItems_append, directItems_append, ← append_assoc, hitems]
    simp only [append_assoc]
  | released hactive hbyte hwithheld =>
    rw [iteration_of_step (.released (hr ▸ hactive) (hr ▸ hbyte) (hr ▸ hwithheld)), hr]
    refine .reconsider ⟨rfl, ?_, fun ha => absurd (hr ▸ hactive) ha, fun ha => absurd (hr ▸ hactive) ha⟩
    have hitems := h.items
    simp only [PushState.items] at hitems ⊢
    rw [directItems_append, directItems_append, ← append_assoc, hitems]
    simp only [append_assoc]

def MirrorsResult (before : List Item) : Except (TmuxGatewayRouter × GatewayError) PushState →
    Except (TmuxGatewayRouter × GatewayError) PushState → Prop
  | .error failure, .error failure₀ => failure = failure₀
  | .ok s, .ok s₀ => Mirrors before s s₀
  | _, _ => False

theorem Mirrors.pushByte (h : Mirrors before s s₀) (byte : UInt8) :
    MirrorsResult before (Gateway.pushByte s byte) (Gateway.pushByte s₀ byte) := by
  induction hn : retries s using Nat.strongRecOn generalizing s s₀ with
  | _ n ih =>
    have hit := h.iteration byte
    generalize hleft : Gateway.iteration s byte = it at hit
    generalize hright : Gateway.iteration s₀ byte = it₀ at hit
    cases hit with
    | advance h' => rw [pushByte_advance hleft, pushByte_advance hright]; exact h'
    | reconsider h' =>
      rw [pushByte_reconsider hleft, pushByte_reconsider hright]
      exact ih _ (hn ▸ reconsider_retries hleft) h' rfl
    | fail r error => rw [pushByte_fail hleft, pushByte_fail hright]; exact rfl

theorem Mirrors.pushLoop (h : Mirrors before s s₀) (bytes : Bytes) :
    MirrorsResult before (TmuxGatewayRouter.pushLoop s bytes)
      (TmuxGatewayRouter.pushLoop s₀ bytes) := by
  induction bytes generalizing s s₀ with
  | nil => exact h
  | cons byte bytes ih =>
    have hbyte := h.pushByte byte
    rw [TmuxGatewayRouter.pushLoop, TmuxGatewayRouter.pushLoop]
    cases hleft : Gateway.pushByte s byte with
    | error failure =>
      cases hright : Gateway.pushByte s₀ byte with
      | error failure₀ => rw [hleft, hright] at hbyte; exact hbyte
      | ok t₀ => rw [hleft, hright] at hbyte; exact hbyte.elim
    | ok t =>
      cases hright : Gateway.pushByte s₀ byte with
      | error failure₀ => rw [hleft, hright] at hbyte; exact hbyte.elim
      | ok t₀ => rw [hleft, hright] at hbyte; exact ih hbyte

/-! ## No empty direct output -/

def PushState.Solid (s : PushState) : Prop := directPieces.Solid s.events

theorem solid_other {e : GatewayEvent} (h : e.readDirect = none) : directPieces.Solid [e] := by
  intro e' he' k hk
  rw [mem_singleton.mp he'] at hk
  rw [show directPieces.read e = e.readDirect from rfl, h] at hk
  cases hk

theorem solid_control (id : UInt64) (parsed : List ControlEvent) :
    directPieces.Solid (parsed.map (.control id)) := by
  intro e he k hk
  obtain ⟨event, -, rfl⟩ := mem_map.mp he
  cases hk

theorem solid_emitDirect {events : List GatewayEvent} (h : directPieces.Solid events)
    (direct : Bytes) : directPieces.Solid (emitDirect events direct) := by
  unfold emitDirect
  split
  · exact h
  · rename_i hne
    refine directPieces.solid_append h fun e he k hk => hne ?_
    rw [mem_singleton.mp he] at hk
    simp only [directPieces, GatewayEvent.readDirect, Option.some.injEq, Prod.mk.injEq] at hk
    simp [hk.2]

theorem Step.solid {byte : UInt8} {it : Iteration} (hstep : Step s byte it)
    (hit : it = .advance s' ∨ it = .reconsider s') (hs : s.Solid) : s'.Solid := by
  have hfailed : ∀ id reason, directPieces.Solid [.connectionFailed id reason] :=
    fun id reason => solid_other rfl
  have hended : ∀ id, directPieces.Solid [.connectionEnded id] := fun id => solid_other rfl
  cases hstep <;> rcases hit with hit | hit <;> cases hit
  case drained => exact directPieces.solid_append hs (hended _)
  case draining => exact hs
  case missing => exact directPieces.solid_append hs (hfailed _ _)
  case handedBack => exact directPieces.solid_append hs (hfailed _ _)
  case quarantined => exact directPieces.solid_append hs (hfailed _ _)
  case parsed => exact directPieces.solid_append hs (solid_control _ _)
  case ended =>
    refine directPieces.solid_append (directPieces.solid_append hs (solid_control _ _)) ?_
    unfold closingEvent
    split
    · exact hended _
    · exact hfailed _ _
  case matched => exact hs
  case started =>
    have hstarted : directPieces.Solid [.connectionStarted s.router.nextConnectionId] := solid_other rfl
    have hcontrol : directPieces.Solid [.control s.router.nextConnectionId .started] := solid_other rfl
    exact directPieces.solid_append (solid_emitDirect hs _) (directPieces.solid_append hstarted hcontrol)
  case passed => exact hs
  case released => exact hs

theorem pushByte_solid {byte : UInt8} (hs : s.Solid) (h : pushByte s byte = .ok s') : s'.Solid :=
  pushByte_induction (P := PushState.Solid) (fun _ _ hs hstep => hstep.solid (.inl rfl) hs)
    (fun _ _ hs hstep => hstep.solid (.inr rfl) hs) hs h

namespace TmuxGatewayRouter

theorem push_solid {r r' : TmuxGatewayRouter} {bytes : Bytes} {events : List GatewayEvent}
    (h : r.push bytes = (r', .ok events)) : directPieces.Solid events := by
  unfold push at h
  split at h
  · cases h
  · rename_i s hs
    cases h
    exact solid_emitDirect (pushLoop_induction (P := PushState.Solid)
      (fun _ _ _ hs hb => pushByte_solid hs hb) (by simp [PushState.Solid, Pieces.Solid]) hs) _

/-! ## Chunks -/

/-- Consecutive `push` calls up to the first error, with the concatenation of their events. -/
def pushAll (r : TmuxGatewayRouter) : List Bytes → TmuxGatewayRouter × Except GatewayError (List GatewayEvent)
  | [] => (r, .ok [])
  | chunk :: chunks =>
    match r.push chunk with
    | (r', .error error) => (r', .error error)
    | (r', .ok events) =>
      match r'.pushAll chunks with
      | (r'', .error error) => (r'', .error error)
      | (r'', .ok rest) => (r'', .ok (events ++ rest))

theorem pushAll_solid {r r' : TmuxGatewayRouter} {chunks : List Bytes} {events : List GatewayEvent}
    (h : r.pushAll chunks = (r', .ok events)) : directPieces.Solid events := by
  induction chunks generalizing r events with
  | nil => cases h; exact directPieces.solid_nil
  | cons chunk chunks ih =>
    unfold pushAll at h
    split at h
    · cases h
    · rename_i hpush
      split at h
      · cases h
      · rename_i hrest
        cases h
        exact directPieces.solid_append (push_solid hpush) (ih hrest)

def itemsOf (result : TmuxGatewayRouter × Except GatewayError (List GatewayEvent)) :
    TmuxGatewayRouter × Except GatewayError (List Item) :=
  (result.1, result.2.map directPieces.expand)

/-- The items of a push that continues after `before` was emitted. -/
def prependItems (before : List Item)
    (result : TmuxGatewayRouter × Except GatewayError (List Item)) :
    TmuxGatewayRouter × Except GatewayError (List Item) :=
  (result.1, result.2.map (before ++ ·))

theorem pushLoop_items {s : PushState} (hs : s.router.active ≠ none → s.direct = []) (bytes : Bytes) :
    (match pushLoop s bytes with
      | .error (r, error) => (r, .error error)
      | .ok s' => (s'.router, .ok s'.items)) =
      prependItems s.items (itemsOf (s.router.push bytes)) := by
  have hmirrors : Mirrors s.items s ⟨s.router, [], []⟩ := ⟨rfl, by simp [PushState.items], hs, fun _ => rfl⟩
  have hloop := hmirrors.pushLoop bytes
  rw [push]
  cases hleft : pushLoop s bytes with
  | error failure =>
    cases hright : pushLoop ⟨s.router, [], []⟩ bytes with
    | error failure₀ => rw [hleft, hright] at hloop; cases hloop; rfl
    | ok t₀ => rw [hleft, hright] at hloop; exact hloop.elim
  | ok t =>
    cases hright : pushLoop ⟨s.router, [], []⟩ bytes with
    | error failure₀ => rw [hleft, hright] at hloop; exact hloop.elim
    | ok t₀ =>
      rw [hleft, hright] at hloop
      have hitems := hloop.items
      simp only [itemsOf, Except.map, expand_emitDirect, hloop.router, hitems]
      rfl

theorem push_append_items (r : TmuxGatewayRouter) (xs ys : Bytes) : itemsOf (r.push (xs ++ ys)) =
      match r.push xs with
      | (r', .error error) => (r', .error error)
      | (r', .ok events) => prependItems (directPieces.expand events) (itemsOf (r'.push ys)) := by
  rw [push, push, pushLoop_append]
  cases hxs : pushLoop ⟨r, [], []⟩ xs with
  | error failure => rfl
  | ok s =>
    have hmirrors : Mirrors [] ⟨r, [], []⟩ ⟨r, [], []⟩ := ⟨rfl, rfl, fun _ => rfl, fun _ => rfl⟩
    have hself := hmirrors.pushLoop xs
    rw [hxs] at hself
    have hrest := pushLoop_items hself.flushed ys
    simp only [expand_emitDirect]
    rw [show directPieces.expand s.events ++ directItems s.direct = s.items from rfl, ← hrest]
    cases pushLoop s ys with
    | error failure => rfl
    | ok t => simp [itemsOf, Except.map, PushState.items]

theorem pushAll_items (r : TmuxGatewayRouter) (chunks : List Bytes) :
    itemsOf (r.pushAll chunks) = itemsOf (r.push chunks.flatten) := by
  induction chunks generalizing r with
  | nil => rfl
  | cons chunk chunks ih =>
    rw [flatten_cons, push_append_items, pushAll]
    rcases hpush : r.push chunk with ⟨r', _ | -⟩
    · rfl
    · have hrest := ih r'
      simp only
      rw [← hrest]
      rcases r'.pushAll chunks with ⟨-, _ | -⟩
      · rfl
      · simp [itemsOf, prependItems, Except.map]

/-- **The router is chunk-independent.** However a stream is cut, the router ends in the same state
or the same error, and the events are the same up to the cuts between adjacent direct outputs. -/
theorem pushAll_eq_push (r : TmuxGatewayRouter) (chunks : List Bytes) :
    (r.pushAll chunks).1 = (r.push chunks.flatten).1 ∧
      (r.pushAll chunks).2.map coalesce = (r.push chunks.flatten).2.map coalesce := by
  have hitems := pushAll_items r chunks
  rcases hall : r.pushAll chunks with ⟨r₁, _ | events₁⟩ <;>
    rcases hone : r.push chunks.flatten with ⟨r₂, _ | events₂⟩ <;>
    rw [hall, hone] at hitems <;>
    simp only [itemsOf, Except.map, Prod.mk.injEq, reduceCtorEq, and_false, Except.error.injEq,
      Except.ok.injEq] at hitems
  · simp [hitems]
  · refine ⟨hitems.1, congrArg Except.ok ?_⟩
    exact (directPieces.merge_eq_iff (pushAll_solid hall) (push_solid hone)).mpr hitems.2

end TmuxGatewayRouter

end Lector.Gateway
