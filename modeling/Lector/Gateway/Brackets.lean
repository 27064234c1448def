import Lector.Gateway.Runs

/-! The grammar of the router's event stream: one bracket per connection, opened by its start and
closed by its end or its failure, with nothing of another connection in between. -/
namespace Lector.Gateway
open Bytes Control Foundations List

/-! ## The grammar -/

/-- An event stream is outside any connection, inside one, or inside one that failed. -/
inductive Phase
  | direct
  | live (id : UInt64)
  | draining (id : UInt64)
deriving DecidableEq

/-- A failure either closes its bracket or leaves it draining, with only the end to come. -/
inductive Bracket : Phase → GatewayEvent → Phase → Prop
  | directOutput (bytes : Bytes) : Bracket .direct (.directOutput bytes) .direct
  | started (id : UInt64) : Bracket .direct (.connectionStarted id) (.live id)
  | control (id : UInt64) (event : ControlEvent) : Bracket (.live id) (.control id event) (.live id)
  | ended (id : UInt64) : Bracket (.live id) (.connectionEnded id) .direct
  | failed (id : UInt64) (reason : GatewayFailure) : Bracket (.live id) (.connectionFailed id reason) .direct
  | quarantined (id : UInt64) (reason : GatewayFailure) :
      Bracket (.live id) (.connectionFailed id reason) (.draining id)
  | drained (id : UInt64) : Bracket (.draining id) (.connectionEnded id) .direct

def TmuxGatewayRouter.phase (r : TmuxGatewayRouter) : Phase :=
  match r.active with
  | none => .direct
  | some a => if a.recovering then .draining a.connectionId else .live a.connectionId

section Phases

variable {r : TmuxGatewayRouter} {a : ActiveControl}

theorem phase_direct (h : r.active = none) : r.phase = .direct := by
  rw [TmuxGatewayRouter.phase, h]

theorem phase_active (h : r.active = some a) :
    r.phase = if a.recovering then .draining a.connectionId else .live a.connectionId := by
  rw [TmuxGatewayRouter.phase, h]

theorem phase_live (h : r.active = some a) (hlive : a.recovering = false) : r.phase = .live a.connectionId := by
  simp [phase_active h, hlive]

theorem phase_draining (h : r.active = some a) (hrec : a.recovering = true) :
    r.phase = .draining a.connectionId := by
  simp [phase_active h, hrec]

theorem active_of_draining {id : UInt64} (h : r.phase = .draining id) :
    ∃ a, r.active = some a ∧ a.recovering = true ∧ a.connectionId = id := by
  cases hactive : r.active with
  | none => rw [phase_direct hactive] at h; cases h
  | some a =>
    cases hrec : a.recovering with
    | false => rw [phase_live hactive hrec] at h; cases h
    | true => rw [phase_draining hactive hrec] at h; cases h; exact ⟨a, rfl, hrec, rfl⟩

end Phases

/-! ## One iteration -/

/-- The events emitted so far lead from phase `p` to the router's own. -/
structure Bracketed (p : Phase) (s : PushState) : Prop where
  path : Path Bracket p s.events s.router.phase
  flushed : s.router.active ≠ none → s.direct = []

theorem controls_path (id : UInt64) (parsed : List ControlEvent) :
    Path Bracket (.live id) (parsed.map (.control id)) (.live id) :=
  Path.loops fun e he => by
    obtain ⟨event, -, rfl⟩ := mem_map.mp he
    exact .control id event

variable {events before rest : List GatewayEvent}

theorem emitDirect_path {p : Phase} (h : Path Bracket p events .direct) (direct : Bytes) :
    Path Bracket p (emitDirect events direct) .direct := by
  unfold emitDirect
  split
  · exact h
  · exact h.snoc (.directOutput direct)

theorem closingEvent_bracket (a : ActiveControl) : Bracket (.live a.connectionId) (closingEvent a) .direct := by
  unfold closingEvent
  split
  · exact .ended _
  · exact .failed _ _

variable {s s' : PushState} {byte : UInt8} {it : Iteration}

theorem Step.bracketed {p : Phase} (hstep : Step s byte it) (hit : it = .advance s' ∨ it = .reconsider s')
    (hs : Bracketed p s) : Bracketed p s' := by
  have hpath := hs.path
  cases hstep <;> rcases hit with hit | hit <;> cases hit
  case drained a hactive hrec _ =>
    rw [phase_draining hactive hrec] at hpath
    exact ⟨hpath.snoc (.drained _), fun h => absurd rfl h⟩
  case draining a hactive hrec _ =>
    rw [phase_draining hactive hrec] at hpath
    refine ⟨?_, fun _ => hs.flushed (by simp [hactive])⟩
    rw [phase_draining (a := { a with terminatorEscapeSeen := byte == esc }) rfl hrec]
    exact hpath
  case missing a hactive hlive _ =>
    rw [phase_live hactive hlive] at hpath
    exact ⟨hpath.snoc (.failed _ _), fun h => absurd rfl h⟩
  case handedBack a hparses _ _ _ _ =>
    rw [phase_live hparses.1 hparses.2.1] at hpath
    exact ⟨hpath.snoc (.failed _ _), fun h => absurd rfl h⟩
  case quarantined a hparses _ _ _ _ =>
    rw [phase_live hparses.1 hparses.2.1] at hpath
    exact ⟨hpath.snoc (.quarantined _ _), fun _ => hs.flushed (by simp [hparses.1])⟩
  case parsed a hparses parser parsed _ _ =>
    rw [phase_live hparses.1 hparses.2.1] at hpath
    refine ⟨?_, fun _ => hs.flushed (by simp [hparses.1])⟩
    rw [phase_live (a := acceptedRecord (recordedByte a byte) parser parsed byte) rfl hparses.2.1]
    exact hpath.append (controls_path _ parsed)
  case ended a hparses parser parsed _ _ =>
    rw [phase_live hparses.1 hparses.2.1] at hpath
    exact ⟨(hpath.append (controls_path _ parsed)).snoc
      (closingEvent_bracket (acceptedRecord (recordedByte a byte) parser parsed byte)),
      fun h => absurd rfl h⟩
  case matched hactive _ longer _ => exact ⟨hpath, fun h => absurd hactive h⟩
  case started hactive _ _ next _ =>
    rw [phase_direct hactive] at hpath
    refine ⟨(emitDirect_path hpath s.direct).append ?_, fun _ => rfl⟩
    exact .cons (.started _) (.single (.control _ _))
  case passed hactive _ _ => exact ⟨hpath, fun h => absurd hactive h⟩
  case released hactive _ _ => exact ⟨hpath, fun h => absurd hactive h⟩

theorem pushByte_bracketed {p : Phase} (hs : Bracketed p s) (h : pushByte s byte = .ok s') : Bracketed p s' :=
  pushByte_induction (P := Bracketed p) (fun _ _ hs hstep => hstep.bracketed (.inl rfl) hs)
    (fun _ _ hs hstep => hstep.bracketed (.inr rfl) hs) hs h

theorem bracketed_init (r : TmuxGatewayRouter) : Bracketed r.phase ⟨r, [], []⟩ := ⟨.nil _, fun _ => rfl⟩

theorem Bracketed.emit {p : Phase} (hs : Bracketed p s) :
    Path Bracket p (emitDirect s.events s.direct) s.router.phase := by
  cases hactive : s.router.active with
  | none =>
    rw [phase_direct hactive]
    exact emitDirect_path (phase_direct hactive ▸ hs.path) s.direct
  | some a =>
    rw [hs.flushed (by simp [hactive])]
    exact hs.path

/-! ## Runs -/

namespace TmuxGatewayRouter

theorem pushLoop_bracketed {p : Phase} {s s' : PushState} {bytes : Bytes} (hs : Bracketed p s)
    (h : pushLoop s bytes = .ok s') : Bracketed p s' :=
  pushLoop_induction (P := Bracketed p) (fun _ _ _ hs hb => pushByte_bracketed hs hb) hs h

variable {first : UInt64} {r : TmuxGatewayRouter}

theorem push_path (h : r.WellFormed first) (bytes : Bytes) :
    Path Bracket r.phase ((Op.push bytes).run r).2 ((Op.push bytes).run r).1.phase := by
  rw [Op.run, push]
  cases hloop : pushLoop ⟨r, [], []⟩ bytes with
  | ok s => exact (pushLoop_bracketed (bracketed_init r) hloop).emit
  | error failure =>
    -- the ids are exhausted before the first connection: none was open when the push began
    obtain ⟨hexhausted, hidle, -⟩ := pushLoop_failure (s := ⟨r, [], []⟩) h hloop
    have hactive : r.active = none := by
      cases ha : r.active with
      | none => rfl
      | some a => exact absurd hexhausted (h.busy a ha).2
    rw [phase_direct hactive, phase_direct hidle]
    exact .nil _

theorem op_path (h : r.WellFormed first) (op : Op) : Path Bracket r.phase (op.run r).2 (op.run r).1.phase := by
  cases op with
  | push bytes => exact push_path h bytes
  | finishDirect =>
    rw [Op.run]
    cases hactive : r.active with
    | none =>
      rw [finishDirect_direct hactive]
      exact .nil _
    | some a =>
      rcases finishDirect_active hactive with hr | hr <;> simp only [hr]
      · exact .nil _
      · rw [phase_active hactive]
        exact .nil _
  | finishTransport =>
    rw [Op.run]
    cases hactive : r.active with
    | none =>
      rw [finishTransport_direct hactive, phase_direct hactive]
      simp only [phase_direct (r := r.withMarkerPrefix .empty) hactive]
      split
      · exact .nil _
      · exact .single (.directOutput _)
    | some a =>
      rw [finishTransport_active hactive, phase_active hactive]
      split
      · exact .single (.drained _)
      · exact .single (.failed _ _)
  | expireTermination =>
    rw [Op.run]
    cases hactive : r.active with
    | none =>
      rw [expireTermination_direct hactive]
      exact .nil _
    | some a =>
      rw [expireTermination_active hactive]
      split
      · rename_i hexit
        have hlive : a.recovering = false := by
          cases hrec : a.recovering with
          | false => rfl
          | true => rw [(h.settled a hactive).recovering hrec] at hexit; cases hexit
        rw [phase_live hactive hlive]
        exact .single (.failed _ _)
      · exact .nil _

theorem runOps_path (h : r.WellFormed first) (ops : List Op) :
    Path Bracket r.phase (runOps r ops).2 (runOps r ops).1.phase := by
  induction ops generalizing r with
  | nil => exact .nil _
  | cons op ops ih => exact (op_path h op).append (ih (h.op op))

end TmuxGatewayRouter

/-! ## Ids -/

def GatewayEvent.Names (id : UInt64) : GatewayEvent → Prop
  | .directOutput _ => True
  | .connectionStarted connectionId => connectionId = id
  | .control connectionId _ => connectionId = id
  | .connectionEnded connectionId => connectionId = id
  | .connectionFailed connectionId _ => connectionId = id

theorem emitDirect_names {id : UInt64} (h : ∀ e ∈ events, e.Names id)
    (direct : Bytes) : ∀ e ∈ emitDirect events direct, e.Names id := by
  unfold emitDirect
  split
  · exact h
  · exact forall_mem_append.mpr ⟨h, forall_mem_singleton.mpr trivial⟩

theorem closingEvent_names (a : ActiveControl) : (closingEvent a).Names a.connectionId := by
  unfold closingEvent
  split
  · rfl
  · rfl

theorem Step.names {first : UInt64} (hstep : Step s byte it) (hit : it = .advance s' ∨ it = .reconsider s')
    (hs : s.router.WellFormed first) (hnames : ∀ e ∈ s.events, e.Names first) :
    ∀ e ∈ s'.events, e.Names first := by
  have hone : ∀ {e : GatewayEvent}, e.Names first → ∀ e' ∈ s.events ++ [e], e'.Names first :=
    fun he => forall_mem_append.mpr ⟨hnames, forall_mem_singleton.mpr he⟩
  have hcontrols : ∀ {a : ActiveControl}, s.router.active = some a → ∀ parsed : List ControlEvent,
      ∀ e ∈ s.events ++ parsed.map (.control a.connectionId), e.Names first := by
    intro a hactive parsed
    refine forall_mem_append.mpr ⟨hnames, fun e he => ?_⟩
    obtain ⟨-, -, rfl⟩ := mem_map.mp he
    exact (hs.busy a hactive).1
  cases hstep <;> rcases hit with hit | hit <;> cases hit
  case drained a hactive _ _ => exact hone (hs.busy a hactive).1
  case draining => exact hnames
  case missing a hactive _ _ => exact hone (hs.busy a hactive).1
  case handedBack a hparses _ _ _ _ => exact hone (hs.busy a hparses.1).1
  case quarantined a hparses _ _ _ _ => exact hone (hs.busy a hparses.1).1
  case parsed a hparses parser parsed _ _ => exact hcontrols hparses.1 parsed
  case ended a hparses parser parsed _ _ =>
    refine forall_mem_append.mpr ⟨hcontrols hparses.1 parsed, forall_mem_singleton.mpr ?_⟩
    rw [← (hs.busy a hparses.1).1]
    exact closingEvent_names (acceptedRecord (recordedByte a byte) parser parsed byte)
  case matched => exact hnames
  case started hactive _ _ next _ =>
    have hid := hs.idle hactive
    exact forall_mem_append.mpr ⟨emitDirect_names hnames s.direct,
      forall_mem_cons.mpr ⟨hid, forall_mem_singleton.mpr hid⟩⟩
  case passed => exact hnames
  case released => exact hnames

namespace TmuxGatewayRouter

variable {first : UInt64} {r : TmuxGatewayRouter}

theorem pushLoop_names {s s' : PushState} {bytes : Bytes} (hs : s.router.WellFormed first)
    (hnames : ∀ e ∈ s.events, e.Names first) (h : pushLoop s bytes = .ok s') :
    ∀ e ∈ s'.events, e.Names first := by
  have hbyte : ∀ {s s' : PushState} {byte : UInt8}, s.router.WellFormed first ∧
      (∀ e ∈ s.events, e.Names first) → pushByte s byte = .ok s' →
      s'.router.WellFormed first ∧ ∀ e ∈ s'.events, e.Names first := by
    intro s s' byte hs hb
    refine pushByte_induction (P := fun s => s.router.WellFormed first ∧
      ∀ e ∈ s.events, e.Names first) (fun _ _ hs hstep => ?_) (fun _ _ hs hstep => ?_) hs hb
    · exact ⟨hstep.wellFormed (.inl rfl) hs.1, hstep.names (.inl rfl) hs.1 hs.2⟩
    · exact ⟨hstep.wellFormed (.inr rfl) hs.1, hstep.names (.inr rfl) hs.1 hs.2⟩
  exact (pushLoop_induction (P := fun s => s.router.WellFormed first ∧
    ∀ e ∈ s.events, e.Names first) (fun _ _ _ hs hb => hbyte hs hb) ⟨hs, hnames⟩ h).2

/-- **All events of a router are about one connection id**, the first one. -/
theorem op_names (h : r.WellFormed first) (op : Op) : ∀ e ∈ (op.run r).2, e.Names first := by
  cases op with
  | push bytes =>
    rw [Op.run, push]
    cases hloop : pushLoop ⟨r, [], []⟩ bytes with
    | ok s => exact emitDirect_names (pushLoop_names (s := ⟨r, [], []⟩) h (forall_mem_nil _) hloop) s.direct
    | error failure => exact forall_mem_nil _
  | finishDirect => exact forall_mem_nil _
  | finishTransport =>
    rw [Op.run]
    cases hactive : r.active with
    | none =>
      rw [finishTransport_direct hactive]
      split
      · exact forall_mem_nil _
      · exact forall_mem_singleton.mpr trivial
    | some a =>
      have hid := (h.busy a hactive).1
      rw [finishTransport_active hactive]
      split
      · exact forall_mem_singleton.mpr hid
      · exact forall_mem_singleton.mpr hid
  | expireTermination =>
    rw [Op.run]
    cases hactive : r.active with
    | none =>
      rw [expireTermination_direct hactive]
      exact forall_mem_nil _
    | some a =>
      rw [expireTermination_active hactive]
      split
      · exact forall_mem_singleton.mpr (h.busy a hactive).1
      · exact forall_mem_nil _

end TmuxGatewayRouter

/-! ## Draining -/

/-- Nothing was emitted after `before`, or the end of the drained connection came first. -/
inductive Silent (id : UInt64) (before : List GatewayEvent) (s : PushState) : Prop
  | draining (hphase : s.router.phase = .draining id) (hevents : s.events = before)
      (hdirect : s.direct = [])
  | ended (rest : List GatewayEvent) (hevents : s.events = before ++ .connectionEnded id :: rest)

theorem prefix_emitDirect (events : List GatewayEvent) (direct : Bytes) :
    events <+: emitDirect events direct := by
  unfold emitDirect
  split
  · exact prefix_rfl
  · exact prefix_append _ _

theorem Step.events_prefix (hstep : Step s byte it) (hit : it = .advance s' ∨ it = .reconsider s') :
    s.events <+: s'.events := by
  cases hstep <;> rcases hit with hit | hit <;> cases hit
  case ended => exact (prefix_append _ _).trans (prefix_append _ _)
  case started => exact (prefix_emitDirect _ _).trans (prefix_append _ _)
  all_goals first | exact prefix_append _ _ | exact prefix_rfl

theorem Silent.extend {id : UInt64} (hevents : s.events = before ++ .connectionEnded id :: rest)
    (hextends : s.events <+: s'.events) : Silent id before s' := by
  obtain ⟨more, hmore⟩ := hextends
  exact .ended (rest ++ more) (by rw [← hmore, hevents]; simp)

theorem Step.silent {id : UInt64} (hstep : Step s byte it) (hit : it = .advance s' ∨ it = .reconsider s')
    (hs : Silent id before s) : Silent id before s' := by
  cases hs with
  | ended rest hevents => exact .extend hevents (hstep.events_prefix hit)
  | draining hphase hevents hdirect =>
    obtain ⟨a, hactive, hrec, rfl⟩ := active_of_draining hphase
    rcases hstep.recovering hactive hrec with ⟨-, rfl⟩ | ⟨-, rfl⟩ <;> rcases hit with hit | hit <;> cases hit
    · exact .ended [] (by rw [hevents])
    · exact .draining (phase_draining (a := { a with terminatorEscapeSeen := byte == esc }) rfl hrec)
        hevents hdirect

theorem pushByte_silent {id : UInt64}
    (hs : Silent id before s) (h : pushByte s byte = .ok s') : Silent id before s' :=
  pushByte_induction (P := Silent id before) (fun _ _ hs hstep => hstep.silent (.inl rfl) hs)
    (fun _ _ hs hstep => hstep.silent (.inr rfl) hs) hs h

namespace TmuxGatewayRouter

variable {id : UInt64}

theorem pushLoop_silent {before : List GatewayEvent} {s s' : PushState}
    {bytes : Bytes} (hs : Silent id before s) (h : pushLoop s bytes = .ok s') : Silent id before s' :=
  pushLoop_induction (P := Silent id before) (fun _ _ _ hs hb => pushByte_silent hs hb) hs h

variable {first : UInt64} {r : TmuxGatewayRouter}

/-- The events of `tail` start with the end of the connection `id`, if there are any. -/
def SilentUntilEnd (id : UInt64) (tail : List GatewayEvent) : Prop :=
  tail = [] ∨ ∃ rest, tail = .connectionEnded id :: rest

section

variable (h : r.WellFormed first)
include h

theorem op_silent (hphase : r.phase = .draining id) (op : Op) :
    (op.run r).2 = [] ∧ (op.run r).1.phase = .draining id ∨
      ∃ rest, (op.run r).2 = .connectionEnded id :: rest := by
  obtain ⟨a, hactive, hrec, rfl⟩ := active_of_draining hphase
  cases op with
  | push bytes =>
    obtain ⟨s, hloop⟩ := pushLoop_total (s := ⟨r, [], []⟩) (h.busy a hactive).2 h bytes
    have hsilent : Silent a.connectionId [] s := pushLoop_silent (.draining hphase rfl rfl) hloop
    simp only [Op.run, push, hloop]
    cases hsilent with
    | draining hphase hevents hdirect => exact .inl ⟨by rw [hevents, hdirect]; rfl, hphase⟩
    | ended rest hevents =>
      obtain ⟨more, hmore⟩ := prefix_emitDirect s.events s.direct
      exact .inr ⟨rest ++ more, by rw [← hmore, hevents]; rfl⟩
  | finishDirect =>
    rw [Op.run]
    rcases finishDirect_active hactive with hr | hr <;> simp only [hr]
    · exact .inl ⟨trivial, hphase⟩
    · exact .inl ⟨trivial, phase_draining (a := { a with parser := a.parser.poison }) rfl hrec⟩
  | finishTransport =>
    rw [Op.run, finishTransport_active hactive, if_pos hrec]
    exact .inr ⟨[], rfl⟩
  | expireTermination =>
    have hexit := (h.settled a hactive).recovering hrec
    rw [Op.run, expireTermination_active hactive, if_neg (by simp [hexit])]
    exact .inl ⟨rfl, hphase⟩

theorem runOps_silent (hphase : r.phase = .draining id)
    (ops : List Op) : SilentUntilEnd id (runOps r ops).2 := by
  induction ops generalizing r with
  | nil => exact .inl rfl
  | cons op ops ih =>
    rw [runOps]
    rcases op_silent h hphase op with ⟨hevents, hphase'⟩ | ⟨rest, hevents⟩
    · simpa [hevents] using ih (h.op op) hphase'
    · exact .inr ⟨rest ++ (runOps (op.run r).1 ops).2, by simp [hevents]⟩

theorem push_append_draining {xs : Bytes} (hphase : ((Op.push xs).run r).1.phase = .draining id) (ys : Bytes) :
    ∃ tail, ((Op.push (xs ++ ys)).run r).2 = ((Op.push xs).run r).2 ++ tail ∧
      ((tail = [] ∧ ((Op.push (xs ++ ys)).run r).1.phase = .draining id) ∨
        ∃ rest, tail = .connectionEnded id :: rest) := by
  simp only [Op.run, push] at hphase ⊢
  rw [pushLoop_append]
  cases hloop : pushLoop ⟨r, [], []⟩ xs with
  | error failure =>
    rw [hloop] at hphase
    rw [phase_direct (pushLoop_failure (s := ⟨r, [], []⟩) h hloop).2.1] at hphase
    cases hphase
  | ok s =>
    rw [hloop] at hphase
    obtain ⟨a, hactive, -, rfl⟩ := active_of_draining (r := s.router) hphase
    have hdirect := (pushLoop_bracketed (bracketed_init r) hloop).flushed (by simp [hactive])
    have hs := pushLoop_wellFormed (s := ⟨r, [], []⟩) h hloop
    obtain ⟨t, hrest⟩ := pushLoop_total (hs.busy a hactive).2 hs ys
    have hsilent := pushLoop_silent (.draining hphase rfl hdirect) hrest
    simp only [hrest, hdirect]
    cases hsilent with
    | draining hphase hevents hdirect => exact ⟨[], by rw [hevents, hdirect]; simp, .inl ⟨rfl, hphase⟩⟩
    | ended rest hevents =>
      obtain ⟨more, hmore⟩ := prefix_emitDirect t.events t.direct
      refine ⟨.connectionEnded a.connectionId :: (rest ++ more), ?_, .inr ⟨rest ++ more, rfl⟩⟩
      rw [← hmore, hevents]
      simp [emitDirect]

theorem runOps_push_silent {xs : Bytes}
    (hphase : ((Op.push xs).run r).1.phase = .draining id) (ys : Bytes) (later : List Op) :
    ∃ tail, SilentUntilEnd id tail ∧
      (runOps r (.push (xs ++ ys) :: later)).2 = ((Op.push xs).run r).2 ++ tail := by
  obtain ⟨tail, htail, hcases⟩ := push_append_draining h hphase ys
  rw [runOps, htail]
  rcases hcases with ⟨rfl, hdraining⟩ | ⟨-, rfl⟩
  · exact ⟨_, runOps_silent (h.op _) hdraining later, by simp⟩
  · exact ⟨_, .inr ⟨_, cons_append⟩, append_assoc _ _ _⟩

end

/-! ## The event stream of a run -/

/-- **The event stream of a router is a sequence of connection brackets.** Each opens with the one start of its
connection, holds only its control events, and closes with its end or failure. After a failure the next event is
its end. -/
theorem runOps_brackets (first : UInt64) (ops : List Op) :
    Path Bracket .direct (runOps (withFirstConnectionId first) ops).2
        (runOps (withFirstConnectionId first) ops).1.phase ∧
      ∀ (xs ys : Bytes) (later : List Op) (id : UInt64),
        (runOps (withFirstConnectionId first) (ops ++ [.push xs])).1.phase = .draining id →
        ∃ tail, SilentUntilEnd id tail ∧
          (runOps (withFirstConnectionId first) (ops ++ .push (xs ++ ys) :: later)).2 =
            (runOps (withFirstConnectionId first) (ops ++ [.push xs])).2 ++ tail := by
  refine ⟨runOps_path (wellFormed_fresh first) ops, fun xs ys later id hphase => ?_⟩
  simp only [runOps_append, runOps_single] at hphase ⊢
  obtain ⟨tail, hsilent, htail⟩ := runOps_push_silent (wellFormed_runOps first ops) hphase ys later
  exact ⟨tail, hsilent, by rw [htail, append_assoc]⟩

def reopened : Bytes := startMarker ++ ascii "%exit\n" ++ [esc, backslash] ++ startMarker ++ ascii "%pause x\n"

theorem runOps_brackets_reopened : ∃ tail, SilentUntilEnd 1 tail ∧ (runOps (withFirstConnectionId 1)
        [.push (reopened ++ [esc, backslash] ++ startMarker), .finishTransport]).2 =
        (runOps (withFirstConnectionId 1) [.push reopened]).2 ++ tail :=
  (runOps_brackets 1 []).2 reopened ([esc, backslash] ++ startMarker) [.finishTransport] 1
    (by decide +kernel)

/-- A connection id is handed out again once its connection has ended. -/
theorem connection_id_started_twice : ¬ ∀ (ops : List Op) (id : UInt64),
      (runOps (withFirstConnectionId 1) ops).2.count (.connectionStarted id) ≤ 1 := by
  intro h
  have htwice : (runOps (withFirstConnectionId 1) [.push reopened]).2.count
      (.connectionStarted 1) = 2 := by decide +kernel
  have hle := h [.push reopened] 1
  omega

end TmuxGatewayRouter

end Lector.Gateway
