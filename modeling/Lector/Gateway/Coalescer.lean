import Lector.Foundations.Coalesce
import Lector.Gateway.Router

/-! Adjacent output of one pane is handled at once (`TmuxGatewayOutputCoalescer` in `src/app.rs`).
The coalescer holds one output event back, and every event that cannot join it sends it on first. -/
namespace Lector.Gateway
open Coalesce List

def paneOutputCoalesceLimitBytes : Nat := 64 * 1024

structure OrdinaryTmuxOutput where
  connectionId : UInt64
  paneId : UInt64
  bytes : Bytes
deriving DecidableEq

namespace OrdinaryTmuxOutput

def event (o : OrdinaryTmuxOutput) : GatewayEvent := .control o.connectionId (.output o.paneId o.bytes)

def key (o : OrdinaryTmuxOutput) : UInt64 × UInt64 := (o.connectionId, o.paneId)

end OrdinaryTmuxOutput

def ordinaryTmuxOutputMetadata : GatewayEvent → Option OrdinaryTmuxOutput
  | .control connectionId (.output paneId bytes) => some ⟨connectionId, paneId, bytes⟩
  | _ => none

def appendOrdinaryTmuxOutput (pending incoming : OrdinaryTmuxOutput) : OrdinaryTmuxOutput :=
  { pending with bytes := pending.bytes ++ incoming.bytes }

structure TmuxGatewayOutputCoalescer where
  pendingOrdinaryOutput : Option OrdinaryTmuxOutput

namespace TmuxGatewayOutputCoalescer

def default : TmuxGatewayOutputCoalescer := ⟨none⟩

def routeGatewayEvent (c : TmuxGatewayOutputCoalescer) (event : GatewayEvent) :
    TmuxGatewayOutputCoalescer × Option GatewayEvent × Option GatewayEvent :=
  match ordinaryTmuxOutputMetadata event with
  | some incoming =>
    if incoming.bytes.length > paneOutputCoalesceLimitBytes then
      match c.pendingOrdinaryOutput with
      | some pending => (⟨none⟩, some pending.event, some event)
      | none => (⟨none⟩, some event, none)
    else
      match c.pendingOrdinaryOutput with
      | some pending =>
        if pending.key = incoming.key ∧
            pending.bytes.length + incoming.bytes.length ≤ paneOutputCoalesceLimitBytes then
          (⟨some (appendOrdinaryTmuxOutput pending incoming)⟩, none, none)
        else (⟨some incoming⟩, some pending.event, none)
      | none => (⟨some incoming⟩, none, none)
  | none =>
    match c.pendingOrdinaryOutput with
    | some pending => (⟨none⟩, some pending.event, some event)
    | none => (⟨none⟩, some event, none)

def finish (c : TmuxGatewayOutputCoalescer) : Option GatewayEvent := c.pendingOrdinaryOutput.map (·.event)

/-- The events that come out of the coalescer when `events` are routed and the rest is flushed. -/
def emitted (c : TmuxGatewayOutputCoalescer) : List GatewayEvent → List GatewayEvent
  | [] => c.finish.toList
  | event :: events =>
    let (c', first, second) := c.routeGatewayEvent event
    first.toList ++ second.toList ++ c'.emitted events

end TmuxGatewayOutputCoalescer

open TmuxGatewayOutputCoalescer

section Handling
variable {σ ε : Type} (handleTmuxGatewayEvent : σ → GatewayEvent → Except ε σ)

def handleOptional (s : σ) : Option GatewayEvent → Except ε σ
  | some event => handleTmuxGatewayEvent s event
  | none => .ok s

def handleTmuxGatewayEvents (s : σ) (events : List GatewayEvent) : Except ε σ := go s .default events
where
  go (s : σ) (c : TmuxGatewayOutputCoalescer) : List GatewayEvent → Except ε σ
    | [] => handleOptional handleTmuxGatewayEvent s c.finish
    | event :: events => do
      let (c', first, second) := c.routeGatewayEvent event
      let s ← handleOptional handleTmuxGatewayEvent s first
      let s ← handleOptional handleTmuxGatewayEvent s second
      go s c' events

def coalescedEvents (events : List GatewayEvent) : List GatewayEvent :=
  TmuxGatewayOutputCoalescer.default.emitted events

theorem handleOptional_eq_foldlM (s : σ) (event : Option GatewayEvent) :
    handleOptional handleTmuxGatewayEvent s event = event.toList.foldlM handleTmuxGatewayEvent s := by
  cases event with
  | none => rfl
  | some event => simp [handleOptional]

theorem handleTmuxGatewayEvents_eq_foldlM (s : σ) (events : List GatewayEvent) :
    handleTmuxGatewayEvents handleTmuxGatewayEvent s events =
      (coalescedEvents events).foldlM handleTmuxGatewayEvent s := by
  have hgo : ∀ (events : List GatewayEvent) (s : σ) (c : TmuxGatewayOutputCoalescer),
      handleTmuxGatewayEvents.go handleTmuxGatewayEvent s c events =
        (c.emitted events).foldlM handleTmuxGatewayEvent s := by
    intro events
    induction events with
    | nil =>
      intro s c
      exact handleOptional_eq_foldlM _ s c.finish
    | cons event events ih =>
      intro s c
      simp only [handleTmuxGatewayEvents.go, emitted, handleOptional_eq_foldlM, ih, foldlM_append, bind_assoc]
  exact hgo events s .default

end Handling

/-! ## Groups of output -/

/-- Ordinary output is the text of the stream, one text for each pane of each connection. -/
def outputPieces : Pieces (UInt64 × UInt64) UInt8 GatewayEvent where
  text key bytes := .control key.1 (.output key.2 bytes)
  read event := (ordinaryTmuxOutputMetadata event).map fun o => (o.key, o.bytes)
  read_eq_some := by
    intro event key bytes
    cases event with
    | control id event =>
      cases event <;>
        simp [ordinaryTmuxOutputMetadata, OrdinaryTmuxOutput.key, Prod.ext_iff, and_assoc]
    | _ => simp [ordinaryTmuxOutputMetadata]

theorem event_eq_text (o : OrdinaryTmuxOutput) : o.event = outputPieces.text o.key o.bytes := rfl

theorem ordinaryTmuxOutputMetadata_eq_some {event : GatewayEvent} {o : OrdinaryTmuxOutput}
    (h : ordinaryTmuxOutputMetadata event = some o) : event = o.event := by
  cases event with
  | control id event =>
    cases event with
    | output paneId bytes =>
      cases h
      rfl
    | _ => simp [ordinaryTmuxOutputMetadata] at h
  | _ => simp [ordinaryTmuxOutputMetadata] at h

theorem appendOrdinaryTmuxOutput_event (pending incoming : OrdinaryTmuxOutput) :
    (appendOrdinaryTmuxOutput pending incoming).event =
      outputPieces.text pending.key (pending.bytes ++ incoming.bytes) := rfl

namespace TmuxGatewayOutputCoalescer

variable {c c' : TmuxGatewayOutputCoalescer} {event : GatewayEvent}
  {first second : Option GatewayEvent}

theorem routeGatewayEvent_cases (h : c.routeGatewayEvent event = (c', first, second)) :
    (first.toList ++ second.toList ++ c'.finish.toList = c.finish.toList ++ [event]) ∨
      ∃ pending incoming, c = ⟨some pending⟩ ∧ event = incoming.event ∧ pending.key = incoming.key ∧
        (pending.bytes ++ incoming.bytes).length ≤ paneOutputCoalesceLimitBytes ∧
        c' = ⟨some (appendOrdinaryTmuxOutput pending incoming)⟩ ∧ first = none ∧ second = none := by
  obtain ⟨pending⟩ := c
  unfold routeGatewayEvent at h
  cases hmeta : ordinaryTmuxOutputMetadata event with
  | none =>
    left
    cases pending <;> simp only [hmeta] at h <;> obtain ⟨rfl, rfl, rfl⟩ := h <;>
      simp [finish]
  | some incoming =>
    obtain rfl := ordinaryTmuxOutputMetadata_eq_some hmeta
    simp only [hmeta] at h
    by_cases hlong : incoming.bytes.length > paneOutputCoalesceLimitBytes
    · left
      cases pending <;> simp only [if_pos hlong] at h <;>
        obtain ⟨rfl, rfl, rfl⟩ := h <;> simp [finish]
    · rw [if_neg hlong] at h
      cases pending with
      | none =>
        left
        obtain ⟨rfl, rfl, rfl⟩ := h
        simp [finish]
      | some pending =>
        by_cases hjoin : pending.key = incoming.key ∧
            pending.bytes.length + incoming.bytes.length ≤ paneOutputCoalesceLimitBytes
        · right
          simp only [if_pos hjoin] at h
          obtain ⟨rfl, rfl, rfl⟩ := h
          exact ⟨pending, incoming, rfl, rfl, hjoin.1, by simpa using hjoin.2, rfl, rfl, rfl⟩
        · left
          simp only [if_neg hjoin] at h
          obtain ⟨rfl, rfl, rfl⟩ := h
          simp [finish]

/-- The cut of the stream so far: the event held back is its last group. -/
def Holds (c : TmuxGatewayOutputCoalescer) (offered handled : List GatewayEvent) : Prop :=
  outputPieces.Grouped paneOutputCoalesceLimitBytes offered (handled ++ c.finish.toList)

theorem routeGatewayEvent_holds {offered handled : List GatewayEvent} (h : c.Holds offered handled)
    (hroute : c.routeGatewayEvent event = (c', first, second)) :
    c'.Holds (offered ++ [event]) (handled ++ (first.toList ++ second.toList)) := by
  rcases routeGatewayEvent_cases hroute with
    hpass | ⟨pending, incoming, rfl, rfl, hkey, hfits, rfl, rfl, rfl⟩
  · rw [Holds, append_assoc, hpass, ← append_assoc]
    exact h.push event
  · have hextended := Pieces.Grouped.extend (k := pending.key) (a := pending.bytes) h incoming.bytes hfits
    rw [event_eq_text, ← hkey]
    simpa [Holds, finish, appendOrdinaryTmuxOutput_event] using hextended

theorem emitted_holds (events : List GatewayEvent) {offered handled : List GatewayEvent}
    (h : c.Holds offered handled) : outputPieces.Grouped paneOutputCoalesceLimitBytes (offered ++ events)
      (handled ++ c.emitted events) := by
  induction events generalizing c offered handled with
  | nil => simpa [emitted, Holds] using h
  | cons event events ih =>
    obtain ⟨⟨c', first, second⟩, hroute⟩ : ∃ routed, c.routeGatewayEvent event = routed := ⟨_, rfl⟩
    have hstep := ih (routeGatewayEvent_holds h hroute)
    simpa [emitted, hroute] using hstep

theorem emitted_other (h : ordinaryTmuxOutputMetadata event = none) (before after : List GatewayEvent) :
    c.emitted (before ++ event :: after) = c.emitted before ++ event :: default.emitted after := by
  induction before generalizing c with
  | nil =>
    obtain ⟨pending⟩ := c
    cases pending <;> simp [emitted, routeGatewayEvent, h, finish, default]
  | cons first before ih =>
    rw [cons_append, emitted, emitted]
    simp [ih]

end TmuxGatewayOutputCoalescer

/-! ## The law of coalescing -/

def paneOutput (key : UInt64 × UInt64) (events : List GatewayEvent) : Bytes :=
  events.flatMap fun event =>
    match ordinaryTmuxOutputMetadata event with
    | some o => if o.key = key then o.bytes else []
    | none => []

/-- **Coalescing keeps the event sequence.** The events that are handled are those that arrived, with adjacent
output of one pane put together, up to the limit. -/
theorem coalescedEvents_keep_sequence (events : List GatewayEvent) :
    outputPieces.Grouped paneOutputCoalesceLimitBytes events (coalescedEvents events) ∧
      (∀ key, paneOutput key (coalescedEvents events) = paneOutput key events) ∧
      (∀ before event after, events = before ++ event :: after → ordinaryTmuxOutputMetadata event = none →
        coalescedEvents events = coalescedEvents before ++ event :: coalescedEvents after) ∧
      ∀ o : OrdinaryTmuxOutput, o.event ∈ coalescedEvents events →
        o.bytes.length ≤ paneOutputCoalesceLimitBytes ∨ o.event ∈ events := by
  have hstart : default.Holds [] [] := .nil
  have hgrouped := emitted_holds events hstart
  refine ⟨hgrouped, fun key => ?_, ?_, fun o hmem => ?_⟩
  · refine hgrouped.flatMap_eq _ (fun k => ?_) (fun k a b => ?_)
    · simp [outputPieces, ordinaryTmuxOutputMetadata]
    · by_cases hkey : k = key <;>
        simp [outputPieces, ordinaryTmuxOutputMetadata, OrdinaryTmuxOutput.key, hkey]
  · rintro before event after rfl hother
    exact emitted_other hother before after
  · exact hgrouped.bounded (k := o.key) hmem

end Lector.Gateway
