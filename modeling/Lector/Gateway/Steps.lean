import Lector.Gateway.Router

/-! What one loop iteration of the router can do: `Step` lists every branch of `push` with its
guard, and `step_iff` says that the list is exact. -/
namespace Lector.Gateway
open Bytes Control

/-! ## Starting a connection -/

def startedControl (id : UInt64) : ActiveControl where
  connectionId := id
  parser := ⟨.default, .records, [], none⟩
  currentRecord := []
  sawExit := false
  terminatorEscapeSeen := false
  recovering := false

theorem startConnection_eq (r : TmuxGatewayRouter) : r.startConnection =
      match checkedSucc r.nextConnectionId with
      | none => (r, .error .connectionIdExhausted)
      | some next =>
        ({ r with nextConnectionId := next, active := some (startedControl r.nextConnectionId) },
          .ok [.connectionStarted r.nextConnectionId, .control r.nextConnectionId .started]) := by
  rfl

/-! ## The branches -/

namespace TmuxGatewayRouter

def withActive (r : TmuxGatewayRouter) (active : ActiveControl) : TmuxGatewayRouter :=
  { r with active := some active }

def withMarkerPrefix (r : TmuxGatewayRouter) (markerPrefix : MarkerPrefix) : TmuxGatewayRouter :=
  { r with markerPrefix }

end TmuxGatewayRouter

def quarantined (failed : ActiveControl) : ActiveControl :=
  { failed with currentRecord := [], recovering := true, sawExit := false, terminatorEscapeSeen := false }

def failureReason (failed : ActiveControl) (source : ControlParseError) : GatewayFailure :=
  if failed.sawExit then .missingTerminator else .protocol source.toText

def closingEvent (active : ActiveControl) : GatewayEvent :=
  if active.sawExit then .connectionEnded active.connectionId
  else .connectionFailed active.connectionId .missingExit

def Parses (s : PushState) (a : ActiveControl) (byte : UInt8) : Prop :=
  s.router.active = some a ∧ a.recovering = false ∧
    (a.sawExit && !a.terminatorEscapeSeen && byte != esc) = false

inductive Step (s : PushState) (byte : UInt8) : Iteration → Prop
  | drained (a : ActiveControl) (hactive : s.router.active = some a) (hrec : a.recovering = true)
      (hst : (a.terminatorEscapeSeen && byte == backslash) = true) :
      Step s byte (.advance ⟨s.router.close a.connectionId,
        s.events ++ [.connectionEnded a.connectionId], s.direct⟩)
  | draining (a : ActiveControl) (hactive : s.router.active = some a) (hrec : a.recovering = true)
      (hst : (a.terminatorEscapeSeen && byte == backslash) = false) :
      Step s byte (.advance ⟨s.router.withActive { a with terminatorEscapeSeen := byte == esc },
        s.events, s.direct⟩)
  | missing (a : ActiveControl) (hactive : s.router.active = some a) (hlive : a.recovering = false)
      (hwait : (a.sawExit && !a.terminatorEscapeSeen && byte != esc) = true) :
      Step s byte (.reconsider ⟨s.router.close a.connectionId,
        s.events ++ [.connectionFailed a.connectionId .missingTerminator], s.direct⟩)
  | handedBack (a : ActiveControl) (hparses : Parses s a byte) (parser : TmuxControlParser)
      (source : ControlParseError) (hparse : a.parser.push [byte] = (parser, .error source))
      (hback : returnedToDirectTransport { recordedByte a byte with parser } = true) :
      Step s byte (.advance ⟨s.router.close a.connectionId,
        s.events ++ [.connectionFailed a.connectionId (failureReason a source)],
        s.direct ++ (a.currentRecord ++ [byte])⟩)
  | quarantined (a : ActiveControl) (hparses : Parses s a byte) (parser : TmuxControlParser)
      (source : ControlParseError) (hparse : a.parser.push [byte] = (parser, .error source))
      (hback : returnedToDirectTransport { recordedByte a byte with parser } = false) :
      Step s byte (.advance ⟨s.router.withActive (quarantined { recordedByte a byte with parser }),
        s.events ++ [.connectionFailed a.connectionId (failureReason a source)], s.direct⟩)
  | parsed (a : ActiveControl) (hparses : Parses s a byte) (parser : TmuxControlParser)
      (parsed : List ControlEvent) (hparse : a.parser.push [byte] = (parser, .ok parsed))
      (hended : parsed.any isEnded = false) :
      Step s byte (.advance
        ⟨s.router.withActive (acceptedRecord (recordedByte a byte) parser parsed byte),
          s.events ++ parsed.map (.control a.connectionId), s.direct⟩)
  | ended (a : ActiveControl) (hparses : Parses s a byte) (parser : TmuxControlParser)
      (parsed : List ControlEvent) (hparse : a.parser.push [byte] = (parser, .ok parsed))
      (hended : parsed.any isEnded = true) :
      Step s byte (.advance ⟨s.router.close a.connectionId,
        s.events ++ parsed.map (.control a.connectionId) ++
          [closingEvent (acceptedRecord (recordedByte a byte) parser parsed byte)], s.direct⟩)
  | matched (hactive : s.router.active = none) (hbyte : byte = s.router.markerPrefix.expected)
      (longer : MarkerPrefix) (hextend : s.router.markerPrefix.extend = some longer) :
      Step s byte (.advance ⟨s.router.withMarkerPrefix longer, s.events, s.direct⟩)
  | started (hactive : s.router.active = none) (hbyte : byte = s.router.markerPrefix.expected)
      (hextend : s.router.markerPrefix.extend = none) (next : UInt64)
      (hnext : checkedSucc s.router.nextConnectionId = some next) :
      Step s byte (.advance
        ⟨⟨.empty, some (startedControl s.router.nextConnectionId), next⟩,
          emitDirect s.events s.direct ++ [.connectionStarted s.router.nextConnectionId,
            .control s.router.nextConnectionId .started], []⟩)
  | exhausted (hactive : s.router.active = none) (hbyte : byte = s.router.markerPrefix.expected)
      (hextend : s.router.markerPrefix.extend = none)
      (hnext : checkedSucc s.router.nextConnectionId = none) :
      Step s byte (.fail (s.router.withMarkerPrefix .empty) .connectionIdExhausted)
  | passed (hactive : s.router.active = none) (hbyte : byte ≠ s.router.markerPrefix.expected)
      (hempty : s.router.markerPrefix.bytes = []) :
      Step s byte (.advance ⟨s.router, s.events, s.direct ++ [byte]⟩)
  | released (hactive : s.router.active = none) (hbyte : byte ≠ s.router.markerPrefix.expected)
      (hwithheld : s.router.markerPrefix.bytes ≠ []) :
      Step s byte (.reconsider ⟨s.router.withMarkerPrefix .empty, s.events,
        s.direct ++ s.router.markerPrefix.bytes⟩)

variable {s s' : PushState} {a : ActiveControl}

theorem iteration_active (h : s.router.active = some a) (byte : UInt8) : iteration s byte =
      if a.recovering then recoveringByte s a byte
      else if a.sawExit && !a.terminatorEscapeSeen && byte != esc then missingTerminator s a
      else controlByte s a byte := by
  rw [iteration, h]

variable {byte : UInt8}

theorem iteration_parses (h : Parses s a byte) : iteration s byte = controlByte s a byte := by
  obtain ⟨hactive, hlive, hwait⟩ := h
  rw [iteration_active hactive, hlive, hwait]
  rfl

theorem controlByte_error {parser : TmuxControlParser} {source : ControlParseError}
    (h : a.parser.push [byte] = (parser, .error source)) :
    controlByte s a byte = failedRecord s { recordedByte a byte with parser } source := by
  have h' : (recordedByte a byte).parser.push [byte] = (parser, .error source) := h
  simp only [controlByte, h']

theorem controlByte_ok {parser : TmuxControlParser} {parsed : List ControlEvent}
    (h : a.parser.push [byte] = (parser, .ok parsed)) : controlByte s a byte =
      if parsed.any isEnded then
        .advance ⟨s.router.close a.connectionId,
          s.events ++ parsed.map (.control a.connectionId) ++
            [closingEvent (acceptedRecord (recordedByte a byte) parser parsed byte)], s.direct⟩
      else
        .advance ⟨s.router.withActive (acceptedRecord (recordedByte a byte) parser parsed byte),
          s.events ++ parsed.map (.control a.connectionId), s.direct⟩ := by
  have h' : (recordedByte a byte).parser.push [byte] = (parser, .ok parsed) := h
  simp only [controlByte, h']
  rfl

theorem iteration_of_step {it : Iteration} (h : Step s byte it) : iteration s byte = it := by
  cases h with
  | drained a hactive hrec hst => rw [iteration_active hactive, if_pos hrec, recoveringByte, if_pos hst]
  | draining a hactive hrec hst =>
    rw [iteration_active hactive, if_pos hrec, recoveringByte, if_neg (by simp [hst])]
    rfl
  | missing a hactive hlive hwait =>
    rw [iteration_active hactive, if_neg (by simp [hlive]), if_pos hwait]
    rfl
  | handedBack a hparses parser source hparse hback =>
    rw [iteration_parses hparses, controlByte_error hparse, failedRecord, if_pos hback]
    rfl
  | quarantined a hparses parser source hparse hback =>
    rw [iteration_parses hparses, controlByte_error hparse, failedRecord, if_neg (by simp [hback])]
    rfl
  | parsed a hparses parser parsed hparse hended =>
    rw [iteration_parses hparses, controlByte_ok hparse, if_neg (by simp [hended])]
  | ended a hparses parser parsed hparse hended =>
    rw [iteration_parses hparses, controlByte_ok hparse, if_pos hended]
  | matched hactive hbyte longer hextend =>
    simp only [iteration, hactive, directByte, if_pos hbyte, hextend]
    rw [← hactive]
    rfl
  | started hactive hbyte hextend next hnext =>
    simp only [iteration, hactive, directByte, if_pos hbyte, hextend, startConnection_eq, hnext]
  | exhausted hactive hbyte hextend hnext =>
    simp only [iteration, hactive, directByte, if_pos hbyte, hextend, startConnection_eq, hnext]
    rw [← hactive]
    rfl
  | passed hactive hbyte hempty => simp [iteration, hactive, directByte, hbyte, hempty]
  | released hactive hbyte hwithheld =>
    simp only [iteration, hactive, directByte, if_neg hbyte,
      if_neg (show ¬ s.router.markerPrefix.bytes.isEmpty = true by simpa using hwithheld)]
    rw [← hactive]
    rfl

theorem exists_step (s : PushState) (byte : UInt8) : ∃ it, Step s byte it := by
  cases hactive : s.router.active with
  | none =>
    by_cases hbyte : byte = s.router.markerPrefix.expected
    · cases hextend : s.router.markerPrefix.extend with
      | some longer => exact ⟨_, .matched hactive hbyte longer hextend⟩
      | none =>
        cases hnext : checkedSucc s.router.nextConnectionId with
        | none => exact ⟨_, .exhausted hactive hbyte hextend hnext⟩
        | some next => exact ⟨_, .started hactive hbyte hextend next hnext⟩
    · by_cases hempty : s.router.markerPrefix.bytes = []
      · exact ⟨_, .passed hactive hbyte hempty⟩
      · exact ⟨_, .released hactive hbyte hempty⟩
  | some a =>
    cases hrec : a.recovering with
    | true =>
      cases hst : (a.terminatorEscapeSeen && byte == backslash) with
      | true => exact ⟨_, .drained a hactive hrec hst⟩
      | false => exact ⟨_, .draining a hactive hrec hst⟩
    | false =>
      cases hwait : (a.sawExit && !a.terminatorEscapeSeen && byte != esc) with
      | true => exact ⟨_, .missing a hactive hrec hwait⟩
      | false =>
        have hparses : Parses s a byte := ⟨hactive, hrec, hwait⟩
        rcases hparse : a.parser.push [byte] with ⟨parser, result⟩
        cases result with
        | error source =>
          cases hback : returnedToDirectTransport { recordedByte a byte with parser } with
          | true => exact ⟨_, .handedBack a hparses parser source hparse hback⟩
          | false => exact ⟨_, .quarantined a hparses parser source hparse hback⟩
        | ok parsed =>
          cases hended : parsed.any isEnded with
          | true => exact ⟨_, .ended a hparses parser parsed hparse hended⟩
          | false => exact ⟨_, .parsed a hparses parser parsed hparse hended⟩

theorem step_iff {it : Iteration} : Step s byte it ↔ iteration s byte = it := by
  refine ⟨iteration_of_step, fun h => ?_⟩
  obtain ⟨it', hstep⟩ := exists_step s byte
  have hit : it' = it := (iteration_of_step hstep).symm.trans h
  exact hit ▸ hstep

theorem iteration_step (s : PushState) (byte : UInt8) : Step s byte (iteration s byte) := step_iff.mpr rfl

theorem Step.recovering {it : Iteration} (h : Step s byte it)
    (hactive : s.router.active = some a) (hrec : a.recovering = true) :
    (a.terminatorEscapeSeen && byte == backslash) = true ∧
        it = .advance ⟨s.router.close a.connectionId, s.events ++ [.connectionEnded a.connectionId], s.direct⟩ ∨
      (a.terminatorEscapeSeen && byte == backslash) = false ∧
        it = .advance ⟨s.router.withActive { a with terminatorEscapeSeen := byte == esc },
          s.events, s.direct⟩ := by
  rw [← iteration_of_step h]
  cases hst : (a.terminatorEscapeSeen && byte == backslash) with
  | true => exact .inl ⟨rfl, iteration_of_step (.drained a hactive hrec hst)⟩
  | false => exact .inr ⟨rfl, iteration_of_step (.draining a hactive hrec hst)⟩

/-! ## Bytes and streams -/

theorem pushByte_induction {P : PushState → Prop} (hadvance : ∀ s s', P s → Step s byte (.advance s') → P s')
    (hreconsider : ∀ s s', P s → Step s byte (.reconsider s') → P s') (hs : P s)
    (h : pushByte s byte = .ok s') : P s' := by
  induction hn : retries s using Nat.strongRecOn generalizing s with
  | _ n ih =>
    cases hit : iteration s byte with
    | advance t =>
      rw [pushByte_advance hit] at h
      have ht : t = s' := by injection h
      exact ht ▸ hadvance s t hs (step_iff.mpr hit)
    | fail r error =>
      rw [pushByte_fail hit] at h
      cases h
    | reconsider t =>
      rw [pushByte_reconsider hit] at h
      exact ih (retries t) (hn ▸ reconsider_retries hit) (hreconsider s t hs (step_iff.mpr hit)) h rfl

namespace TmuxGatewayRouter

theorem pushLoop_induction {P : PushState → Prop} (hbyte : ∀ s byte s', P s → pushByte s byte = .ok s' → P s')
    {s s' : PushState} (hs : P s) {bytes : Bytes} (h : pushLoop s bytes = .ok s') : P s' := by
  induction bytes generalizing s with
  | nil => cases h; exact hs
  | cons byte bytes ih =>
    rw [pushLoop] at h
    cases hb : pushByte s byte with
    | error failure => rw [hb] at h; cases h
    | ok t =>
      rw [hb] at h
      exact ih (hbyte s byte t hs hb) h

theorem pushLoop_append (s : PushState) (xs ys : Bytes) : pushLoop s (xs ++ ys) =
      match pushLoop s xs with
      | .error failure => .error failure
      | .ok s' => pushLoop s' ys := by
  induction xs generalizing s with
  | nil => rfl
  | cons byte xs ih =>
    rw [List.cons_append, pushLoop, pushLoop]
    cases pushByte s byte with
    | error failure => rfl
    | ok t => exact ih t

end TmuxGatewayRouter

end Lector.Gateway
