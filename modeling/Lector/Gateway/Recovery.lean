import Lector.Gateway.Brackets
import Lector.Control.CommandBlocks

/-! What becomes of a region whose parser fails inside an open command block. The failure branch
judges the unfinished line by its first byte, and a payload line may begin with any byte. -/
namespace Lector.Gateway
open Bytes Control List TmuxGatewayRouter

/-! ## Draining a region -/

variable {a : ActiveControl}

theorem pushLoop_drains {s : PushState} (hactive : s.router.active = some a) (hrec : a.recovering = true)
    {rest : Bytes} (hst : ¬ [esc, backslash] <:+: (if a.terminatorEscapeSeen then esc :: rest else rest)) :
    ∃ a', a'.recovering = true ∧ pushLoop s rest = .ok ⟨s.router.withActive a', s.events, s.direct⟩ := by
  induction rest generalizing s a with
  | nil =>
    refine ⟨a, hrec, ?_⟩
    rw [pushLoop, withActive, ← hactive]
  | cons byte rest ih =>
    rcases (iteration_step s byte).recovering hactive hrec with ⟨hend, -⟩ | ⟨-, hdrain⟩
    · -- the terminator would be complete
      simp only [Bool.and_eq_true, beq_iff_eq] at hend
      rw [hend.1, hend.2] at hst
      exact absurd ⟨[], rest, rfl⟩ hst
    · have hrest : ¬ [esc, backslash] <:+: (if byte == esc then esc :: rest else rest) := by
        intro hwithin
        have hbyte : (if byte == esc then esc :: rest else rest) <:+: byte :: rest := by
          split
          · rename_i h
            exact (beq_iff_eq.mp h) ▸ infix_refl _
          · exact ⟨[byte], [], by simp⟩
        have hseen : byte :: rest <:+:
            (if a.terminatorEscapeSeen then esc :: byte :: rest else byte :: rest) := by
          split
          · exact ⟨[esc], [], by simp⟩
          · exact infix_rfl
        exact hst (hwithin.trans (hbyte.trans hseen))
      obtain ⟨a', hrec', hloop⟩ := ih
        (s := ⟨s.router.withActive { a with terminatorEscapeSeen := byte == esc }, s.events,
          s.direct⟩) (a := { a with terminatorEscapeSeen := byte == esc }) rfl hrec hrest
      exact ⟨a', hrec', by rw [pushLoop, pushByte_advance hdrain]; exact hloop⟩

/-! ## Failing inside a block -/

/-- The parser of a live connection rejects `byte` while a command block is open. -/
structure FailsInBlock (r : TmuxGatewayRouter) (a : ActiveControl) (byte : UInt8) : Prop where
  active : r.active = some a
  live : a.recovering = false
  openBlock : a.parser.pendingCommand ≠ none
  rejected : ∃ source, (a.parser.push [byte]).2 = .error source

/-- However the stream goes on, nothing of the region reaches the terminal before the string
terminator. -/
def Contained (r : TmuxGatewayRouter) (byte : UInt8) : Prop :=
  ∀ rest, ¬ [esc, backslash] <:+: rest → ∃ events, (r.push (byte :: rest)).2 = .ok events ∧
      (r.push (byte :: rest)).1.lifecycleState = .recovering ∧
      ∀ bytes, GatewayEvent.directOutput bytes ∉ events

variable {byte b : UInt8}

theorem returned_iff (hexit : a.sawExit = false) (parser : TmuxControlParser) :
    returnedToDirectTransport { recordedByte a byte with parser } = false ↔
      (a.currentRecord ++ [byte]).head? = some 0x25 ∨ (a.currentRecord ++ [byte]).head? = some esc := by
  have hreturned : returnedToDirectTransport { recordedByte a byte with parser } =
      (a.currentRecord ++ [byte]).head?.any (fun b => b != 0x25 && b != esc) := by
    simp [returnedToDirectTransport, recordedByte, hexit]
  rw [hreturned]
  cases hhead : (a.currentRecord ++ [byte]).head? with
  | none => simp at hhead
  | some b =>
    by_cases hpercent : b = 0x25
    · simp [hpercent]
    · by_cases hescape : b = esc <;> simp [hescape]

theorem FailsInBlock.step {first : UInt64} {r : TmuxGatewayRouter} (hr : r.WellFormed first)
    (h : FailsInBlock r a byte) : a.sawExit = false ∧ Parses ⟨r, [], []⟩ a byte ∧
      ∃ parser source, a.parser.push [byte] = (parser, .error source) := by
  have hexit : a.sawExit = false := by
    cases hcase : a.sawExit with
    | false => rfl
    | true => exact absurd ((hr.settled a h.active).pendingCommand hcase) h.openBlock
  obtain ⟨source, hsource⟩ := h.rejected
  refine ⟨hexit, ⟨h.active, h.live, by simp [hexit]⟩, (a.parser.push [byte]).1, source, ?_⟩
  rw [← hsource]

theorem contained_of_quarantined {r : TmuxGatewayRouter} (hparses : Parses ⟨r, [], []⟩ a byte)
    {parser : TmuxControlParser} {source : ControlParseError}
    (hparse : a.parser.push [byte] = (parser, .error source))
    (hback : returnedToDirectTransport { recordedByte a byte with parser } = false) : Contained r byte := by
  intro rest hst
  have hbyte := pushByte_advance (iteration_of_step (.quarantined a hparses parser source hparse hback))
  obtain ⟨a', hrec, hloop⟩ := pushLoop_drains
    (s := ⟨r.withActive (quarantined { recordedByte a byte with parser }),
      [] ++ [.connectionFailed a.connectionId (failureReason a source)], []⟩)
    rfl rfl (show ¬ [esc, backslash] <:+: rest from hst)
  have hpush : r.push (byte :: rest) = (r.withActive a',
      .ok [.connectionFailed a.connectionId (failureReason a source)]) := by
    rw [push, pushLoop, hbyte]
    simp only [hloop]
    rfl
  refine ⟨_, by rw [hpush], ?_, by simp⟩
  rw [hpush]
  simp [lifecycleState, withActive, hrec]

theorem not_contained_of_handedBack {r : TmuxGatewayRouter} (hparses : Parses ⟨r, [], []⟩ a byte)
    {parser : TmuxControlParser} {source : ControlParseError}
    (hparse : a.parser.push [byte] = (parser, .error source))
    (hback : returnedToDirectTransport { recordedByte a byte with parser } = true) : ¬ Contained r byte := by
  intro hcontained
  have hbyte := pushByte_advance (iteration_of_step (.handedBack a hparses parser source hparse hback))
  have hpush : r.push [byte] = (r.close a.connectionId,
      .ok [.connectionFailed a.connectionId (failureReason a source),
        .directOutput (a.currentRecord ++ [byte])]) := by
    rw [push, pushLoop, hbyte]
    simp [pushLoop, emitDirect]
  obtain ⟨events, hevents, -, hnone⟩ := hcontained [] (by decide)
  rw [hpush] at hevents
  cases hevents
  exact hnone (a.currentRecord ++ [byte]) (by simp)

namespace TmuxGatewayRouter

/-- **A region that fails inside a command block stays contained exactly when the failing line begins like a
record**, with a percent sign or an escape. Any other first byte sends the line to the terminal at once. -/
theorem failsInBlock_contained_iff (first : UInt64) (ops : List Op) (a : ActiveControl)
    (byte : UInt8) (h : FailsInBlock (runOps (withFirstConnectionId first) ops).1 a byte) :
    Contained (runOps (withFirstConnectionId first) ops).1 byte ↔
      (a.currentRecord ++ [byte]).head? = some 0x25 ∨ (a.currentRecord ++ [byte]).head? = some esc := by
  obtain ⟨hexit, hparses, parser, source, hparse⟩ := h.step (wellFormed_runOps first ops)
  rw [← returned_iff hexit parser]
  refine ⟨fun hcontained => ?_, contained_of_quarantined hparses hparse⟩
  cases hback : returnedToDirectTransport { recordedByte a byte with parser } with
  | false => rfl
  | true => exact absurd hcontained (not_contained_of_handedBack hparses hparse hback)

end TmuxGatewayRouter

/-! ## An overlong payload line -/

theorem pushLoop_payload {s : PushState} (hactive : s.router.active = some a)
    (hlive : a.recovering = false) (hexit : a.sawExit = false)
    (hstate : a.parser.state = .records) (hpending : a.parser.pendingCommand ≠ none) (l : Bytes)
    (hlf : lf ∉ l) (hfits : (a.parser.line ++ l).length ≤ a.parser.limits.maxLineBytes) :
    pushLoop s l = .ok ⟨s.router.withActive { a with
          parser := { a.parser with line := a.parser.line ++ l }
          currentRecord := a.currentRecord ++ l }, s.events, s.direct⟩ := by
  induction l generalizing s a with
  | nil =>
    simp only [pushLoop, append_nil, withActive]
    rw [← hactive]
  | cons b l ih =>
    have hb : b ≠ lf := fun h => hlf (by simp [h])
    have hrun := TmuxControlParser.run_line hstate [b] (by simpa using Ne.symm hb)
      (by simp only [length_append, length_cons, length_nil] at hfits ⊢; omega)
      (.inl hpending)
    have hparse : a.parser.push [b] = ({ a.parser with line := a.parser.line ++ [b] }, .ok []) := by
      rw [TmuxControlParser.push_eq_run (by simp [hstate]), hrun]
      rfl
    have hstep := pushByte_advance (iteration_of_step (s := s)
      (.parsed a ⟨hactive, hlive, by simp [hexit]⟩ _ _ hparse rfl))
    rw [pushLoop, hstep]
    have hrest := ih (s := ⟨s.router.withActive
        (acceptedRecord (recordedByte a b) { a.parser with line := a.parser.line ++ [b] } [] b),
        s.events ++ [], s.direct⟩)
      (a := acceptedRecord (recordedByte a b) { a.parser with line := a.parser.line ++ [b] } [] b)
      rfl hlive (by simp [acceptedRecord, recordedByte, hexit]) hstate hpending
      (fun h => hlf (by simp [h])) (by simpa [acceptedRecord] using hfits)
    simp only [map_nil]
    rw [hrest]
    simp [acceptedRecord, recordedByte, hb, hexit, withActive]

def openedBlock : Bytes := startMarker ++ ascii "%begin 1 2 0\n"

def inOpenedBlock : ActiveControl :=
  { startedControl 1 with
    parser := ⟨.default, .records, [], some { tag := ⟨1, 2, 0⟩, output := [], outputBytes := 0 }⟩ }

/-- The block with `n` bytes of one line of it received. -/
def inLine (n : Nat) (b : UInt8) : ActiveControl :=
  { inOpenedBlock with
    parser := { inOpenedBlock.parser with line := List.replicate n b }
    currentRecord := List.replicate n b }

def openedLine (n : Nat) (b : UInt8) : List Op := [.push (openedBlock ++ List.replicate n b)]

theorem pushLoop_openedBlock : pushLoop ⟨.withFirstConnectionId 1, [], []⟩ openedBlock =
      .ok ⟨⟨.empty, some inOpenedBlock, 2⟩, [.connectionStarted 1, .control 1 .started], []⟩ := by
  decide +kernel

theorem runOps_openedLine {n : Nat} (hn : n ≤ ParserLimits.default.maxLineBytes) (hb : b ≠ lf) :
    (runOps (.withFirstConnectionId 1) (openedLine n b)).1 = ⟨.empty, some (inLine n b), 2⟩ := by
  have hline := pushLoop_payload
    (s := ⟨⟨.empty, some inOpenedBlock, 2⟩, [.connectionStarted 1, .control 1 .started], []⟩)
    (a := inOpenedBlock) rfl rfl rfl rfl (by simp [inOpenedBlock]) (replicate n b)
    (fun h => hb (eq_of_mem_replicate h).symm)
    (by simpa [inOpenedBlock] using hn)
  rw [openedLine, runOps_single, Op.run, push, pushLoop_append, pushLoop_openedBlock]
  simp only [hline]
  rfl

theorem openedLine_fails {n : Nat} (hn : n = ParserLimits.default.maxLineBytes) (hb : b ≠ lf) :
    FailsInBlock (runOps (.withFirstConnectionId 1) (openedLine n b)).1 (inLine n b) b := by
  have hbyte : (inLine n b).parser.pushByte b = .error (.lineTooLong ParserLimits.default.maxLineBytes) := by
    simp [TmuxControlParser.pushByte, inLine, inOpenedBlock, hb, hn]
  have hsingle := TmuxControlParser.push_single (p := (inLine n b).parser) (by simp [inLine, inOpenedBlock]) b
  exact ⟨by rw [runOps_openedLine hn.le hb], rfl, by simp [inLine, inOpenedBlock],
    .lineTooLong ParserLimits.default.maxLineBytes, by rw [hsingle, hbyte]⟩

namespace TmuxGatewayRouter

theorem failsInBlock_contained_iff_percent :
    Contained (runOps (withFirstConnectionId 1) (openedLine 65536 0x25)).1 0x25 :=
  (failsInBlock_contained_iff 1 (openedLine 65536 0x25) (inLine 65536 0x25) 0x25
    (openedLine_fails rfl (by decide))).mpr (.inl rfl)

/-- A payload line of letters that exceeds the line limit is shown to the user. -/
theorem overlong_payload_line_leaks : ¬ ∀ (ops : List Op) (a : ActiveControl) (byte : UInt8),
      FailsInBlock (runOps (withFirstConnectionId 1) ops).1 a byte →
        Contained (runOps (withFirstConnectionId 1) ops).1 byte := by
  intro h
  have hfails := openedLine_fails (n := 65536) rfl (b := 0x61) (by decide)
  obtain ⟨-, hparses, parser, source, hparse⟩ := hfails.step (wellFormed_runOps 1 _)
  exact not_contained_of_handedBack hparses hparse rfl (h _ _ _ hfails)

end TmuxGatewayRouter

end Lector.Gateway
