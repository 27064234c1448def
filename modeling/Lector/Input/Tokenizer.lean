import Lector.Foundations.Bytes

/-! Terminal input is cut into events (`src/app/input.rs`, `src/app/protocol.rs`). Bytes gather in a
buffer that is parsed after each of them; a time stamp lets a tick flush what stays incomplete. -/
namespace Lector.Input
open Bytes Relation List

def maxPendingTerminalInputBytes : Nat := 64 * 1024

def escTimeoutMs : Nat := 50

def focusInEvent : Bytes := [0x1b, 0x5b, 0x49]
def focusOutEvent : Bytes := [0x1b, 0x5b, 0x4f]

def modifyOtherKeysPrefix : Bytes := [0x1b, 0x5b, 0x32, 0x37, 0x3b]

inductive ParseResult (E : Type)
  | event (e : E)
  | incomplete
  | error

/-- The key library: its parser and the events that are built without it. -/
structure KeyLibrary (E : Type) where
  parseFrom : Bytes → ParseResult E
  escapeKey : E
  altKey : UInt8 → E

variable {E : Type}

/-! ## Sequences -/

inductive SequenceStatus (α : Type)
  | none
  | incomplete
  | complete (a : α)
deriving DecidableEq

/-- The search for the end of an OSC sequence; `index` bytes are behind it. -/
def oscScan (index : Nat) : Bytes → SequenceStatus Nat
  | [] => .incomplete
  | b :: rest =>
    if b = 0x07 then .complete (index + 1)
    else if b = esc ∧ rest.head? = some backslash then .complete (index + 2)
    else oscScan (index + 1) rest

def oscStatus : Bytes → SequenceStatus Nat
  | b :: b' :: rest => if b = esc ∧ b' = 0x5d then oscScan 2 rest else .none
  | _ => .none

def focusEventStatus (input : Bytes) : SequenceStatus Bool :=
  if focusInEvent.isPrefixOf input then .complete true
  else if input.isPrefixOf focusInEvent && !input.isEmpty then .incomplete
  else if focusOutEvent.isPrefixOf input then .complete false
  else if input.isPrefixOf focusOutEvent && !input.isEmpty then .incomplete
  else .none

inductive ModifyOtherKeysStatus (E : Type)
  | none
  | incomplete
  | event (length : Nat) (e : E)
  | raw (length : Nat)

/-- The bytes between `ESC [` and the tilde are digits and semicolons, so they are text. -/
def modifyOtherKeysEvent (lib : KeyLibrary E) (raw : Bytes) : Option E :=
  match fields 0x3b ((raw.take (raw.length - 1)).drop 2) with
  | [first, modifiers, keycode] =>
    if first = [0x32, 0x37] then
      match lib.parseFrom ([esc, 0x5b] ++ keycode ++ [0x3b] ++ modifiers ++ [0x75]) with
      | .event e => some e
      | _ => none
    else none
  | _ => none

/-- The search for the tilde; `index` bytes of `input` are behind it. -/
def modifyOtherKeysScan (lib : KeyLibrary E) (input : Bytes) (index : Nat) : Bytes → ModifyOtherKeysStatus E
  | [] => .incomplete
  | b :: rest =>
    if isDigit b || b = 0x3b then modifyOtherKeysScan lib input (index + 1) rest
    else if b = 0x7e then
      match modifyOtherKeysEvent lib (input.take (index + 1)) with
      | some e => .event (index + 1) e
      | none => .raw (index + 1)
    else .none

def modifyOtherKeysStatus (lib : KeyLibrary E) (input : Bytes) : ModifyOtherKeysStatus E :=
  if input.isEmpty then .none
  else if input.isPrefixOf modifyOtherKeysPrefix &&
      decide (input.length < modifyOtherKeysPrefix.length) then .incomplete
  else if !modifyOtherKeysPrefix.isPrefixOf input then .none
  else modifyOtherKeysScan lib input modifyOtherKeysPrefix.length
    (input.drop modifyOtherKeysPrefix.length)

def isInvalidSs3Prefix : Bytes → Bool
  | b :: b' :: b'' :: _ =>
    decide (b = esc) && decide (b' = 0x4f) &&
      !(b'' ∈ [0x44, 0x43, 0x41, 0x42, 0x48, 0x46] || (0x50 ≤ b'' && b'' ≤ 0x53))
  | _ => false

def timedOutEvent (lib : KeyLibrary E) (raw : Bytes) : Option E :=
  if raw = [esc] then some lib.escapeKey
  else if raw = [esc, 0x5b] then some (lib.altKey 0x5b)
  else if raw = [esc, 0x5d] then some (lib.altKey 0x5d)
  else if raw = [esc, 0x4f] then some (lib.altKey 0x4f)
  else none

/-- An event with its bytes, bytes as they are, or a focus report, which is answered. -/
inductive Delivery (E : Type)
  | event (e : E) (raw : Bytes)
  | raw (bytes : Bytes)
  | focus (focused : Bool)

def Delivery.bytes : Delivery E → Bytes
  | .event _ consumed => consumed
  | .raw consumed => consumed
  | .focus focused => if focused then focusInEvent else focusOutEvent

section Lengths

variable {lib : KeyLibrary E}

variable {index length : Nat} {input rest : Bytes}

theorem oscScan_complete (h : oscScan index input = .complete length) : index < length := by
  induction input generalizing index with
  | nil => simp [oscScan] at h
  | cons b rest ih =>
    rw [oscScan] at h
    split at h
    · obtain rfl := SequenceStatus.complete.inj h
      omega
    · split at h
      · obtain rfl := SequenceStatus.complete.inj h
        omega
      · exact Nat.lt_of_succ_lt (ih h)

theorem oscStatus_complete (h : oscStatus input = .complete length) : 0 < length := by
  unfold oscStatus at h
  split at h
  · split at h
    · exact lt_of_le_of_lt (Nat.zero_le _) (oscScan_complete h)
    · simp at h
  · simp at h

theorem focusEventStatus_complete {focused : Bool} (h : focusEventStatus input = .complete focused) :
    (Delivery.focus focused : Delivery E).bytes = input.take focusInEvent.length := by
  unfold focusEventStatus at h
  split at h
  · rename_i hin
    obtain rfl := SequenceStatus.complete.inj h
    exact prefix_iff_eq_take.mp ( isPrefixOf_iff_prefix.mp hin)
  · split at h
    · simp at h
    · split at h
      · rename_i hout
        obtain rfl := SequenceStatus.complete.inj h
        exact prefix_iff_eq_take.mp ( isPrefixOf_iff_prefix.mp hout)
      · split at h <;> simp at h

def ModifyOtherKeysStatus.length? : ModifyOtherKeysStatus E → Option Nat
  | .event length _ | .raw length => some length
  | .none | .incomplete => Option.none

theorem modifyOtherKeysScan_length
    (h : (modifyOtherKeysScan lib input index rest).length? = some length) : 0 < length := by
  induction rest generalizing index with
  | nil => simp [modifyOtherKeysScan, ModifyOtherKeysStatus.length?] at h
  | cons b rest ih =>
    rw [modifyOtherKeysScan] at h
    split at h
    · exact ih h
    · split at h
      · split at h
        · cases h
          omega
        · cases h
          omega
      · simp [ModifyOtherKeysStatus.length?] at h

theorem modifyOtherKeysStatus_length
    (h : (modifyOtherKeysStatus lib input).length? = some length) : 0 < length := by
  unfold modifyOtherKeysStatus at h
  split at h
  · simp [ModifyOtherKeysStatus.length?] at h
  · split at h
    · simp [ModifyOtherKeysStatus.length?] at h
    · split at h
      · simp [ModifyOtherKeysStatus.length?] at h
      · exact modifyOtherKeysScan_length h

end Lengths

/-! ## The buffer -/

/-- The buffer, when its last byte came, and what was passed on so far. -/
structure InputState (E : Type) where
  pendingInput : Bytes
  pendingInputLastAt : Option Nat
  delivered : List (Delivery E)

namespace InputState

def new : InputState E := ⟨[], none, []⟩

variable (s : InputState E) (length : Nat)

def deliver (delivery : Delivery E) : InputState E where
  pendingInput := s.pendingInput.drop length
  pendingInputLastAt := if (s.pendingInput.drop length).isEmpty then none else s.pendingInputLastAt
  delivered := s.delivered ++ [delivery]

/-- An OSC sequence leaves the buffer, and the time stamp goes whatever is left. -/
def deliverOsc : InputState E where
  pendingInput := s.pendingInput.drop length
  pendingInputLastAt := none
  delivered := s.delivered ++ [.raw (s.pendingInput.take length)]

def parseRound (lib : KeyLibrary E) : Option (InputState E) :=
  if s.pendingInput.isEmpty then none
  else if s.pendingInput = [esc] then none
  else
    match oscStatus s.pendingInput with
    | .complete length => some (s.deliverOsc length)
    | .incomplete => none
    | .none =>
      match focusEventStatus s.pendingInput with
      | .complete focused => some (s.deliver focusInEvent.length (.focus focused))
      | .incomplete => none
      | .none =>
        match modifyOtherKeysStatus lib s.pendingInput with
        | .event length e => some (s.deliver length (.event e (s.pendingInput.take length)))
        | .raw length => some (s.deliver length (.raw (s.pendingInput.take length)))
        | .incomplete => none
        | .none =>
          if isInvalidSs3Prefix s.pendingInput then
            some (s.deliver 2 (.event (lib.altKey 0x4f) (s.pendingInput.take 2)))
          else
            match lib.parseFrom s.pendingInput with
            | .event e => some (s.deliver s.pendingInput.length (.event e s.pendingInput))
            | .incomplete => none
            | .error => some (s.deliver 1 (.raw (s.pendingInput.take 1)))

def parseRounds (lib : KeyLibrary E) : Nat → InputState E → InputState E
  | 0, s => s
  | rounds + 1, s =>
    match s.parseRound lib with
    | some s' => parseRounds lib rounds s'
    | none => s

def parsePendingInput (lib : KeyLibrary E) : InputState E := parseRounds lib s.pendingInput.length s

variable (nowMs : Nat) (b : UInt8)

def push : InputState E :=
  { s with pendingInput := s.pendingInput ++ [b], pendingInputLastAt := some nowMs }

def flushOversized : InputState E :=
  if s.pendingInput.length ≥ maxPendingTerminalInputBytes then
    s.deliver s.pendingInput.length (.raw s.pendingInput)
  else s

def receive (lib : KeyLibrary E) (nowMs : Nat) (b : UInt8) : InputState E :=
  let pushed := s.push nowMs b
  if pushed.pendingInput = [esc] then pushed
  else (pushed.parsePendingInput lib).flushOversized

def handleFilteredTerminalInput (lib : KeyLibrary E) (input : List (Nat × UInt8)) : InputState E :=
  input.foldl (fun s byte => s.receive lib byte.1 byte.2) s

def flushPendingInput (lib : KeyLibrary E) (nowMs : Nat) : InputState E :=
  match s.pendingInputLastAt with
  | none => s
  | some lastAt =>
    if s.pendingInput.isEmpty then { s with pendingInputLastAt := none }
    else if nowMs - lastAt < escTimeoutMs then s
    else
      match timedOutEvent lib s.pendingInput with
      | some e => s.deliver s.pendingInput.length (.event e s.pendingInput)
      | none => s.deliver s.pendingInput.length (.raw s.pendingInput)

variable {s} {s' : InputState E} {lib : KeyLibrary E}

/-! ## What a round does -/

theorem parseRound_cases (h : s.parseRound lib = some s') : s.pendingInput ≠ [] ∧ ∃ length, 0 < length ∧
      (oscStatus s.pendingInput = .complete length ∧ s' = s.deliverOsc length ∨
        ∃ delivery : Delivery E, delivery.bytes = s.pendingInput.take length ∧
          s' = s.deliver length delivery) := by
  unfold parseRound at h
  split at h
  · simp at h
  · rename_i hnonempty
    refine ⟨by simpa using hnonempty, ?_⟩
    split at h
    · simp at h
    · split at h
      · rename_i length hosc
        cases h
        exact ⟨length, oscStatus_complete hosc, .inl ⟨hosc, rfl⟩⟩
      · simp at h
      · split at h
        · rename_i focused hfocus
          cases h
          exact ⟨focusInEvent.length, by decide, .inr ⟨_, focusEventStatus_complete hfocus, rfl⟩⟩
        · simp at h
        · split at h
          · rename_i length e hkeys
            cases h
            have hstatus : (modifyOtherKeysStatus lib s.pendingInput).length? = some length := by
              rw [hkeys]
              rfl
            exact ⟨length, modifyOtherKeysStatus_length hstatus, .inr ⟨_, rfl, rfl⟩⟩
          · rename_i length hkeys
            cases h
            have hstatus : (modifyOtherKeysStatus lib s.pendingInput).length? = some length := by
              rw [hkeys]
              rfl
            exact ⟨length, modifyOtherKeysStatus_length hstatus, .inr ⟨_, rfl, rfl⟩⟩
          · simp at h
          · split at h
            · cases h
              exact ⟨2, by decide, .inr ⟨_, rfl, rfl⟩⟩
            · split at h
              · cases h
                refine ⟨s.pendingInput.length, ?_, .inr ⟨_, (take_length ..).symm, rfl⟩⟩
                exact length_pos_iff.mpr (by simpa using hnonempty)
              · simp at h
              · cases h
                exact ⟨1, by decide, .inr ⟨_, rfl, rfl⟩⟩

def allBytes (s : InputState E) : Bytes := s.delivered.flatMap Delivery.bytes ++ s.pendingInput

theorem deliver_allBytes {length : Nat} {delivery : Delivery E}
    (h : delivery.bytes = s.pendingInput.take length) : (s.deliver length delivery).allBytes = s.allBytes := by
  simp [allBytes, deliver, h]

theorem deliverOsc_allBytes : (s.deliverOsc length).allBytes = s.allBytes := by
  simp [allBytes, deliverOsc, Delivery.bytes]

theorem parseRound_allBytes (h : s.parseRound lib = some s') : s'.allBytes = s.allBytes := by
  obtain ⟨-, length, -, ⟨-, rfl⟩ | ⟨delivery, hbytes, rfl⟩⟩ := parseRound_cases h
  · exact deliverOsc_allBytes length
  · exact deliver_allBytes hbytes

theorem parseRound_shorter (h : s.parseRound lib = some s') :
    s'.pendingInput.length < s.pendingInput.length := by
  obtain ⟨hnonempty, length, hlength, hcases⟩ := parseRound_cases h
  have hpos := length_pos_iff.mpr hnonempty
  have hdrop : s'.pendingInput = s.pendingInput.drop length := by
    obtain ⟨-, rfl⟩ | ⟨-, -, rfl⟩ := hcases
    · rfl
    · rfl
  rw [hdrop, length_drop]
  omega

/-! ## The loop -/

def Visits (lib : KeyLibrary E) : InputState E → InputState E → Prop :=
  ReflTransGen fun s s' => s.parseRound lib = some s'

theorem Visits.allBytes (h : Visits lib s s') : s'.allBytes = s.allBytes := by
  induction h with
  | refl => rfl
  | tail _ hround ih => rw [parseRound_allBytes hround, ih]

theorem parseRounds_visits (rounds : Nat) (s : InputState E) : Visits lib s (parseRounds lib rounds s) := by
  induction rounds generalizing s with
  | zero => exact .refl
  | succ rounds ih =>
    rw [parseRounds]
    split
    · rename_i s' hround
      exact .head hround (ih s')
    · exact .refl

theorem parseRounds_done {rounds : Nat} (h : s.pendingInput.length ≤ rounds) :
    (parseRounds lib rounds s).parseRound lib = none := by
  induction rounds generalizing s with
  | zero =>
    have hempty : s.pendingInput.isEmpty := by simpa using h
    simp [parseRounds, parseRound, hempty]
  | succ rounds ih =>
    rw [parseRounds]
    split
    · rename_i s' hround
      have hshorter := parseRound_shorter hround
      exact ih (by omega)
    · assumption

theorem parsePendingInput_done : (s.parsePendingInput lib).parseRound lib = none := parseRounds_done (le_rfl)

theorem parsePendingInput_visits : Visits lib s (s.parsePendingInput lib) := parseRounds_visits _ s

/-! ## The time stamp -/

def Armed (s : InputState E) : Prop := s.pendingInput ≠ [] → s.pendingInputLastAt.isSome

/-- An OSC sequence that is complete at the front of the buffer is all there is in it. -/
def OscLast (input : Bytes) : Prop := ∀ length, oscStatus input = .complete length → input.length ≤ length

theorem deliver_armed (h : s.Armed) (length : Nat) (delivery : Delivery E) :
    (s.deliver length delivery).Armed := by
  intro hnonempty
  simp only [deliver] at hnonempty ⊢
  rw [if_neg (by simpa using hnonempty)]
  apply h
  rintro hempty
  simp [hempty] at hnonempty

theorem parseRound_armed (harmed : s.Armed) (hosc : OscLast s.pendingInput)
    (h : s.parseRound lib = some s') : s'.Armed := by
  obtain ⟨-, length, -, ⟨hcomplete, rfl⟩ | ⟨delivery, -, rfl⟩⟩ := parseRound_cases h
  · intro hnonempty
    exact absurd (drop_eq_nil_of_le (hosc length hcomplete)) hnonempty
  · exact deliver_armed harmed length delivery

theorem Visits.armed (h : Visits lib s s') (harmed : s.Armed)
    (hosc : ∀ t, Visits lib s t → OscLast t.pendingInput) : s'.Armed := by
  induction h with
  | refl => exact harmed
  | tail hvisits hround ih => exact parseRound_armed ih (hosc _ hvisits) hround

/-! ## Runs -/

inductive InputOp
  | stdin (input : List (Nat × UInt8))
  | flush (nowMs : Nat)

def InputOp.bytes : InputOp → Bytes
  | .stdin input => input.map (·.2)
  | .flush _ => []

def step (lib : KeyLibrary E) (s : InputState E) : InputOp → InputState E
  | .stdin input => s.handleFilteredTerminalInput lib input
  | .flush nowMs => s.flushPendingInput lib nowMs

def run (lib : KeyLibrary E) (s : InputState E) (ops : List InputOp) : InputState E := ops.foldl (step lib) s

/-! ### Nothing is lost, and the buffer is bounded -/

theorem flushOversized_allBytes : s.flushOversized.allBytes = s.allBytes := by
  rw [flushOversized]
  split
  · exact deliver_allBytes (take_length ..).symm
  · rfl

theorem receive_allBytes : (s.receive lib nowMs b).allBytes = s.allBytes ++ [b] := by
  have hpush : (s.push nowMs b).allBytes = s.allBytes ++ [b] := by simp [allBytes, push]
  rw [receive]
  split
  · exact hpush
  · rw [flushOversized_allBytes, parsePendingInput_visits.allBytes, hpush]

theorem flushPendingInput_allBytes : (s.flushPendingInput lib nowMs).allBytes = s.allBytes := by
  unfold flushPendingInput
  split
  · rfl
  · split
    · rfl
    · split
      · rfl
      · split
        · exact deliver_allBytes (take_length ..).symm
        · exact deliver_allBytes (take_length ..).symm

theorem handleFilteredTerminalInput_allBytes (input : List (Nat × UInt8)) :
    (s.handleFilteredTerminalInput lib input).allBytes = s.allBytes ++ input.map (·.2) := by
  induction input generalizing s with
  | nil => simp [handleFilteredTerminalInput]
  | cons byte input ih =>
    have hrest := ih (s := s.receive lib byte.1 byte.2)
    rw [receive_allBytes] at hrest
    simpa [handleFilteredTerminalInput] using hrest

theorem run_allBytes (ops : List InputOp) :
    (run lib s ops).allBytes = s.allBytes ++ ops.flatMap InputOp.bytes := by
  induction ops generalizing s with
  | nil => simp [run]
  | cons op ops ih =>
    have hrest := ih (s := step lib s op)
    have hstep : (step lib s op).allBytes = s.allBytes ++ op.bytes := by
      cases op with
      | stdin input => exact handleFilteredTerminalInput_allBytes input
      | flush nowMs => simpa [step, InputOp.bytes] using flushPendingInput_allBytes nowMs
    rw [hstep] at hrest
    simpa [run] using hrest

def Bounded (s : InputState E) : Prop := s.pendingInput.length < maxPendingTerminalInputBytes

theorem deliver_shorter (delivery : Delivery E) :
    (s.deliver length delivery).pendingInput.length ≤ s.pendingInput.length := by
  simp [deliver]

theorem flushOversized_bounded : s.flushOversized.Bounded := by
  rw [flushOversized]
  split
  · simp [Bounded, deliver, maxPendingTerminalInputBytes]
  · exact lt_of_not_ge ‹_›

theorem receive_bounded : (s.receive lib nowMs b).Bounded := by
  rw [receive]
  split
  · rename_i hesc
    rw [Bounded, hesc]
    decide
  · exact flushOversized_bounded

theorem flushPendingInput_bounded (h : s.Bounded) (nowMs : Nat) : (s.flushPendingInput lib nowMs).Bounded := by
  unfold flushPendingInput
  split
  · exact h
  · split
    · exact h
    · split
      · exact h
      · split
        · exact (deliver_shorter ..).trans_lt h
        · exact (deliver_shorter ..).trans_lt h

theorem step_bounded (h : s.Bounded) (op : InputOp) : (step lib s op).Bounded := by
  cases op with
  | flush nowMs => exact flushPendingInput_bounded h nowMs
  | stdin input =>
    induction input using reverseRecOn with
    | nil => exact h
    | append_singleton input byte ih =>
      simp only [step, handleFilteredTerminalInput, foldl_append]
      exact receive_bounded byte.1 byte.2

theorem run_bounded (h : s.Bounded) (ops : List InputOp) : (run lib s ops).Bounded := by
  induction ops generalizing s with
  | nil => exact h
  | cons op ops ih => exact ih (step_bounded h op)

/-! ### What stays will be flushed -/

/-- After the byte a complete OSC sequence is the last thing in the buffer. -/
def ByteMeets (lib : KeyLibrary E) (s : InputState E) (nowMs : Nat) (b : UInt8) : Prop :=
  ∀ t, Visits lib (s.push nowMs b) t → OscLast t.pendingInput

/-- Every byte of every chunk meets the condition. -/
def RunMeets (lib : KeyLibrary E) (s : InputState E) (ops : List InputOp) : Prop :=
  ∀ before chunk after, ops = before ++ .stdin chunk :: after →
    ∀ sofar byte rest, chunk = sofar ++ byte :: rest →
      ByteMeets lib ((run lib s before).handleFilteredTerminalInput lib sofar) byte.1 byte.2

theorem push_armed : (s.push nowMs b).Armed := fun _ => rfl

theorem flushOversized_armed (h : s.Armed) : s.flushOversized.Armed := by
  rw [flushOversized]
  split
  · exact deliver_armed h _ _
  · exact h

theorem receive_armed {nowMs : Nat} {b : UInt8} (h : ByteMeets lib s nowMs b) :
    (s.receive lib nowMs b).Armed := by
  rw [receive]
  split
  · exact push_armed nowMs b
  · exact flushOversized_armed (parsePendingInput_visits.armed (push_armed nowMs b) h)

theorem flushPendingInput_armed (h : s.Armed) (nowMs : Nat) : (s.flushPendingInput lib nowMs).Armed := by
  unfold flushPendingInput
  split
  · exact h
  · split
    · rename_i hempty
      intro hnonempty
      exact absurd (isEmpty_iff.mp hempty) hnonempty
    · split
      · exact h
      · split
        · exact deliver_armed h _ _
        · exact deliver_armed h _ _

theorem handleFilteredTerminalInput_armed (h : s.Armed) {input : List (Nat × UInt8)}
    (hmeets : ∀ sofar byte rest, input = sofar ++ byte :: rest →
      ByteMeets lib (s.handleFilteredTerminalInput lib sofar) byte.1 byte.2) :
    (s.handleFilteredTerminalInput lib input).Armed := by
  induction input using reverseRecOn with
  | nil => exact h
  | append_singleton input byte ih =>
    have hlast := receive_armed (hmeets input byte [] rfl)
    simpa [handleFilteredTerminalInput] using hlast

theorem run_armed (h : s.Armed) {ops : List InputOp} (hmeets : RunMeets lib s ops) : (run lib s ops).Armed := by
  induction ops using reverseRecOn with
  | nil => exact h
  | append_singleton ops op ih =>
    have hbefore := ih fun before chunk after heq => hmeets before chunk (after ++ [op]) (by rw [heq]; simp)
    simp only [run, foldl_append]
    cases op with
    | stdin input => exact handleFilteredTerminalInput_armed hbefore (hmeets ops input [] rfl)
    | flush nowMs => exact flushPendingInput_armed hbefore nowMs

/-- **The tokenizer loses nothing.** In every run what was passed on, the focus reports and the buffer are the
bytes received. While no OSC sequence completes in front of more bytes, a buffer with bytes has a time at which
it is flushed. -/
theorem run_loses_nothing (lib : KeyLibrary E) (ops : List InputOp) :
    (run lib new ops).delivered.flatMap Delivery.bytes ++ (run lib new ops).pendingInput =
        ops.flatMap InputOp.bytes ∧
      (run lib new ops).pendingInput.length < maxPendingTerminalInputBytes ∧
      (RunMeets lib new ops → (run lib new ops).pendingInput ≠ [] →
        (run lib new ops).pendingInputLastAt.isSome) := by
  have hnew : (new : InputState E).Bounded := by simp [Bounded, new, maxPendingTerminalInputBytes]
  refine ⟨?_, run_bounded hnew ops, fun hmeets => run_armed (fun h => absurd rfl h) hmeets⟩
  have hall : (run lib new ops).allBytes = (new : InputState E).allBytes ++ ops.flatMap InputOp.bytes :=
    run_allBytes ops
  simpa [new, allBytes] using hall

end InputState

/-! ### An OSC sequence with bytes behind it -/

/-- An SGR report is read at its final letter, and one is malformed; an X10 report waits for three
bytes. -/
def mouseLibrary : KeyLibrary Unit where
  parseFrom input :=
    if [0x1b, 0x5b, 0x3c] <+: input then
      if input.getLast? = some 0x4d then .error else .incomplete
    else if input = [0x1b, 0x5b] ∨ input = [0x1b, 0x5b, 0x4d] then .incomplete
    else .error
  escapeKey := ()
  altKey _ := ()

/-- The OSC sequence behind the malformed report takes the time stamp of what follows with it. -/
theorem mouse_report_left_unarmed :
    let s := (InputState.new : InputState Unit).handleFilteredTerminalInput mouseLibrary
      ([0x1b, 0x5b, 0x3c, 0xff, 0x1b, 0x5d, 0x61, 0x07, 0x1b, 0x5b, 0x4d].map fun b => (0, b))
    s.pendingInput = [0x1b, 0x5b, 0x4d] ∧ s.pendingInputLastAt = none := by
  decide +kernel

end Lector.Input
