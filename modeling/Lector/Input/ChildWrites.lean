import Lector.Foundations.Bytes

/-! The queue of bytes for the child (`PtyStream` in `src/pty.rs`), before a descriptor that may answer each
write with a part, nothing or an error. -/
namespace Lector.ChildWrites
open List
open Option hiding min

/-! ## Writing -/

/-- The answer of the descriptor to one write: the room it has, or an error. -/
inductive Answer
  | wrote (room : Nat)
  | interrupted
  | wouldBlock
  | failed
deriving DecidableEq

/-- `inner` is what the child has been sent. -/
structure PtyStream where
  inner : Bytes
  pendingWrite : Bytes
  droppedWriteBytes : Nat
deriving DecidableEq

def ptyWriteBufferLimit : Nat := 1024 * 1024

structure PtyWriteReport where
  bytesWritten : Nat := 0
  blocked : Bool := false
deriving DecidableEq

inductive Failure
  | failed
deriving DecidableEq

namespace PtyStream

/-- The loop of a drain, once for each answer; without one it still waits for the descriptor. -/
def drainPendingWrites (stream : PtyStream) (report : PtyWriteReport) :
    List Answer → Option (PtyStream × Except Failure PtyWriteReport × List Answer)
  | [] => if stream.pendingWrite = [] then some (stream, .ok report, []) else none
  | answer :: answers =>
    if stream.pendingWrite = [] then some (stream, .ok report, answer :: answers)
    else match answer with
      | .wrote room =>
        let count := min room stream.pendingWrite.length
        if count = 0 then some (stream, .ok { report with blocked := true }, answers)
        else
          let stream := { stream with
            inner := stream.inner ++ stream.pendingWrite.take count
            pendingWrite := stream.pendingWrite.drop count }
          drainPendingWrites stream
            { report with bytesWritten := saturatingAdd 64 report.bytesWritten count } answers
      | .interrupted => drainPendingWrites stream report answers
      | .wouldBlock => some (stream, .ok { report with blocked := true }, answers)
      | .failed => some (stream, .error .failed, answers)

def queueRemainder (stream : PtyStream) (bytes : Bytes) (written : Nat) : PtyStream × Nat :=
  let remainder := bytes.drop written
  let capacity := ptyWriteBufferLimit - stream.pendingWrite.length
  let retained := min capacity remainder.length
  ({ stream with
    pendingWrite := stream.pendingWrite ++ remainder.take retained
    droppedWriteBytes := saturatingAdd 64 stream.droppedWriteBytes (remainder.length - retained) },
    bytes.length)

def acceptWrite (stream : PtyStream) (bytes : Bytes) (answers : List Answer) :
    Option (PtyStream × Except Failure Nat × List Answer) := do
  let (stream, drained, answers) ← stream.drainPendingWrites {} answers
  match drained with
  | .error failure => some (stream, .error failure, answers)
  | .ok _ =>
    if stream.pendingWrite = [] then
      match answers with
      | [] => none
      | .wrote room :: answers =>
        let count := min room bytes.length
        let stream := { stream with inner := stream.inner ++ bytes.take count }
        if count = bytes.length then some (stream, .ok count, answers)
        else
          let (stream, accepted) := stream.queueRemainder bytes count
          some (stream, .ok accepted, answers)
      | .interrupted :: answers | .wouldBlock :: answers =>
        let (stream, accepted) := stream.queueRemainder bytes 0
        some (stream, .ok accepted, answers)
      | .failed :: answers => some (stream, .error .failed, answers)
    else
      let (stream, accepted) := stream.queueRemainder bytes 0
      some (stream, .ok accepted, answers)

end PtyStream

open PtyStream

/-! ## Calls -/

/-- A buffer, and the answers of the descriptor while it is served. -/
structure Buffer where
  bytes : Bytes
  answers : List Answer

inductive Call
  | write (buffer : Buffer)
  | writeVectored (buffers : List Buffer)
  | drain (answers : List Answer)
  | flush (answers : List Answer) (flushed : Bool)

/-- The bytes of a call that were accepted, and whether the call returned an error. -/
structure Outcome where
  accepted : Bytes
  failed : Bool
deriving DecidableEq

def PtyStream.write (stream : PtyStream) (buffer : Buffer) : Option (PtyStream × Outcome) :=
  match stream.acceptWrite buffer.bytes buffer.answers with
  | some (stream, .ok _, []) => some (stream, ⟨buffer.bytes, false⟩)
  | some (stream, .error _, []) => some (stream, ⟨[], true⟩)
  | _ => none

def PtyStream.writeVectored (stream : PtyStream) : List Buffer → Option (PtyStream × Outcome)
  | [] => some (stream, ⟨[], false⟩)
  | buffer :: buffers => do
    let (stream, first) ← stream.write buffer
    if first.failed then some (stream, first)
    else
      let (stream, others) ← stream.writeVectored buffers
      some (stream, ⟨first.accepted ++ others.accepted, others.failed⟩)

def PtyStream.call (stream : PtyStream) : Call → Option (PtyStream × Outcome)
  | .write buffer => stream.write buffer
  | .writeVectored buffers => stream.writeVectored buffers
  | .drain answers =>
    match stream.drainPendingWrites {} answers with
    | some (stream, .ok _, []) => some (stream, ⟨[], false⟩)
    | some (stream, .error _, []) => some (stream, ⟨[], true⟩)
    | _ => none
  | .flush answers flushed =>
    match stream.drainPendingWrites {} answers with
    | some (stream, .ok _, []) => some (stream, ⟨[], decide (stream.pendingWrite = []) && !flushed⟩)
    | some (stream, .error _, []) => some (stream, ⟨[], true⟩)
    | _ => none

/-- A run of calls, each of which returns. -/
def PtyStream.run (stream : PtyStream) : List Call → Option (PtyStream × List Outcome)
  | [] => some (stream, [])
  | call :: calls => do
    let (stream, first) ← stream.call call
    let (stream, others) ← stream.run calls
    some (stream, first :: others)

/-! ## A bounded queue -/

/-- The stream has what was accepted: bytes are missing only as far as they are counted as dropped. -/
structure Faithful (stream : PtyStream) (accepted : Bytes) : Prop where
  bounded : stream.pendingWrite.length ≤ ptyWriteBufferLimit
  inOrder : (stream.inner ++ stream.pendingWrite).Sublist accepted
  counted : stream.droppedWriteBytes =
    min (accepted.length - (stream.inner ++ stream.pendingWrite).length) (2 ^ 64 - 1)

theorem Faithful.complete {stream : PtyStream} {accepted : Bytes} (h : Faithful stream accepted)
    (hnone : stream.droppedWriteBytes = 0) : stream.inner ++ stream.pendingWrite = accepted := by
  apply h.inOrder.eq_of_length
  have hlength := h.inOrder.length_le
  have hcounted := h.counted
  omega

section Steps

variable {stream after : PtyStream} {accepted bytes : Bytes} {answers rest : List Answer}

theorem drain_spec {report : PtyWriteReport} {result : Except Failure PtyWriteReport}
    (h : stream.drainPendingWrites report answers = some (after, result, rest)) :
    after.inner ++ after.pendingWrite = stream.inner ++ stream.pendingWrite ∧
      after.droppedWriteBytes = stream.droppedWriteBytes ∧
      after.pendingWrite.length ≤ stream.pendingWrite.length ∧
      ∃ used, answers = used ++ rest ∧ (.failed ∈ used ↔ result = .error .failed) := by
  induction answers generalizing stream report with
  | nil =>
    unfold drainPendingWrites at h
    split at h <;> cases h
    exact ⟨rfl, rfl, le_rfl, [], rfl, by simp⟩
  | cons answer answers ih =>
    unfold drainPendingWrites at h
    split at h
    · cases h
      exact ⟨rfl, rfl, le_rfl, [], rfl, by simp⟩
    · cases answer with
      | wrote room =>
        dsimp only at h
        split at h
        · cases h
          exact ⟨rfl, rfl, le_rfl, [.wrote room], rfl, by simp⟩
        · obtain ⟨htext, hdropped, hlength, used, rfl, hfailed⟩ := ih h
          refine ⟨htext.trans ?_, hdropped, hlength.trans ?_, .wrote room :: used, rfl, ?_⟩
          · rw [append_assoc, take_append_drop]
          · exact (length_drop ▸ Nat.sub_le _ _)
          · rw [← hfailed]
            simp
      | interrupted =>
        obtain ⟨htext, hdropped, hlength, used, rfl, hfailed⟩ := ih h
        refine ⟨htext, hdropped, hlength, .interrupted :: used, rfl, ?_⟩
        rw [← hfailed]
        simp
      | wouldBlock =>
        cases h
        exact ⟨rfl, rfl, le_rfl, [.wouldBlock], rfl, by simp⟩
      | failed =>
        cases h
        exact ⟨rfl, rfl, le_rfl, [.failed], rfl, by simp⟩

theorem Faithful.of_same (h : Faithful stream accepted)
    (htext : after.inner ++ after.pendingWrite = stream.inner ++ stream.pendingWrite)
    (hdropped : after.droppedWriteBytes = stream.droppedWriteBytes)
    (hlength : after.pendingWrite.length ≤ stream.pendingWrite.length) : Faithful after accepted :=
  ⟨hlength.trans h.bounded, htext ▸ h.inOrder, by rw [htext, hdropped, h.counted]⟩

theorem Faithful.queueRemainder {written : Nat} (h : Faithful stream accepted)
    (hempty : written = 0 ∨ stream.pendingWrite = []) :
    Faithful ({ stream with inner := stream.inner ++ bytes.take written }.queueRemainder bytes written).1
      (accepted ++ bytes) := by
  obtain ⟨kept, hkept⟩ : ∃ kept, kept = (bytes.drop written).take
      (min (ptyWriteBufferLimit - stream.pendingWrite.length) (bytes.drop written).length) := ⟨_, rfl⟩
  have htext : stream.inner ++ bytes.take written ++ (stream.pendingWrite ++ kept) =
      stream.inner ++ stream.pendingWrite ++ (bytes.take written ++ kept) := by
    obtain rfl | hnil := hempty
    · simp
    · simp [hnil]
  have hpart : (bytes.take written ++ kept).Sublist bytes := by
    have hparts := (Sublist.refl (bytes.take written)).append (hkept ▸ take_sublist _ (bytes.drop written))
    rwa [take_append_drop] at hparts
  have hroom := congrArg length hkept
  have hwhole := congrArg length (take_append_drop written bytes)
  have hbounded := h.bounded
  have horder := h.inOrder.length_le
  have hcounted := h.counted
  simp only [length_take, length_append] at hroom hwhole horder hcounted
  refine ⟨?_, ?_, ?_⟩
  · show (stream.pendingWrite ++ _).length ≤ _
    rw [← hkept, length_append]
    omega
  · show (stream.inner ++ bytes.take written ++ (stream.pendingWrite ++ _)).Sublist _
    rw [← hkept, htext]
    exact h.inOrder.append hpart
  · show saturatingAdd 64 stream.droppedWriteBytes _ =
      min (_ - (stream.inner ++ bytes.take written ++ (stream.pendingWrite ++ _)).length) _
    rw [saturatingAdd]
    simp only [length_append, length_take]
    omega

theorem Faithful.acceptWrite {result : Except Failure Nat} (h : Faithful stream accepted)
    (haccept : stream.acceptWrite bytes answers = some (after, result, rest)) :
    Faithful after (accepted ++ if result = .error .failed then [] else bytes) ∧
      ∃ used, answers = used ++ rest ∧ (.failed ∈ used ↔ result = .error .failed) := by
  simp only [PtyStream.acceptWrite, bind_eq_bind, bind_eq_some_iff] at haccept
  obtain ⟨⟨drained, report, others⟩, hdrain, haccept⟩ := haccept
  obtain ⟨htext, hdropped, hlength, used, rfl, hfailed⟩ := drain_spec hdrain
  have hdrained := h.of_same htext hdropped hlength
  cases report with
  | error failure =>
    cases haccept
    cases failure
    exact ⟨by simpa using hdrained, used, rfl, by simpa using hfailed⟩
  | ok report =>
    have hused : .failed ∉ used := fun hmem => nomatch hfailed.mp hmem
    dsimp only at haccept
    have hqueued := @Faithful.queueRemainder drained accepted bytes 0 hdrained (.inl rfl)
    split at haccept
    · rename_i hempty
      cases others with
      | nil => cases haccept
      | cons answer others =>
        cases answer with
        | wrote room =>
          dsimp only at haccept
          have hpart := @Faithful.queueRemainder drained accepted bytes (min room bytes.length) hdrained
            (.inr hempty)
          split at haccept
          · rename_i hall
            cases haccept
            have hcounted := hdrained.counted
            have hsame : ({ drained with inner := drained.inner ++ bytes.take bytes.length }.queueRemainder
                bytes bytes.length).1 = { drained with inner := drained.inner ++ bytes.take bytes.length } := by
              simp only [PtyStream.queueRemainder, drop_length, take_nil, append_nil, length_nil, saturatingAdd]
              congr 1
              omega
            rw [hall, hsame] at hpart
            rw [hall]
            exact ⟨by simpa using hpart, used ++ [.wrote room], by simp, by simp [hused]⟩
          · cases haccept
            exact ⟨by simpa using hpart, used ++ [.wrote room], by simp, by simp [hused]⟩
        | interrupted =>
          cases haccept
          exact ⟨by simpa using hqueued, used ++ [.interrupted], by simp, by simp [hused]⟩
        | wouldBlock =>
          cases haccept
          exact ⟨by simpa using hqueued, used ++ [.wouldBlock], by simp, by simp [hused]⟩
        | failed =>
          cases haccept
          exact ⟨by simpa using hdrained, used ++ [.failed], by simp, by simp⟩
    · cases haccept
      exact ⟨by simpa using hqueued, used, rfl, by simp [hused]⟩

end Steps

/-! ## Errors -/

/-- Before the buffer that meets a hard error only empty buffers were accepted. -/
def FailsFirst : List Buffer → Prop
  | [] => True
  | buffer :: buffers => .failed ∈ buffer.answers ∨ (∀ other ∈ buffers, .failed ∉ other.answers) ∨
      buffer.bytes = [] ∧ FailsFirst buffers

def Call.FailsFirst : Call → Prop
  | .writeVectored buffers => ChildWrites.FailsFirst buffers
  | _ => True

section Calls

variable {stream after : PtyStream} {accepted : Bytes} {outcome : Outcome}

section

variable (h : Faithful stream accepted)
include h

theorem Faithful.write {buffer : Buffer} (hwrite : stream.write buffer = some (after, outcome)) :
    Faithful after (accepted ++ outcome.accepted) ∧
      outcome = if .failed ∈ buffer.answers then ⟨[], true⟩ else ⟨buffer.bytes, false⟩ := by
  unfold PtyStream.write at hwrite
  split at hwrite
  all_goals cases hwrite
  all_goals
    rename_i haccept
    obtain ⟨hfaithful, used, hused, hfailed⟩ := h.acceptWrite haccept
    rw [append_nil] at hused
    subst hused
  · exact ⟨by simpa using hfaithful, by simp [hfailed]⟩
  · rename_i failure
    cases failure
    exact ⟨by simpa using hfaithful, by simp [hfailed]⟩

theorem Faithful.writeVectored {buffers : List Buffer}
    (hwrite : stream.writeVectored buffers = some (after, outcome)) :
    Faithful after (accepted ++ outcome.accepted) ∧
      (outcome.failed = true ↔ ∃ buffer ∈ buffers, .failed ∈ buffer.answers) ∧
      ((outcome.failed = true → outcome.accepted = []) ↔ ChildWrites.FailsFirst buffers) := by
  induction buffers generalizing stream accepted outcome with
  | nil =>
    cases hwrite
    exact ⟨by simpa using h, by simp, by simp [ChildWrites.FailsFirst]⟩
  | cons buffer buffers ih =>
    simp only [writeVectored, bind_eq_bind, bind_eq_some_iff] at hwrite
    obtain ⟨⟨middle, first⟩, hfirst, hwrite⟩ := hwrite
    obtain ⟨hmiddle, heq⟩ := h.write hfirst
    by_cases hmet : .failed ∈ buffer.answers
    · rw [if_pos hmet] at heq
      subst heq
      cases hwrite
      exact ⟨hmiddle, by simp [hmet], by simp [ChildWrites.FailsFirst, hmet]⟩
    · rw [if_neg hmet] at heq
      subst heq
      simp only [Bool.false_eq_true, if_false, bind_eq_some_iff] at hwrite
      obtain ⟨⟨last, others⟩, hothers, hwrite⟩ := hwrite
      cases hwrite
      obtain ⟨hlast, hfailed, hnone⟩ := ih hmiddle hothers
      refine ⟨by simpa using hlast, by simpa [hmet] using hfailed, ?_⟩
      simp only [ChildWrites.FailsFirst, hmet, false_or]
      cases hlate : others.failed with
      | false =>
        have hquiet : ∀ other ∈ buffers, .failed ∉ other.answers := fun other hother hin =>
          absurd (hfailed.mpr ⟨other, hother, hin⟩) (by simp [hlate])
        exact iff_of_true nofun (.inl hquiet)
      | true =>
        obtain ⟨other, hother, hin⟩ := hfailed.mp hlate
        have hnot : ¬ ∀ other ∈ buffers, .failed ∉ other.answers := fun hall => hall other hother hin
        rw [← hnone]
        simp [hnot, hlate]

theorem Faithful.call {call : Call}
    (hcall : stream.call call = some (after, outcome)) : Faithful after (accepted ++ outcome.accepted) ∧
      ((outcome.failed = true → outcome.accepted = []) ↔ call.FailsFirst) := by
  cases call with
  | write buffer =>
    obtain ⟨hfaithful, rfl⟩ := h.write hcall
    refine ⟨hfaithful, iff_of_true (fun hfailed => ?_) trivial⟩
    split <;> simp_all
  | writeVectored buffers =>
    obtain ⟨hfaithful, -, hfirst⟩ := h.writeVectored hcall
    exact ⟨hfaithful, hfirst⟩
  | drain answers =>
    simp only [PtyStream.call] at hcall
    split at hcall
    all_goals cases hcall
    all_goals
      rename_i hdrain
      obtain ⟨htext, hdropped, hlength, -⟩ := drain_spec hdrain
      exact ⟨by simpa using h.of_same htext hdropped hlength, iff_of_true (fun _ => rfl) trivial⟩
  | flush answers flushed =>
    simp only [PtyStream.call] at hcall
    split at hcall
    all_goals cases hcall
    all_goals
      rename_i hdrain
      obtain ⟨htext, hdropped, hlength, -⟩ := drain_spec hdrain
      exact ⟨by simpa using h.of_same htext hdropped hlength, iff_of_true (fun _ => rfl) trivial⟩

theorem Faithful.run {calls : List Call} {outcomes : List Outcome}
    (hrun : stream.run calls = some (after, outcomes)) :
    Faithful after (accepted ++ outcomes.flatMap Outcome.accepted) ∧
      ((∀ outcome ∈ outcomes, outcome.failed = true → outcome.accepted = []) ↔
        ∀ call ∈ calls, call.FailsFirst) := by
  induction calls generalizing stream accepted outcomes with
  | nil =>
    cases hrun
    exact ⟨by simpa using h, by simp⟩
  | cons call calls ih =>
    simp only [run, bind_eq_bind, bind_eq_some_iff] at hrun
    obtain ⟨⟨middle, first⟩, hfirst, ⟨last, others⟩, hothers, hrun⟩ := hrun
    cases hrun
    obtain ⟨hmiddle, hcall⟩ := h.call hfirst
    obtain ⟨hlast, hcalls⟩ := ih hmiddle hothers
    rw [forall_mem_cons, forall_mem_cons, hcall, hcalls, flatMap_cons, ← append_assoc]
    exact ⟨hlast, Iff.rfl⟩

end

end Calls

def PtyStream.new : PtyStream := ⟨[], [], 0⟩

/-- **In every run the queue is bounded and only dropped bytes are missing, and no call that fails has
accepted bytes of its own exactly if each call fails before a buffer with bytes was accepted.** -/
theorem calls_faithful {calls : List Call} {stream : PtyStream} {outcomes : List Outcome}
    (hrun : new.run calls = some (stream, outcomes)) :
    Faithful stream (outcomes.flatMap Outcome.accepted) ∧ (stream.droppedWriteBytes = 0 →
        stream.inner ++ stream.pendingWrite = outcomes.flatMap Outcome.accepted) ∧
      ((∀ outcome ∈ outcomes, outcome.failed = true → outcome.accepted = []) ↔
        ∀ call ∈ calls, call.FailsFirst) := by
  have hnew : Faithful .new [] := ⟨Nat.zero_le _, .slnil, rfl⟩
  obtain ⟨hfaithful, hfirst⟩ := hnew.run hrun
  exact ⟨hfaithful, hfaithful.complete, hfirst⟩

/-- What a short write leaves is drained, and two buffers fail at the first one. -/
theorem calls_faithful_short :
    let calls : List Call := [.write ⟨ascii "ab", [.wrote 1]⟩, .drain [.wrote 1],
      .writeVectored [⟨ascii "c", [.failed]⟩, ⟨ascii "d", [.wrote 1]⟩]]
    let outcomes : List Outcome := [⟨ascii "ab", false⟩, ⟨[], false⟩, ⟨[], true⟩]
    new.run calls = some (⟨ascii "ab", [], 0⟩, outcomes) ∧ Faithful ⟨ascii "ab", [], 0⟩ (ascii "ab") ∧
      ∀ outcome ∈ outcomes, outcome.failed = true → outcome.accepted = [] := by
  obtain ⟨hfaithful, -, hfirst⟩ := @calls_faithful [.write ⟨ascii "ab", [.wrote 1]⟩, .drain [.wrote 1],
    .writeVectored [⟨ascii "c", [.failed]⟩, ⟨ascii "d", [.wrote 1]⟩]] ⟨ascii "ab", [], 0⟩
    [⟨ascii "ab", false⟩, ⟨[], false⟩, ⟨[], true⟩] (by decide)
  exact ⟨by decide, hfaithful, hfirst.mpr (by simp [Call.FailsFirst, FailsFirst])⟩

/-- The first of two buffers is with the child when the second one fails. -/
theorem writeVectored_accepts_and_fails :
    new.run [.writeVectored [⟨ascii "a", [.wrote 1]⟩, ⟨ascii "b", [.failed]⟩]] =
      some (⟨ascii "a", [], 0⟩, [⟨ascii "a", true⟩]) := by
  decide

end Lector.ChildWrites
