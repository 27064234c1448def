import Lector.Control.Parser
import Lector.Foundations.Execution

/-! What a reader of the control parser receives. `push` either returns every event of its chunk or
only the error, so it is the reference byte run with the failing chunk's own events cut off. -/
namespace Lector.Control
open StreamRun List

namespace TmuxControlParser

/-! ## The byte step -/

variable {p q : TmuxControlParser} {events : List ControlEvent}

theorem processBlockLine_frame {pending : PendingCommand} {line : Bytes}
    (h : p.processBlockLine pending line = .ok (q, events)) :
    q.state = p.state ∧ q.limits = p.limits ∧ q.line = p.line := by
  unfold processBlockLine at h
  split at h
  · cases h; exact ⟨rfl, rfl, rfl⟩
  split at h
  · cases h; exact ⟨rfl, rfl, rfl⟩
  split at h
  · cases h
  split at h
  · cases h
  split at h
  · cases h
  · cases h; exact ⟨rfl, rfl, rfl⟩

theorem processRecord_frame {line : Bytes} (h : p.processRecord line = .ok (q, events)) :
    q.state = p.state ∧ q.limits = p.limits ∧ q.line = p.line := by
  unfold processRecord at h
  split at h
  · rename_i rest _
    cases ht : parseCommandTag rest with
    | error e => rw [ht] at h; cases h
    | ok tag => rw [ht] at h; cases h; exact ⟨rfl, rfl, rfl⟩
  repeat' split at h
  all_goals try cases h
  cases hr : recordEvent line with
  | error e => rw [hr] at h; cases h
  | ok event => rw [hr] at h; cases h; exact ⟨rfl, rfl, rfl⟩

theorem processLine_frame {line : Bytes} (h : p.processLine line = .ok (q, events)) :
    q.state = p.state ∧ q.limits = p.limits ∧ q.line = p.line := by
  unfold processLine at h
  split at h
  · exact processBlockLine_frame h
  · exact processRecord_frame h

theorem pushByte_live {byte : UInt8}
    (h : p.pushByte byte = .ok (q, events)) : q.state ≠ .failed ∧ q.limits = p.limits := by
  unfold pushByte at h
  split at h
  · split at h
    · cases h
    split at h
    · cases h; exact ⟨by simp, rfl⟩
    · cases h; exact ⟨by simp, rfl⟩
  · rename_i hs
    split at h
    · cases h; exact ⟨by simp, rfl⟩
    split at h
    · obtain ⟨hstate, hlimits, -⟩ := processLine_frame h
      exact ⟨by rw [hstate]; simp [hs], hlimits⟩
    split at h
    · cases h
    · cases h; exact ⟨by simp [hs], rfl⟩
  · split at h
    · cases h
    · cases h; exact ⟨by simp, rfl⟩
  · cases h
  · cases h

/-! ## `push` is the byte run, poisoned on failure -/

def settle (o : Outcome TmuxControlParser ControlEvent ControlParseError) :
    TmuxControlParser × Except ControlParseError (List ControlEvent) :=
  match o.failure with
  | none => (o.state, .ok o.events)
  | some e => (o.state.poison, .error e)

theorem pushLoop_eq_run (p : TmuxControlParser) (events : List ControlEvent) (bytes : Bytes) :
    p.pushLoop events bytes = settle ((run pushByte p bytes).prepend events) := by
  induction bytes generalizing p events with
  | nil => simp [pushLoop, settle]
  | cons byte bytes ih =>
    rw [pushLoop]
    cases hb : p.pushByte byte with
    | error e => simp [run_cons_error hb, settle]
    | ok r =>
      obtain ⟨q, new⟩ := r
      rw [run_cons_ok hb, prepend_prepend]
      exact ih q (events ++ new)

theorem push_eq_run (hp : p.state ≠ .failed) (bytes : Bytes) :
    p.push bytes = settle (run pushByte p bytes) := by
  rw [push, if_neg hp, pushLoop_eq_run, prepend_nil]

theorem push_single (hp : p.state ≠ .failed) (byte : UInt8) : p.push [byte] =
      match p.pushByte byte with
      | .ok (q, events) => (q, .ok events)
      | .error e => (p.poison, .error e) := by
  rw [push_eq_run hp]
  cases hb : p.pushByte byte with
  | error e => simp [run_cons_error hb, settle]
  | ok r => simp [run_cons_ok hb, settle]

theorem run_live (hp : p.state ≠ .failed) (bytes : Bytes) : (run pushByte p bytes).state.state ≠ .failed :=
  run_invariant (P := fun p => p.state ≠ .failed) (fun _ _ _ _ _ h => (pushByte_live h).1) hp bytes

/-! ## Chunks -/

def feed (p : TmuxControlParser) : List Bytes → Outcome TmuxControlParser ControlEvent ControlParseError
  | [] => ⟨p, [], none⟩
  | chunk :: chunks =>
    match p.push chunk with
    | (q, .error e) => ⟨q, [], some e⟩
    | (q, .ok events) => (q.feed chunks).prepend events

def bytewise (bytes : Bytes) : List Bytes := bytes.map fun byte => [byte]

theorem feed_ok (hp : p.state ≠ .failed) (chunks : List Bytes)
    (h : (run pushByte p chunks.flatten).failure = none) : p.feed chunks = run pushByte p chunks.flatten := by
  induction chunks generalizing p with
  | nil => rfl
  | cons chunk chunks ih =>
    rw [flatten_cons] at h ⊢
    have hchunk : (run pushByte p chunk).failure = none := by
      by_contra hne
      obtain ⟨e, he⟩ := Option.ne_none_iff_exists'.mp hne
      rw [run_append_failed he, he] at h
      cases h
    have happend := run_append hchunk chunks.flatten
    rw [happend] at h
    rw [feed, push_eq_run hp, settle, hchunk, happend]
    simp only
    rw [ih (run_live hp chunk) h]

theorem feed_failed (hp : p.state ≠ .failed) (chunks : List Bytes)
    {e : ControlParseError} (h : (run pushByte p chunks.flatten).failure = some e) :
    ∃ before chunk after, chunks = before ++ chunk :: after ∧ (run pushByte p before.flatten).failure = none ∧
      (run pushByte (run pushByte p before.flatten).state chunk).failure = some e ∧
      p.feed chunks = ⟨(run pushByte p chunks.flatten).state.poison,
        (run pushByte p before.flatten).events, some e⟩ := by
  induction chunks generalizing p with
  | nil => simp at h
  | cons chunk chunks ih =>
    rw [flatten_cons] at h ⊢
    cases hchunk : (run pushByte p chunk).failure with
    | some e' =>
      rw [run_append_failed hchunk] at h ⊢
      have he : e' = e := Option.some.inj (hchunk.symm.trans h)
      subst he
      exact ⟨[], chunk, chunks, rfl, rfl, hchunk, by rw [feed, push_eq_run hp, settle, hchunk]; rfl⟩
    | none =>
      rw [run_append hchunk] at h ⊢
      obtain ⟨before, failing, after, hsplit, hbefore, hfailing, hfeed⟩ := ih (run_live hp chunk) h
      refine ⟨chunk :: before, failing, after, by rw [hsplit]; rfl, ?_, ?_, ?_⟩
      · rw [flatten_cons, run_append hchunk]
        exact hbefore
      · rw [flatten_cons, run_append hchunk]
        exact hfailing
      · rw [feed, push_eq_run hp, settle, hchunk, flatten_cons, run_append hchunk]
        simp only
        rw [hfeed]
        rfl

theorem feed_bytewise (hp : p.state ≠ .failed) (bytes : Bytes) : p.feed (bytewise bytes) =
      { run pushByte p bytes with state := (settle (run pushByte p bytes)).1 } := by
  induction bytes generalizing p with
  | nil => rfl
  | cons byte bytes ih =>
    rw [bytewise, map_cons, feed, push_single hp]
    cases hb : p.pushByte byte with
    | error e => simp [run_cons_error hb, settle]
    | ok r =>
      obtain ⟨q, events⟩ := r
      have hq := ih (pushByte_live hb).1
      rw [bytewise] at hq
      simp only
      rw [hq, run_cons_ok hb]
      cases hf : (run pushByte q bytes).failure <;> simp [settle, hf, Outcome.prepend]

/-- **Chunking cuts off the events of the failing chunk.** Where the stream fails does not depend on the
chunking; what a chunking misses are the events of the failing chunk's own bytes before the failing byte. -/
theorem feed_cuts_failing_chunk {p : TmuxControlParser} (hp : p.state ≠ .failed)
    (chunks : List Bytes) : (p.feed chunks).state = (p.feed (bytewise chunks.flatten)).state ∧
      (p.feed chunks).failure = (p.feed (bytewise chunks.flatten)).failure ∧
      ((p.feed chunks).failure = none → (p.feed chunks).events = (p.feed (bytewise chunks.flatten)).events) ∧
      ∀ e, (p.feed chunks).failure = some e →
        ∃ before chunk after n, chunks = before ++ chunk :: after ∧ n < chunk.length ∧
          (p.feed (bytewise (before.flatten ++ chunk.take n))).failure = none ∧
          (p.feed (bytewise (before.flatten ++ chunk.take (n + 1)))).failure = some e ∧
          (p.feed chunks).events = (p.feed (bytewise before.flatten)).events ∧
          (p.feed (bytewise chunks.flatten)).events = (p.feed chunks).events ++
            ((p.feed (bytewise before.flatten)).state.feed (bytewise (chunk.take n))).events := by
  simp only [feed_bytewise hp]
  cases hf : (run pushByte p chunks.flatten).failure with
  | none =>
    rw [feed_ok hp chunks hf]
    refine ⟨by simp [settle, hf], hf, fun _ => rfl, fun e he => ?_⟩
    rw [hf] at he
    cases he
  | some e =>
    obtain ⟨before, chunk, after, hsplit, hbefore, hchunk, hfeed⟩ := feed_failed hp chunks hf
    rw [hfeed]
    refine ⟨by simp [settle, hf], rfl, fun h => (by cases h), fun e' he' => ?_⟩
    cases he'
    obtain ⟨n, hn, hrun, hfail, hstop⟩ := run_failure hchunk
    have hlive := run_live hp before.flatten
    have hwhole : run pushByte p chunks.flatten =
        (run pushByte (run pushByte p before.flatten).state chunk).prepend
          (run pushByte p before.flatten).events := by
      rw [hsplit, flatten_append, flatten_cons, run_append hbefore, run_append_failed hchunk]
    refine ⟨before, chunk, after, n, hsplit, hn, ?_, ?_, rfl, ?_⟩
    · rw [run_append hbefore]
      exact hrun
    · rw [run_append hbefore]
      exact hfail
    · have hstate : (settle (run pushByte p before.flatten)).1 =
          (run pushByte p before.flatten).state := by rw [settle, hbefore]
      rw [hstate, feed_bytewise hlive, hwhole, hstop]
      rfl

/-- A chunk whose second record is malformed: its first record, a complete `%pause`. -/
theorem feed_cuts_failing_chunk_pause : (new.feed [controlStart, ascii "%pause %1\nbad\n"]).failure =
      (new.feed (bytewise [controlStart, ascii "%pause %1\nbad\n"].flatten)).failure :=
  (feed_cuts_failing_chunk (p := new) (by decide) [controlStart, ascii "%pause %1\nbad\n"]).2.1

/-- The `%pause` record is lost to a reader whose chunk also holds the malformed record after it. -/
theorem completed_record_lost_in_failing_chunk :
    (new.feed (bytewise [controlStart, ascii "%pause %1\nbad\n"].flatten)).events = [.started, .pause 1] ∧
      (new.feed [controlStart, ascii "%pause %1\nbad\n"]).events = [.started] ∧
      (new.feed [controlStart ++ ascii "%pause %1\nbad\n"]).events = [] := by
  decide +kernel

end TmuxControlParser

end Lector.Control
