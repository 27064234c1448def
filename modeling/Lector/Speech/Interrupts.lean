import Lector.Speech.Delivery

/-! What becomes of an interrupt under load. Eviction takes the oldest speech, and after an interrupting
item the oldest speech is that item. -/
namespace Lector.Speech
open List MailboxState

def Request.interrupts : Request → Bool
  | .speak _ interrupt => interrupt
  | _ => false

namespace Session

/-- Where the oldest queued speech interrupts, other accepted speech finds room behind the queue. -/
def findsRoom (session : Session) : Event → Bool
  | .speak text false =>
    !(speech session.queued).head?.any (·.request.interrupts) ||
      !session.driver.mailbox.overfull (boundedText text maxSpeechItemBytes).utf8ByteSize
  | _ => true

def roomy (session : Session) : List Event → Bool
  | [] => true
  | event :: events => session.findsRoom event && (session.step event).roomy events

/-! ## The first speech after an interrupt -/

variable {session : Session} {event : Event} {queued accepted delivered : List Entry}

/-- Speech after the first `count` requests begins with an interrupting item, or the mailbox is shut
down. -/
structure Leads (count : Nat) (shutdown : Bool) (delivered queued : List Entry) : Prop where
  count_le : count ≤ delivered.length
  first : ∀ entry, (speech (delivered.drop count ++ queued)).head? = some entry →
    entry.request.interrupts = true
  pending : shutdown = false → speech (delivered.drop count ++ queued) ≠ []

variable {count : Nat}

theorem Leads.congr {shutdown : Bool} {queued' : List Entry} (h : Leads count shutdown delivered queued)
    (hspeech : speech queued' = speech queued) : Leads count shutdown delivered queued' := by
  obtain ⟨hcount, hfirst, hpending⟩ := h
  rw [speech_append, ← hspeech, ← speech_append] at hfirst hpending
  exact ⟨hcount, hfirst, hpending⟩

theorem Leads.append {shutdown : Bool} (h : Leads count shutdown delivered queued)
    (hlive : shutdown = false) (more : List Entry) : Leads count shutdown delivered (queued ++ more) := by
  have hne := h.pending hlive
  refine ⟨h.count_le, fun entry hentry => h.first entry ?_, fun _ hnil => hne ?_⟩
  · rw [← append_assoc, speech_append, head?_append_of_ne_nil _ hne] at hentry
    exact hentry
  · rw [← append_assoc, speech_append] at hnil
    exact append_eq_nil_iff.mp hnil |>.1

theorem step_shutdown (h : session.driver.mailbox.shutdown = true) (event : Event) :
    (session.step event).driver.mailbox.shutdown = true := by
  cases event with
  | speak text interrupt => simp only [step, offer, enqueueSpeech, h, if_true]
  | stop => simp only [step, offer, enqueueStop, h, if_true]
  | setRate rate =>
    cases hfinite : rate.isFinite <;>
      simp [step, offer, BoundedAsyncDriver.setRate, hfinite, enqueueRate, h]
  | configureServer spec => simp only [step, offer, enqueueServer, h, if_true]
  | start completed => simp only [step, enqueueStart, h, if_true]
  | take => exact nextRequest_shutdown.trans h
  | shutDown => rfl

theorem Leads.shutdown {shutdown shutdown' : Bool} (h : Leads count shutdown delivered queued)
    (hkeeps : shutdown = true → shutdown' = true) : Leads count shutdown' delivered queued := by
  refine ⟨h.count_le, h.first, fun hlive => h.pending ?_⟩
  cases hbefore : shutdown with
  | false => rfl
  | true => exact absurd (hlive.symm.trans (hkeeps hbefore)) Bool.false_ne_true

theorem leads_interrupting (hcount : count ≤ session.delivered.length)
    (hdelivered : speech (session.delivered.drop count) = []) (text : String) {entry : Entry}
    (hentry : entry.request = .speak (boundedText text maxSpeechItemBytes) true) :
    Leads count false session.delivered
      ((session.driver.mailbox.readied text true).requests ++ [entry]) := by
  have hall : speech (session.delivered.drop count ++
      ((session.driver.mailbox.readied text true).requests ++ [entry])) = [entry] := by
    rw [speech_append, hdelivered, speech_append, speech_readied_interrupt,
      speech_cons_speech (by rw [hentry]; rfl)]
    rfl
  refine ⟨hcount, fun first hfirst => ?_, fun _ hnil => ?_⟩
  · rw [hall] at hfirst
    rw [← Option.some.inj hfirst, hentry]
    rfl
  · rw [hall] at hnil
    cases hnil

theorem Leads.readied {text : String} {interrupt : Bool}
    (h : Leads count false session.delivered session.queued)
    (hroom : session.findsRoom (.speak text interrupt) = true) (entry : Entry)
    (hentry : entry.request = .speak (boundedText text maxSpeechItemBytes) interrupt) :
    Leads count false session.delivered
      ((session.driver.mailbox.readied text interrupt).requests ++ [entry]) := by
  by_cases hdelivered : speech (session.delivered.drop count) = []
  · cases interrupt with
    | true => exact leads_interrupting h.count_le hdelivered text hentry
    | false =>
      have hfits : session.driver.mailbox.overfull
          (boundedText text maxSpeechItemBytes).utf8ByteSize = false := by
        have hpending := h.pending rfl
        have hfirst := h.first
        rw [speech_append, hdelivered, nil_append] at hpending hfirst
        obtain ⟨first, rest, hqueue⟩ := exists_cons_of_ne_nil hpending
        have hinterrupts := hfirst first (by rw [hqueue]; rfl)
        unfold findsRoom at hroom
        rw [hqueue, head?_cons, Option.any_some, hinterrupts] at hroom
        simpa using hroom
      have hkept : (session.driver.mailbox.readied text false).requests = session.queued := by
        have : session.driver.mailbox.readied text false = session.driver.mailbox := evict_fits hfits _
        rw [this]
        rfl
      rw [hkept]
      exact h.append rfl [entry]
  · have hhead : ∀ queue, (speech (session.delivered.drop count ++ queue)).head? =
        (speech (session.delivered.drop count)).head? := fun queue => by
      rw [speech_append, head?_append_of_ne_nil _ hdelivered]
    refine ⟨h.count_le, fun first hfirst => h.first first ?_, fun _ hnil => hdelivered ?_⟩
    · rw [hhead] at hfirst ⊢
      exact hfirst
    · rw [speech_append] at hnil
      exact (append_eq_nil_iff.mp hnil).1

theorem Moves.leads (moves : Moves session event queued accepted delivered)
    (h : Leads count session.driver.mailbox.shutdown session.delivered session.queued)
    (hstop : event ≠ .stop) (hroom : session.findsRoom event = true) :
    Leads count (session.step event).driver.mailbox.shutdown delivered queued := by
  have hkeeps : session.driver.mailbox.shutdown = true →
      (session.step event).driver.mailbox.shutdown = true := fun hclosed => step_shutdown hclosed event
  cases moves with
  | refused => exact h.shutdown hkeeps
  | speak text interrupt hlive =>
    rw [hlive] at h
    exact (h.readied hroom _ rfl).shutdown Bool.noConfusion
  | stop => exact absurd rfl hstop
  | replace _ hrequest _ =>
    refine (h.shutdown hkeeps).congr ?_
    rw [speech_cons_control (isSpeech_of_control hrequest), speech_filter_control]
  | start completed _ =>
    refine (h.shutdown hkeeps).congr ?_
    rw [speech_append, speech_cons_control rfl, speech_nil, append_nil]
  | @take front rest hqueued _ =>
    rw [hqueued] at h
    refine ⟨le_trans h.count_le (by simp), ?_, fun hlive => ?_⟩
    · rw [drop_append_of_le_length h.count_le, append_assoc]
      exact h.first
    · rw [drop_append_of_le_length h.count_le, append_assoc]
      exact (h.shutdown hkeeps).pending hlive
  | shutDown =>
    refine ⟨h.count_le, fun first hfirst => h.first first ?_, fun hlive => ?_⟩
    · rw [append_nil] at hfirst
      rw [speech_append, head?_append, hfirst]
      rfl
    · cases hlive

theorem Leads.run {events : List Event}
    (h : Leads count session.driver.mailbox.shutdown session.delivered session.queued)
    (hstop : .stop ∉ events) (hroomy : session.roomy events = true) :
    Leads count (session.run events).driver.mailbox.shutdown (session.run events).delivered
      (session.run events).queued := by
  induction events generalizing session with
  | nil => exact h
  | cons event events ih =>
    rw [roomy, Bool.and_eq_true] at hroomy
    rw [mem_cons, not_or] at hstop
    exact ih ((step_moves session event).leads h (Ne.symm hstop.1) hroomy.1) hstop.2 hroomy.2

theorem step_interrupt (hlive : session.driver.mailbox.shutdown = false) (text : String) :
    Leads session.delivered.length (session.step (.speak text true)).driver.mailbox.shutdown
      (session.step (.speak text true)).delivered (session.step (.speak text true)).queued := by
  have hqueued : (session.step (.speak text true)).queued =
      (session.driver.mailbox.readied text true).requests ++
        [session.entryOf (.speak (boundedText text maxSpeechItemBytes) true)] := by
    simp only [step, enqueueSpeech_eq hlive]
    rfl
  rw [hqueued]
  refine (leads_interrupting (le_rfl) ?_ text rfl).shutdown Bool.noConfusion
  rw [drop_length]
  rfl

/-- **The first speech the worker takes after an accepted interrupt interrupts**, as long as no stop comes
in between and every item that does not interrupt finds room while the interrupting one leads. -/
theorem first_interrupts (rate : F32) (before : List Event) (text : String) (after : List Event)
    (hlive : ((initial rate).run before).driver.mailbox.shutdown = false) (hstop : .stop ∉ after)
    (hroomy : (((initial rate).run before).step (.speak text true)).roomy after = true) :
    ∀ entry, (speech (((initial rate).run (before ++ .speak text true :: after)).delivered.drop
        ((initial rate).run before).delivered.length)).head? = some entry →
      entry.request.interrupts = true := by
  intro entry hentry
  have hleads := (step_interrupt hlive text).run hstop hroomy
  rw [run_append] at hentry
  refine hleads.first entry ?_
  rw [speech_append, head?_append]
  exact Option.or_eq_some_iff.mpr (.inl hentry)

def crowd : List Event := List.replicate maxPendingSpeechItems (.speak "line" false) ++ [.take]

theorem first_interrupts_few :
    (speech (((initial .one).run ([] ++ .speak "alert" true :: [.speak "line" false, .take])).delivered.drop
      ((initial .one).run []).delivered.length)).head? = some ⟨0, .speak "alert" true⟩ ∧
      (Entry.mk 0 (.speak "alert" true)).request.interrupts = true :=
  ⟨by decide +kernel,
    first_interrupts .one [] "alert" [.speak "line" false, .take] rfl (by decide) (by decide +kernel)
      ⟨0, .speak "alert" true⟩ (by decide +kernel)⟩

/-- Behind a full queue of further speech the interrupt is gone. -/
theorem crowd_evicts_interrupt : ¬ ∀ (rate : F32) (before : List Event) (text : String) (after : List Event),
      ((initial rate).run before).driver.mailbox.shutdown = false → .stop ∉ after →
      ∀ entry, (speech (((initial rate).run (before ++ .speak text true :: after)).delivered.drop
          ((initial rate).run before).delivered.length)).head? = some entry →
        entry.request.interrupts = true := by
  intro h
  have hfirst : (speech (((initial .one).run ([] ++ .speak "alert" true :: crowd)).delivered.drop
      ((initial .one).run []).delivered.length)).head? = some ⟨1, .speak "line" false⟩ := by
    decide +kernel
  exact Bool.false_ne_true (h .one [] "alert" crowd rfl (by decide) _ hfirst)

end Session

end Lector.Speech
