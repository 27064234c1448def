import Lector.Speech.Mailbox
import Mathlib.Data.List.Pairwise

/-! Every run of the terminal event loop and the speech worker over their mailbox: what is accepted, what
is delivered, and in which order. -/
namespace Lector.Speech
open List MailboxState

/-! ## The driver and the worker -/

structure BoundedAsyncDriver where
  mailbox : MailboxState := {}
  rate : F32
  deriving DecidableEq, Repr

def BoundedAsyncDriver.setRate (driver : BoundedAsyncDriver) (serial : Nat) (rate : F32) :
    Except String BoundedAsyncDriver :=
  if !rate.isFinite then .error "speech rate must be finite"
  else .ok { mailbox := driver.mailbox.enqueueRate serial rate, rate }

inductive Event where
  | speak (text : String) (interrupt : Bool)
  | stop
  | setRate (rate : F32)
  | configureServer (spec : SpeechServerSpec)
  | start (completed : Nat)
  /-- The worker asks for the next request. -/
  | take
  | shutDown
  deriving DecidableEq, Repr

def Event.cutsOff : Event → Bool
  | .speak _ interrupt => interrupt
  | .stop => true
  | _ => false

/-- The driver with the requests accepted and those that the worker has taken. -/
structure Session where
  driver : BoundedAsyncDriver
  accepted : List Entry := []
  delivered : List Entry := []
  deriving DecidableEq, Repr

namespace Session

variable (session : Session)

/-- The session after an operation on a request. A mailbox that is shut down accepts none. -/
def offer (request : Request) (driver : BoundedAsyncDriver) : Session :=
  { session with
    driver
    accepted :=
      if session.driver.mailbox.shutdown then session.accepted
      else session.accepted ++ [⟨session.accepted.length, request⟩] }

def step : Event → Session
  | .speak text interrupt =>
    session.offer (.speak (boundedText text maxSpeechItemBytes) interrupt)
      { session.driver with
        mailbox := session.driver.mailbox.enqueueSpeech session.accepted.length text interrupt }
  | .stop =>
    session.offer .stop
      { session.driver with mailbox := session.driver.mailbox.enqueueStop session.accepted.length }
  | .setRate rate =>
    match session.driver.setRate session.accepted.length rate with
    | .error _ => session
    | .ok driver => session.offer (.setRate rate) driver
  | .configureServer spec =>
    session.offer (.configureServer spec)
      { session.driver with mailbox := session.driver.mailbox.enqueueServer session.accepted.length spec }
  | .start completed =>
    match session.driver.mailbox.enqueueStart session.accepted.length completed with
    | .error _ => session
    | .ok mailbox => session.offer (.start completed) { session.driver with mailbox }
  | .take =>
    { session with
      driver := { session.driver with mailbox := session.driver.mailbox.nextRequest.2 }
      delivered := session.delivered ++ session.driver.mailbox.nextRequest.1.toList }
  | .shutDown => { session with driver := { session.driver with mailbox := session.driver.mailbox.shutDown } }

def run (events : List Event) : Session := events.foldl step session

def initial (rate : F32) : Session where
  driver := { rate }

end Session

/-! ## The invariant of the history -/

/-- What holds of the requests accepted, delivered and queued. -/
structure Faithful (accepted delivered queued : List Entry) : Prop where
  numbered : ∀ (i : Nat) (entry : Entry), accepted[i]? = some entry → entry.serial = i
  known : ∀ entry ∈ delivered ++ queued, entry ∈ accepted
  spoken : (speech (delivered ++ queued)).Sublist (speech accepted)
  fenced : (delivered ++ queued).Pairwise fun a b => a.request.isStart = true → a.serial < b.serial
  latest : ∀ control : Control, (queued.filter (·.request.control = some control)).Sublist
    (accepted.filter (·.request.control = some control)).getLast?.toList

namespace Faithful

variable {accepted delivered queued : List Entry}

theorem nil : Faithful [] [] [] :=
  ⟨fun i entry h => absurd h (by simp), forall_mem_nil _, .refl _, Pairwise.nil, fun _ => .refl _⟩

theorem serial_lt (h : Faithful accepted delivered queued) {entry : Entry} (hmem : entry ∈ accepted) :
    entry.serial < accepted.length := by
  obtain ⟨i, hi⟩ := mem_iff_getElem?.mp hmem
  rw [h.numbered i entry hi]
  exact (List.getElem?_eq_some_iff.mp hi).1

theorem trim {kept : List Entry} (h : Faithful accepted delivered queued) (hkept : kept.Sublist queued) :
    Faithful accepted delivered kept where
  numbered := h.numbered
  known entry hmem := h.known entry ((hkept.append_left delivered).subset hmem)
  spoken := ((hkept.append_left delivered).filter _).trans h.spoken
  fenced := h.fenced.sublist (hkept.append_left delivered)
  latest control := (hkept.filter _).trans (h.latest control)

theorem take {front rest : List Entry} (h : Faithful accepted delivered (front ++ rest)) :
    Faithful accepted (delivered ++ front) rest where
  numbered := h.numbered
  known := by
    rw [append_assoc]
    exact h.known
  spoken := by
    rw [append_assoc]
    exact h.spoken
  fenced := by
    rw [append_assoc]
    exact h.fenced
  latest control := ((sublist_append_right front rest).filter _).trans (h.latest control)

section

variable (h : Faithful accepted delivered queued)
include h

theorem numbered_append (request : Request) (i : Nat) (entry : Entry)
    (hget : (accepted ++ [⟨accepted.length, request⟩])[i]? = some entry) : entry.serial = i := by
  rcases lt_or_ge i accepted.length with hlt | hge
  · rw [getElem?_append_left hlt] at hget
    exact h.numbered i entry hget
  · rw [getElem?_append_right hge] at hget
    obtain ⟨hi, hentry⟩ := List.getElem?_eq_some_iff.mp hget
    rw [length_singleton] at hi
    rw [← hentry, getElem_singleton]
    dsimp only
    omega

theorem back {request : Request}
    (hrequest : request.control = none) : Faithful (accepted ++ [⟨accepted.length, request⟩]) delivered
      (queued ++ [⟨accepted.length, request⟩]) where
  numbered := h.numbered_append request
  known entry hmem := by
    rw [← append_assoc, mem_append] at hmem
    exact mem_append.mpr (hmem.imp (h.known entry) id)
  spoken := by
    rw [← append_assoc, speech_append _ [_], speech_append _ [_]]
    exact h.spoken.append (.refl _)
  fenced := by
    rw [← append_assoc]
    refine pairwise_append.mpr ⟨h.fenced, pairwise_singleton _ _, fun a ha b hb _ => ?_⟩
    rw [mem_singleton.mp hb]
    exact h.serial_lt (h.known a ha)
  latest control := by
    have hfresh : ([⟨accepted.length, request⟩] : List Entry).filter (·.request.control = some control) =
        [] := by simp [hrequest]
    rw [filter_append, filter_append, hfresh, append_nil, append_nil]
    exact h.latest control

theorem front {request : Request} {control : Control}
    (hrequest : request.control = some control) :
    Faithful (accepted ++ [⟨accepted.length, request⟩]) delivered
      (⟨accepted.length, request⟩ :: queued.filter fun entry => entry.request.control != some control) where
  numbered := h.numbered_append request
  known entry hmem := by
    rw [mem_append, mem_cons] at hmem
    rcases hmem with hmem | rfl | hmem
    · exact mem_append_left _ (h.known entry (mem_append_left _ hmem))
    · exact mem_append_right _ (mem_singleton_self _)
    · exact mem_append_left _ (h.known entry (mem_append_right _ (mem_of_mem_filter hmem)))
  spoken := by
    rw [speech_append, speech_cons_control (isSpeech_of_control hrequest), speech_filter_control,
      ← speech_append, speech_append _ [_], speech_cons_control (isSpeech_of_control hrequest)]
    rw [speech_nil, append_nil]
    exact h.spoken
  fenced := by
    obtain ⟨hdelivered, hqueued, hcross⟩ := pairwise_append.mp h.fenced
    refine pairwise_append.mpr ⟨hdelivered, pairwise_cons.mpr ⟨fun b _ hb => ?_, ?_⟩, ?_⟩
    · rw [isStart_of_control hrequest] at hb
      cases hb
    · exact hqueued.sublist filter_sublist
    · intro a ha b hb hastart
      rcases mem_cons.mp hb with rfl | hb
      · exact h.serial_lt (h.known a (mem_append_left _ ha))
      · exact hcross a ha b (mem_of_mem_filter hb) hastart
  latest other := by
    by_cases hother : other = control
    · rw [hother, filter_append, filter_cons_of_pos (by simp [hrequest])]
      rw [filter_cons_of_pos (by simp [hrequest]), filter_nil, getLast?_concat]
      refine Sublist.cons_cons _ ?_
      simp
    · have hne : request.control ≠ some other := fun heq =>
        hother (Option.some.inj (heq.symm.trans hrequest))
      rw [filter_append, filter_cons_of_neg (by simp [hne])]
      rw [filter_cons_of_neg (by simp [hne]), filter_nil, append_nil]
      exact (filter_sublist.filter _).trans (h.latest other)

end

end Faithful

namespace Session

variable {session : Session}

def queued (session : Session) : List Entry := session.driver.mailbox.requests

def entryOf (session : Session) (request : Request) : Entry := ⟨session.accepted.length, request⟩

/-- What a step makes of the requests queued, accepted and delivered. -/
inductive Moves (session : Session) : Event → List Entry → List Entry → List Entry → Prop where
  | refused (event : Event)
      (hclosed : event.cutsOff = true → session.driver.mailbox.shutdown = true) :
      Moves session event session.queued session.accepted session.delivered
  | speak (text : String) (interrupt : Bool) (hlive : session.driver.mailbox.shutdown = false) :
      Moves session (.speak text interrupt)
        ((session.driver.mailbox.readied text interrupt).requests ++
          [session.entryOf (.speak (boundedText text maxSpeechItemBytes) interrupt)])
        (session.accepted ++ [session.entryOf (.speak (boundedText text maxSpeechItemBytes) interrupt)])
        session.delivered
  | stop (hlive : session.driver.mailbox.shutdown = false) : Moves session .stop
        (session.entryOf .stop :: (session.queued.filter fun entry => !entry.request.isSpeech).filter
          fun entry => entry.request.control != some .stop)
        (session.accepted ++ [session.entryOf .stop]) session.delivered
  | replace {event : Event} {request : Request} {control : Control} (hevent : event.cutsOff = false)
      (hrequest : request.control = some control) (hlive : session.driver.mailbox.shutdown = false) :
      Moves session event
        (session.entryOf request :: session.queued.filter fun entry => entry.request.control != some control)
        (session.accepted ++ [session.entryOf request]) session.delivered
  | start (completed : Nat) (hlive : session.driver.mailbox.shutdown = false) :
      Moves session (.start completed) (session.queued ++ [session.entryOf (.start completed)])
        (session.accepted ++ [session.entryOf (.start completed)]) session.delivered
  | take {front rest : List Entry} (hqueued : session.queued = front ++ rest)
      (hlength : front.length ≤ 1) :
      Moves session .take rest session.accepted (session.delivered ++ front)
  | shutDown : Moves session .shutDown [] session.accepted session.delivered

theorem step_moves (session : Session) (event : Event) :
    Moves session event (session.step event).queued (session.step event).accepted
      (session.step event).delivered := by
  cases hclosed : session.driver.mailbox.shutdown with
  | true =>
    cases event with
    | speak text interrupt =>
      simp only [step, offer, hclosed, enqueueSpeech]
      exact Moves.refused _ fun _ => hclosed
    | stop =>
      simp only [step, offer, hclosed, enqueueStop]
      exact Moves.refused _ fun _ => hclosed
    | setRate rate =>
      cases hfinite : rate.isFinite with
      | false =>
        simp only [step, BoundedAsyncDriver.setRate, hfinite]
        exact Moves.refused _ fun _ => hclosed
      | true =>
        simp only [step, BoundedAsyncDriver.setRate, hfinite, offer, hclosed, enqueueRate]
        exact Moves.refused _ fun _ => hclosed
    | configureServer spec =>
      simp only [step, offer, hclosed, enqueueServer]
      exact Moves.refused _ fun _ => hclosed
    | start completed =>
      simp only [step, enqueueStart, hclosed]
      exact Moves.refused _ fun _ => hclosed
    | take =>
      simp only [step, nextRequest, hclosed]
      exact Moves.take (nil_append _).symm (Nat.zero_le 1)
    | shutDown => exact Moves.shutDown
  | false =>
    cases event with
    | speak text interrupt =>
      simp only [step, offer, hclosed, enqueueSpeech_eq hclosed]
      exact Moves.speak text interrupt hclosed
    | stop =>
      have hrequests : session.driver.mailbox.discardSpeech.2.requests = _ := discardSpeech_requests
      simp only [step, offer, hclosed, enqueueStop, MailboxState.supersede, hrequests]
      exact Moves.stop hclosed
    | setRate rate =>
      cases hfinite : rate.isFinite with
      | false =>
        simp only [step, BoundedAsyncDriver.setRate, hfinite]
        exact Moves.refused _ Bool.noConfusion
      | true =>
        simp only [step, BoundedAsyncDriver.setRate, hfinite, offer, hclosed, enqueueRate]
        exact Moves.replace rfl rfl hclosed
    | configureServer spec =>
      simp only [step, offer, hclosed, enqueueServer]
      exact Moves.replace rfl rfl hclosed
    | start completed =>
      simp only [step, enqueueStart]
      simp only [offer, hclosed]
      exact Moves.start completed hclosed
    | take =>
      refine Moves.take (nextRequest_requests hclosed) ?_
      cases session.driver.mailbox.nextRequest.1 <;> simp
    | shutDown => exact Moves.shutDown

variable {event : Event} {queued accepted delivered : List Entry}

theorem Moves.faithful (moves : Moves session event queued accepted delivered)
    (h : Faithful session.accepted session.delivered session.queued) : Faithful accepted delivered queued := by
  cases moves with
  | refused => exact h
  | speak text interrupt => exact (h.trim (readied_trims text interrupt).sublist).back rfl
  | stop => exact (h.trim filter_sublist).front rfl
  | replace _ hrequest => exact h.front hrequest
  | start completed => exact h.back rfl
  | take hqueued =>
    rw [hqueued] at h
    exact h.take
  | shutDown => exact h.trim (nil_sublist _)

/-- Queued speech, and speech delivered after the first `count` requests, has a number from `serial`
on. -/
structure Fresh (serial count : Nat) (accepted delivered queued : List Entry) : Prop where
  serial_le : serial ≤ accepted.length
  count_le : count ≤ delivered.length
  recent : ∀ entry ∈ speech (delivered.drop count ++ queued), serial ≤ entry.serial

variable {serial count : Nat}

theorem Fresh.trim {kept : List Entry} (h : Fresh serial count accepted delivered queued)
    (hkept : kept.Sublist queued) : Fresh serial count accepted delivered kept :=
  ⟨h.serial_le, h.count_le, fun entry hmem => h.recent entry (((hkept.append_left _).filter _).subset hmem)⟩

theorem Fresh.accept (front back : List Entry) {request : Request}
    (h : Fresh serial count accepted delivered (front ++ back)) :
    Fresh serial count (accepted ++ [⟨accepted.length, request⟩]) delivered
      (front ++ ⟨accepted.length, request⟩ :: back) where
  serial_le := le_trans h.serial_le (by simp)
  count_le := h.count_le
  recent entry hmem := by
    obtain ⟨hmem, hspeech⟩ := mem_filter.mp hmem
    rw [mem_append, mem_append, mem_cons] at hmem
    have hold : entry ∈ delivered.drop count ++ (front ++ back) → serial ≤ entry.serial := fun hmem =>
      h.recent entry (mem_filter.mpr ⟨hmem, hspeech⟩)
    rcases hmem with hmem | hmem | rfl | hmem
    · exact hold (mem_append_left _ hmem)
    · exact hold (mem_append_right _ (mem_append_left _ hmem))
    · exact h.serial_le
    · exact hold (mem_append_right _ (mem_append_right _ hmem))

theorem Fresh.take {front rest : List Entry} (h : Fresh serial count accepted delivered (front ++ rest)) :
    Fresh serial count accepted (delivered ++ front) rest where
  serial_le := h.serial_le
  count_le := le_trans h.count_le (by simp)
  recent := by
    rw [drop_append_of_le_length h.count_le, append_assoc]
    exact h.recent

theorem Moves.fresh (moves : Moves session event queued accepted delivered)
    (h : Fresh serial count session.accepted session.delivered session.queued) :
    Fresh serial count accepted delivered queued := by
  cases moves with
  | refused => exact h
  | speak text interrupt =>
    refine Fresh.accept _ [] ?_
    rw [append_nil]
    exact h.trim (readied_trims text interrupt).sublist
  | stop => exact Fresh.accept [] _ (h.trim (filter_sublist.trans filter_sublist))
  | replace => exact Fresh.accept [] _ (h.trim filter_sublist)
  | start completed =>
    refine Fresh.accept _ [] ?_
    rw [append_nil]
    exact h
  | take hqueued =>
    rw [hqueued] at h
    exact h.take
  | shutDown => exact h.trim (nil_sublist _)

theorem Moves.fresh_of_cutsOff (moves : Moves session event queued accepted delivered)
    (hcut : event.cutsOff = true) (hclosed : session.driver.mailbox.shutdown = true → session.queued = []) :
    Fresh session.accepted.length session.delivered.length accepted delivered queued := by
  have hnone : ∀ kept : List Entry, speech kept = [] →
      Fresh session.accepted.length session.delivered.length session.accepted session.delivered kept := by
    intro kept hkept
    refine ⟨le_rfl, le_rfl, fun entry hmem => ?_⟩
    rw [drop_length, nil_append, hkept] at hmem
    cases hmem
  cases moves with
  | refused _ hshut =>
    refine hnone _ ?_
    rw [hclosed (hshut hcut)]
    rfl
  | speak text interrupt =>
    cases hcut
    refine Fresh.accept _ [] ?_
    rw [append_nil]
    exact hnone _ (speech_readied_interrupt text)
  | stop =>
    refine Fresh.accept [] _ (hnone _ ?_)
    rw [nil_append, speech_filter_control, speech_controls]
  | replace hevent =>
    rw [hevent] at hcut
    cases hcut
  | start => cases hcut
  | take => cases hcut
  | shutDown => cases hcut

/-! ## Runs -/

structure Sound (session : Session) : Prop where
  mailbox : session.driver.mailbox.WellKept
  faithful : Faithful session.accepted session.delivered session.queued

theorem initial_sound (rate : F32) : (initial rate).Sound :=
  ⟨⟨⟨rfl, rfl⟩, ⟨Nat.zero_le _, Nat.zero_le _⟩, fun _ => rfl⟩, Faithful.nil⟩

theorem step_mailbox (h : session.driver.mailbox.WellKept) (event : Event) :
    (session.step event).driver.mailbox.WellKept := by
  cases event with
  | speak text interrupt => exact enqueueSpeech_wellKept h _ text interrupt
  | stop => exact enqueueStop_wellKept h _
  | setRate rate =>
    rw [step, BoundedAsyncDriver.setRate]
    cases rate.isFinite with
    | false => exact h
    | true => exact supersede_wellKept h rfl
  | configureServer spec => exact supersede_wellKept h rfl
  | start completed =>
    rw [step]
    split
    · exact h
    · rename_i mailbox hstart
      exact enqueueStart_wellKept h hstart
  | take => exact nextRequest_wellKept h
  | shutDown => exact shutDown_wellKept _

theorem Sound.step (h : session.Sound) (event : Event) : (session.step event).Sound :=
  ⟨step_mailbox h.mailbox event, (step_moves session event).faithful h.faithful⟩

theorem Sound.run (h : session.Sound) (events : List Event) : (session.run events).Sound := by
  induction events generalizing session with
  | nil => exact h
  | cons event events ih => exact ih (h.step event)

theorem run_fresh
    (h : Fresh serial count session.accepted session.delivered session.queued) (events : List Event) :
    Fresh serial count (session.run events).accepted (session.run events).delivered
      (session.run events).queued := by
  induction events generalizing session with
  | nil => exact h
  | cons event events ih => exact ih ((step_moves session event).fresh h)

theorem run_append (session : Session) (events more : List Event) :
    session.run (events ++ more) = (session.run events).run more := foldl_append

/-- **The mailbox is a faithful bounded queue.** -/
theorem run_faithful (rate : F32) (events : List Event) :
    let session := (initial rate).run events
    let mailbox := session.driver.mailbox
    (mailbox.speechItems = (speech mailbox.requests).length ∧
      mailbox.speechBytes = spokenBytes mailbox.requests ∧
      mailbox.speechItems ≤ maxPendingSpeechItems ∧ mailbox.speechBytes ≤ maxPendingSpeechBytes) ∧
    (∀ (i : Nat) (entry : Entry), session.accepted[i]? = some entry → entry.serial = i) ∧
    (speech (session.delivered ++ mailbox.requests)).Sublist (speech session.accepted) ∧
    (∀ before event after, events = before ++ event :: after → event.cutsOff = true →
      ∀ entry ∈ session.delivered.drop ((initial rate).run before).delivered.length,
        entry.request.isSpeech = true → entry ∉ ((initial rate).run before).accepted) ∧
    (∀ control, (mailbox.requests.filter (·.request.control = some control)).Sublist
      (session.accepted.filter (·.request.control = some control)).getLast?.toList) ∧
    (session.delivered ++ mailbox.requests).Pairwise
      fun a b => a.request.isStart = true → a.serial < b.serial := by
  have hsound := (initial_sound rate).run events
  refine ⟨⟨hsound.mailbox.counted.items, hsound.mailbox.counted.bytes, hsound.mailbox.bounded.items,
    hsound.mailbox.bounded.bytes⟩, hsound.faithful.numbered, hsound.faithful.spoken, ?_,
    hsound.faithful.latest, hsound.faithful.fenced⟩
  rintro before event after rfl hcut entry hmem hspeech hbefore
  have hearlier := (initial_sound rate).run before
  have hfresh := run_fresh
    ((step_moves ((initial rate).run before) event).fresh_of_cutsOff hcut hearlier.mailbox.closed) after
  rw [run_append] at hmem
  have hserial := hfresh.recent entry (mem_filter.mpr ⟨mem_append_left _ hmem, hspeech⟩)
  exact not_lt.mpr hserial (hearlier.faithful.serial_lt hbefore)

end Session

end Lector.Speech
