import Mathlib.Algebra.Order.Ring.Nat
import Mathlib.Data.List.Basic

/-! The mailbox between the terminal event loop and the speech worker (`speech/worker.rs`): a bounded
queue of speech with the control requests in front of it. -/
namespace Lector.Speech
open List hiding min

/-! ## Requests -/

structure F32 where
  bits : UInt32
  deriving DecidableEq, Repr

def F32.one : F32 := ⟨0x3f800000⟩

def F32.isFinite (value : F32) : Bool := value.bits &&& 0x7f800000 != 0x7f800000

inductive SpeechServerSpec where
  | native
  | process (program : String) (args : List String)
  deriving DecidableEq, Repr

inductive Request where
  | speak (text : String) (interrupt : Bool)
  | stop
  | setRate (rate : F32)
  | configureServer (spec : SpeechServerSpec)
  /-- The channel on which the end of the start is reported. -/
  | start (completed : Nat)
  deriving DecidableEq, Repr

inductive Control where
  | stop
  | rate
  | server
  deriving DecidableEq, Repr

namespace Request

def speechBytes : Request → Nat
  | .speak text _ => text.utf8ByteSize
  | _ => 0

def isSpeech : Request → Bool
  | .speak _ _ => true
  | _ => false

def isStart : Request → Bool
  | .start _ => true
  | _ => false

def control : Request → Option Control
  | .stop => some .stop
  | .setRate _ => some .rate
  | .configureServer _ => some .server
  | _ => none

end Request

/-- The number tells equal requests apart; nothing the mailbox does depends on it. -/
structure Entry where
  serial : Nat
  request : Request
  deriving DecidableEq, Repr

/-! ## The bounded text of an item -/

def maxPendingSpeechItems : Nat := 32
def maxPendingSpeechBytes : Nat := 256 * 1024
def maxSpeechItemBytes : Nat := 64 * 1024
def truncationSuffix : String := " … speech truncated"

def charBoundary (text : String) : Nat → text.Pos
  | 0 => text.startPos
  | stop + 1 => if h : String.Pos.Raw.IsValid text ⟨stop + 1⟩ then ⟨⟨stop + 1⟩, h⟩ else charBoundary text stop

def boundedText (text : String) (limit : Nat) : String :=
  if text.utf8ByteSize ≤ limit then text
  else
    let prefixLimit := limit - truncationSuffix.utf8ByteSize
    (text.sliceTo (charBoundary text (min prefixLimit text.utf8ByteSize))).copy ++ truncationSuffix

theorem charBoundary_le (text : String) (stop : Nat) : (charBoundary text stop).offset.byteIdx ≤ stop := by
  induction stop with
  | zero => simp [charBoundary]
  | succ stop ih =>
    rw [charBoundary]
    split
    · exact le_rfl
    · omega

theorem boundedText_le {limit : Nat} (text : String) (h : truncationSuffix.utf8ByteSize ≤ limit) :
    (boundedText text limit).utf8ByteSize ≤ limit := by
  unfold boundedText
  split
  · assumption
  · rw [String.utf8ByteSize_append, String.Slice.utf8ByteSize_copy, String.utf8ByteSize_sliceTo]
    have := charBoundary_le text (min (limit - truncationSuffix.utf8ByteSize) text.utf8ByteSize)
    omega

theorem boundedText_item_le (text : String) :
    (boundedText text maxSpeechItemBytes).utf8ByteSize ≤ maxSpeechItemBytes :=
  boundedText_le text (by decide +kernel)

/-! ## The mailbox -/

def saturatingAdd (a b : Nat) : Nat := min (a + b) (2 ^ 64 - 1)

structure MailboxState where
  requests : List Entry := []
  speechItems : Nat := 0
  speechBytes : Nat := 0
  droppedSpeechItems : Nat := 0
  shutdown : Bool := false
  deriving DecidableEq, Repr

namespace MailboxState

def removeRequest (state : MailboxState) (index : Nat) : Option Entry × MailboxState :=
  match state.requests[index]? with
  | none => (none, state)
  | some entry =>
    let state := { state with requests := state.requests.eraseIdx index }
    if entry.request.isSpeech then
      (some entry, { state with
        speechItems := state.speechItems - 1
        speechBytes := state.speechBytes - entry.request.speechBytes })
    else (some entry, state)

/-- The loop of `discardSpeech` from `index` on, over the `remaining` requests it has not looked at. -/
def discardSpeechFrom (state : MailboxState) (discarded index : Nat) : Nat → Nat × MailboxState
  | 0 => (discarded, state)
  | remaining + 1 =>
    if (state.requests[index]?).any (·.request.isSpeech) then
      discardSpeechFrom (state.removeRequest index).2 (saturatingAdd discarded 1) index remaining
    else discardSpeechFrom state discarded (index + 1) remaining

def discardSpeech (state : MailboxState) : Nat × MailboxState :=
  state.discardSpeechFrom 0 0 state.requests.length

def overfull (state : MailboxState) (textBytes : Nat) : Bool :=
  state.speechItems == maxPendingSpeechItems ||
    decide (saturatingAdd state.speechBytes textBytes > maxPendingSpeechBytes)

/-- Each round removes a request, so there are at most as many rounds as requests. -/
def evict (state : MailboxState) (textBytes : Nat) : Nat → MailboxState
  | 0 => state
  | rounds + 1 =>
    if state.overfull textBytes then
      match state.requests.findIdx? (·.request.isSpeech) with
      | none => state
      | some index =>
        let state := (state.removeRequest index).2
        evict { state with droppedSpeechItems := saturatingAdd state.droppedSpeechItems 1 } textBytes rounds
    else state

/-- `serial` is the number of the acceptance, here and below. -/
def enqueueSpeech (state : MailboxState) (serial : Nat) (text : String) (interrupt : Bool) : MailboxState :=
  let text := boundedText text maxSpeechItemBytes
  let textBytes := text.utf8ByteSize
  if state.shutdown then state
  else
    let state := if interrupt then state.discardSpeech.2 else state
    let state := state.evict textBytes state.requests.length
    { state with
      speechItems := saturatingAdd state.speechItems 1
      speechBytes := saturatingAdd state.speechBytes textBytes
      requests := state.requests ++ [⟨serial, .speak text interrupt⟩] }

def supersede (state : MailboxState) (control : Control) (entry : Entry) : MailboxState :=
  { state with
    requests := entry :: state.requests.filter fun queued => queued.request.control != some control }

def enqueueStop (state : MailboxState) (serial : Nat) : MailboxState :=
  if state.shutdown then state
  else state.discardSpeech.2.supersede .stop ⟨serial, .stop⟩

def enqueueRate (state : MailboxState) (serial : Nat) (rate : F32) : MailboxState :=
  if state.shutdown then state
  else state.supersede .rate ⟨serial, .setRate rate⟩

def enqueueServer (state : MailboxState) (serial : Nat) (spec : SpeechServerSpec) : MailboxState :=
  if state.shutdown then state
  else state.supersede .server ⟨serial, .configureServer spec⟩

def enqueueStart (state : MailboxState) (serial : Nat) (completed : Nat) : Except String MailboxState :=
  if state.shutdown then .error "speech worker has shut down"
  else .ok { state with requests := state.requests ++ [⟨serial, .start completed⟩] }

/-- `none` when the worker has to wait and when it has been shut down. -/
def nextRequest (state : MailboxState) : Option Entry × MailboxState :=
  if state.shutdown then (none, state)
  else
    match state.requests with
    | [] => (none, state)
    | entry :: requests =>
      let state := { state with requests }
      if entry.request.isSpeech then
        (some entry, { state with
          speechItems := state.speechItems - 1
          speechBytes := state.speechBytes - entry.request.speechBytes })
      else (some entry, state)

def shutDown (state : MailboxState) : MailboxState :=
  { state with shutdown := true, requests := [], speechItems := 0, speechBytes := 0 }

end MailboxState

/-! ## What the queue edits keep -/

variable (requests : List Entry)

def speech : List Entry := requests.filter (·.request.isSpeech)

def spokenBytes : Nat := (requests.map (·.request.speechBytes)).sum

@[simp] theorem speech_nil : speech [] = [] := rfl

@[simp] theorem speech_append (front back : List Entry) :
    speech (front ++ back) = speech front ++ speech back := filter_append ..

@[simp] theorem spokenBytes_nil : spokenBytes [] = 0 := rfl

@[simp] theorem spokenBytes_append (front back : List Entry) :
    spokenBytes (front ++ back) = spokenBytes front + spokenBytes back := by
  rw [spokenBytes, map_append, sum_append]
  rfl

@[simp] theorem spokenBytes_cons (entry : Entry) (requests : List Entry) :
    spokenBytes (entry :: requests) = entry.request.speechBytes + spokenBytes requests := by
  rfl

theorem speech_cons_speech {entry : Entry} (h : entry.request.isSpeech = true) (requests : List Entry) :
    speech (entry :: requests) = entry :: speech requests := filter_cons_of_pos h

theorem speech_cons_control {entry : Entry} (h : entry.request.isSpeech = false) (requests : List Entry) :
    speech (entry :: requests) = speech requests := by
  unfold speech
  simp [h]

theorem speechBytes_control {request : Request} (h : request.isSpeech = false) : request.speechBytes = 0 := by
  cases request with
  | speak => cases h
  | stop | setRate | configureServer | start => rfl

theorem spokenBytes_eq_zero {requests : List Entry} (h : speech requests = []) : spokenBytes requests = 0 := by
  induction requests with
  | nil => rfl
  | cons entry requests ih =>
    rw [spokenBytes_cons]
    cases hspeech : entry.request.isSpeech with
    | true =>
      rw [speech_cons_speech hspeech] at h
      cases h
    | false =>
      rw [speech_cons_control hspeech] at h
      rw [speechBytes_control hspeech, ih h]

@[simp] theorem speech_controls : speech (requests.filter fun entry => !entry.request.isSpeech) = [] := by
  unfold speech
  simp

theorem isSpeech_of_control {request : Request} {control : Control} (h : request.control = some control) :
    request.isSpeech = false := by
  cases request with
  | speak => cases h
  | stop | setRate | configureServer | start => rfl

theorem isStart_of_control {request : Request} {control : Control} (h : request.control = some control) :
    request.isStart = false := by
  cases request with
  | start => cases h
  | stop | setRate | configureServer | speak => rfl

theorem speech_filter_control (control : Control) (requests : List Entry) :
    speech (requests.filter fun queued => queued.request.control != some control) = speech requests := by
  unfold speech
  rw [filter_filter]
  apply filter_congr
  intro entry _
  by_cases h : entry.request.control = some control
  · rw [isSpeech_of_control h]
    rfl
  · rw [bne_iff_ne.mpr h, Bool.and_true]

theorem spokenBytes_filter_control (control : Control) (requests : List Entry) :
    spokenBytes (requests.filter fun queued => queued.request.control != some control) =
      spokenBytes requests := by
  induction requests with
  | nil => rfl
  | cons entry requests ih =>
    rw [spokenBytes_cons]
    by_cases h : entry.request.control = some control
    · rw [filter_cons_of_neg (by simp [h]), ih, speechBytes_control (isSpeech_of_control h), zero_add]
    · rw [filter_cons_of_pos (by simp [h]), spokenBytes_cons, ih]

structure MailboxState.Counted (state : MailboxState) : Prop where
  items : state.speechItems = (speech state.requests).length
  bytes : state.speechBytes = spokenBytes state.requests

structure MailboxState.Bounded (state : MailboxState) : Prop where
  items : state.speechItems ≤ maxPendingSpeechItems
  bytes : state.speechBytes ≤ maxPendingSpeechBytes

structure MailboxState.Trims (state state' : MailboxState) : Prop where
  sublist : state'.requests.Sublist state.requests
  controls : (state'.requests.filter fun entry => !entry.request.isSpeech) =
    state.requests.filter fun entry => !entry.request.isSpeech
  shutdown : state'.shutdown = state.shutdown
  counted : state.Counted → state'.Counted
  bounded : state.Bounded → state'.Bounded

namespace MailboxState

variable {state state' : MailboxState}

theorem Trims.refl (state : MailboxState) : state.Trims state := ⟨.refl _, rfl, rfl, id, id⟩

theorem Trims.trans {state'' : MailboxState} (h : state.Trims state') (h' : state'.Trims state'') :
    state.Trims state'' where
  sublist := h'.sublist.trans h.sublist
  controls := h'.controls.trans h.controls
  shutdown := h'.shutdown.trans h.shutdown
  counted := h'.counted ∘ h.counted
  bounded := h'.bounded ∘ h.bounded

theorem removeRequest_speech {before after : List Entry} {entry : Entry}
    (hrequests : state.requests = before ++ entry :: after) (hspeech : entry.request.isSpeech = true) :
    (state.removeRequest before.length).2.requests = before ++ after ∧
      state.Trims (state.removeRequest before.length).2 := by
  have hget : state.requests[before.length]? = some entry := by
    rw [hrequests, getElem?_append_right (le_rfl), Nat.sub_self]
    rfl
  have herase : state.requests.eraseIdx before.length = before ++ after := by
    rw [hrequests, eraseIdx_append_of_length_le (le_rfl), Nat.sub_self]
    rfl
  have hresult : (state.removeRequest before.length).2 = { state with
        requests := before ++ after
        speechItems := state.speechItems - 1
        speechBytes := state.speechBytes - entry.request.speechBytes } := by
    unfold removeRequest
    rw [hget]
    dsimp only
    rw [if_pos hspeech, herase]
  rw [hresult]
  refine ⟨rfl, ?_, ?_, rfl, fun h => ⟨?_, ?_⟩, fun h => ⟨?_, ?_⟩⟩
  · rw [hrequests]
    exact Sublist.append_left (sublist_cons_self _ _) _
  · rw [hrequests]
    simp [hspeech]
  · have := h.items
    rw [hrequests, speech_append, speech_cons_speech hspeech, length_append] at this
    rw [speech_append, length_append, this]
    rfl
  · have := h.bytes
    rw [hrequests, spokenBytes_append, spokenBytes_cons] at this
    dsimp only
    rw [spokenBytes_append]
    omega
  · exact le_trans (Nat.sub_le _ _) h.items
  · exact le_trans (Nat.sub_le _ _) h.bytes

theorem discardSpeechFrom_spec (before rest : List Entry) (discarded : Nat)
    (hrequests : state.requests = before ++ rest) :
    (state.discardSpeechFrom discarded before.length rest.length).2.requests =
        before ++ rest.filter (fun entry => !entry.request.isSpeech) ∧
      state.Trims (state.discardSpeechFrom discarded before.length rest.length).2 := by
  induction rest generalizing state before discarded with
  | nil => exact ⟨hrequests, Trims.refl state⟩
  | cons entry rest ih =>
    have hget : state.requests[before.length]? = some entry := by
      rw [hrequests, getElem?_append_right (le_rfl), Nat.sub_self]
      rfl
    rw [length_cons, discardSpeechFrom, hget, Option.any_some]
    cases hspeech : entry.request.isSpeech with
    | true =>
      rw [filter_cons_of_neg (by simp [hspeech])]
      obtain ⟨hremoved, htrims⟩ := removeRequest_speech hrequests hspeech
      obtain ⟨hrest, htrims'⟩ := ih before (saturatingAdd discarded 1) hremoved
      exact ⟨hrest, htrims.trans htrims'⟩
    | false =>
      rw [filter_cons_of_pos (by simp [hspeech])]
      have hlength : before.length + 1 = (before ++ [entry]).length := by
        rw [length_append, length_singleton]
      rw [hlength]
      have := ih (before ++ [entry]) discarded (by rw [hrequests, append_assoc]; rfl)
      rwa [append_assoc, singleton_append] at this

theorem discardSpeech_requests :
    state.discardSpeech.2.requests = state.requests.filter fun entry => !entry.request.isSpeech :=
  (discardSpeechFrom_spec [] state.requests 0 rfl).1

theorem discardSpeech_trims : state.Trims state.discardSpeech.2 :=
  (discardSpeechFrom_spec [] state.requests 0 rfl).2

theorem evict_trims (textBytes rounds : Nat) : state.Trims (state.evict textBytes rounds) := by
  induction rounds generalizing state with
  | zero => exact Trims.refl state
  | succ rounds ih =>
    rw [evict]
    split
    · split
      · exact Trims.refl state
      · rename_i index hfind
        obtain ⟨hlt, hspeech, -⟩ := findIdx?_eq_some_iff_getElem.mp hfind
        have hrequests : state.requests =
            state.requests.take index ++ state.requests[index] :: state.requests.drop (index + 1) := by
          rw [← drop_eq_getElem_cons hlt, take_append_drop]
        have hremove := (removeRequest_speech hrequests hspeech).2
        rw [length_take_of_le (le_of_lt hlt)] at hremove
        have hcount : (state.removeRequest index).2.Trims { (state.removeRequest index).2 with
              droppedSpeechItems := saturatingAdd (state.removeRequest index).2.droppedSpeechItems 1 } :=
          ⟨.refl _, rfl, rfl, fun h => ⟨h.items, h.bytes⟩, fun h => ⟨h.items, h.bytes⟩⟩
        exact (hremove.trans hcount).trans ih
    · exact Trims.refl state

theorem evict_fits {textBytes : Nat} (h : state.overfull textBytes = false) (rounds : Nat) :
    state.evict textBytes rounds = state := by
  cases rounds with
  | zero => rfl
  | succ rounds => rw [evict, h, if_neg Bool.false_ne_true]

theorem evict_ends {textBytes rounds : Nat} (h : (speech state.requests).length ≤ rounds) :
    (state.evict textBytes rounds).overfull textBytes = false ∨
      speech (state.evict textBytes rounds).requests = [] := by
  induction rounds generalizing state with
  | zero => exact .inr (eq_nil_of_length_eq_zero (Nat.le_zero.mp h))
  | succ rounds ih =>
    rw [evict]
    split
    · split
      · rename_i hnone
        refine .inr (filter_eq_nil_iff.mpr fun entry hmem => ?_)
        simpa using findIdx?_eq_none_iff.mp hnone entry hmem
      · rename_i index hfind
        obtain ⟨hlt, hspeech, -⟩ := findIdx?_eq_some_iff_getElem.mp hfind
        have hrequests : state.requests =
            state.requests.take index ++ state.requests[index] :: state.requests.drop (index + 1) := by
          rw [← drop_eq_getElem_cons hlt, take_append_drop]
        have hremoved := (removeRequest_speech hrequests hspeech).1
        rw [length_take_of_le (le_of_lt hlt)] at hremoved
        refine ih ?_
        rw [hremoved]
        rw [hrequests, speech_append, speech_cons_speech hspeech, length_append, length_cons] at h
        rw [speech_append, length_append]
        omega
    · rename_i hfits
      exact .inl (Bool.eq_false_iff.mpr hfits)

theorem fits_of_overfull {textBytes : Nat} (h : state.overfull textBytes = false) (hbounded : state.Bounded) :
    state.speechItems + 1 ≤ maxPendingSpeechItems ∧ state.speechBytes + textBytes ≤ maxPendingSpeechBytes := by
  have hitems := hbounded.items
  unfold overfull saturatingAdd at h
  rw [Bool.or_eq_false_iff, decide_eq_false_iff_not, beq_eq_false_iff_ne] at h
  obtain ⟨hne, hbytes⟩ := h
  unfold maxPendingSpeechBytes at hbytes ⊢
  exact ⟨by omega, by omega⟩

def readied (state : MailboxState) (text : String) (interrupt : Bool) : MailboxState :=
  let state := if interrupt then state.discardSpeech.2 else state
  state.evict (boundedText text maxSpeechItemBytes).utf8ByteSize state.requests.length

theorem readied_trims (text : String) (interrupt : Bool) : state.Trims (state.readied text interrupt) := by
  cases interrupt with
  | true => exact discardSpeech_trims.trans (evict_trims _ _)
  | false => exact evict_trims _ _

theorem speech_readied_interrupt (text : String) : speech (state.readied text true).requests = [] := by
  have htrims : state.discardSpeech.2.Trims (state.readied text true) := evict_trims _ _
  have hspeech : (speech (state.readied text true).requests).Sublist
      (speech state.discardSpeech.2.requests) := htrims.sublist.filter _
  rw [discardSpeech_requests, speech_controls] at hspeech
  exact sublist_nil.mp hspeech

theorem readied_room (hbounded : state.Bounded) (hcounted : state.Counted) (text : String)
    (interrupt : Bool) : (state.readied text interrupt).speechItems + 1 ≤ maxPendingSpeechItems ∧
      (state.readied text interrupt).speechBytes + (boundedText text maxSpeechItemBytes).utf8ByteSize ≤
        maxPendingSpeechBytes := by
  have htrims : state.Trims (state.readied text interrupt) := readied_trims text interrupt
  have hends : (state.readied text interrupt).overfull (boundedText text maxSpeechItemBytes).utf8ByteSize =
        false ∨ speech (state.readied text interrupt).requests = [] :=
    evict_ends (length_filter_le _ _)
  rcases hends with hfits | hempty
  · exact fits_of_overfull hfits (htrims.bounded hbounded)
  · have hitems := (htrims.counted hcounted).items
    have hbytes := (htrims.counted hcounted).bytes
    have hitem : (boundedText text maxSpeechItemBytes).utf8ByteSize ≤ maxPendingSpeechBytes :=
      le_trans (boundedText_item_le text) (by decide)
    rw [hempty] at hitems
    rw [spokenBytes_eq_zero hempty] at hbytes
    rw [hitems, hbytes, zero_add]
    exact ⟨by decide, hitem⟩

theorem enqueueSpeech_eq (hlive : state.shutdown = false) (serial : Nat) (text : String)
    (interrupt : Bool) : state.enqueueSpeech serial text interrupt =
      { state.readied text interrupt with
        speechItems := saturatingAdd (state.readied text interrupt).speechItems 1
        speechBytes := saturatingAdd (state.readied text interrupt).speechBytes
          (boundedText text maxSpeechItemBytes).utf8ByteSize
        requests := (state.readied text interrupt).requests ++
          [⟨serial, .speak (boundedText text maxSpeechItemBytes) interrupt⟩] } := by
  unfold enqueueSpeech readied
  rw [hlive]
  rfl

theorem saturatingAdd_of_le {a b : Nat} (h : a + b ≤ maxPendingSpeechBytes) : saturatingAdd a b = a + b := by
  unfold maxPendingSpeechBytes at h
  unfold saturatingAdd
  omega

theorem enqueueSpeech_counted (hlive : state.shutdown = false) (hcounted : state.Counted)
    (hbounded : state.Bounded) (serial : Nat) (text : String) (interrupt : Bool) :
    (state.enqueueSpeech serial text interrupt).Counted ∧
      (state.enqueueSpeech serial text interrupt).Bounded := by
  have hkept := (readied_trims text interrupt).counted hcounted
  obtain ⟨hitems, hbytes⟩ := readied_room hbounded hcounted text interrupt
  have hitems' : saturatingAdd (state.readied text interrupt).speechItems 1 =
      (state.readied text interrupt).speechItems + 1 := by
    apply saturatingAdd_of_le
    unfold maxPendingSpeechItems at hitems
    unfold maxPendingSpeechBytes
    omega
  rw [enqueueSpeech_eq hlive, hitems', saturatingAdd_of_le hbytes]
  refine ⟨⟨?_, ?_⟩, ⟨hitems, hbytes⟩⟩
  · rw [speech_append, length_append, hkept.items]
    rfl
  · rw [spokenBytes_append, hkept.bytes]
    rfl

/-! ## Controls and takes -/

theorem Counted.supersede {control : Control} {entry : Entry} (h : state.Counted)
    (hentry : entry.request.control = some control) : (state.supersede control entry).Counted where
  items := by
    unfold MailboxState.supersede
    rw [speech_cons_control (isSpeech_of_control hentry), speech_filter_control]
    exact h.items
  bytes := by
    unfold MailboxState.supersede
    rw [spokenBytes_cons, speechBytes_control (isSpeech_of_control hentry), zero_add,
      spokenBytes_filter_control]
    exact h.bytes

theorem Bounded.supersede (control : Control) (entry : Entry) (h : state.Bounded) :
    (state.supersede control entry).Bounded := ⟨h.items, h.bytes⟩

theorem nextRequest_requests (hlive : state.shutdown = false) :
    state.requests = state.nextRequest.1.toList ++ state.nextRequest.2.requests := by
  unfold nextRequest
  rw [hlive, if_neg Bool.false_ne_true]
  split
  · rfl
  · rename_i hrequests
    rw [hrequests]
    split <;> rfl

theorem nextRequest_shutdown : state.nextRequest.2.shutdown = state.shutdown := by
  unfold nextRequest
  split
  · rfl
  · split
    · rfl
    · split <;> rfl

theorem nextRequest_counted (hcounted : state.Counted) (hbounded : state.Bounded) :
    state.nextRequest.2.Counted ∧ state.nextRequest.2.Bounded := by
  unfold nextRequest
  split
  · exact ⟨hcounted, hbounded⟩
  · split
    · exact ⟨hcounted, hbounded⟩
    · rename_i entry requests hrequests
      obtain ⟨hitems, hbytes⟩ := hcounted
      rw [hrequests] at hitems hbytes
      rw [spokenBytes_cons] at hbytes
      cases hspeech : entry.request.isSpeech with
      | true =>
        rw [speech_cons_speech hspeech] at hitems
        refine ⟨⟨?_, ?_⟩, ⟨?_, ?_⟩⟩
        · exact Nat.sub_eq_of_eq_add hitems
        · exact Nat.sub_eq_of_eq_add (hbytes.trans (add_comm _ _))
        · exact le_trans (Nat.sub_le _ _) hbounded.items
        · exact le_trans (Nat.sub_le _ _) hbounded.bytes
      | false =>
        rw [speech_cons_control hspeech] at hitems
        rw [speechBytes_control hspeech, zero_add] at hbytes
        exact ⟨⟨hitems, hbytes⟩, hbounded.items, hbounded.bytes⟩

/-! ## The operations -/

/-- The counters are the content, within the bounds, and a mailbox that is shut down is empty. -/
structure WellKept (state : MailboxState) : Prop where
  counted : state.Counted
  bounded : state.Bounded
  closed : state.shutdown = true → state.requests = []

theorem wellKept_of_live (hcounted : state.Counted) (hbounded : state.Bounded)
    (hlive : state.shutdown = false) : state.WellKept :=
  ⟨hcounted, hbounded, fun hclosed => absurd (hlive.symm.trans hclosed) Bool.false_ne_true⟩

section

variable (h : state.WellKept)
include h

theorem enqueueSpeech_wellKept (serial : Nat) (text : String) (interrupt : Bool) :
    (state.enqueueSpeech serial text interrupt).WellKept := by
  cases hclosed : state.shutdown with
  | true =>
    rw [enqueueSpeech, if_pos hclosed]
    exact h
  | false =>
    obtain ⟨hcounted, hbounded⟩ := enqueueSpeech_counted hclosed h.counted h.bounded serial text interrupt
    refine wellKept_of_live hcounted hbounded ?_
    rw [enqueueSpeech_eq hclosed]
    exact (readied_trims text interrupt).shutdown.trans hclosed

theorem enqueueStop_wellKept (serial : Nat) : (state.enqueueStop serial).WellKept := by
  unfold enqueueStop
  cases hclosed : state.shutdown with
  | true => exact h
  | false =>
    have htrims : state.Trims state.discardSpeech.2 := discardSpeech_trims
    exact wellKept_of_live ((htrims.counted h.counted).supersede rfl) ((htrims.bounded h.bounded).supersede _ _)
      (htrims.shutdown.trans hclosed)

theorem supersede_wellKept {control : Control} {entry : Entry} (hentry : entry.request.control = some control) :
    (if state.shutdown then state else state.supersede control entry).WellKept := by
  cases hclosed : state.shutdown with
  | true => exact h
  | false => exact wellKept_of_live (h.counted.supersede hentry) (h.bounded.supersede _ _) hclosed

theorem enqueueStart_wellKept {serial completed : Nat}
    (hstart : state.enqueueStart serial completed = .ok state') : state'.WellKept := by
  unfold enqueueStart at hstart
  cases hclosed : state.shutdown with
  | true =>
    rw [hclosed] at hstart
    cases hstart
  | false =>
    rw [hclosed] at hstart
    cases hstart
    refine wellKept_of_live ⟨?_, ?_⟩ ⟨h.bounded.items, h.bounded.bytes⟩ rfl
    · rw [speech_append, speech_cons_control rfl, speech_nil, append_nil]
      exact h.counted.items
    · rw [spokenBytes_append]
      exact h.counted.bytes

theorem nextRequest_wellKept : state.nextRequest.2.WellKept := by
  cases hclosed : state.shutdown with
  | true =>
    rw [nextRequest, if_pos hclosed]
    exact h
  | false =>
    obtain ⟨hcounted, hbounded⟩ := nextRequest_counted h.counted h.bounded
    exact wellKept_of_live hcounted hbounded (nextRequest_shutdown.trans hclosed)

end

theorem shutDown_wellKept (state : MailboxState) : state.shutDown.WellKept :=
  ⟨⟨rfl, rfl⟩, ⟨Nat.zero_le _, Nat.zero_le _⟩, fun _ => rfl⟩

end MailboxState

end Lector.Speech
