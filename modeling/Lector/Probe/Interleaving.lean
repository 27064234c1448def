import Lector.Probe.Vocabulary

/-! The user's keys and the terminal's replies in one stream of input. -/
namespace Lector.Probe
open Bytes Cutting List

/-- What the physical terminal sends at one time: the bytes of a key, or a reply. -/
inductive Arrival
  | key (bytes : Bytes)
  | reply (bytes : Bytes)

namespace Arrival

def bytes : Arrival → Bytes
  | .key bytes => bytes
  | .reply bytes => bytes

def userBytes : Arrival → Bytes
  | .key bytes => bytes
  | .reply _ => []

def replyBytes : Arrival → List Bytes
  | .key _ => []
  | .reply bytes => [bytes]

/-- A reply to a probe of this policy is one complete sequence of the vocabulary. -/
def Proper (policy : ProbePolicy) : Arrival → Prop
  | .key _ => True
  | .reply bytes => Sequence bytes ∧ recognised policy bytes = true

end Arrival

open Arrival

/-- No reply begins within a sequence of the user's, whose bytes form no reply and fit the buffer.
-/
def Settled (policy : ProbePolicy) : Bytes → List Arrival → Prop
  | _, [] => True
  | held, .key bytes :: rest =>
    (∀ t ∈ (cut sequences (held ++ bytes)).1, kept policy t = true) ∧
      (cut sequences (held ++ bytes)).2.length ≤ maxProbeReplyBytes ∧
      Settled policy (cut sequences (held ++ bytes)).2 rest
  | held, .reply _ :: rest => held = [] ∧ Settled policy [] rest

variable {policy : ProbePolicy} {arrivals : List Arrival} {held : Bytes}

/-! ## Settled streams -/

theorem handedOn_append (policy : ProbePolicy) (x more : Bytes) :
    handedOn policy (x ++ more) = handedOn policy x ++ handedOn policy ((cut sequences x).2 ++ more) := by
  rw [handedOn, cut_append (c := sequences), filter_append, flatten_append]
  rfl

theorem released_append (policy : ProbePolicy) (x more : Bytes) : released policy (x ++ more) =
      handedOn policy x ++ released policy ((cut sequences x).2 ++ more) := by
  rw [released, handedOn_append, cut_append (c := sequences) x more, append_assoc]
  rfl

theorem released_eq_iff {x : Bytes} :
    released policy x = x ↔ (∀ t ∈ (cut sequences x).1, kept policy t = true) ∧
      (cut sequences x).2.length ≤ maxProbeReplyBytes := by
  have hflatten := flatten_cut (c := sequences) x
  have hwhole := prompt_sequences.whole x
  have hunfinished := len_cut (c := sequences) x
  rw [released, handedOn]
  generalize cut sequences x = reading at *
  obtain ⟨tokens, tail⟩ := reading
  subst hflatten
  constructor
  · intro h
    have hle : ∀ tokens : List Bytes,
        (tokens.filter (kept policy)).flatten.length ≤ tokens.flatten.length := by
      intro tokens
      induction tokens with
      | nil => exact le_rfl
      | cons t rest ih =>
        rw [filter_cons]
        split
        · simp only [flatten_cons, length_append]
          omega
        · simp only [flatten_cons, length_append]
          omega
    have hlength := congrArg length h
    simp only [length_append] at hlength
    have hbound := hle tokens
    have htail : tail.length ≤ maxProbeReplyBytes := by
      by_contra hlong
      rw [if_neg hlong, length_nil] at hlength
      omega
    refine ⟨?_, htail⟩
    rw [if_pos htail] at hlength
    have hsame : (tokens.filter (kept policy)).flatten.length = tokens.flatten.length := by omega
    clear h hlength hbound hunfinished
    induction tokens with
    | nil => simp
    | cons t rest ih =>
      rw [filter_cons] at hsame
      have hrest := hle rest
      split at hsame
      · rename_i hkept
        simp only [flatten_cons, length_append] at hsame
        exact forall_mem_cons.mpr ⟨hkept, ih (fun s hs => hwhole s (mem_cons_of_mem _ hs)) (by omega)⟩
      · have hpos : 0 < t.length := length_pos_of_ne_nil
          (whole_sequence.mp (hwhole t mem_cons_self)).ne_nil
        simp only [flatten_cons, length_append] at hsame
        omega
  · rintro ⟨hkept, htail⟩
    rw [filter_eq_self.mpr hkept, if_pos htail]

theorem kept_reply {r : Bytes} (h : recognised policy r = true) : kept policy r = false := by
  rw [kept, h]
  exact Bool.and_false _

/-- What is cut from a settled stream: the replies are the sequences that are not kept. -/
theorem cut_settled (hproper : ∀ arrival ∈ arrivals, arrival.Proper policy) (hheld : sequenceLen held = none)
    (hlength : held.length ≤ maxProbeReplyBytes) (h : Settled policy held arrivals) :
    (cut sequences (held ++ arrivals.flatMap bytes)).2.length ≤ maxProbeReplyBytes ∧
      handedOn policy (held ++ arrivals.flatMap bytes) ++ (cut sequences (held ++ arrivals.flatMap bytes)).2 =
        held ++ arrivals.flatMap userBytes ∧
      (cut sequences (held ++ arrivals.flatMap bytes)).1.filter (fun t => !kept policy t) =
        arrivals.flatMap replyBytes := by
  induction arrivals generalizing held with
  | nil =>
    rw [flatMap_nil, append_nil, handedOn, cut_unfinished (c := sequences) hheld]
    exact ⟨hlength, (append_nil held).symm, rfl⟩
  | cons arrival rest ih =>
    obtain ⟨hfirst, hrest⟩ := forall_mem_cons.mp hproper
    rw [flatMap_cons, flatMap_cons, flatMap_cons]
    cases arrival with
    | key keys =>
      obtain ⟨hkept, hshort, hsettled⟩ := h
      obtain ⟨htail, huser, hreplies⟩ := ih hrest (len_cut (c := sequences) (held ++ keys)) hshort hsettled
      have hflatten := flatten_cut (c := sequences) (held ++ keys)
      simp only [bytes, userBytes, replyBytes]
      rw [← append_assoc, handedOn_append, cut_append (c := sequences), append_assoc, huser, filter_append,
        hreplies, handedOn, filter_eq_self.mpr hkept, ← append_assoc, hflatten, append_assoc,
        filter_eq_nil_iff.mpr (by simpa using hkept)]
      exact ⟨htail, rfl, rfl⟩
    | reply r =>
      obtain ⟨rfl, hsettled⟩ := h
      obtain ⟨hsequence, hrecognised⟩ := hfirst
      obtain ⟨htail, huser, hreplies⟩ := ih hrest rfl (Nat.zero_le _) hsettled
      have hcut := cut_whole (c := sequences) (whole_sequence.mpr hsequence) (rest.flatMap bytes)
      have hgone := kept_reply hrecognised
      simp only [bytes, userBytes, replyBytes, nil_append] at *
      rw [handedOn, hcut, filter_cons_of_neg (by simp [hgone]), filter_cons_of_pos (by simp [hgone]), hreplies]
      exact ⟨htail, huser, rfl⟩

/-- **A stream all of whose prefixes release the user's bytes is settled.** -/
theorem settled_of_released (hproper : ∀ arrival ∈ arrivals, arrival.Proper policy)
    (hheld : sequenceLen held = none) (hlength : held.length ≤ maxProbeReplyBytes)
    (h : ∀ k, released policy (held ++ (arrivals.take k).flatMap bytes) =
      held ++ (arrivals.take k).flatMap userBytes) : Settled policy held arrivals := by
  induction arrivals generalizing held with
  | nil => trivial
  | cons arrival rest ih =>
    have hrest : ∀ arrival ∈ rest, arrival.Proper policy := fun x hx => hproper x (mem_cons_of_mem _ hx)
    have hfirst := h 1
    rw [take_succ_cons, take_zero, flatMap_singleton, flatMap_singleton] at hfirst
    have hmore : ∀ k, released policy (held ++ (arrival.bytes ++ (rest.take k).flatMap bytes)) =
        held ++ (arrival.userBytes ++ (rest.take k).flatMap userBytes) := fun k => h (k + 1)
    cases arrival with
    | key keys =>
      have hwhole : released policy (held ++ keys) = held ++ keys := hfirst
      obtain ⟨hkept, hshort⟩ := released_eq_iff.mp hwhole
      have hflatten := flatten_cut (c := sequences) (held ++ keys)
      have hhanded : handedOn policy (held ++ keys) = (cut sequences (held ++ keys)).1.flatten := by
        rw [handedOn, filter_eq_self.mpr hkept]
      refine ⟨hkept, hshort, ih hrest (len_cut (c := sequences) (held ++ keys)) hshort fun k => ?_⟩
      have hk : released policy (held ++ (keys ++ (rest.take k).flatMap bytes)) =
        held ++ (keys ++ (rest.take k).flatMap userBytes) := hmore k
      rw [← append_assoc, ← append_assoc, released_append, hhanded] at hk
      refine append_cancel_left (hk.trans ?_)
      rw [← append_assoc, hflatten]
    | reply r =>
      obtain ⟨hsequence, hrecognised⟩ := hproper _ mem_cons_self
      have hnil : held = [] := by
        by_contra hne
        have hcollision : released policy (held ++ r) ≠ held :=
          released_collision hheld hne (reply_of_recognised hsequence hrecognised)
        rw [show Arrival.userBytes (.reply r) = [] from rfl, append_nil] at hfirst
        exact hcollision hfirst
      subst hnil
      refine ⟨rfl, ih hrest rfl (Nat.zero_le _) fun k => ?_⟩
      have hk := hmore k
      rw [nil_append, show Arrival.bytes (.reply r) = r from rfl, released_sequence hsequence,
        kept_reply hrecognised] at hk
      exact hk

theorem settled_take (h : Settled policy held arrivals) (k : Nat) : Settled policy held (arrivals.take k) := by
  induction arrivals generalizing held k with
  | nil => rwa [take_nil]
  | cons arrival rest ih =>
    cases k with
    | zero => trivial
    | succ k =>
      cases arrival with
      | key keys =>
        obtain ⟨hkept, hshort, hsettled⟩ := h
        exact ⟨hkept, hshort, ih hsettled k⟩
      | reply r =>
        obtain ⟨hheld, hsettled⟩ := h
        exact ⟨hheld, ih hsettled k⟩

namespace StartupProbeBroker

variable {broker : StartupProbeBroker}

theorem learn_kept {t : Bytes} (h : kept broker.policy t = true) : broker.learn t = broker := by
  rw [kept, Bool.and_eq_true, decide_eq_true_iff] at h
  rw [learn, if_neg (not_lt.mpr h.1)]
  refine consumeReply_of_not ?_
  rw [consumeReply_snd]
  simpa using h.2

theorem foldl_learn_filter (tokens : List Bytes) (hpolicy : broker.policy = policy) :
    tokens.foldl learn broker = (tokens.filter fun t => !kept policy t).foldl learn broker := by
  induction tokens generalizing broker with
  | nil => rfl
  | cons t rest ih =>
    rw [foldl_cons, filter_cons]
    cases hkept : kept policy t with
    | true =>
      rw [learn_kept (hpolicy ▸ hkept)]
      exact ih hpolicy
    | false => exact ih ((learn_policy broker t).trans hpolicy)

theorem cut_replies (hproper : ∀ arrival ∈ arrivals, arrival.Proper policy) :
    cut sequences (arrivals.flatMap replyBytes).flatten = (arrivals.flatMap replyBytes, []) := by
  have hwhole : ∀ r ∈ arrivals.flatMap replyBytes, sequences.len r = some r.length := by
    intro r hr
    obtain ⟨arrival, harrival, hmem⟩ := mem_flatMap.mp hr
    cases arrival with
    | key keys => cases hmem
    | reply bytes =>
      obtain rfl := mem_singleton.mp hmem
      exact whole_sequence.mpr (hproper _ harrival).1
  have hcut := cut_unique hwhole (show sequences.len [] = none from rfl)
  rwa [append_nil] at hcut

def known (broker : StartupProbeBroker) : StartupProbeBroker := broker.withInput [] none 0

/-- The timeout has passed since the last input. -/
def TimedOut (broker : StartupProbeBroker) (nowMs : Nat) : Prop :=
  broker.lastActivityAtMs + probeInactivityTimeoutMs < nowMs

theorem finishIfTimedOut_snd {nowMs : Nat} (h : broker.TimedOut nowMs) :
    (broker.finishIfTimedOut nowMs).2 = broker.pending := by
  rw [TimedOut] at h
  rw [finishIfTimedOut, if_neg (by omega)]
  split
  · rename_i hfinished
    exact hfinished.2.1.symm
  · rfl

theorem ingestAll_released (hidle : broker.Idle) (chunks : List (Bytes × Nat)) {nowMs : Nat}
    (h : (broker.ingestAll chunks).1.TimedOut nowMs) :
    (broker.ingestAll chunks).2 ++ ((broker.ingestAll chunks).1.finishIfTimedOut nowMs).2 =
      released broker.policy (inputOf chunks) := by
  obtain ⟨activity, hidle', hbroker, houtput⟩ := follows_ingestAll rfl (follows_idle hidle []) chunks
  rw [nil_append] at hidle' hbroker houtput
  rw [finishIfTimedOut_snd h]
  refine (congrArg₂ (· ++ ·) houtput ((congrArg StartupProbeBroker.pending hbroker).trans ?_)).trans rfl
  unfold holding
  split
  · rfl
  · exact hidle'.1

theorem ingestAll_known (hidle : broker.Idle) (chunks : List (Bytes × Nat))
    (h : (cut sequences (inputOf chunks)).2.length ≤ maxProbeReplyBytes) :
    (broker.ingestAll chunks).1.known = ((cut sequences (inputOf chunks)).1.foldl learn broker).known := by
  obtain ⟨activity, -, hbroker, -⟩ := follows_ingestAll rfl (follows_idle hidle []) chunks
  rw [nil_append] at hbroker
  refine (congrArg known hbroker).trans ?_
  rw [holding, if_pos h]
  rfl

/-- **The user's bytes come through and the replies do not, exactly in the settled streams**: for every chunking
what is handed on is what the user typed, and what is known is what the replies alone tell. -/
theorem ingestAll_settled_iff (hidle : broker.Idle)
    (hproper : ∀ arrival ∈ arrivals, arrival.Proper broker.policy) :
    (∀ k chunks nowMs, inputOf chunks = (arrivals.take k).flatMap bytes →
        (broker.ingestAll chunks).1.TimedOut nowMs →
        (broker.ingestAll chunks).2 ++ ((broker.ingestAll chunks).1.finishIfTimedOut nowMs).2 =
            (arrivals.take k).flatMap userBytes ∧
          ∀ t, (broker.ingestAll chunks).1.known =
            (broker.ingestAll [(((arrivals.take k).flatMap replyBytes).flatten, t)]).1.known) ↔
      Settled broker.policy [] arrivals := by
  constructor
  · intro h
    refine settled_of_released hproper rfl (Nat.zero_le _) fun k => ?_
    have hinput : inputOf [((arrivals.take k).flatMap bytes, 0)] = (arrivals.take k).flatMap bytes :=
      append_nil _
    have htime : (broker.ingestAll [((arrivals.take k).flatMap bytes, 0)]).1.TimedOut
        ((broker.ingestAll [((arrivals.take k).flatMap bytes, 0)]).1.lastActivityAtMs + 51) := by
      rw [TimedOut, probeInactivityTimeoutMs]
      omega
    have hreleased := ingestAll_released hidle _ htime
    rw [(h k _ _ hinput htime).1, hinput] at hreleased
    exact hreleased.symm
  · intro h k chunks nowMs hinput htime
    have hprefix : ∀ arrival ∈ arrivals.take k, arrival.Proper broker.policy := fun x hx =>
      hproper x (mem_of_mem_take hx)
    have hsettled := settled_take h k
    obtain ⟨hshort, huser, hlearned⟩ := cut_settled hprefix rfl (Nat.zero_le _) hsettled
    rw [nil_append] at hshort huser hlearned
    refine ⟨?_, fun t => ?_⟩
    · rw [ingestAll_released hidle chunks htime, hinput, released, if_pos hshort]
      exact huser
    · have hlearn := foldl_learn_filter (cut sequences ((arrivals.take k).flatMap bytes)).1 (Eq.refl broker.policy)
      have hreplies := cut_replies hprefix
      have hreplyInput : inputOf [(((arrivals.take k).flatMap replyBytes).flatten, t)] =
        ((arrivals.take k).flatMap replyBytes).flatten := append_nil _
      rw [ingestAll_known hidle chunks (by rw [hinput]; exact hshort), hinput, hlearn, hlearned,
        ingestAll_known hidle _ (by rw [hreplyInput, hreplies]; exact Nat.zero_le _), hreplyInput, hreplies]

theorem ingestAll_settled_iff_keys : (∀ k chunks nowMs, inputOf chunks =
          ([.key (ascii "a"), .reply (esc :: ascii "[?6c"), .key [esc]].take k).flatMap bytes →
        ((new (.conservative ⟨24, 80, 0, 0⟩) ⟨false⟩ 0).ingestAll chunks).1.TimedOut nowMs →
        ((new (.conservative ⟨24, 80, 0, 0⟩) ⟨false⟩ 0).ingestAll chunks).2 ++
            (((new (.conservative ⟨24, 80, 0, 0⟩) ⟨false⟩ 0).ingestAll chunks).1.finishIfTimedOut nowMs).2 =
            ([.key (ascii "a"), .reply (esc :: ascii "[?6c"), .key [esc]].take k).flatMap userBytes ∧
          ∀ t, ((new (.conservative ⟨24, 80, 0, 0⟩) ⟨false⟩ 0).ingestAll chunks).1.known =
            ((new (.conservative ⟨24, 80, 0, 0⟩) ⟨false⟩ 0).ingestAll
              [((([.key (ascii "a"), .reply (esc :: ascii "[?6c"), .key [esc]].take k).flatMap
                replyBytes).flatten, t)]).1.known) ↔
      Settled ⟨false⟩ [] [.key (ascii "a"), .reply (esc :: ascii "[?6c"), .key [esc]] := by
  refine ingestAll_settled_iff (idle_new (.conservative ⟨24, 80, 0, 0⟩) ⟨false⟩ 0) ?_
  intro arrival harrival
  simp only [mem_cons, not_mem_nil, or_false] at harrival
  rcases harrival with rfl | rfl | rfl
  · trivial
  · refine ⟨whole_sequence.mp ?_, ?_⟩
    · decide +kernel
    · decide +kernel
  · trivial

/-- A lone ESC key takes the first byte of the reply that follows it: the reply is handed on. -/
theorem lone_escape_leaks :
    (∀ arrival ∈ [Arrival.key [esc], .reply (esc :: ascii "[?6c")], arrival.Proper ⟨false⟩) ∧
      inputOf [(esc :: esc :: ascii "[?6c", 1)] =
        [Arrival.key [esc], .reply (esc :: ascii "[?6c")].flatMap bytes ∧
      ((new (.conservative ⟨24, 80, 0, 0⟩) ⟨false⟩ 0).ingestAll [(esc :: esc :: ascii "[?6c", 1)]).1.TimedOut
        100 ∧
      ((new (.conservative ⟨24, 80, 0, 0⟩) ⟨false⟩ 0).ingestAll [(esc :: esc :: ascii "[?6c", 1)]).2 ++
        (((new (.conservative ⟨24, 80, 0, 0⟩) ⟨false⟩ 0).ingestAll
          [(esc :: esc :: ascii "[?6c", 1)]).1.finishIfTimedOut 100).2 ≠
        [Arrival.key [esc], .reply (esc :: ascii "[?6c")].flatMap userBytes := by
  refine ⟨?_, rfl, ?_, ?_⟩
  · intro arrival harrival
    simp only [mem_cons, not_mem_nil, or_false] at harrival
    rcases harrival with rfl | rfl
    · trivial
    · refine ⟨whole_sequence.mp ?_, ?_⟩
      · decide +kernel
      · decide +kernel
  · show _ < _
    decide +kernel
  · decide +kernel

end StartupProbeBroker

end Lector.Probe
