import Lector.Probe.Broker

/-! What the probe broker makes of a whole stream: it follows the cut of the stream into sequences,
drops the replies and what is longer than its buffer, and holds the sequence at the end. -/
namespace Lector.Probe
open Bytes Cutting List Option

/-- A stream read as text bytes and complete escape sequences, and an unfinished one at its end. -/
structure Reading (input : Bytes) (tokens : List Bytes) (tail : Bytes) : Prop where
  whole : ∀ t ∈ tokens, Sequence t
  unfinished : ∀ s, Sequence s → ¬ s <+: tail
  input : tokens.flatten ++ tail = input

theorem reading_iff {input : Bytes} {tokens : List Bytes} {tail : Bytes} :
    Reading input tokens tail ↔ tokens = (cut sequences input).1 ∧ tail = (cut sequences input).2 := by
  constructor
  · rintro ⟨hwhole, hunfinished, rfl⟩
    have htail : sequences.len tail = none := unfinished_sequence.mpr hunfinished
    rw [cut_unique (fun s hs => whole_sequence.mpr (hwhole s hs)) htail]
    exact ⟨rfl, rfl⟩
  · rintro ⟨rfl, rfl⟩
    refine ⟨fun t ht => ?_, unfinished_sequence.mp (len_cut (c := sequences) input), flatten_cut input⟩
    exact whole_sequence.mp (prompt_sequences.whole input t ht)

def kept (policy : ProbePolicy) (t : Bytes) : Bool := t.length ≤ maxProbeReplyBytes && !recognised policy t

namespace StartupProbeBroker

variable {broker : StartupProbeBroker} {t tail : Bytes}

/-! ## Replies -/

section

variable (broker : StartupProbeBroker)

def withInput (pending : Bytes) (discarding : Option OversizedSequence)
    (lastActivityAtMs : Nat) : StartupProbeBroker :=
  { broker with
    pending := pending, discardingOversized := discarding, lastActivityAtMs := lastActivityAtMs }

theorem resolveColorScheme_withInput (pending : Bytes)
    (discarding : Option OversizedSequence) (lastActivityAtMs : Nat) :
    (broker.withInput pending discarding lastActivityAtMs).resolveColorScheme =
      broker.resolveColorScheme.withInput pending discarding lastActivityAtMs := by
  obtain ⟨-, -, -, -, -, -, -, -, -, -, foreground, background, -⟩ := broker
  cases foreground with
  | none => rfl
  | some foreground =>
    cases background with
    | none => rfl
    | some background => rfl

theorem isSome_applySize (kind first second : Nat) :
    (broker.applySize kind first second).isSome = (kind == 4 || kind == 6 || kind == 8) := by
  unfold applySize
  split
  · simp [*]
  · split
    · simp [*]
    · split
      · simp [*]
      · simp [*]

theorem consumeReply_withInput (pending : Bytes)
    (discarding : Option OversizedSequence) (lastActivityAtMs : Nat) (t : Bytes) :
    (broker.withInput pending discarding lastActivityAtMs).consumeReply t =
      ((broker.consumeReply t).1.withInput pending discarding lastActivityAtMs, (broker.consumeReply t).2) := by
  unfold consumeReply
  cases hmode : parseModeReport t with
  | some report =>
    dsimp only
    split
    · rfl
    · split
      · rfl
      · rfl
  | none =>
    cases hkitty : (parseKittyKeyboardReport t).isSome with
    | true => rfl
    | false =>
      cases hsize : parseSizeReport t with
      | some report =>
        obtain ⟨kind, -, -⟩ := report
        simp only [Bool.false_eq_true, if_false, applySize]
        by_cases hpixels : kind = 4
        · simp only [if_pos hpixels]
          rfl
        · by_cases hcells : kind = 6
          · simp only [if_neg hpixels, if_pos hcells]
            rfl
          · by_cases hgrid : kind = 8
            · simp only [if_neg hpixels, if_neg hcells, if_pos hgrid]
              rfl
            · simp only [if_neg hpixels, if_neg hcells, if_neg hgrid]
      | none =>
        simp only [Bool.false_eq_true, if_false]
        cases hcolor : parseColorReport t with
        | some report =>
          dsimp only
          split
          · exact Prod.ext (resolveColorScheme_withInput { broker with
              foregroundLuminance := some _ } pending discarding lastActivityAtMs) rfl
          · split
            · exact Prod.ext (resolveColorScheme_withInput { broker with
                backgroundLuminance := some _ } pending discarding lastActivityAtMs) rfl
            · rfl
        | none =>
          dsimp only
          split
          · rfl
          · split
            · rfl
            · have hpolicy : (broker.withInput pending discarding lastActivityAtMs).policy =
                broker.policy := rfl
              rw [hpolicy]
              split
              · rfl
              · rfl

theorem consumeReply_frame (t : Bytes) : (broker.consumeReply t).1.pending = broker.pending ∧
      (broker.consumeReply t).1.discardingOversized = broker.discardingOversized := by
  have h := consumeReply_withInput broker broker.pending broker.discardingOversized broker.lastActivityAtMs t
  have hself : broker.withInput broker.pending broker.discardingOversized broker.lastActivityAtMs =
    broker := rfl
  rw [hself] at h
  rw [congrArg Prod.fst h]
  exact ⟨rfl, rfl⟩

theorem consumeReply_policy (t : Bytes) : (broker.consumeReply t).1.policy = broker.policy := by
  have hresolve : ∀ broker : StartupProbeBroker, broker.resolveColorScheme.policy = broker.policy := by
    intro broker
    unfold resolveColorScheme
    split
    · rfl
    · rfl
  have hsize : ∀ {next : StartupProbeBroker} {kind first second : Nat},
      broker.applySize kind first second = some next → next.policy = broker.policy := by
    intro next kind first second h
    unfold applySize at h
    split at h
    · cases h; rfl
    · split at h
      · cases h; rfl
      · split at h
        · cases h; rfl
        · cases h
  unfold consumeReply
  split
  · split
    · rfl
    · split
      · rfl
      · rfl
  · split
    · rfl
    · split
      · split
        · rename_i h
          have hframe := hsize h
          exact hframe
        · rfl
      · split
        · split
          · exact hresolve _
          · split
            · exact hresolve _
            · rfl
        · split
          · rfl
          · split
            · rfl
            · split
              · rfl
              · rfl

theorem consumeReply_snd (t : Bytes) : (broker.consumeReply t).2 = recognised broker.policy t := by
  unfold consumeReply recognised
  cases hmode : parseModeReport t with
  | some report =>
    dsimp only
    split
    · simp [*]
    · split
      · simp [*]
      · simp [*]
  | none =>
    cases hkitty : (parseKittyKeyboardReport t).isSome with
    | true => rfl
    | false =>
      cases hsize : parseSizeReport t with
      | some report =>
        obtain ⟨kind, first, second⟩ := report
        simp only
        rw [← isSome_applySize broker kind first second]
        cases broker.applySize kind first second with
        | some next => rfl
        | none => rfl
      | none =>
        simp only [Bool.false_eq_true, if_false]
        cases hcolor : parseColorReport t with
        | some report =>
          dsimp only
          split
          · simp [*]
          · split
            · simp [*]
            · simp [*]
        | none =>
          dsimp only
          split
          · simp [*]
          · split
            · simp [*]
            · split
              · simp [*]
              · simp [*]

end

theorem consumeReply_of_not (h : (broker.consumeReply t).2 = false) : (broker.consumeReply t).1 = broker := by
  unfold consumeReply at h ⊢
  split at h
  · split at h
    · cases h
    · split at h
      · cases h
      · simp [*]
  · split at h
    · cases h
    · split at h
      · split at h
        · cases h
        · simp [*]
      · split at h
        · split at h
          · cases h
          · split at h
            · cases h
            · simp [*]
        · split at h
          · cases h
          · split at h
            · cases h
            · split at h
              · cases h
              · simp [*]

theorem stripPrefix_of_short {pre bs : Bytes} (h : bs.length < pre.length) : stripPrefix pre bs = none := by
  cases hstrip : stripPrefix pre bs with
  | none => rfl
  | some rest =>
    rw [stripPrefix_eq_some] at hstrip
    rw [hstrip, length_append] at h
    omega

theorem not_isPrefixOf_of_short {pre bs : Bytes} (h : bs.length < pre.length) : pre.isPrefixOf bs = false := by
  cases hpre : pre.isPrefixOf bs with
  | false => rfl
  | true =>
    have := ( isPrefixOf_iff_prefix.mp hpre).length_le
    omega

theorem recognised_byte (policy : ProbePolicy) (b : UInt8) : recognised policy [b] = false := by
  have hstrip : ∀ {pre : Bytes}, 1 < pre.length → stripPrefix pre [b] = none := fun h => stripPrefix_of_short h
  have hpre : ∀ {pre : Bytes}, 1 < pre.length → pre.isPrefixOf [b] = false := fun h => not_isPrefixOf_of_short h
  have hfrom : ∀ {β : Type} (pre : Bytes) (f : Bytes → Option β), 1 < pre.length →
      ((fromUtf8 [b]).bind fun text => (stripPrefix pre text).bind f) = none := by
    intro β pre f hlength
    rw [fromUtf8]
    split
    · rw [bind_some, hstrip hlength]
      rfl
    · rfl
  have hmode : parseModeReport [b] = none := hfrom _ _ (by decide)
  have hkitty : parseKittyKeyboardReport [b] = none := hfrom _ _ (by decide)
  have hsize : parseSizeReport [b] = none := hfrom _ _ (by decide)
  have hcolor : parseColorReport [b] = none := by
    show (stripPrefix _ [b]).bind _ = none
    rw [hstrip (by decide)]
    rfl
  simp only [recognised, hmode, hkitty, hsize, hcolor, isPrimaryDeviceAttributesReply,
    isOtherDeviceAttributesReply, isClipboardReply]
  rw [hstrip (by decide), hstrip (by decide), hpre (by decide), hpre (by decide), hpre (by decide)]
  simp

section

variable (broker : StartupProbeBroker)

theorem consumeReply_byte (b : UInt8) : broker.consumeReply [b] = (broker, false) := by
  have hsnd : (broker.consumeReply [b]).2 = false := by rw [consumeReply_snd, recognised_byte]
  exact Prod.ext (consumeReply_of_not hsnd) hsnd

/-! ## Following the cut -/

def Idle : Prop := broker.pending = [] ∧ broker.discardingOversized = none

def note (s : StartupProbeBroker × Bytes) (t : Bytes) : StartupProbeBroker × Bytes :=
  if maxProbeReplyBytes < t.length then (s.1.oneMoreMalformed, s.2)
  else ((s.1.consumeReply t).1, if (s.1.consumeReply t).2 then s.2 else s.2 ++ t)

def learn (t : Bytes) : StartupProbeBroker :=
  if maxProbeReplyBytes < t.length then broker.oneMoreMalformed else (broker.consumeReply t).1

theorem note_eq (s : StartupProbeBroker × Bytes) (t : Bytes) :
    note s t = (s.1.learn t, if kept s.1.policy t then s.2 ++ t else s.2) := by
  rw [note, learn, kept, consumeReply_snd]
  by_cases hlength : maxProbeReplyBytes < t.length
  · rw [if_pos hlength, if_pos hlength, decide_eq_false (not_le.mpr hlength)]
    rfl
  · rw [if_neg hlength, if_neg hlength, decide_eq_true (not_lt.mp hlength)]
    cases recognised s.1.policy t with
    | false => rfl
    | true => rfl

theorem learn_policy (t : Bytes) : (broker.learn t).policy = broker.policy := by
  unfold learn
  split
  · rfl
  · exact consumeReply_policy broker t

theorem foldl_note (tokens : List Bytes) (s : StartupProbeBroker × Bytes) : tokens.foldl note s =
      (tokens.foldl learn s.1, s.2 ++ (tokens.filter (kept s.1.policy)).flatten) := by
  induction tokens generalizing s with
  | nil => simp
  | cons t rest ih =>
    rw [foldl_cons, foldl_cons, ih, note_eq]
    rw [learn_policy, filter_cons]
    split
    · rw [flatten_cons, append_assoc]
    · rfl

def activeAt (lastActivityAtMs : Nat) : StartupProbeBroker :=
  { broker with lastActivityAtMs := lastActivityAtMs }

theorem learn_activeAt (lastActivityAtMs : Nat) (t : Bytes) :
    (broker.activeAt lastActivityAtMs).learn t = (broker.learn t).activeAt lastActivityAtMs := by
  have hconsume := consumeReply_withInput broker broker.pending broker.discardingOversized lastActivityAtMs t
  obtain ⟨hpending, hdiscarding⟩ := consumeReply_frame broker t
  unfold learn
  split
  · rfl
  · refine (congrArg Prod.fst hconsume).trans ?_
    rw [← hpending, ← hdiscarding]
    rfl

end

theorem foldl_learn_activeAt (tokens : List Bytes) (broker : StartupProbeBroker) (lastActivityAtMs : Nat) :
    tokens.foldl learn (broker.activeAt lastActivityAtMs) = (tokens.foldl learn broker).activeAt lastActivityAtMs := by
  induction tokens generalizing broker with
  | nil => rfl
  | cons t rest ih => rw [foldl_cons, foldl_cons, learn_activeAt, ih]

def holding (broker : StartupProbeBroker) (tail : Bytes) : StartupProbeBroker :=
  if tail.length ≤ maxProbeReplyBytes then { broker with pending := tail }
  else { broker with discardingOversized := OversizedSequence.fromPrefix tail }.oneMoreMalformed

/-- The state after some sequences and the beginning of another one. -/
structure Follows (s acc : StartupProbeBroker × Bytes) (tail : Bytes) : Prop where
  idle : acc.1.Idle
  broker : s.1 = acc.1.holding tail
  output : s.2 = acc.2

variable {s acc : StartupProbeBroker × Bytes}

theorem Idle.note (h : s.1.Idle) (t : Bytes) : (note s t).1.Idle := by
  unfold StartupProbeBroker.note
  split
  · exact h
  · obtain ⟨hpending, hdiscarding⟩ := consumeReply_frame s.1 t
    exact ⟨hpending.trans h.1, hdiscarding.trans h.2⟩

theorem holding_nil (h : broker.Idle) : broker.holding [] = broker := by
  rw [holding, if_pos (by decide : ([] : Bytes).length ≤ maxProbeReplyBytes), ← h.1]

theorem drain_whole (hidle : acc.1.Idle) (h : Sequence t) (rounds : Nat) :
    drain (rounds + 1) { acc.1 with pending := t } acc.2 = note acc t := by
  have hend : ∀ (s : StartupProbeBroker) (output : Bytes), s.pending = [] →
      drain rounds s output = (s, output) := by
    intro s output hpending
    cases rounds with
    | zero => rfl
    | succ rounds => rw [drain, hpending]
  have hself : { acc.1 with pending := [] } = acc.1 := by rw [← hidle.1]
  cases t with
  | nil => exact absurd rfl h.ne_nil
  | cons b rest =>
    by_cases hb : b = esc
    · subst hb
      have hlen : completeEscapeLen (esc :: rest) = some (rest.length + 1) := by
        have hwhole := whole_sequence.mpr h
        rwa [sequenceLen, if_pos rfl] at hwhole
      have htake : (esc :: rest).take (rest.length + 1) = esc :: rest := take_of_length_le (le_rfl)
      have hdrop : (esc :: rest).drop (rest.length + 1) = [] := drop_of_length_le (le_rfl)
      rw [drain]
      dsimp only
      rw [if_neg (by simp), hlen]
      dsimp only
      rw [htake, hdrop, hself, note]
      split
      · exact hend _ _ hidle.1
      · obtain ⟨hpending, -⟩ := consumeReply_frame acc.1 (esc :: rest)
        exact hend _ _ (hpending.trans hidle.1)
    · have hbyte : rest = [] := by
        cases h with
        | byte => rfl
        | control => exact absurd rfl hb
        | string => exact absurd rfl hb
        | pair => exact absurd rfl hb
      subst hbyte
      rw [drain]
      dsimp only
      rw [if_pos hb, hself, hend _ _ hidle.1, note, consumeReply_byte]
      rfl

theorem drain_unfinished (hidle : acc.1.Idle) (h : sequenceLen tail = none) (rounds : Nat) :
    drain (rounds + 1) { acc.1 with pending := tail } acc.2 = (acc.1.holding tail, acc.2) := by
  cases tail with
  | nil =>
    rw [holding_nil hidle, drain]
    dsimp only
    rw [← hidle.1]
  | cons b rest =>
    obtain rfl := head_unfinished h
    have hlen : completeEscapeLen (esc :: rest) = none := by rwa [sequenceLen, if_pos rfl] at h
    rw [drain]
    dsimp only
    rw [if_neg (by simp), hlen, holding]
    by_cases hlength : maxProbeReplyBytes < (esc :: rest).length
    · rw [if_pos hlength, if_neg (not_le.mpr hlength), ← hidle.1]
    · rw [if_neg hlength, if_pos (not_lt.mp hlength)]

/-- **One byte.** -/
theorem follows_ingestByte (s acc : StartupProbeBroker × Bytes) (tail : Bytes) (byte : UInt8)
    (htail : sequences.len tail = none) (h : Follows s acc tail) :
    Follows (ingestByte s byte) ((cut sequences (tail ++ [byte])).1.foldl note acc)
      (cut sequences (tail ++ [byte])).2 := by
  obtain ⟨hidle, hbroker, houtput⟩ := h
  obtain ⟨broker, output⟩ := s
  obtain rfl : broker = acc.1.holding tail := hbroker
  obtain rfl : output = acc.2 := houtput
  by_cases hlength : tail.length ≤ maxProbeReplyBytes
  · -- The byte goes to the buffer.
    have hbyte : ingestByte (acc.1.holding tail, acc.2) byte =
        drain (tail.length + 1) { acc.1 with pending := tail ++ [byte] } acc.2 := by
      rw [holding, if_pos hlength, ingestByte]
      dsimp only
      rw [hidle.2, length_append]
      rfl
    rw [hbyte]
    cases hlen : sequences.len (tail ++ [byte]) with
    | none =>
      rw [cut_unfinished hlen, drain_unfinished hidle hlen]
      exact ⟨hidle, rfl, rfl⟩
    | some n =>
      rw [cut_ends prompt_sequences htail hlen]
      have hsequence := sequence_concat htail (b := byte) (by
        rw [show sequenceLen (tail ++ [byte]) = some n from hlen]
        exact some_ne_none n)
      rw [drain_whole hidle hsequence]
      have hnote := hidle.note (t := tail ++ [byte])
      exact ⟨hnote, (holding_nil hnote).symm, rfl⟩
  · -- The byte belongs to a sequence that is being discarded.
    have hlong : 1 < tail.length := by
      have : maxProbeReplyBytes = 4096 := rfl
      omega
    have hconsume := consume_fromPrefix htail hlong byte
    have hfrom : ∃ discarding, OversizedSequence.fromPrefix tail = some discarding := by
      rcases unfinished_cases htail hlong with ⟨rest, rfl, -⟩ | ⟨second, rest, rfl, hsecond, hstring, -⟩
      · exact ⟨_, rfl⟩
      · rw [OversizedSequence.fromPrefix]
        simp only [getElem?_cons_succ, getElem?_cons_zero]
        rw [if_neg hsecond, if_pos hstring]
        exact ⟨_, rfl⟩
    obtain ⟨discarding, hfrom⟩ := hfrom
    rw [hfrom, bind_some] at hconsume
    have hbyte : ingestByte (acc.1.holding tail, acc.2) byte =
        ({ acc.1 with discardingOversized := discarding.consume byte }.oneMoreMalformed, acc.2) := by
      rw [holding, if_neg hlength, hfrom]
      rfl
    have hmore : ¬ (tail ++ [byte]).length ≤ maxProbeReplyBytes := by
      rw [length_append]
      omega
    rw [hbyte, hconsume]
    cases hlen : sequences.len (tail ++ [byte]) with
    | none =>
      rw [cut_unfinished hlen, if_pos (by rw [show sequenceLen _ = none from hlen]; rfl)]
      refine ⟨hidle, ?_, rfl⟩
      rw [holding, if_neg hmore]
      rfl
    | some n =>
      rw [cut_ends prompt_sequences htail hlen, if_neg (by rw [show sequenceLen _ = some n from hlen]; simp)]
      have hnote := hidle.note (t := tail ++ [byte])
      refine ⟨hnote, ?_, ?_⟩
      · refine Eq.trans ?_ (holding_nil hnote).symm
        rw [note, if_pos (not_le.mp hmore), ← hidle.2]
      · show acc.2 = (note acc (tail ++ [byte])).2
        rw [note, if_pos (not_le.mp hmore)]

/-! ## Chunks -/

def inputOf (chunks : List (Bytes × Nat)) : Bytes := (chunks.map Prod.fst).flatten

/-- **One chunk**: the time moves on, and the bytes are read. -/
theorem follows_ingest (htail : sequenceLen tail = none)
    (h : Follows s acc tail) (input : Bytes) (nowMs : Nat) :
    ∃ lastActivityAtMs, Follows ((s.1.ingest input nowMs).1, s.2 ++ (s.1.ingest input nowMs).2)
      ((cut sequences (tail ++ input)).1.foldl note (acc.1.activeAt lastActivityAtMs, acc.2))
      (cut sequences (tail ++ input)).2 := by
  obtain ⟨hidle, hbroker, houtput⟩ := h
  refine ⟨if input.isEmpty then acc.1.lastActivityAtMs else nowMs, ?_⟩
  have hstart : Follows ((if input.isEmpty then s.1 else s.1.activeAt nowMs), [])
      (acc.1.activeAt (if input.isEmpty then acc.1.lastActivityAtMs else nowMs), []) tail := by
    refine ⟨hidle, ?_, rfl⟩
    rw [hbroker]
    unfold holding
    cases input.isEmpty with
    | true => rfl
    | false =>
      simp only [Bool.false_eq_true, if_false]
      split
      · rfl
      · rfl
  have hrun := run_follows (c := sequences) follows_ingestByte htail hstart input
  obtain ⟨hidle', hbroker', houtput'⟩ := hrun
  rw [foldl_note] at hidle' hbroker' houtput' ⊢
  refine ⟨hidle', hbroker', ?_⟩
  rw [houtput]
  exact congrArg (acc.2 ++ ·) houtput'

/-- **Every chunk.** -/
theorem follows_ingestAll (htail : sequenceLen tail = none)
    (h : Follows s acc tail) (chunks : List (Bytes × Nat)) : ∃ lastActivityAtMs, Follows
      (chunks.foldl (fun s chunk => ((s.1.ingest chunk.1 chunk.2).1, s.2 ++ (s.1.ingest chunk.1 chunk.2).2)) s)
      ((((cut sequences (tail ++ inputOf chunks)).1.foldl learn acc.1).activeAt lastActivityAtMs),
        acc.2 ++ ((cut sequences (tail ++ inputOf chunks)).1.filter (kept acc.1.policy)).flatten)
      (cut sequences (tail ++ inputOf chunks)).2 := by
  induction chunks generalizing s acc tail with
  | nil =>
    refine ⟨acc.1.lastActivityAtMs, ?_⟩
    have hcut : cut sequences (tail ++ inputOf []) = ([], tail) := by
      rw [inputOf, map_nil, flatten_nil, append_nil]
      exact cut_unfinished htail
    rw [hcut]
    simpa [activeAt] using h
  | cons chunk rest ih =>
    obtain ⟨first, hchunk⟩ := follows_ingest htail h chunk.1 chunk.2
    obtain ⟨last, hrest⟩ := ih (len_cut (c := sequences) (tail ++ chunk.1)) hchunk
    refine ⟨last, ?_⟩
    have hinput : tail ++ inputOf (chunk :: rest) = tail ++ chunk.1 ++ inputOf rest := by
      rw [append_assoc]
      rfl
    rw [hinput, cut_append (c := sequences) (tail ++ chunk.1), foldl_append, filter_append,
      flatten_append, ← append_assoc]
    rw [foldl_note, foldl_learn_activeAt, foldl_learn_activeAt] at hrest
    have hpolicy : ∀ (tokens : List Bytes) (broker : StartupProbeBroker),
        (tokens.foldl learn broker).policy = broker.policy := by
      intro tokens
      induction tokens with
      | nil => exact fun _ => rfl
      | cons t rest ih => exact fun broker => (ih _).trans (learn_policy broker t)
    have hsame : (((cut sequences (tail ++ chunk.1)).1.foldl learn acc.1).activeAt first).policy =
        acc.1.policy := hpolicy _ _
    rw [hsame] at hrest
    exact hrest

theorem follows_idle (h : broker.Idle) (output : Bytes) :
    Follows (broker, output) (broker, output) [] := ⟨h, (holding_nil h).symm, rfl⟩

/-- **The broker is the reference reader of the whole stream.** In any chunks the input has one reading, of
which the broker hands on what is neither a reply nor too long, and the buffer is a proper prefix of an escape
sequence. -/
theorem ingestAll_reads (h : broker.Idle) (chunks : List (Bytes × Nat)) :
    ∃ tokens tail, (∀ ts t, Reading (inputOf chunks) ts t ↔ ts = tokens ∧ t = tail) ∧
      (broker.ingestAll chunks).2 = (tokens.filter (kept broker.policy)).flatten ∧
      (broker.ingestAll chunks).1.pending = (if tail.length ≤ maxProbeReplyBytes then tail else []) ∧
      (broker.ingestAll chunks).1.pending.length ≤ maxProbeReplyBytes ∧
      (∃ s, Sequence (esc :: s) ∧ (broker.ingestAll chunks).1.pending <+: esc :: s ∧
        (broker.ingestAll chunks).1.pending ≠ esc :: s) ∧
      ((∀ t ∈ tokens, kept broker.policy t = true) → tail.length ≤ maxProbeReplyBytes →
        (broker.ingestAll chunks).2 ++ (broker.ingestAll chunks).1.pending = inputOf chunks) := by
  obtain ⟨activity, hidle, hbroker, houtput⟩ := follows_ingestAll rfl (follows_idle h []) chunks
  rw [nil_append] at hidle hbroker houtput
  have htail := len_cut (c := sequences) (inputOf chunks)
  have hflatten := flatten_cut (c := sequences) (inputOf chunks)
  generalize hcut : cut sequences (inputOf chunks) = reading at *
  obtain ⟨tokens, tail⟩ := reading
  have hpending : (broker.ingestAll chunks).1.pending =
      if tail.length ≤ maxProbeReplyBytes then tail else [] := by
    refine (congrArg StartupProbeBroker.pending hbroker).trans ?_
    unfold holding
    split
    · rfl
    · exact hidle.1
  refine ⟨tokens, tail, fun ts t => ?_, houtput, hpending, ?_, ?_, fun hkept hlength => ?_⟩
  · rw [reading_iff, hcut]
  · rw [hpending]
    split
    · assumption
    · exact Nat.zero_le _
  · rw [hpending]
    split
    · exact unfinished_extends htail
    · exact unfinished_extends rfl
  · rw [hpending, if_pos hlength]
    refine (congrArg (· ++ tail) houtput).trans ?_
    rw [filter_eq_self.mpr hkept]
    exact hflatten

theorem idle_new (profile : PhysicalTerminalProfile) (policy : ProbePolicy) (startedAtMs : Nat) :
    (new profile policy startedAtMs).Idle := ⟨rfl, rfl⟩

theorem ingestAll_reads_da1 :
    ∃ tokens tail, (∀ ts t, Reading (inputOf [(esc :: ascii "[?6", 1), (ascii "cz", 2)]) ts t ↔
        ts = tokens ∧ t = tail) ∧
      ((new (.conservative ⟨24, 80, 0, 0⟩) ⟨false⟩ 0).ingestAll
        [(esc :: ascii "[?6", 1), (ascii "cz", 2)]).2 = (tokens.filter (kept ⟨false⟩)).flatten := by
  obtain ⟨tokens, tail, hreading, houtput, -⟩ :=
    ingestAll_reads (idle_new (.conservative ⟨24, 80, 0, 0⟩) ⟨false⟩ 0)
      [(esc :: ascii "[?6", 1), (ascii "cz", 2)]
  exact ⟨tokens, tail, hreading, houtput⟩

end StartupProbeBroker

end Lector.Probe
