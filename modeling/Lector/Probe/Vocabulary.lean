import Lector.Probe.Reading

/-! What every sequence of the probe vocabulary looks like, and what becomes of one that arrives while
another sequence is unfinished. -/
namespace Lector.Probe
open Bytes Cutting List
open Option hiding all_eq_true

variable {policy : ProbePolicy} {t : Bytes}

/-! ## The shape of a reply -/

variable {bs text suffix body pre x rest terminator : Bytes}

theorem fromUtf8_eq_some (h : fromUtf8 bs = some text) : text = bs := by
  unfold fromUtf8 at h
  split at h
  · exact (some.inj h).symm
  · cases h

theorem stripSuffix_eq_some (h : stripSuffix suffix bs = some body) : bs = body ++ suffix := by
  obtain ⟨suffix', rfl, hsuffix⟩ := dropSuffix?_eq_some_iff.mp h
  rw [eq_of_beq hsuffix]

theorem eq_append_of_isPrefixOf (h : pre.isPrefixOf bs = true) : ∃ rest, bs = pre ++ rest := by
  obtain ⟨rest, rfl⟩ := isPrefixOf_iff_prefix.mp h
  exact ⟨rest, rfl⟩

theorem eq_append_of_isSuffixOf (h : suffix.isSuffixOf bs = true) : ∃ rest, bs = rest ++ suffix := by
  obtain ⟨rest, rfl⟩ := isSuffixOf_iff_suffix.mp h
  exact ⟨rest, rfl⟩

theorem head_parseUnsigned {bound n : Nat} (h : parseUnsigned bound bs = some n) :
    ∃ b rest, bs = b :: rest ∧ b ≠ esc := by
  cases bs with
  | nil => cases h
  | cons b rest =>
    refine ⟨b, rest, rfl, ?_⟩
    rintro rfl
    have hplus : stripPrefix (ascii "+") (esc :: rest) = none := by
      cases hstrip : stripPrefix (ascii "+") (esc :: rest) with
      | none => rfl
      | some more =>
        rw [stripPrefix_eq_some] at hstrip
        exact absurd (cons.inj hstrip).1 (by decide)
    rw [parseUnsigned, hplus] at h
    simp [isDigit, esc] at h

theorem splitAround_eq_some {pattern before after : Bytes}
    (h : splitAround pattern bs = some (before, after)) : ∃ rest, bs = before ++ rest ∧ rest ≠ [] := by
  induction bs generalizing before with
  | nil => cases h
  | cons b bs ih =>
    rw [splitAround] at h
    split at h
    · obtain ⟨rfl, rfl⟩ := Prod.mk.inj (some.inj h)
      exact ⟨b :: bs, rfl, cons_ne_nil b bs⟩
    · obtain ⟨⟨before', after'⟩, hrest, heq⟩ := map_eq_some_iff.mp h
      obtain ⟨rfl, rfl⟩ := Prod.mk.inj heq
      obtain ⟨rest, rfl, hne⟩ := ih hrest
      exact ⟨rest, rfl, hne⟩

theorem shape_parseModeReport {report : Nat × Nat} (h : parseModeReport t = some report) :
    ∃ body, t = esc :: ascii "[?" ++ (body ++ ascii "$y") := by
  simp only [parseModeReport, bind_eq_bind, bind_eq_some_iff] at h
  obtain ⟨text, htext, body, hbody, inner, hinner, -⟩ := h
  rw [stripPrefix_eq_some] at hbody
  rw [← fromUtf8_eq_some htext, hbody, stripSuffix_eq_some hinner]
  exact ⟨inner, rfl⟩

theorem shape_parseKittyKeyboardReport (h : (parseKittyKeyboardReport t).isSome = true) :
    ∃ body, t = esc :: ascii "[?" ++ (body ++ ascii "u") := by
  obtain ⟨flags, h⟩ := isSome_iff_exists.mp h
  simp only [parseKittyKeyboardReport, bind_eq_bind, bind_eq_some_iff] at h
  obtain ⟨text, htext, body, hbody, inner, hinner, -⟩ := h
  rw [stripPrefix_eq_some] at hbody
  rw [← fromUtf8_eq_some htext, hbody, stripSuffix_eq_some hinner]
  exact ⟨inner, rfl⟩

theorem shape_parseSizeReport {report : Nat × Nat × Nat} (h : parseSizeReport t = some report) :
    ∃ body, t = esc :: ascii "[" ++ (body ++ ascii "t") := by
  simp only [parseSizeReport, bind_eq_bind, bind_eq_some_iff] at h
  obtain ⟨text, htext, body, hbody, inner, hinner, -⟩ := h
  rw [stripPrefix_eq_some] at hbody
  rw [← fromUtf8_eq_some htext, hbody, stripSuffix_eq_some hinner]
  exact ⟨inner, rfl⟩

theorem shape_parseColorReport {report : Nat × Nat × Nat × Nat} (h : parseColorReport t = some report) :
    ∃ b rest, t = esc :: ascii "]" ++ b :: rest ∧ b ≠ esc := by
  simp only [parseColorReport, bind_eq_bind, bind_eq_some_iff] at h
  obtain ⟨body, hbody, inner, hinner, text, htext, parts, hparts, red, -, red, -, green, -, green, -, blue,
    -, blue, -, h⟩ := h
  split at h
  · cases h
  · obtain ⟨slot, hslot, -⟩ := bind_eq_some_iff.mp h
    obtain ⟨slotText, rgb⟩ := parts
    obtain ⟨b, rest, rfl, hb⟩ := head_parseUnsigned hslot
    obtain ⟨more, rfl, -⟩ := splitAround_eq_some hparts
    rw [stripPrefix_eq_some] at hbody
    have hstrip : ∃ terminator, body = inner ++ terminator := by
      rcases or_eq_some_iff.mp hinner with h | ⟨-, h⟩
      · exact ⟨_, stripSuffix_eq_some h⟩
      · exact ⟨_, stripSuffix_eq_some h⟩
    obtain ⟨terminator, rfl⟩ := hstrip
    rw [hbody, ← fromUtf8_eq_some htext]
    exact ⟨b, rest ++ more ++ terminator, by simp, hb⟩

theorem shape_isPrimaryDeviceAttributesReply (h : isPrimaryDeviceAttributesReply t = true) :
    ∃ body, body.all (fun b => isDigit b || b == 0x3b) = true ∧
      (t = esc :: ascii "[?" ++ (body ++ ascii "c") ∨ t = 0x9b :: ascii "?" ++ (body ++ ascii "c")) := by
  unfold isPrimaryDeviceAttributesReply at h
  dsimp only at h
  split at h
  · cases h
  · rename_i body hbody
    obtain ⟨rest, hstrip, hrest⟩ := bind_eq_some_iff.mp hbody
    have hbody := stripSuffix_eq_some hrest
    refine ⟨body, ?_, ?_⟩
    · simp only [Bool.and_eq_true, all_eq_true] at h
      rw [all_eq_true]
      intro b hb
      rcases mem_fields 0x3b b body hb with rfl | ⟨field, hfield, hmem⟩
      · rfl
      · rw [(h.2 field hfield).2 b hmem]
        rfl
    · subst hbody
      rcases or_eq_some_iff.mp hstrip with h | ⟨-, h⟩
      · exact .inl ((stripPrefix_eq_some _ _ _).mp h)
      · exact .inr ((stripPrefix_eq_some _ _ _).mp h)

inductive Form (t : Bytes) : Prop
  | control (body : Bytes) (final : UInt8) : final ∈ ascii "yutc" →
      t = esc :: openBracket :: (body ++ [final]) → Form t
  | string (second third : UInt8) (rest : Bytes) : second ≠ openBracket → third ≠ esc →
      t = esc :: second :: third :: rest → Form t
  | eightBit (rest : Bytes) : rest ≠ [] → t = 0x9b :: rest → Form t

theorem form_of_recognised (h : recognised policy t = true) : Form t := by
  unfold recognised at h
  split at h
  · rename_i hmode
    obtain ⟨body, rfl⟩ := shape_parseModeReport hmode
    exact .control (0x3f :: (body ++ [0x24])) 0x79 (by decide) (by simp [ascii, openBracket])
  · split at h
    · rename_i hkitty
      obtain ⟨body, rfl⟩ := shape_parseKittyKeyboardReport hkitty
      exact .control (0x3f :: body) 0x75 (by decide) (by simp [ascii, openBracket])
    · split at h
      · rename_i hsize
        obtain ⟨body, rfl⟩ := shape_parseSizeReport hsize
        exact .control body 0x74 (by decide) (by simp [ascii, openBracket])
      · split at h
        · rename_i hcolor
          obtain ⟨b, rest, rfl, hb⟩ := shape_parseColorReport hcolor
          exact .string 0x5d b rest (by decide) hb (by simp [ascii])
        · simp only [Bool.or_eq_true, Bool.and_eq_true, isOtherDeviceAttributesReply, isClipboardReply] at h
          rcases h with (hprimary | ⟨hpre, hsuffix⟩ | ⟨hpre, -⟩) | ⟨-, hpre, -⟩
          · obtain ⟨body, -, rfl | rfl⟩ := shape_isPrimaryDeviceAttributesReply hprimary
            · exact .control (0x3f :: body) 0x63 (by decide) (by simp [ascii, openBracket])
            · exact .eightBit (ascii "?" ++ (body ++ ascii "c")) (by simp [ascii]) rfl
          · obtain ⟨rest, rfl⟩ := eq_append_of_isPrefixOf hpre
            obtain ⟨body, hbody⟩ := eq_append_of_isSuffixOf hsuffix
            have hlast : esc :: ascii "[>" ++ rest = body ++ [0x63] := hbody
            have hc : ∃ inner, rest = inner ++ [0x63] := by
              rcases eq_nil_or_concat rest with rfl | ⟨inner, x, rfl⟩
              · have hgetLast := congrArg getLast? hlast
                rw [getLast?_concat] at hgetLast
                cases hgetLast
              · rw [concat_eq_append, ← append_assoc] at hlast
                have hx := (append_inj' hlast rfl).2
                exact ⟨inner, by rw [concat_eq_append, hx]⟩
            obtain ⟨inner, rfl⟩ := hc
            exact .control (0x3e :: inner) 0x63 (by decide) (by simp [ascii, openBracket])
          · obtain ⟨rest, rfl⟩ := eq_append_of_isPrefixOf hpre
            exact .string 0x50 0x21 (0x7c :: rest) (by decide) (by decide) (by simp [ascii])
          · obtain ⟨rest, rfl⟩ := eq_append_of_isPrefixOf hpre
            exact .string 0x5d 0x35 (0x32 :: 0x3b :: rest) (by decide) (by decide) (by simp [ascii])

/-- A control sequence with one of four final bytes, or a string whose body does not begin with ESC.
-/
inductive Reply : Bytes → Prop
  | control (body : Bytes) (final : UInt8) : (∀ b ∈ body, isFinal b = false) → final ∈ ascii "yutc" →
      Reply (esc :: openBracket :: (body ++ [final]))
  | string (second third : UInt8) (body terminator rest : Bytes) : isString second = true →
      RunsOn body → terminator = [bel] ∨ terminator = [esc, backslash] → third ≠ esc →
      body ++ terminator = third :: rest → Reply (esc :: second :: (body ++ terminator))

theorem reply_of_recognised (hsequence : Sequence t) (h : recognised policy t = true) : Reply t := by
  have hform := form_of_recognised h
  cases hsequence with
  | byte b => exact absurd h (by simp [StartupProbeBroker.recognised_byte])
  | control body final hbody =>
    cases hform with
    | control body' final' hfinal heq =>
      have hsame := (cons.inj (cons.inj heq).2).2
      obtain ⟨-, hlast⟩ := append_inj' hsame rfl
      obtain rfl := (cons.inj hlast).1
      exact .control body final hbody hfinal
    | string second third rest hsecond _ heq => exact absurd (cons.inj (cons.inj heq).2).1.symm hsecond
    | eightBit rest _ heq => exact absurd (cons.inj heq).1 (by decide)
  | string second body terminator hstring hbody hterminator =>
    cases hform with
    | control body' final' _ heq =>
      obtain rfl := (cons.inj (cons.inj heq).2).1
      cases hstring
    | string second' third rest _ hthird heq =>
      exact .string second third body terminator rest hstring hbody hterminator hthird
        (cons.inj (cons.inj heq).2).2
    | eightBit rest _ heq => exact absurd (cons.inj heq).1 (by decide)
  | pair second hne =>
    cases hform with
    | control body final _ heq => exact absurd (cons.inj (cons.inj heq).2).1 hne
    | string second' third rest _ _ heq => exact absurd (cons.inj (cons.inj heq).2).2 (by simp)
    | eightBit rest _ heq => exact absurd (cons.inj heq).1 (by decide)

/-! ## What the application sees -/

def handedOn (policy : ProbePolicy) (x : Bytes) : Bytes := ((cut sequences x).1.filter (kept policy)).flatten

def released (policy : ProbePolicy) (x : Bytes) : Bytes :=
  handedOn policy x ++ if (cut sequences x).2.length ≤ maxProbeReplyBytes then (cut sequences x).2 else []

theorem released_sequence {s : Bytes} (hs : Sequence s) (more : Bytes) :
    released policy (s ++ more) = (if kept policy s then s else []) ++ released policy more := by
  have hcut := cut_whole (c := sequences) (whole_sequence.mpr hs) more
  rw [released, handedOn, hcut, filter_cons]
  split
  · rw [flatten_cons, released, handedOn, append_assoc]
  · rfl

theorem released_unfinished (h : sequenceLen x = none) :
    released policy x = if x.length ≤ maxProbeReplyBytes then x else [] := by
  rw [released, handedOn, cut_unfinished (c := sequences) h]
  rfl

theorem mem_released {b : UInt8} (h : b ∈ released policy x) : b ∈ x := by
  rw [← flatten_cut (c := sequences) x, mem_append]
  rw [released, handedOn, mem_append, mem_flatten] at h
  rcases h with ⟨t, ht, hb⟩ | h
  · exact .inl (mem_flatten.mpr ⟨t, mem_of_mem_filter ht, hb⟩)
  · split at h
    · exact .inr h
    · cases h

theorem runsOn_of_stringEnd (h : stringEnd rest = none) : RunsOn rest := by
  induction rest with
  | nil => exact runsOn_nil
  | cons b rest ih =>
    rw [stringEnd] at h
    split at h
    · cases h
    · split at h
      · cases h
      · exact runsOn_cons.mpr ⟨‹_›, ‹_›, ih (map_eq_none_iff.mp h)⟩

theorem runsOn_append_esc (hrest : RunsOn rest) (hbody : RunsOn (esc :: body)) :
    RunsOn (rest ++ esc :: body) := by
  induction rest with
  | nil => exact hbody
  | cons b rest ih =>
    obtain ⟨hbel, hst, hrest⟩ := runsOn_cons.mp hrest
    refine runsOn_cons.mpr ⟨hbel, ?_, ih hrest⟩
    rintro ⟨rfl, hhead⟩
    cases rest with
    | nil => cases some.inj hhead
    | cons c rest => exact hst ⟨rfl, hhead⟩

theorem sequence_string_append {second second' : UInt8} (hsecond : isString second = true)
    (hrest : stringEnd rest = none) (hsecond' : isString second' = true) (hbody : RunsOn body)
    (hterminator : terminator = [bel] ∨ terminator = [esc, backslash]) :
    Sequence (esc :: second :: rest ++ esc :: second' :: (body ++ terminator)) := by
  have hne : second' ≠ bel ∧ second' ≠ esc ∧ second' ≠ backslash := by
    refine ⟨?_, ?_, ?_⟩
    · rintro rfl
      cases hsecond'
    · exact openBracket_ne_string hsecond'
    · rintro rfl
      cases hsecond'
  have hinner : RunsOn (esc :: second' :: body) := by
    refine runsOn_cons.mpr ⟨by decide, ?_, runsOn_cons.mpr ⟨hne.1, fun h => hne.2.1 h.1, hbody⟩⟩
    rintro ⟨-, hhead⟩
    exact hne.2.2 (some.inj hhead)
  have hruns := runsOn_append_esc (runsOn_of_stringEnd hrest) hinner
  have hsequence := Sequence.string second _ terminator hsecond hruns hterminator
  have heq : esc :: second :: rest ++ esc :: second' :: (body ++ terminator) =
      esc :: second :: (rest ++ esc :: second' :: body ++ terminator) := by simp
  rwa [heq]

theorem not_isFinal_of_finalEnd (h : finalEnd rest = none) : ∀ b ∈ rest, isFinal b = false := by
  induction rest with
  | nil => simp
  | cons x rest ih =>
    rw [finalEnd] at h
    split at h
    · cases h
    · rename_i hx
      exact forall_mem_cons.mpr ⟨by simpa using hx, ih (map_eq_none_iff.mp h)⟩

theorem isFinal_of_isString {second : UInt8} (h : isString second = true) : isFinal second = true := by
  simp only [isString, Bool.or_eq_true, beq_iff_eq] at h
  rcases h with (rfl | rfl) | rfl
  · rfl
  · rfl
  · rfl

/-- **A reply that meets an unfinished sequence is not cleanly removed**: something of it is handed on, or
the unfinished sequence is lost. -/
theorem released_collision {tail r : Bytes} (htail : sequenceLen tail = none) (hne : tail ≠ [])
    (hr : Reply r) : released policy (tail ++ r) ≠ tail := by
  intro heq
  by_cases hlength : 1 < tail.length
  · rcases unfinished_cases htail hlength with ⟨rest, rfl, hend⟩ | ⟨second, rest, rfl, -, hstring, hend⟩
    · -- The second byte of the reply ends the control sequence.
      have hsequence : ∀ second, isFinal second = true →
          Sequence (esc :: openBracket :: rest ++ [esc, second]) := by
        intro second hsecond
        have hbody : ∀ b ∈ rest ++ [esc], isFinal b = false := by
          intro b hb
          rcases mem_append.mp hb with hb | hb
          · exact not_isFinal_of_finalEnd hend b hb
          · rw [mem_singleton.mp hb]
            rfl
        have h := Sequence.control (rest ++ [esc]) second hbody hsecond
        have hshape : esc :: openBracket :: rest ++ [esc, second] =
          esc :: openBracket :: (rest ++ [esc] ++ [second]) := by simp
        rwa [hshape]
      cases hr with
      | control body final hbody hfinal =>
        have hcut : esc :: openBracket :: rest ++ esc :: openBracket :: (body ++ [final]) =
            (esc :: openBracket :: rest ++ [esc, openBracket]) ++ (body ++ [final]) := by simp
        rw [hcut, released_sequence (hsequence openBracket rfl)] at heq
        split at heq
        · have := congrArg length heq
          simp only [length_append, length_cons] at this
          omega
        · have hmem : openBracket ∈ released policy (body ++ [final]) := by
            rw [nil_append] at heq
            rw [heq]
            simp
          rcases mem_append.mp (mem_released hmem) with hmem | hmem
          · cases hbody _ hmem
          · rw [← mem_singleton.mp hmem] at hfinal
            exact absurd hfinal (by decide)
      | string second third body terminator more hstring hbody hterminator hthird hbegin =>
        have hcut : esc :: openBracket :: rest ++ esc :: second :: (body ++ terminator) =
            (esc :: openBracket :: rest ++ [esc, second]) ++ ([third] ++ more) := by
          rw [hbegin]
          simp
        rw [hcut, released_sequence (hsequence second (isFinal_of_isString hstring))] at heq
        split at heq
        · have := congrArg length heq
          simp only [length_append, length_cons] at this
          omega
        · have hkept : kept policy [third] = true := by
            rw [kept, StartupProbeBroker.recognised_byte]
            rfl
          rw [released_sequence (.byte third hthird), if_pos hkept] at heq
          exact hthird (cons.inj heq).1
    · cases hr with
      | control body final hbody hfinal =>
        -- Nothing after the first sequence can hold the second byte of the string.
        have hsecond : second ∉ body ++ [final] := by
          intro hmem
          rcases mem_append.mp hmem with hmem | hmem
          · have := hbody _ hmem
            rw [isFinal_of_isString hstring] at this
            cases this
          · rw [mem_singleton.mp hmem] at hstring
            have hnot : ∀ b ∈ ascii "yutc", isString b = false := by decide +kernel
            rw [hnot final hfinal] at hstring
            cases hstring
        cases hlen : sequenceLen (esc :: second :: rest ++ esc :: openBracket :: (body ++ [final])) with
        | none =>
          rw [released_unfinished hlen] at heq
          split at heq
          · exact absurd heq (by simp)
          · cases heq
        | some n =>
          obtain ⟨s, more, hs, hsplit, rfl⟩ := (sequenceLen_eq_some_iff _ _).mp hlen
          have hle : (esc :: second :: rest).length < s.length := by
            by_contra hshort
            have hpre : s <+: esc :: second :: rest :=
              prefix_of_prefix_length_le ⟨more, hsplit.symm⟩ (prefix_append _ _) (not_lt.mp hshort)
            exact unfinished_sequence.mp htail s hs hpre
          obtain ⟨mid, rfl⟩ : ∃ mid, s = esc :: second :: rest ++ mid :=
            (prefix_of_prefix_length_le (prefix_append _ _) ⟨more, hsplit.symm⟩
              (le_of_lt hle)).imp fun _ h => h.symm
          rw [hsplit, released_sequence hs] at heq
          split at heq
          · have := congrArg length heq
            simp only [length_append] at this hle
            omega
          · rw [nil_append] at heq
            have hin : second ∈ released policy more := by
              rw [heq]
              simp
            have hmem := mem_released hin
            rw [append_assoc] at hsplit
            have hrest := append_cancel_left hsplit
            have hmid : mid ≠ [] := by
              rintro rfl
              simp at hle
            obtain ⟨x, mid, rfl⟩ := exists_cons_of_ne_nil hmid
            have hmem' : second ∈ openBracket :: (body ++ [final]) := by
              rw [(cons.inj hrest).2]
              exact mem_append_right _ hmem
            rcases mem_cons.mp hmem' with rfl | hmem'
            · cases hstring
            · exact hsecond hmem'
      | string second' third body terminator more hstring' hbody hterminator =>
        have hs := sequence_string_append hstring hend hstring' hbody hterminator
        have hall : released policy (_ ++ []) = _ := released_sequence hs []
        rw [append_nil, released_unfinished (x := []) rfl] at hall
        rw [hall] at heq
        split at heq
        · have := congrArg length heq
          split at this
          · simp at this
          · simp at this
        · split at heq
          · cases heq
          · cases heq
  · -- A lone ESC takes the first byte of the reply.
    have hesc : tail = [esc] := by
      cases tail with
      | nil => exact absurd rfl hne
      | cons b tail =>
        obtain rfl := head_unfinished htail
        have : tail = [] := eq_nil_of_length_eq_zero (by
          rw [length_cons] at hlength
          omega)
        rw [this]
    subst hesc
    have hhead : ∃ more, r = esc :: more := by
      cases hr with
      | control => exact ⟨_, rfl⟩
      | string => exact ⟨_, rfl⟩
    obtain ⟨more, rfl⟩ := hhead
    have hpair : Sequence [esc, esc] := .pair esc (by decide) (by decide)
    have hkept : kept policy [esc, esc] = true := by
      rw [kept]
      have hnot : recognised policy [esc, esc] = false := by
        by_contra hrec
        have hreply := reply_of_recognised hpair (by simpa using hrec)
        generalize hs : [esc, esc] = s at hreply
        cases hreply with
        | control body final => simp at hs
        | string second third body terminator rest hstring =>
          obtain rfl := (cons.inj (cons.inj hs).2).1
          cases hstring
      rw [hnot]
      decide
    have hall : released policy (_ ++ more) = _ := released_sequence hpair more
    rw [if_pos hkept] at hall
    rw [show [esc] ++ esc :: more = [esc, esc] ++ more from rfl, hall] at heq
    have := congrArg length heq
    simp only [length_append, length_cons] at this
    omega

end Lector.Probe
