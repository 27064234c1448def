import Mathlib.Data.List.DropRight
import Mathlib.Data.List.Infix

/-! Text with carriage returns: a return takes its line back at once, or only when text follows, and
some returns are absorbed by the line feed behind them. -/
namespace Lector.Returns
open List hiding not_le

def IsText (c : Char) : Prop := c ≠ '\r' ∧ c ≠ '\n'

instance (c : Char) : Decidable (IsText c) := inferInstanceAs (Decidable (_ ∧ _))

/-! ## The two readings -/

def lineStart (text : List Char) : List Char := text.rdropWhile (· ≠ '\n')

def newline (text : List Char) : List Char := if text = [] then [] else text ++ ['\n']

def typeOn (text : List Char) (c : Char) : List Char :=
  if c = '\r' then lineStart text else if c = '\n' then newline text else text ++ [c]

section

variable (stream : List Char)

def typed : List Char := stream.foldl typeOn []

structure Ruled where
  ended : List (List Char)
  openLine : List Char

def ruleOn (page : Ruled) (c : Char) : Ruled :=
  if c = '\n' then ⟨page.ended ++ [page.openLine], []⟩ else ⟨page.ended, page.openLine ++ [c]⟩

/-- The lines of a stream that a line feed ends, and its open line. -/
def ruled : Ruled := stream.foldl ruleOn ⟨[], []⟩

/-- The last text of a line. Returns that no text follows take nothing back. -/
def keptLine (line : List Char) : List Char := (line.rdropWhile (· = '\r')).rtakeWhile (· ≠ '\r')

/-- The lines, each with its line feed, from the first one with text. -/
def written (lines : List (List Char)) : List Char := (lines.dropWhile List.isEmpty).flatMap (· ++ ['\n'])

def kept : List Char :=
  written ((ruled stream).ended.map keptLine) ++ keptLine (ruled stream).openLine

/-! ## Returns before a line feed -/

/-- At most so many returns at the end of the stream, where they follow text. -/
def Trailing (bound : Nat) : Prop :=
  ∀ before c returns, stream = before ++ c :: List.replicate returns '\r' → IsText c → returns ≤ bound

end

variable (absorbs : List Char → Nat)

/-- At most so many returns stand between text and a line feed. -/
def Ended (stream : List Char) : Prop :=
  ∀ before after, stream = before ++ '\n' :: after → Trailing before (absorbs before)

def dropReturns : Nat → List Char → List Char
  | 0, text => text
  | absorbs + 1, text => if text.getLast? = some '\r' then dropReturns absorbs text.dropLast else text

def absorbOn (state : List Char × List Char) (c : Char) : List Char × List Char :=
  (state.1 ++ [c], if c = '\n' then dropReturns (absorbs state.1) state.2 ++ [c] else state.2 ++ [c])

/-- Each line feed absorbs so many of the returns before it. -/
def absorbed (stream : List Char) : List Char :=
  (stream.foldl (absorbOn absorbs) ([], [])).2

/-! ## One character more -/

variable {absorbs : List Char → Nat}

theorem typed_concat (stream : List Char) (c : Char) : typed (stream ++ [c]) = typeOn (typed stream) c := by
  unfold typed
  rw [foldl_append, foldl_cons, foldl_nil]

theorem ruled_concat (stream : List Char) (c : Char) : ruled (stream ++ [c]) = ruleOn (ruled stream) c := by
  unfold ruled
  rw [foldl_append, foldl_cons, foldl_nil]

theorem absorbed_concat (absorbs : List Char → Nat) (stream : List Char) (c : Char) :
    absorbed absorbs (stream ++ [c]) =
      if c = '\n' then dropReturns (absorbs stream) (absorbed absorbs stream) ++ [c]
      else absorbed absorbs stream ++ [c] := by
  have hseen : ∀ stream : List Char, (stream.foldl (absorbOn absorbs) ([], [])).1 = stream := by
    intro stream
    induction stream using reverseRecOn with
    | nil => rfl
    | append_singleton stream c ih => rw [foldl_append, foldl_cons, foldl_nil, absorbOn, ih]
  unfold absorbed
  rw [foldl_append, foldl_cons, foldl_nil, absorbOn, hseen]

theorem ended_concat (stream : List Char) (c : Char) : Ended absorbs (stream ++ [c]) ↔
      Ended absorbs stream ∧ (c = '\n' → Trailing stream (absorbs stream)) := by
  constructor
  · intro h
    constructor
    · intro before after hsplit
      apply h before (after ++ [c])
      rw [hsplit, append_assoc, cons_append]
    · rintro rfl
      exact h stream [] rfl
  · rintro ⟨h, hlast⟩ before after hsplit
    rcases eq_nil_or_concat after with rfl | ⟨rest, d, rfl⟩
    · obtain ⟨rfl, hc⟩ := append_inj' hsplit rfl
      exact hlast (singleton_inj.mp hc)
    · rw [concat_eq_append, ← cons_append, ← append_assoc] at hsplit
      obtain ⟨hstream, -⟩ := append_inj' hsplit rfl
      exact h before rest hstream

theorem openLine_getLast (stream : List Char) :
    (ruled stream).openLine.getLast? = some '\r' ↔ stream.getLast? = some '\r' := by
  induction stream using reverseRecOn with
  | nil => exact Iff.rfl
  | append_singleton stream c _ =>
    rw [ruled_concat, ruleOn, getLast?_concat]
    split
    · rename_i hc
      subst hc
      show ([] : List Char).getLast? = some '\r' ↔ some '\n' = some '\r'
      decide
    · rw [getLast?_concat]

/-! ## Returns at the end -/

variable {text text' line stream more : List Char}

theorem dropReturns_append (h : text.getLast? ≠ some '\r') (absorbs returns : Nat) :
    dropReturns absorbs (text ++ replicate returns '\r') = text ++ replicate (returns - absorbs) '\r' := by
  induction absorbs generalizing returns with
  | zero => rfl
  | succ absorbs ih =>
    cases returns with
    | zero => rw [replicate_zero, append_nil, dropReturns, if_neg h, Nat.zero_sub, replicate_zero, append_nil]
    | succ returns =>
      rw [replicate_succ', ← append_assoc, dropReturns, getLast?_concat, if_pos rfl,
        dropLast_concat, ih, Nat.succ_sub_succ]

theorem replicate_inj {returns returns' : Nat} (h : text.getLast? ≠ some '\r')
    (h' : text'.getLast? ≠ some '\r')
    (heq : text ++ replicate returns '\r' = text' ++ replicate returns' '\r') :
    text = text' ∧ returns = returns' := by
  induction returns generalizing returns' with
  | zero =>
    cases returns' with
    | zero => exact ⟨by simpa using heq, rfl⟩
    | succ returns' =>
      rw [replicate_zero, append_nil, replicate_succ', ← append_assoc] at heq
      rw [heq, getLast?_concat] at h
      exact absurd rfl h
  | succ returns ih =>
    cases returns' with
    | zero =>
      rw [replicate_zero, append_nil, replicate_succ', ← append_assoc] at heq
      rw [← heq, getLast?_concat] at h'
      exact absurd rfl h'
    | succ returns' =>
      rw [replicate_succ', replicate_succ', ← append_assoc, ← append_assoc] at heq
      obtain ⟨htext, hreturns⟩ := ih (append_inj' heq rfl).1
      exact ⟨htext, congrArg Nat.succ hreturns⟩

theorem getLast_replicate (text : List Char) (returns : Nat) :
    (text ++ replicate (returns + 1) '\r').getLast? = some '\r' := by
  rw [replicate_succ', ← append_assoc, getLast?_concat]

/-! ## Texts -/

def Closed (text : List Char) : Prop := text = [] ∨ text.getLast? = some '\n'

theorem closed_newline (text : List Char) : Closed (newline text) := by
  unfold newline
  split
  · exact .inl rfl
  · exact .inr getLast?_concat

theorem lineStart_append (closed : Closed text) (h : '\n' ∉ line) : lineStart (text ++ line) = text := by
  unfold lineStart
  induction line using reverseRecOn with
  | nil =>
    rw [append_nil]
    rcases closed with rfl | hlast
    · rfl
    · obtain ⟨-, rfl⟩ := getLast?_eq_some_iff.mp hlast
      exact rdropWhile_concat_neg _ _ _ (by decide)
  | append_singleton line c ih =>
    rw [mem_append, mem_singleton, not_or] at h
    rw [← append_assoc, rdropWhile_concat_pos _ _ _ (by simpa using Ne.symm h.2)]
    exact ih h.1

theorem typed_returns (h : typed stream = text ++ line) (closed : Closed text) (hline : '\n' ∉ line)
    (returns : Nat) : typed (stream ++ replicate returns '\r') = text ++ if returns = 0 then line else [] := by
  induction returns with
  | zero => rw [replicate_zero, append_nil, if_pos rfl, h]
  | succ returns ih =>
    rw [replicate_succ', ← append_assoc, typed_concat, ih, if_neg (Nat.succ_ne_zero _), append_nil]
    apply lineStart_append closed
    split
    · exact hline
    · exact not_mem_nil

theorem written_concat (lines : List (List Char)) (line : List Char) :
    written (lines ++ [line]) = newline (written lines ++ line) := by
  unfold written newline
  induction lines with
  | nil =>
    cases line with
    | nil => rfl
    | cons c line => simp
  | cons first lines ih =>
    cases first with
    | nil => exact ih
    | cons c first => simp

/-- The characters of a text that are no line feeds. -/
def printed (text : List Char) : Nat := text.countP (· ≠ '\n')

theorem printed_append (text more : List Char) : printed (text ++ more) = printed text + printed more :=
  countP_append

theorem printed_newline (text : List Char) : printed (newline text) = printed text := by
  unfold newline
  split
  · rename_i hnil
    rw [hnil]
  · rw [printed_append]
    rfl

theorem printed_pos (h : '\n' ∉ line) (hne : line ≠ []) : 0 < printed line := by
  obtain ⟨c, rest, rfl⟩ := exists_cons_of_ne_nil hne
  rw [mem_cons, not_or] at h
  exact countP_pos_iff.mpr ⟨c, mem_cons_self, by simpa using Ne.symm h.1⟩

/-! ## Two stages

A stream that comes in chunks: each line feed absorbs a return of its chunk, and another one when the
chunks are put together. -/

/-- A character more, where a line feed absorbs one return. -/
def feed (text : List Char) (c : Char) : List Char :=
  if c = '\n' then dropReturns 1 text ++ [c] else text ++ [c]

def joinOn (text chunk : List Char) : List Char := (absorbed (fun _ => 1) chunk).foldl feed text

variable (chunks : List (List Char))

def joined : List Char := chunks.foldl joinOn []

/-- One return at the start of a chunk, two within it. -/
def room (before : List Char) : Nat :=
  if before ∈ chunks.inits.map List.flatten then 1 else 2

theorem absorbed_congr {absorbs absorbs' : List Char → Nat}
    (h : ∀ before c after, stream = before ++ c :: after → absorbs before = absorbs' before) :
    absorbed absorbs stream = absorbed absorbs' stream := by
  induction stream using reverseRecOn with
  | nil => rfl
  | append_singleton stream c ih =>
    have hbefore : absorbed absorbs stream = absorbed absorbs' stream := by
      apply ih
      intro before d after hsplit
      apply h before d (after ++ [c])
      rw [hsplit, append_assoc, cons_append]
    rw [absorbed_concat, absorbed_concat, hbefore, h stream c [] rfl]

theorem feed_getLast (text : List Char) (c : Char) : (feed text c).getLast? = some c := by
  unfold feed
  split <;> exact getLast?_concat

theorem foldl_feed_getLast (h : more ≠ []) (text : List Char) :
    (more.foldl feed text).getLast? = more.getLast? := by
  obtain ⟨-, -, rfl⟩ := eq_nil_or_concat' more |>.resolve_left h
  rw [foldl_append, foldl_cons, foldl_nil, feed_getLast, getLast?_concat]

theorem foldl_feed_text (h : '\n' ∉ more) (text : List Char) : more.foldl feed text = text ++ more := by
  induction more generalizing text with
  | nil => exact (append_nil text).symm
  | cons c more ih =>
    rw [mem_cons, not_or] at h
    rw [foldl_cons, feed, if_neg (Ne.symm h.1), ih h.2, append_assoc, singleton_append]

theorem absorbed_one (stream : List Char) : absorbed (fun _ => 1) stream = stream.foldl feed [] := by
  induction stream using reverseRecOn with
  | nil => rfl
  | append_singleton stream c ih => rw [absorbed_concat, ih, foldl_append, foldl_cons, foldl_nil, feed]

theorem absorbed_ne_nil (h : stream ≠ []) : absorbed absorbs stream ≠ [] := by
  obtain ⟨-, -, rfl⟩ := eq_nil_or_concat' stream |>.resolve_left h
  rw [absorbed_concat]
  split <;> exact concat_ne_nil _ _

theorem dropReturns_of_getLast (h : text.getLast? ≠ some '\r') (absorbs : Nat) :
    dropReturns absorbs text = text := by
  cases absorbs with
  | zero => rfl
  | succ absorbs => rw [dropReturns, if_neg h]

theorem dropReturns_concat (absorbs : Nat) (text : List Char) :
    dropReturns (absorbs + 1) (text ++ ['\r']) = dropReturns absorbs text := by
  rw [dropReturns, getLast?_concat, if_pos rfl, dropLast_concat]

theorem mem_cuts (before : List Char) :
    before ∈ chunks.inits.map flatten ↔ ∃ some, some <+: chunks ∧ some.flatten = before := by
  simp only [mem_map, mem_inits]

theorem mem_cuts_concat (chunk before : List Char) : before ∈ (chunks ++ [chunk]).inits.map flatten ↔
      before ∈ chunks.inits.map flatten ∨ before = chunks.flatten ++ chunk := by
  rw [mem_cuts, mem_cuts]
  constructor
  · rintro ⟨some, hprefix, rfl⟩
    rcases prefix_concat_iff.mp hprefix with rfl | hprefix
    · right
      rw [flatten_append, flatten_singleton]
    · exact .inl ⟨some, hprefix, rfl⟩
  · rintro (⟨some, hprefix, rfl⟩ | rfl)
    · exact ⟨some, hprefix.trans (prefix_append _ _), rfl⟩
    · exact ⟨_, prefix_refl _, by rw [flatten_append, flatten_singleton]⟩

theorem length_le_of_mem_cuts {chunks : List (List Char)} {before : List Char}
    (h : before ∈ chunks.inits.map flatten) : before.length ≤ chunks.flatten.length := by
  obtain ⟨-, ⟨-, rfl⟩, rfl⟩ := (mem_cuts chunks before).mp h
  rw [flatten_append, length_append]
  exact Nat.le_add_right _ _

theorem joinOn_absorbed (chunk : List Char) {part rest : List Char}
    (hpart : part ++ rest = chunk) : joinOn (absorbed (room (chunks ++ [chunk])) chunks.flatten) part =
      absorbed (room (chunks ++ [chunk])) (chunks.flatten ++ part) := by
  unfold joinOn
  induction part using reverseRecOn generalizing rest with
  | nil => rw [append_nil]; rfl
  | append_singleton part c ih =>
    have hpart' : part ++ ([c] ++ rest) = chunk := by rw [← append_assoc, hpart]
    have hbefore := ih hpart'
    rw [← append_assoc, absorbed_concat, absorbed_concat]
    by_cases hc : c = '\n'
    · rw [if_pos hc, if_pos hc, foldl_append, foldl_cons, foldl_nil, feed, if_pos hc, ← hbefore]
      congr 1
      by_cases hnil : part = []
      · subst hnil
        have hcut : chunks.flatten ++ [] ∈ (chunks ++ [chunk]).inits.map flatten := by
          rw [mem_cuts_concat, append_nil]
          exact .inl ((mem_cuts _ _).mpr ⟨chunks, prefix_refl _, rfl⟩)
        rw [room, if_pos hcut]
        rfl
      · have hcut : chunks.flatten ++ part ∉ (chunks ++ [chunk]).inits.map flatten := by
          have hpos := length_pos_of_ne_nil hnil
          rw [mem_cuts_concat, not_or]
          constructor
          · intro hmem
            have hle := length_le_of_mem_cuts hmem
            rw [length_append] at hle
            omega
          · rw [← hpart']
            intro heq
            have hlength := congrArg length heq
            simp only [length_append, length_singleton] at hlength
            omega
        rw [room, if_neg hcut]
        by_cases hlast : (absorbed (fun _ => 1) part).getLast? = some '\r'
        · obtain ⟨front, hfront⟩ := getLast?_eq_some_iff.mp hlast
          have hfeed : (front ++ ['\r']).foldl feed (absorbed (room (chunks ++ [chunk])) chunks.flatten) =
              front.foldl feed (absorbed (room (chunks ++ [chunk])) chunks.flatten) ++ ['\r'] := by
            rw [foldl_append, foldl_cons, foldl_nil, feed, if_neg (by decide)]
          rw [hfront, hfeed, dropReturns_concat, dropReturns_concat]
          rfl
        · have hpart : absorbed (fun _ => 1) part ≠ [] := absorbed_ne_nil hnil
          have hlast' := foldl_feed_getLast hpart (absorbed (room (chunks ++ [chunk])) chunks.flatten)
          rw [dropReturns_of_getLast hlast 1]
          rw [← hlast'] at hlast
          rw [dropReturns_of_getLast hlast 2, dropReturns_of_getLast hlast 1]
    · rw [if_neg hc, if_neg hc, foldl_append, foldl_cons, foldl_nil, feed, if_neg hc, hbefore]

/-- **The two stages together.** -/
theorem joined_eq : joined chunks = absorbed (room chunks) chunks.flatten := by
  induction chunks using reverseRecOn with
  | nil => rfl
  | append_singleton chunks chunk ih =>
    have hroom : absorbed (room chunks) chunks.flatten =
        absorbed (room (chunks ++ [chunk])) chunks.flatten := by
      apply absorbed_congr
      intro before c after hsplit
      have hcut : before ∈ (chunks ++ [chunk]).inits.map flatten ↔ before ∈ chunks.inits.map flatten := by
        rw [mem_cuts_concat, or_iff_left]
        rintro rfl
        have hlength := congrArg length hsplit
        simp only [length_append, length_cons] at hlength
        omega
      unfold room
      simp only [hcut]
    unfold joined at ih ⊢
    rw [foldl_append, foldl_cons, foldl_nil, ih, hroom,
      joinOn_absorbed chunks chunk (append_nil chunk), flatten_append, flatten_singleton]

/-! ## The two readings side by side -/

/-- The same open line, and the same lines unless a line feed came after more returns than it
absorbs. -/
structure Follows (absorbs : List Char → Nat) (stream start read : List Char) (returns : Nat)
    (done keptDone line : List Char) : Prop where
  streamEq : stream = start ++ List.replicate returns '\r'
  startLast : start.getLast? ≠ some '\r'
  absorbedEq : absorbed absorbs stream = read ++ List.replicate returns '\r'
  readLast : read.getLast? ≠ some '\r'
  typedEq : typed read = done ++ line
  writtenEq : written ((ruled stream).ended.map keptLine) = keptDone
  lineEq : keptLine (ruled stream).openLine = line
  closed : Closed done
  text : '\n' ∉ line
  blank : line = [] ↔ ∀ c, start.getLast? = some c → c = '\n'
  agree : done = keptDone ∧ Ended absorbs stream ∨ printed done < printed keptDone ∧ ¬Ended absorbs stream

namespace Follows

variable {stream start read done keptDone line : List Char} {returns : Nat}

section

variable (h : Follows absorbs stream start read returns done keptDone line)
include h

theorem trailing_iff (bound : Nat) : Trailing stream bound ↔ line = [] ∨ returns ≤ bound := by
  constructor
  · intro htrailing
    by_cases hblank : line = []
    · exact .inl hblank
    · rw [h.blank, not_forall] at hblank
      obtain ⟨c, hlast⟩ := hblank
      obtain ⟨hlast, hc⟩ := Classical.not_imp.mp hlast
      obtain ⟨before, hbefore⟩ := getLast?_eq_some_iff.mp hlast
      have hreturn : c ≠ '\r' := by
        rintro rfl
        exact h.startLast hlast
      right
      apply htrailing before c returns _ ⟨hreturn, hc⟩
      rw [h.streamEq, hbefore, append_assoc, singleton_append]
  · intro hbound before c found hsplit hc
    rw [h.streamEq, append_cons] at hsplit
    have hlast : (before ++ [c]).getLast? ≠ some '\r' := by
      rw [getLast?_concat]
      exact fun hreturn => hc.1 (Option.some.inj hreturn)
    obtain ⟨hstart, rfl⟩ := replicate_inj h.startLast hlast hsplit
    rcases hbound with hblank | hle
    · have hlf := h.blank.mp hblank c (by rw [hstart, getLast?_concat])
      exact absurd hlf hc.2
    · exact hle

theorem openLine_returns : (ruled stream).openLine.getLast? = some '\r' ↔ returns ≠ 0 := by
  rw [openLine_getLast, h.streamEq]
  cases returns with
  | zero =>
    rw [replicate_zero, append_nil]
    exact iff_of_false h.startLast (fun hne => hne rfl)
  | succ returns => exact iff_of_true (getLast_replicate start returns) (Nat.succ_ne_zero _)

theorem text_concat {c : Char} (hc : IsText c) :
    Follows absorbs (stream ++ [c]) (stream ++ [c]) (read ++ replicate returns '\r' ++ [c]) 0 done
      keptDone ((if returns = 0 then line else []) ++ [c]) := by
  have hlast := h.openLine_returns
  have hopen := h.lineEq
  have hreturn : ¬((decide (c = '\r')) = true) := by simpa using hc.1
  constructor
  · rw [replicate_zero, append_nil]
  · rw [getLast?_concat]
    exact fun heq => hc.1 (Option.some.inj heq)
  · rw [absorbed_concat, if_neg hc.2, h.absorbedEq, replicate_zero, append_nil]
  · rw [getLast?_concat]
    exact fun heq => hc.1 (Option.some.inj heq)
  · rw [typed_concat, typed_returns h.typedEq h.closed h.text, typeOn, if_neg hc.1, if_neg hc.2, append_assoc]
  · rw [ruled_concat, ruleOn, if_neg hc.2]
    exact h.writtenEq
  · rw [ruled_concat, ruleOn, if_neg hc.2]
    unfold keptLine at hopen ⊢
    rw [rdropWhile_concat_neg (fun c => decide (c = '\r')) _ _ hreturn,
      rtakeWhile_concat_pos (fun c => decide (c ≠ '\r')) _ _ (by simpa using hc.1)]
    congr 1
    by_cases hzero : returns = 0
    · rw [if_pos hzero, ← hopen]
      congr 1
      symm
      rw [rdropWhile_eq_self_iff]
      intro hne hbad
      have hcr : (ruled stream).openLine.getLast? = some '\r' := by
        rw [getLast?_eq_some_getLast hne]
        exact congrArg some (of_decide_eq_true hbad)
      exact hlast.mp hcr hzero
    · rw [if_neg hzero, rtakeWhile_eq_nil_iff]
      intro hne hgood
      have hcr := hlast.mpr hzero
      rw [getLast?_eq_some_getLast hne, Option.some.injEq] at hcr
      rw [hcr] at hgood
      cases hgood
  · exact h.closed
  · rw [mem_append, mem_singleton, not_or]
    refine ⟨?_, Ne.symm hc.2⟩
    split
    · exact h.text
    · exact not_mem_nil
  · apply iff_of_false
    · exact concat_ne_nil c _
    · intro hlf
      exact hc.2 (hlf c getLast?_concat)
  · rw [ended_concat]
    have hend : (c = '\n' → Trailing stream (absorbs stream)) := fun hlf => absurd hlf hc.2
    rw [and_iff_left hend]
    exact h.agree

theorem return_concat : Follows absorbs (stream ++ ['\r']) start read (returns + 1) done keptDone line := by
  have hlf : ¬('\r' = '\n') := by decide
  have hreturn : decide ('\r' = '\r') = true := rfl
  constructor
  · rw [h.streamEq, replicate_succ', append_assoc]
  · exact h.startLast
  · rw [absorbed_concat, if_neg hlf, h.absorbedEq, replicate_succ', append_assoc]
  · exact h.readLast
  · exact h.typedEq
  · rw [ruled_concat]
    exact h.writtenEq
  · rw [ruled_concat, ruleOn, if_neg hlf, ← h.lineEq]
    unfold keptLine
    rw [rdropWhile_concat_pos (fun c => decide (c = '\r')) _ _ hreturn]
  · exact h.closed
  · exact h.text
  · exact h.blank
  · rw [ended_concat, and_iff_left (fun hbad => absurd hbad hlf)]
    exact h.agree

theorem feed_concat : Follows absorbs (stream ++ ['\n']) (stream ++ ['\n'])
      (read ++ replicate (returns - absorbs stream) '\r' ++ ['\n']) 0
      (newline (done ++ if returns - absorbs stream = 0 then line else []))
      (newline (keptDone ++ line)) [] := by
  have hlast : ∀ text : List Char, (text ++ ['\n']).getLast? ≠ some '\r' := by
    intro text
    rw [getLast?_concat]
    decide
  constructor
  · rw [replicate_zero, append_nil]
  · exact hlast _
  · rw [absorbed_concat, if_pos rfl, h.absorbedEq, dropReturns_append h.readLast, replicate_zero, append_nil]
  · exact hlast _
  · rw [typed_concat, typed_returns h.typedEq h.closed h.text, typeOn, if_neg (by decide), if_pos rfl,
      append_nil]
  · rw [ruled_concat, ruleOn, if_pos rfl, map_append, map_singleton, written_concat, h.writtenEq, h.lineEq]
  · rw [ruled_concat]
    rfl
  · exact closed_newline _
  · exact not_mem_nil
  · apply iff_of_true rfl
    intro c hc
    rw [getLast?_concat, Option.some.injEq] at hc
    exact hc.symm
  · have hend : Ended absorbs (stream ++ ['\n']) ↔
        Ended absorbs stream ∧ (line = [] ∨ returns ≤ absorbs stream) := by
      rw [ended_concat, forall_prop_of_true rfl, h.trailing_iff]
    rw [hend, printed_newline, printed_newline, printed_append, printed_append]
    rcases h.agree with ⟨hdone, hended⟩ | ⟨hlost, hended⟩
    · by_cases hkept : line = [] ∨ returns ≤ absorbs stream
      · left
        refine ⟨?_, hended, hkept⟩
        congr 2
        rcases hkept with rfl | hle
        · split <;> rfl
        · rw [if_pos (Nat.sub_eq_zero_of_le hle)]
      · right
        refine ⟨?_, fun hboth => hkept hboth.2⟩
        rw [not_or, not_le] at hkept
        have hpos := printed_pos h.text hkept.1
        rw [if_neg (Nat.sub_ne_zero_of_lt hkept.2), hdone]
        exact Nat.add_lt_add_left hpos _
    · right
      refine ⟨?_, fun hboth => hended hboth.1⟩
      apply Nat.add_lt_add_of_lt_of_le hlost
      split
      · exact le_rfl
      · exact Nat.zero_le _

end

end Follows

theorem follows_nil : Follows absorbs [] [] [] 0 [] [] [] where
  streamEq := rfl
  startLast := by decide
  absorbedEq := rfl
  readLast := by decide
  typedEq := rfl
  writtenEq := rfl
  lineEq := rfl
  closed := .inl rfl
  text := not_mem_nil
  blank := by simp
  agree := by
    left
    refine ⟨rfl, ?_⟩
    intro before after hsplit
    exact absurd hsplit.symm (by simp)

theorem exists_follows (stream : List Char) :
    ∃ start read returns done keptDone line, Follows absorbs stream start read returns done keptDone line := by
  induction stream using reverseRecOn with
  | nil => exact ⟨_, _, _, _, _, _, follows_nil⟩
  | append_singleton stream c ih =>
    obtain ⟨start, read, returns, done, keptDone, line, h⟩ := ih
    by_cases hreturn : c = '\r'
    · subst hreturn
      exact ⟨_, _, _, _, _, _, h.return_concat⟩
    · by_cases hfeed : c = '\n'
      · subst hfeed
        exact ⟨_, _, _, _, _, _, h.feed_concat⟩
      · exact ⟨_, _, _, _, _, _, h.text_concat ⟨hreturn, hfeed⟩⟩

/-- **The readings are the same** exactly when every line feed absorbs all the returns between it and
text, and no return ends the stream behind text. -/
theorem typed_absorbed_iff (absorbs : List Char → Nat) (stream : List Char) :
    typed (absorbed absorbs stream) = kept stream ↔ Ended absorbs stream ∧ Trailing stream 0 := by
  obtain ⟨start, read, returns, done, keptDone, line, h⟩ :
    ∃ start read returns done keptDone line, Follows absorbs stream start read returns done keptDone line :=
    exists_follows stream
  rw [h.trailing_iff, kept, h.writtenEq, h.lineEq, h.absorbedEq, typed_returns h.typedEq h.closed h.text,
    Nat.le_zero]
  rcases h.agree with ⟨hdone, hended⟩ | ⟨hlost, hended⟩
  · rw [hdone, append_cancel_left_eq, and_iff_right hended]
    split
    · rename_i hzero
      exact iff_of_true rfl (.inr hzero)
    · rename_i hne
      rw [or_iff_left hne]
      exact eq_comm
  · apply iff_of_false
    · intro heq
      have hcount := congrArg printed heq
      rw [printed_append, printed_append] at hcount
      have hle : printed (if returns = 0 then line else []) ≤ printed line := by
        split
        · exact le_rfl
        · exact Nat.zero_le _
      omega
    · exact fun hboth => hended hboth.1

end Lector.Returns
