import Lector.Foundations.Trimming
import Lector.Terminal.Snapshot
import Mathlib.Data.List.Infix

/-! The typed characters whose echo is not to be spoken (`screen_reader.rs`): what is forwarded to the application is
queued, and output that shows it again takes it off the queue. -/
namespace Lector.KeyEcho
open Terminal List

/-! ## The queue -/

structure PendingKeyEcho where
  character : Char
  screen : ScreenIdentity
  deriving DecidableEq

def maxPendingKeyEchoChars : Nat := 256

structure ScreenReader where
  suppressKeyEcho : Bool
  pendingKeyEcho : List PendingKeyEcho
  keyEchoStreamActive : Bool

def ScreenReader.new (suppressKeyEcho : Bool) : ScreenReader := ⟨suppressKeyEcho, [], false⟩

def pushPending (pending : List PendingKeyEcho) (typed : PendingKeyEcho) : List PendingKeyEcho :=
  (if pending.length = maxPendingKeyEchoChars then pending.tail else pending) ++ [typed]

variable (text : List Char)

def matchesAt (pending : List PendingKeyEcho) (start : Nat) : Bool :=
  text.zipIdx.all fun (character, offset) => pending[start + offset]?.any (·.character = character)

def trimRecordBoundary : List Char := text.rdropWhile fun c => c = '\r' ∨ c = '\n'

def trimLayoutPrefix : List Char := text.dropWhile fun c => c = ' ' ∨ c = '\t'

namespace ScreenReader

variable (self : ScreenReader)

def forwarded (text : Option (List Char)) (screen : ScreenIdentity) : List PendingKeyEcho :=
  if self.suppressKeyEcho then (text.getD []).map (⟨·, screen⟩) else []

def recordForwardedKey (text : Option (List Char)) (screen : ScreenIdentity) : ScreenReader :=
  { self with
    keyEchoStreamActive := if text.getD [] = [] then false else self.keyEchoStreamActive
    pendingKeyEcho := (self.forwarded text screen).foldl pushPending self.pendingKeyEcho }

def acknowledge (count : Nat) : ScreenReader :=
  { self with pendingKeyEcho := self.pendingKeyEcho.drop count, keyEchoStreamActive := true }

def shouldSuppressKeyEcho (text : List Char) : Bool × ScreenReader :=
  let text := trimRecordBoundary text
  if !self.suppressKeyEcho ∨ text = [] then (false, self)
  else if self.pendingKeyEcho.length < text.length then
    -- a restored prompt in front of the typed text: the whole queue has to be the end of the text
    if self.pendingKeyEcho ≠ [] ∧
        (text.reverse.zip self.pendingKeyEcho.reverse).all fun (character, pending) => character = pending.character
    then (true, self.acknowledge self.pendingKeyEcho.length)
    else (false, self)
  else
    match (List.range (self.pendingKeyEcho.length - text.length + 1)).find? (matchesAt text self.pendingKeyEcho) with
    | some start => (true, self.acknowledge (start + text.length))
    | none => (false, self)

def shouldSuppressCursorRowKeyEcho (text : List Char) : Bool × ScreenReader :=
  let (suppressed, self) := self.shouldSuppressKeyEcho text
  if suppressed then (true, self)
  else if !self.keyEchoStreamActive then (false, self)
  else
    let withoutRecordBoundary := trimRecordBoundary text
    let withoutLayoutPrefix := trimLayoutPrefix withoutRecordBoundary
    if withoutLayoutPrefix ≠ withoutRecordBoundary ∧ withoutLayoutPrefix ≠ [] then
      self.shouldSuppressKeyEcho withoutLayoutPrefix
    else (false, self)

def retainPendingKeyEchoForScreen (screen : ScreenIdentity) : ScreenReader :=
  { self with pendingKeyEcho := self.pendingKeyEcho.filter (·.screen = screen) }

def setSuppressKeyEcho (value : Bool) : ScreenReader :=
  if value then { self with suppressKeyEcho := true } else ⟨false, [], false⟩

end ScreenReader

/-! ## One query -/

/-- A text takes the queue up to the end of a run of it, or is ended by the whole queue. -/
def Acknowledges (before after : List PendingKeyEcho) : Prop :=
  (∃ stale run, before = stale ++ run ++ after ∧ run.map (·.character) = text) ∨
    (∃ shown, text = shown ++ before.map (·.character) ∧ before ≠ [] ∧ after = [])

/-- A query takes off what one of the texts acknowledges, or changes nothing. -/
def Answers (texts : List (List Char)) (self : ScreenReader) (answer : Bool × ScreenReader) : Prop :=
  if answer.1 then ∃ text ∈ texts, text ≠ [] ∧ Acknowledges text self.pendingKeyEcho answer.2.pendingKeyEcho
  else answer.2 = self

section
variable {text : List Char} {before after pending : List PendingKeyEcho} {start : Nat}

theorem Acknowledges.suffix (h : Acknowledges text before after) : after <:+ before := by
  obtain ⟨stale, run, rfl, -⟩ | ⟨-, -, -, rfl⟩ := h
  · exact ⟨stale ++ run, rfl⟩
  · exact nil_suffix

theorem acknowledges_of_matchesAt (h : matchesAt text pending start = true)
    (hfits : start + text.length ≤ pending.length) :
    Acknowledges text pending (pending.drop (start + text.length)) := by
  refine .inl ⟨pending.take start, (pending.drop start).take text.length, ?_, ?_⟩
  · rw [← take_add, take_append_drop]
  · apply ext_getElem (by simp; omega)
    intro offset hl hr
    have hin := all_eq_true.mp h (text[offset], offset) (by simp [mem_zipIdx_iff_getElem?])
    have hlt : start + offset < pending.length := by omega
    simpa [getElem?_eq_getElem hlt] using hin

theorem map_eq_take_of_zip (hlen : pending.length ≤ text.length)
    (h : ∀ pair ∈ text.zip pending, pair.1 = pair.2.character) :
    pending.map (·.character) = text.take pending.length := by
  induction pending generalizing text with
  | nil => rfl
  | cons typed pending ih =>
    cases text with
    | nil => exact absurd hlen (Nat.not_succ_le_zero _)
    | cons character text =>
      have hhead := h (character, typed) mem_cons_self
      have htail := ih (Nat.le_of_succ_le_succ hlen) fun pair hpair => h pair (mem_cons_of_mem _ hpair)
      rw [map_cons, length_cons, take_succ_cons, htail, ← hhead]

theorem acknowledges_of_zip (hne : pending ≠ []) (hlen : pending.length ≤ text.length)
    (h : ((text.reverse.zip pending.reverse).all fun (character, pending) => character = pending.character) = true) :
    Acknowledges text pending [] := by
  refine .inr ⟨text.take (text.length - pending.length), ?_, hne, rfl⟩
  have hprefix := @map_eq_take_of_zip text.reverse pending.reverse (by simpa using hlen)
    fun pair hpair => of_decide_eq_true (all_eq_true.mp h pair hpair)
  rw [length_reverse, take_reverse, map_reverse, reverse_inj] at hprefix
  rw [ hprefix, take_append_drop]

theorem shouldSuppressKeyEcho_answers (self : ScreenReader) (text : List Char) :
    Answers [trimRecordBoundary text] self (self.shouldSuppressKeyEcho text) := by
  have hkept : Answers [trimRecordBoundary text] self (false, self) := rfl
  rw [ScreenReader.shouldSuppressKeyEcho]
  split
  · exact hkept
  next hon =>
  have hne : trimRecordBoundary text ≠ [] := fun h => hon (.inr h)
  split
  · split
    · next hlong hends =>
      refine ⟨_, mem_singleton_self _, hne, ?_⟩
      have htook := acknowledges_of_zip hends.1 (le_of_lt hlong) hends.2
      rwa [ScreenReader.acknowledge, drop_length]
    · exact hkept
  · next hshort =>
    split
    · next start hfound =>
      refine ⟨_, mem_singleton_self _, hne, ?_⟩
      have hin := mem_range.mp (mem_of_find?_eq_some hfound)
      exact acknowledges_of_matchesAt (find?_some hfound) (by omega)
    · exact hkept

theorem shouldSuppressCursorRowKeyEcho_answers (self : ScreenReader) (text : List Char) :
    Answers [trimRecordBoundary text, trimRecordBoundary (trimLayoutPrefix (trimRecordBoundary text))] self
      (self.shouldSuppressCursorRowKeyEcho text) := by
  have hfirst := shouldSuppressKeyEcho_answers self text
  rw [ScreenReader.shouldSuppressCursorRowKeyEcho]
  generalize self.shouldSuppressKeyEcho text = answer at hfirst ⊢
  obtain ⟨_ | _, next⟩ := answer
  · obtain rfl : next = self := hfirst
    simp only [Bool.false_eq_true, if_false]
    split
    · rfl
    · split
      · have hsecond := shouldSuppressKeyEcho_answers next (trimLayoutPrefix (trimRecordBoundary text))
        rw [Answers] at hsecond ⊢
        split at hsecond
        · next hyes =>
          obtain ⟨retried, hin, hrest⟩ := hsecond
          rw [if_pos hyes]
          exact ⟨retried, mem_cons_of_mem _ hin, hrest⟩
        · next hno =>
          rw [if_neg hno]
          exact hsecond
      · rfl
  · obtain ⟨shown, hin, hrest⟩ := hfirst
    exact ⟨shown, mem_cons.mpr (.inl (mem_singleton.mp hin)), hrest⟩

theorem trimRecordBoundary_trimmed (text : List Char) :
    trimRecordBoundary (trimLayoutPrefix (trimRecordBoundary text)) = trimLayoutPrefix (trimRecordBoundary text) :=
  Trimming.rdropWhile_dropWhile

end

/-! ## Whole runs -/

inductive Event
  | forwarded (text : Option (List Char)) (screen : ScreenIdentity)
  | echoed (text : List Char) (cursorRow : Bool)
  | presented (screen : ScreenIdentity)
  /-- A change of the interface state, which starts a text-entry echo stream. -/
  | stateAcknowledged
  | option (suppressKeyEcho : Bool)

def ScreenReader.asked (self : ScreenReader) (text : List Char) (cursorRow : Bool) : Bool × ScreenReader :=
  if cursorRow then self.shouldSuppressCursorRowKeyEcho text else self.shouldSuppressKeyEcho text

/-- The screen reader with every character recorded so far, and what each suppression took off the queue. -/
structure Run where
  reader : ScreenReader
  recorded : List PendingKeyEcho
  suppressed : List (List PendingKeyEcho)

namespace Run

def start (suppressKeyEcho : Bool) : Run := ⟨ScreenReader.new suppressKeyEcho, [], []⟩

def step (run : Run) : Event → Run
  | .forwarded text screen =>
    { run with
      reader := run.reader.recordForwardedKey text screen
      recorded := run.recorded ++ run.reader.forwarded text screen }
  | .echoed text cursorRow =>
    let (suppressed, reader) := run.reader.asked text cursorRow
    let pending := run.reader.pendingKeyEcho
    let taken := pending.take (pending.length - reader.pendingKeyEcho.length)
    { run with reader, suppressed := if suppressed then run.suppressed ++ [taken] else run.suppressed }
  | .presented screen => { run with reader := run.reader.retainPendingKeyEchoForScreen screen }
  | .stateAcknowledged => { run with reader := { run.reader with keyEchoStreamActive := true } }
  | .option value => { run with reader := run.reader.setSuppressKeyEcho value }

/-- What was taken and what is pending was recorded, in this order and each character once. -/
structure Valid (run : Run) : Prop where
  once : (run.suppressed.flatten ++ run.reader.pendingKeyEcho).Sublist run.recorded
  bounded : run.reader.pendingKeyEcho.length ≤ maxPendingKeyEchoChars

end Run

theorem pushPending_sublist (pending : List PendingKeyEcho) (typed : PendingKeyEcho) :
    (pushPending pending typed).Sublist (pending ++ [typed]) := by
  refine Sublist.append_right ?_ _
  split
  · exact tail_sublist _
  · exact .refl _

theorem length_pushPending {pending : List PendingKeyEcho} (typed : PendingKeyEcho)
    (h : pending.length ≤ maxPendingKeyEchoChars) :
    (pushPending pending typed).length ≤ maxPendingKeyEchoChars := by
  rw [pushPending, length_append, length_singleton]
  rw [maxPendingKeyEchoChars] at *
  split
  · rw [length_tail]
    omega
  · omega

theorem foldl_pushPending_sublist (typed pending : List PendingKeyEcho) :
    (typed.foldl pushPending pending).Sublist (pending ++ typed) := by
  induction typed generalizing pending with
  | nil => rw [append_nil]; rfl
  | cons key typed ih =>
    calc (typed.foldl pushPending (pushPending pending key)).Sublist (pushPending pending key ++ typed) := ih _
      Sublist _ (pending ++ [key] ++ typed) := (pushPending_sublist pending key).append_right typed
      _ = pending ++ key :: typed := append_cons .. |>.symm

theorem length_foldl_pushPending {pending : List PendingKeyEcho} (typed : List PendingKeyEcho)
    (h : pending.length ≤ maxPendingKeyEchoChars) :
    (typed.foldl pushPending pending).length ≤ maxPendingKeyEchoChars := by
  induction typed generalizing pending with
  | nil => exact h
  | cons key typed ih => exact ih (length_pushPending key h)

theorem asked_answers (self : ScreenReader) (text : List Char) (cursorRow : Bool) :
    Answers (trimRecordBoundary text :: if cursorRow then [trimLayoutPrefix (trimRecordBoundary text)] else []) self
      (self.asked text cursorRow) := by
  cases cursorRow
  · exact shouldSuppressKeyEcho_answers self text
  · have h := shouldSuppressCursorRowKeyEcho_answers self text
    rwa [trimRecordBoundary_trimmed] at h

namespace Run
variable {run : Run}

theorem Valid.kept (h : run.Valid) (reader : ScreenReader)
    (hsub : reader.pendingKeyEcho.Sublist run.reader.pendingKeyEcho) : Valid { run with reader } :=
  ⟨(hsub.append_left _).trans h.once, hsub.length_le.trans h.bounded⟩

theorem Valid.step (h : run.Valid) (event : Event) : (run.step event).Valid := by
  cases event with
  | forwarded text screen =>
    refine ⟨?_, length_foldl_pushPending _ h.bounded⟩
    refine ((foldl_pushPending_sublist _ _).append_left _).trans ?_
    rw [← append_assoc]
    exact h.once.append_right _
  | echoed text cursorRow =>
    have hanswer := asked_answers run.reader text cursorRow
    rw [Run.step]
    generalize run.reader.asked text cursorRow = answer at hanswer ⊢
    obtain ⟨_ | _, reader⟩ := answer
    · obtain rfl : reader = run.reader := hanswer
      exact h
    · obtain ⟨shown, -, -, htook⟩ := hanswer
      have hsplit := suffix_iff_eq_append.mp htook.suffix
      refine ⟨?_, htook.suffix.length_le.trans h.bounded⟩
      simpa [hsplit] using h.once
  | presented screen => exact h.kept _ filter_sublist
  | stateAcknowledged => exact h.kept _ (.refl _)
  | option value =>
    cases value
    · exact h.kept _ (nil_sublist _)
    · exact h.kept _ (.refl _)

theorem Valid.foldl (h : run.Valid) (events : List Event) : (events.foldl Run.step run).Valid := by
  induction events generalizing run with
  | nil => exact h
  | cons event events ih => exact ih (h.step event)

/-- **Key echo takes every typed character off at most once.** What the suppressions took followed by what is
pending is a subsequence of what was recorded, and a text is suppressed only as a run of the queue or with the
whole queue as its end. -/
theorem keyEcho_once (suppressKeyEcho : Bool) (events : List Event) :
    let run := events.foldl Run.step (start suppressKeyEcho)
    (run.suppressed.flatten ++ run.reader.pendingKeyEcho).Sublist run.recorded ∧
      run.reader.pendingKeyEcho.length ≤ maxPendingKeyEchoChars ∧
      ∀ text, Answers [trimRecordBoundary text] run.reader (run.reader.shouldSuppressKeyEcho text) ∧
        Answers [trimRecordBoundary text, trimLayoutPrefix (trimRecordBoundary text)] run.reader
          (run.reader.shouldSuppressCursorRowKeyEcho text) :=
  have hvalid : (events.foldl Run.step (start suppressKeyEcho)).Valid :=
    @Valid.foldl (start suppressKeyEcho) ⟨.refl _, Nat.zero_le _⟩ events
  ⟨hvalid.once, hvalid.bounded, fun text => ⟨asked_answers _ text false, asked_answers _ text true⟩⟩

end Run
end Lector.KeyEcho
