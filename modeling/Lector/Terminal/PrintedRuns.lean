import Lector.Foundations.Returns
import Lector.Terminal.Update

/-! What the terminal reports as printed: the observer of the output stream (`StreamObserver` in
`crates/lector-ghostty/src/lib.rs`), and the text of a report (`UpdateSummary::printed_text`). -/
namespace Lector.Terminal
open Returns List PrintedRun

/-! ## The observer -/

structure StreamObserver where
  printedRuns : List PrintedRun
  currentPrint : String
deriving DecidableEq

def StreamObserver.default : StreamObserver := ⟨[], ""⟩

namespace StreamObserver

variable (self : StreamObserver)

def flushPrint : StreamObserver :=
  if self.currentPrint = "" then self
  else ⟨self.printedRuns ++ [⟨self.currentPrint, .continue_⟩], ""⟩

def pushBoundary (boundary : PrintBoundary) : StreamObserver :=
  let self := self.flushPrint
  if boundary = .lineFeed ∧ self.printedRuns.getLast? = some ⟨"", .carriageReturn⟩ then
    { self with printedRuns := self.printedRuns.dropLast ++ [⟨"", .lineFeed⟩] }
  else { self with printedRuns := self.printedRuns ++ [⟨"", boundary⟩] }

def print (character : Char) : StreamObserver := { self with currentPrint := self.currentPrint.push character }

def execute (byte : UInt8) : StreamObserver :=
  let self := self.flushPrint
  if byte = 0x0d then self.pushBoundary .carriageReturn
  else if byte = 0x0a then self.pushBoundary .lineFeed
  else if byte = 0x0b ∨ byte = 0x0c then self.pushBoundary .lineFeed
  else self

def perform (c : Char) : StreamObserver :=
  if c = '\r' then self.execute 0x0d else if c = '\n' then self.execute 0x0a else self.print c

def takeUpdate : List PrintedRun × StreamObserver :=
  let self := self.flushPrint
  (self.printedRuns, { self with printedRuns := [] })

/-- The update of a chunk. The observer decides its printed runs; `facts` stands for all else. -/
def advance (chunk : List Char) (facts : UpdateSummary) : UpdateSummary × StreamObserver :=
  let taken := (chunk.foldl perform self).takeUpdate
  ({ facts with printedRuns := taken.1, batchCount := 1 }, taken.2)

end StreamObserver

/-! ## The text of a report -/

/-- `text.truncate(line_start)` -/
def truncateLine (text : String) : String := String.ofList (lineStart text.toList)

def printRun (text : String) (run : PrintedRun) : String :=
  (match run.boundary with
    | .continue_ => text
    | .lineFeed => if text = "" then text else text.push '\n'
    | .carriageReturn => truncateLine text) ++ run.text

def UpdateSummary.printedText (self : UpdateSummary) : String := self.printedRuns.foldl printRun ""

/-! ## Runs as a stream -/

def boundaryText : PrintBoundary → List Char
  | .continue_ => []
  | .lineFeed => ['\n']
  | .carriageReturn => ['\r']

def PrintedRun.stream (run : PrintedRun) : List Char := boundaryText run.boundary ++ run.text.toList

def streamOf (runs : List PrintedRun) : List Char := runs.flatMap PrintedRun.stream

/-- A run of text without returns and line feeds, behind a boundary or not empty. -/
structure PrintedRun.Solid (run : PrintedRun) : Prop where
  text : ∀ c ∈ run.text.toList, IsText c
  solid : run.boundary = .continue_ → run.text ≠ ""

structure PrintedRun.Raw (run : PrintedRun) : Prop extends run.Solid where
  boundary : run.boundary ≠ .continue_ → run.text = ""

theorem streamOf_concat (runs : List PrintedRun) (run : PrintedRun) :
    streamOf (runs ++ [run]) = streamOf runs ++ run.stream := by
  unfold streamOf
  rw [flatMap_append, flatMap_singleton]

theorem foldl_typeOn_text {more : List Char} (h : ∀ c ∈ more, IsText c) (text : List Char) :
    more.foldl typeOn text = text ++ more := by
  induction more generalizing text with
  | nil => exact (append_nil text).symm
  | cons c more ih =>
    obtain ⟨hreturn, hfeed⟩ := h c mem_cons_self
    rw [foldl_cons, typeOn, if_neg hreturn, if_neg hfeed, ih fun d hd => h d (mem_cons_of_mem c hd),
      append_assoc, singleton_append]

theorem toList_printRun {run : PrintedRun} (h : run.Solid) (text : String) :
    (printRun text run).toList = run.stream.foldl typeOn text.toList := by
  unfold printRun stream
  rw [String.toList_append, foldl_append, foldl_typeOn_text h.text]
  congr 1
  cases run.boundary with
  | continue_ => rfl
  | lineFeed =>
    show (if text = "" then text else text.push '\n').toList = typeOn text.toList '\n'
    have hfeed : typeOn text.toList '\n' = newline text.toList := rfl
    rw [hfeed, newline]
    by_cases hempty : text = ""
    · subst hempty
      rfl
    · rw [if_neg hempty, if_neg (fun hnil => hempty (String.toList_eq_nil_iff.mp hnil)), String.toList_push]
  | carriageReturn =>
    show (truncateLine text).toList = typeOn text.toList '\r'
    rw [truncateLine, String.toList_ofList, typeOn, if_pos rfl]

theorem toList_printedText {summary : UpdateSummary} (h : ∀ run ∈ summary.printedRuns, run.Solid) :
    summary.printedText.toList = typed (streamOf summary.printedRuns) := by
  have hfold : ∀ (runs : List PrintedRun) (text : String), (∀ run ∈ runs, run.Solid) →
      (runs.foldl printRun text).toList = (streamOf runs).foldl typeOn text.toList := by
    intro runs
    induction runs with
    | nil => exact fun _ _ => rfl
    | cons run runs ih =>
      intro text hsolid
      rw [foldl_cons, ih _ fun other hother => hsolid other (mem_cons_of_mem run hother),
        toList_printRun (hsolid run mem_cons_self), ← foldl_append]
      rfl
  exact hfold summary.printedRuns "" h

theorem streamOf_getLast {runs : List PrintedRun} (h : ∀ run ∈ runs, run.Solid) :
    (streamOf runs).getLast? = some '\r' ↔ runs.getLast? = some ⟨"", .carriageReturn⟩ := by
  induction runs using reverseRecOn with
  | nil => exact iff_of_false (by decide) (by decide)
  | append_singleton runs run _ =>
    have hrun := h run mem_concat_self
    rw [streamOf_concat, getLast?_concat, Option.some.injEq]
    obtain ⟨text, boundary⟩ := run
    by_cases hempty : text = ""
    · subst hempty
      cases boundary with
      | continue_ => exact absurd rfl (hrun.solid rfl)
      | lineFeed =>
        have hlast : (streamOf runs ++ ['\n']).getLast? = some '\n' := getLast?_concat
        apply iff_of_false
        · intro hbad
          rw [show stream ⟨"", .lineFeed⟩ = ['\n'] from rfl, hlast] at hbad
          cases hbad
        · decide
      | carriageReturn => exact iff_of_true getLast?_concat rfl
    · apply iff_of_false
      · intro hbad
        have hne : text.toList ≠ [] := fun hnil => hempty (String.toList_eq_nil_iff.mp hnil)
        rw [stream, ← append_assoc, getLast?_append_of_ne_nil _ hne] at hbad
        exact (hrun.text _ (mem_of_getLast? hbad)).1 rfl
      · intro hbad
        rw [mk.injEq] at hbad
        exact hempty hbad.1

/-! ## What the observer has seen -/

namespace StreamObserver

variable {self : StreamObserver}

def stream (self : StreamObserver) : List Char := streamOf self.printedRuns ++ self.currentPrint.toList

structure Clean (observer : StreamObserver) : Prop where
  runs : ∀ run ∈ observer.printedRuns, run.Raw
  current : ∀ c ∈ observer.currentPrint.toList, IsText c

theorem clean_default : StreamObserver.default.Clean where
  runs := forall_mem_nil _
  current := forall_mem_nil _

theorem Clean.flushPrint (h : self.Clean) :
    self.flushPrint.Clean ∧ self.flushPrint.stream = self.stream ∧ self.flushPrint.currentPrint = "" := by
  unfold StreamObserver.flushPrint
  split
  · exact ⟨h, rfl, ‹_›⟩
  · rename_i hne
    refine ⟨⟨?_, forall_mem_nil _⟩, ?_, rfl⟩
    · intro run hrun
      rcases mem_append.mp hrun with hold | hnew
      · exact h.runs run hold
      · rw [mem_singleton.mp hnew]
        exact ⟨⟨h.current, fun _ => hne⟩, fun hbad => absurd rfl hbad⟩
    · unfold stream
      rw [streamOf_concat]
      exact append_nil _

theorem Clean.pushBoundary (h : self.Clean) {boundary : PrintBoundary} (hb : boundary ≠ .continue_) :
    (self.pushBoundary boundary).Clean ∧ (self.pushBoundary boundary).stream =
        if boundary = .lineFeed then feed self.stream '\n' else self.stream ++ ['\r'] := by
  obtain ⟨hclean, hstream, hcurrent⟩ := h.flushPrint
  have hraw : PrintedRun.Raw ⟨"", boundary⟩ := ⟨⟨forall_mem_nil _, fun hbad => absurd hbad hb⟩, fun _ => rfl⟩
  have hruns : self.flushPrint.stream = streamOf self.flushPrint.printedRuns := by
    unfold stream
    rw [hcurrent]
    exact append_nil _
  have hlast := streamOf_getLast fun run hrun => (hclean.runs run hrun).toSolid
  rw [← hruns, hstream] at hlast
  unfold StreamObserver.pushBoundary
  dsimp only
  split
  · rename_i habsorbs
    obtain ⟨rfl, hreturn⟩ := habsorbs
    obtain ⟨front, hfront⟩ := getLast?_eq_some_iff.mp hreturn
    have hself : self.stream = streamOf front ++ ['\r'] := by
      rw [← hstream, hruns, hfront, streamOf_concat]
      rfl
    rw [hfront, dropLast_concat]
    refine ⟨⟨?_, hclean.current⟩, ?_⟩
    · intro run hrun
      rcases mem_append.mp hrun with hold | hnew
      · apply hclean.runs run
        rw [hfront]
        exact mem_append_left _ hold
      · rw [mem_singleton.mp hnew]
        exact hraw
    · unfold stream
      rw [hcurrent, streamOf_concat, ← stream, hself, feed, dropReturns_concat]
      exact append_nil _
  · rename_i hplain
    refine ⟨⟨?_, hclean.current⟩, ?_⟩
    · intro run hrun
      rcases mem_append.mp hrun with hold | hnew
      · exact hclean.runs run hold
      · rw [mem_singleton.mp hnew]
        exact hraw
    · unfold stream
      rw [hcurrent, streamOf_concat, ← hruns, hstream, ← stream]
      split
      · rename_i hfeed
        have hnot : self.stream.getLast? ≠ some '\r' := fun hbad => hplain ⟨hfeed, hlast.mp hbad⟩
        rw [feed, dropReturns_of_getLast hnot, hfeed]
        exact append_nil _
      · rename_i hreturn
        have hcr : boundary = .carriageReturn := by
          cases boundary with
          | continue_ => exact absurd rfl hb
          | lineFeed => exact absurd rfl hreturn
          | carriageReturn => rfl
        rw [hcr]
        exact append_nil _

theorem Clean.perform (h : self.Clean) (c : Char) :
    (self.perform c).Clean ∧ (self.perform c).stream = feed self.stream c := by
  obtain ⟨hclean, hstream, -⟩ := h.flushPrint
  unfold StreamObserver.perform
  split
  · rename_i hc
    have hreturn : PrintBoundary.carriageReturn ≠ .continue_ := by decide
    obtain ⟨hpush, hresult⟩ := hclean.pushBoundary hreturn
    rw [hstream] at hresult
    refine ⟨hpush, ?_⟩
    rw [hc]
    exact hresult
  · split
    · rename_i hc
      have hfeed : PrintBoundary.lineFeed ≠ .continue_ := by decide
      obtain ⟨hpush, hresult⟩ := hclean.pushBoundary hfeed
      rw [hstream] at hresult
      refine ⟨hpush, ?_⟩
      rw [hc]
      exact hresult
    · rename_i hreturn hfeed
      refine ⟨⟨h.runs, ?_⟩, ?_⟩
      · intro d hd
        rw [StreamObserver.print, String.toList_push, mem_append, mem_singleton] at hd
        rcases hd with hold | rfl
        · exact h.current d hold
        · exact ⟨hreturn, hfeed⟩
      · unfold stream
        rw [StreamObserver.print, String.toList_push, ← append_assoc, feed, if_neg hfeed]

theorem Clean.observe (h : self.Clean) (chunk : List Char) : (chunk.foldl StreamObserver.perform self).Clean ∧
      (chunk.foldl StreamObserver.perform self).stream = chunk.foldl feed self.stream := by
  induction chunk generalizing self with
  | nil => exact ⟨h, rfl⟩
  | cons c chunk ih =>
    obtain ⟨hclean, hstream⟩ := h.perform c
    rw [foldl_cons, foldl_cons, ← hstream]
    exact ih hclean

theorem advance_default (chunk : List Char) (facts : UpdateSummary) :
    (∀ run ∈ (StreamObserver.default.advance chunk facts).1.printedRuns, run.Raw) ∧
      streamOf (StreamObserver.default.advance chunk facts).1.printedRuns = chunk.foldl feed [] ∧
      (StreamObserver.default.advance chunk facts).2 = StreamObserver.default := by
  obtain ⟨hclean, hstream⟩ := clean_default.observe chunk
  obtain ⟨hflushed, hsame, hempty⟩ := hclean.flushPrint
  refine ⟨hflushed.runs, ?_, ?_⟩
  · rw [hstream, stream, hempty] at hsame
    rw [← append_nil (streamOf _)]
    exact hsame
  · exact congrArg (StreamObserver.mk []) hempty

end StreamObserver

/-! ## Merged runs -/

theorem solid_appendPrintedRun {target : List PrintedRun} {run : PrintedRun}
    (h : ∀ other ∈ target, other.Solid) (hrun : run.Raw) :
    (∀ other ∈ appendPrintedRun target run, other.Solid) ∧
      streamOf (appendPrintedRun target run) = run.stream.foldl feed (streamOf target) := by
  have hlast := streamOf_getLast h
  have happend : ∀ runs : List PrintedRun, (∀ other ∈ runs, other.Solid) →
      ∀ added : PrintedRun, added.Solid → ∀ other ∈ runs ++ [added], other.Solid := by
    intro runs hruns added hadded other hother
    rcases mem_append.mp hother with hold | hnew
    · exact hruns other hold
    · rw [mem_singleton.mp hnew]
      exact hadded
  have hplain : ¬(run.boundary = .lineFeed ∧ target.getLast? = some ⟨"", .carriageReturn⟩) →
      run.stream.foldl feed (streamOf target) = streamOf target ++ run.stream := by
    intro hnot
    obtain ⟨text, boundary⟩ := run
    cases boundary with
    | continue_ =>
      have hfeed : '\n' ∉ text.toList := fun hmem => (hrun.text _ hmem).2 rfl
      exact foldl_feed_text hfeed (streamOf target)
    | lineFeed =>
      have hempty : text = "" := hrun.boundary fun hbad => PrintBoundary.noConfusion hbad
      have hreturn : (streamOf target).getLast? ≠ some '\r' := fun hbad => hnot ⟨rfl, hlast.mp hbad⟩
      subst hempty
      show feed (streamOf target) '\n' = streamOf target ++ ['\n']
      rw [feed, if_pos rfl, dropReturns_of_getLast hreturn]
    | carriageReturn =>
      have hempty : text = "" := hrun.boundary fun hbad => PrintBoundary.noConfusion hbad
      subst hempty
      show feed (streamOf target) '\r' = streamOf target ++ ['\r']
      rw [feed, if_neg (by decide)]
  unfold appendPrintedRun
  cases hprevious : target.getLast? with
  | none =>
    have hnil := getLast?_eq_none_iff.mp hprevious
    subst hnil
    refine ⟨happend [] h run hrun.toSolid, ?_⟩
    rw [hplain (fun hbad => by cases hbad.2)]
    exact streamOf_concat [] run
  | some previous =>
    obtain ⟨front, rfl⟩ := getLast?_eq_some_iff.mp hprevious
    have hfront : ∀ other ∈ front, other.Solid := fun other hother => h other (mem_append_left _ hother)
    have hprev := h previous mem_concat_self
    dsimp only
    rw [dropLast_concat]
    split
    · rename_i hmerges
      obtain ⟨hfeed, htext, hreturn, hempty⟩ := hmerges
      have hruns : run.stream = ['\n'] := by
        rw [stream, hfeed, htext]
        rfl
      have hprevious' : previous.stream = ['\r'] := by
        rw [stream, hreturn, hempty]
        rfl
      refine ⟨happend front hfront _ ⟨hprev.text, fun hbad => PrintBoundary.noConfusion hbad⟩, ?_⟩
      rw [streamOf_concat, streamOf_concat, hruns, hprevious', foldl_cons, feed, dropReturns_concat, hempty]
      rfl
    · rename_i hplainRun
      split
      · rename_i hcontinue
        have hnot : ¬(run.boundary = .lineFeed ∧
            (front ++ [previous]).getLast? = some ⟨"", .carriageReturn⟩) := by
          intro hbad
          rw [hcontinue] at hbad
          exact absurd hbad.1 (by decide)
        refine ⟨happend front hfront _ ⟨?_, ?_⟩, ?_⟩
        · intro c hc
          rw [String.toList_append, mem_append] at hc
          exact hc.elim (hprev.text c) (hrun.text c)
        · intro hprevContinue hempty
          exact hprev.solid hprevContinue (String.append_eq_empty_iff.mp hempty).1
        · rw [hplain hnot, streamOf_concat, streamOf_concat, stream, stream, stream, hcontinue]
          simp [boundaryText]
      · have hnot : ¬(run.boundary = .lineFeed ∧
            (front ++ [previous]).getLast? = some ⟨"", .carriageReturn⟩) := by
          rintro ⟨hfeed, hreturn⟩
          rw [getLast?_concat, Option.some.injEq] at hreturn
          have htext : run.text = "" := hrun.boundary (by rw [hfeed]; decide)
          exact hplainRun ⟨hfeed, htext, by rw [hreturn], by rw [hreturn]⟩
        exact ⟨happend _ h run hrun.toSolid, (streamOf_concat _ run).trans (hplain hnot).symm⟩

theorem solid_appendPrintedRuns {target source : List PrintedRun} (h : ∀ run ∈ target, run.Solid)
    (hsource : ∀ run ∈ source, run.Raw) : (∀ run ∈ appendPrintedRuns target source, run.Solid) ∧
      streamOf (appendPrintedRuns target source) = (streamOf source).foldl feed (streamOf target) := by
  unfold appendPrintedRuns
  induction source generalizing target with
  | nil => exact ⟨h, rfl⟩
  | cons run source ih =>
    obtain ⟨hsolid, hstream⟩ := solid_appendPrintedRun h (hsource run mem_cons_self)
    obtain ⟨hrest, hresult⟩ := ih hsolid fun other hother => hsource other (mem_cons_of_mem run hother)
    refine ⟨hrest, ?_⟩
    rw [foldl_cons, hresult, hstream, ← foldl_append]
    rfl

/-! ## Reports -/

/-- The chunks since the report was cleared, the observer, and the report they are merged into. -/
inductive Reported : List (List Char) → StreamObserver → UpdateSummary → Prop
  | new : Reported [] StreamObserver.default UpdateSummary.default
  | advance {chunks : List (List Char)} {observer : StreamObserver} {report : UpdateSummary}
      (h : Reported chunks observer report) (chunk : List Char) (facts : UpdateSummary) :
      Reported (chunks ++ [chunk]) (observer.advance chunk facts).2
        (report.merge (observer.advance chunk facts).1)
  | clear {chunks : List (List Char)} {observer : StreamObserver} {report : UpdateSummary}
      (h : Reported chunks observer report) : Reported [] observer UpdateSummary.default

theorem Reported.stream {chunks : List (List Char)} {observer : StreamObserver} {report : UpdateSummary}
    (h : Reported chunks observer report) :
    observer = StreamObserver.default ∧ (∀ run ∈ report.printedRuns, run.Solid) ∧
      streamOf report.printedRuns = joined chunks := by
  induction h with
  | new => exact ⟨rfl, forall_mem_nil _, rfl⟩
  | clear _ ih => exact ⟨ih.1, forall_mem_nil _, rfl⟩
  | advance _ chunk facts ih =>
    obtain ⟨rfl, hsolid, hstream⟩ := ih
    obtain ⟨hraw, hupdate, hobserver⟩ := StreamObserver.advance_default chunk facts
    obtain ⟨hsolid', hstream'⟩ := solid_appendPrintedRuns hsolid hraw
    refine ⟨hobserver, hsolid', ?_⟩
    rw [hupdate, hstream, ← absorbed_one] at hstream'
    rw [joined, foldl_append]
    exact hstream'

/-- **What is printed is reported**, line by line, exactly when few returns stand between a text and the end of
its line: at most one before a line feed that begins an update, and at most two before any other. -/
theorem printedText_kept_iff {chunks : List (List Char)} {observer : StreamObserver}
    {report : UpdateSummary} (h : Reported chunks observer report) :
    (report.printedText.toList = kept chunks.flatten ↔
        Ended (room chunks) chunks.flatten ∧ Trailing chunks.flatten 0) ∧
      ∀ chunk facts, (observer.advance chunk facts).1.printedText.toList = kept chunk ↔
        Ended (fun _ => 1) chunk ∧ Trailing chunk 0 := by
  obtain ⟨rfl, hsolid, hstream⟩ := h.stream
  constructor
  · rw [toList_printedText hsolid, hstream, joined_eq]
    exact typed_absorbed_iff (room chunks) chunks.flatten
  · intro chunk facts
    obtain ⟨hraw, hupdate, -⟩ := StreamObserver.advance_default chunk facts
    rw [toList_printedText fun run hrun => (hraw run hrun).toSolid, hupdate, ← absorbed_one]
    exact typed_absorbed_iff (fun _ => 1) chunk

/-- A line that a doubled return and a line feed end, in one update. -/
theorem printedText_doubled : ∃ report : UpdateSummary, Reported [['o', 'k', '\r', '\r', '\n']]
        (StreamObserver.default.advance ['o', 'k', '\r', '\r', '\n'] UpdateSummary.default).2 report ∧
      (report.printedText.toList = kept ['o', 'k', '\r', '\r', '\n'] ↔
        Ended (room [['o', 'k', '\r', '\r', '\n']]) ['o', 'k', '\r', '\r', '\n'] ∧
          Trailing ['o', 'k', '\r', '\r', '\n'] 0) :=
  have h := Reported.advance .new ['o', 'k', '\r', '\r', '\n'] UpdateSummary.default
  ⟨_, h, (printedText_kept_iff h).1⟩

/-- A line that three returns and a line feed end is lost. -/
theorem printedText_loses : ∃ report : UpdateSummary, Reported [['o', 'k', '\r', '\r', '\r', '\n']]
        (StreamObserver.default.advance ['o', 'k', '\r', '\r', '\r', '\n'] UpdateSummary.default).2 report ∧
      kept ['o', 'k', '\r', '\r', '\r', '\n'] = ['o', 'k', '\n'] ∧ report.printedText = "" :=
  ⟨_, Reported.advance .new ['o', 'k', '\r', '\r', '\r', '\n'] UpdateSummary.default, by decide +kernel,
    by decide +kernel⟩

end Lector.Terminal
