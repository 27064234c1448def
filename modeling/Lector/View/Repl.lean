import Mathlib.Logic.Function.Iterate

/-! An evaluation in the Lua prompt (`LuaReplView` in `src/views/lua_repl.rs`): a tick resumes the chunk for a
slice, then shows what it printed on the side. -/
namespace Lector.Repl
open List

/-! ## Evaluation -/

abbrev Line := List Char

inductive TranscriptLine
  | input (continuation : Bool) (text : Line)
  | output (text : Line)
deriving DecidableEq

/-- What is written to the screen: a line with its end, or a prompt. -/
inductive Written
  | line (text : Line)
  | prompt (text : Line)
deriving DecidableEq

inductive Ending
  | returned (values : List Line)
  | failed (error : Line)
deriving DecidableEq

/-- What a compiled chunk will still do: the lines printed in each slice that yields, those of the last
slice, and how that one ends. -/
structure Chunk where
  slices : List (List Line)
  last : List Line
  ending : Ending
deriving DecidableEq

structure LuaRepl where
  transcript : List TranscriptLine
  pendingLines : List Line
  thread : Option Chunk
  printBuffer : List Line
  screen : List Written
deriving DecidableEq

def maxLines : Nat := 1000

def trimTranscript (transcript : List TranscriptLine) : List TranscriptLine :=
  transcript.drop (transcript.length - maxLines)

namespace LuaRepl

variable (repl : LuaRepl)

def appendOutput (text : Line) : LuaRepl × List Line :=
  let added := text.splitOn '\n'
  ({ repl with transcript := trimTranscript (repl.transcript ++ added.map .output) }, added)

def drainPrintBuffer : LuaRepl × List Line :=
  let added := repl.printBuffer
  let repl := { repl with printBuffer := [] }
  if added = [] then (repl, added)
  else ({ repl with transcript := trimTranscript (repl.transcript ++ added.map .output) }, added)

def writeOutputLines (lines : List Line) : LuaRepl :=
  { repl with screen := repl.screen ++ lines.map .line }

def prompt : Line := (if repl.pendingLines = [] then "> " else "... ").toList

def writePrompt : LuaRepl := { repl with screen := repl.screen ++ [.prompt repl.prompt] }

def startEval (chunk : Chunk) : LuaRepl := { repl with thread := some chunk }

def resumeEval : LuaRepl × Bool × List Line :=
  match repl.thread with
  | none => (repl, false, [])
  | some ⟨printed :: slices, last, ending⟩ =>
    ({ repl with thread := some ⟨slices, last, ending⟩, printBuffer := repl.printBuffer ++ printed }, true, [])
  | some ⟨[], last, ending⟩ =>
    let repl := { repl with printBuffer := repl.printBuffer ++ last }
    match ending with
    | .returned values =>
      let (repl, added) := if values = [] then (repl, []) else repl.appendOutput (['\t'].intercalate values)
      ({ repl with thread := none }, true, added)
    | .failed error =>
      let (repl, added) := repl.appendOutput ("Error: ".toList ++ error)
      ({ repl with thread := none }, true, added)

/-- One tick, and whether the view is to be drawn again. -/
def tick : LuaRepl × Bool :=
  if repl.thread = none then (repl, false)
  else
    let (repl, progressed, added) := repl.resumeEval
    let (repl, printed) := repl.drainPrintBuffer
    let repl := if added = [] then repl else repl.writeOutputLines added
    let repl := if printed = [] then repl else repl.writeOutputLines printed
    if progressed then (if repl.thread = none then repl.writePrompt else repl, true) else (repl, false)

end LuaRepl

open LuaRepl

/-! ## Order of execution -/

def Ending.lines : Ending → List Line
  | .returned [] => []
  | .returned values => (['\t'].intercalate values).splitOn '\n'
  | .failed error => ("Error: ".toList ++ error).splitOn '\n'

/-- The lines in the order in which the chunk made them. -/
def Chunk.inOrder (chunk : Chunk) : List Line := chunk.slices.flatten ++ chunk.last ++ chunk.ending.lines

/-- The lines stand behind what was there before, in the transcript and on the screen, and one prompt
follows. -/
structure Shown (before after : LuaRepl) (lines : List Line) : Prop where
  transcript : after.transcript = trimTranscript (before.transcript ++ lines.map .output)
  screen : after.screen = before.screen ++ lines.map .line ++ [.prompt before.prompt]

/-- Between evaluations the transcript has been cut and the buffer drained. -/
structure Ready (repl : LuaRepl) : Prop where
  trimmed : repl.transcript.length ≤ maxLines
  drained : repl.printBuffer = []

theorem trimTranscript_append (transcript more : List TranscriptLine) :
    trimTranscript (trimTranscript transcript ++ more) = trimTranscript (transcript ++ more) := by
  unfold trimTranscript
  generalize maxLines = limit
  rw [← drop_append_of_le_length (Nat.sub_le _ _), drop_drop, length_drop, length_append]
  congr 1
  omega

theorem trimTranscript_of_le {transcript : List TranscriptLine} (h : transcript.length ≤ maxLines) :
    trimTranscript transcript = transcript := by
  rw [trimTranscript, Nat.sub_eq_zero_of_le h, drop_zero]

/-- The prompt has shown these lines of an evaluation, and this is left of the chunk. -/
structure Running (before after : LuaRepl) (lines : List Line) (chunk : Chunk) : Prop where
  transcript : after.transcript = trimTranscript (before.transcript ++ lines.map .output)
  screen : after.screen = before.screen ++ lines.map .line
  pending : after.pendingLines = before.pendingLines
  thread : after.thread = some chunk
  drained : after.printBuffer = []

variable {before after : LuaRepl} {lines printed last : List Line} {slices : List (List Line)}
  {ending : Ending}

theorem Running.tick (h : Running before after lines ⟨printed :: slices, last, ending⟩) :
    Running before after.tick.1 (lines ++ printed) ⟨slices, last, ending⟩ := by
  obtain ⟨htranscript, hscreen, hpending, hthread, hdrained⟩ := h
  by_cases hnone : printed = []
  all_goals constructor <;> simp [LuaRepl.tick, LuaRepl.resumeEval, LuaRepl.drainPrintBuffer,
    LuaRepl.writeOutputLines, htranscript, hscreen, hpending, hthread, hdrained, hnone,
    trimTranscript_append]

theorem Running.finish (h : Running before after lines ⟨[], last, ending⟩) :
    Shown before after.tick.1 (lines ++ ending.lines ++ last) := by
  obtain ⟨htranscript, hscreen, hpending, hthread, hdrained⟩ := h
  have hending : ending = .returned [] ∨ (∃ value values, ending = .returned (value :: values)) ∨
      ∃ error, ending = .failed error := by
    cases ending with
    | failed error => exact .inr (.inr ⟨error, rfl⟩)
    | returned values =>
      cases values with
      | nil => exact .inl rfl
      | cons value values => exact .inr (.inl ⟨value, values, rfl⟩)
  by_cases hnone : last = []
  all_goals
    obtain rfl | ⟨value, values, rfl⟩ | ⟨error, rfl⟩ := hending
    all_goals constructor <;> simp [LuaRepl.tick, LuaRepl.resumeEval, LuaRepl.drainPrintBuffer,
      LuaRepl.appendOutput, LuaRepl.writeOutputLines, LuaRepl.writePrompt, LuaRepl.prompt, Ending.lines,
      htranscript, hscreen, hpending, hthread, hdrained, hnone, trimTranscript_append]

theorem Running.evaluate (h : Running before after lines ⟨slices, last, ending⟩) :
    Shown before ((fun repl => repl.tick.1)^[slices.length + 1] after)
      (lines ++ slices.flatten ++ ending.lines ++ last) := by
  induction slices generalizing after lines with
  | nil => simpa using h.finish
  | cons printed slices ih =>
    have hrest := ih h.tick
    rw [flatten_cons, ← append_assoc lines]
    exact hrest

theorem Shown.lines_eq {shown : List Line} (h : Shown before after lines) (h' : Shown before after shown) :
    lines = shown := by
  have hscreen := h.screen.symm.trans h'.screen
  rw [append_left_inj, append_right_inj] at hscreen
  exact (map_inj_right fun _ _ heq => Written.line.inj heq).mp hscreen

/-- **After as many ticks as there are slices, the transcript and the screen have what was printed, then the
results, then a prompt, exactly if the results and the lines of the last slice can change places.** -/
theorem evaluate_inOrder_iff {repl : LuaRepl} (chunk : Chunk) (hready : Ready repl) :
    Shown repl ((fun repl => repl.tick.1)^[chunk.slices.length + 1] (repl.startEval chunk)) chunk.inOrder ↔
      chunk.ending.lines ++ chunk.last = chunk.last ++ chunk.ending.lines := by
  have hstart : Running repl (repl.startEval chunk) [] chunk :=
    ⟨by simp [startEval, trimTranscript_of_le hready.trimmed], by simp [startEval], rfl, rfl, hready.drained⟩
  have hshown := hstart.evaluate
  constructor
  · intro horder
    have hlines := hshown.lines_eq horder
    simpa [Chunk.inOrder] using hlines
  · intro hcommute
    have hlines : [] ++ chunk.slices.flatten ++ chunk.ending.lines ++ chunk.last = chunk.inOrder := by
      simp [Chunk.inOrder, hcommute]
    exact hlines ▸ hshown

def LuaRepl.new : LuaRepl := ⟨[.output "Lua REPL ready.".toList], [], none, [], []⟩

theorem evaluate_inOrder_quiet : Shown .new ((fun repl => repl.tick.1)^[2]
        (new.startEval ⟨[["printed".toList]], [], .returned ["value".toList]⟩))
      ["printed".toList, "value".toList] :=
  (evaluate_inOrder_iff ⟨[["printed".toList]], [], .returned ["value".toList]⟩ ⟨by decide, rfl⟩).mpr rfl

/-- What is printed right before a value is returned comes behind the value. -/
theorem evaluate_value_before_print : ((fun repl => repl.tick.1)^[1]
        (new.startEval ⟨[], ["printed".toList], .returned ["value".toList]⟩)).screen =
      [.line "value".toList, .line "printed".toList, .prompt "> ".toList] := by
  decide

end Lector.Repl
