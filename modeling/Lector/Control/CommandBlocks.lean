import Lector.Control.Delivery
import Lector.Foundations.Fallible

/-! Command blocks are framed by their tag alone: between `%begin` and the terminator with the same
tag every line is payload, whatever record it imitates. -/
namespace Lector.Control
open Bytes Fallible StreamRun List PendingCommand

/-! ## The bytes of a tag -/

theorem parseU64Field_digits {bytes : Option Bytes} {field : String} {v : UInt64}
    (h : parseU64Field bytes field = .ok v) : ∃ bs, bytes = some bs ∧ ∀ x ∈ bs, isDigit x = true := by
  unfold parseU64Field at h
  split at h
  · cases h
  · rename_i bs
    split at h
    · cases h
    · rename_i hall
      simp only [Bool.or_eq_true, Bool.not_eq_true', not_or, Bool.not_eq_false, all_eq_true] at hall
      exact ⟨bs, rfl, hall.2⟩

theorem parseCommandTag_bytes {bs : Bytes} {tag : CommandTag} (h : parseCommandTag bs = .ok tag)
    (x : UInt8) (hx : x ∈ bs) : isDigit x = true ∨ x = space := by
  obtain ⟨timestamp, h₀, h⟩ := bind_eq_ok.mp h
  obtain ⟨number, h₁, h⟩ := bind_eq_ok.mp h
  obtain ⟨flags, h₂, h⟩ := bind_eq_ok.mp h
  have h₃ : (fields space bs)[3]? = none := by
    split at h
    · cases h
    · rename_i hnone
      exact Option.not_isSome_iff_eq_none.mp hnone
  obtain ⟨f₀, e₀, d₀⟩ := parseU64Field_digits h₀
  obtain ⟨f₁, e₁, d₁⟩ := parseU64Field_digits h₁
  obtain ⟨f₂, e₂, d₂⟩ := parseU64Field_digits h₂
  rcases mem_fields space x bs hx with hsep | ⟨f, hf, hxf⟩
  · exact .inr hsep
  · left
    obtain ⟨i, hi⟩ := getElem?_of_mem hf
    have hlen := getElem?_eq_none_iff.mp h₃
    have hi3 : i < 3 := lt_of_lt_of_le (List.getElem?_eq_some_iff.mp hi).1 hlen
    have hcase : i = 0 ∨ i = 1 ∨ i = 2 := by omega
    rcases hcase with rfl | rfl | rfl
    · rw [e₀] at hi; exact d₀ x (by cases hi; exact hxf)
    · rw [e₁] at hi; exact d₁ x (by cases hi; exact hxf)
    · rw [e₂] at hi; exact d₂ x (by cases hi; exact hxf)

def beginKeyword : Bytes := ascii "%begin "

def closeKeyword : CommandStatus → Bytes
  | .success => ascii "%end "
  | .error => ascii "%error "

theorem framing_line_bytes {keyword bs : Bytes} {tag : CommandTag} (h : parseCommandTag bs = .ok tag)
    (hkeyword : ∀ x ∈ keyword, x ≠ lf ∧ x ≠ cr) : lf ∉ keyword ++ bs ∧ (keyword ++ bs).getLast? ≠ some cr := by
  have hbytes : ∀ x ∈ keyword ++ bs, x ≠ lf ∧ x ≠ cr := by
    intro x hx
    rcases mem_append.mp hx with hx | hx
    · exact hkeyword x hx
    · rcases parseCommandTag_bytes h x hx with hd | rfl
      · constructor <;> (rintro rfl; revert hd; decide)
      · exact ⟨by decide, by decide⟩
  exact ⟨fun hmem => (hbytes lf hmem).1 rfl, fun hlast => (hbytes cr (mem_of_getLast? hlast)).2 rfl⟩

/-! ## Lines -/

namespace TmuxControlParser

/-- Between two records: the state in which a `%begin` line can arrive. -/
structure Ground (p : TmuxControlParser) : Prop where
  state : p.state = .records
  line : p.line = []
  pendingCommand : p.pendingCommand = none

variable {p q : TmuxControlParser}

theorem run_line (hs : p.state = .records) (l : Bytes) (hlf : lf ∉ l)
    (hfits : (p.line ++ l).length ≤ p.limits.maxLineBytes)
    (hesc : p.pendingCommand ≠ none ∨ (p.line ++ l).head? ≠ some esc) :
    run pushByte p l = ⟨{ p with line := p.line ++ l }, [], none⟩ := by
  induction l generalizing p with
  | nil => simp
  | cons b l ih =>
    have hb : b ≠ lf := fun h => hlf (by simp [h])
    have hfull : p.line.length ≠ p.limits.maxLineBytes := by
      simp only [length_append, length_cons] at hfits
      omega
    have hnotesc : (p.line.isEmpty && b == esc && p.pendingCommand.isNone) = false := by
      cases hl : p.line with
      | cons x xs => simp
      | nil =>
        rcases hesc with hpend | hhead
        · simp [Option.isNone_eq_false_iff.mpr (Option.isSome_iff_ne_none.mpr hpend)]
        · have : b ≠ esc := by simpa [hl] using hhead
          simp [this]
    have hstep : p.pushByte b = .ok ({ p with line := p.line ++ [b] }, []) := by
      simp [pushByte, hs, hnotesc, hb, hfull]
    rw [run_cons_ok hstep, ih (p := { p with line := p.line ++ [b] }) hs
      (fun h => hlf (mem_cons_of_mem _ h)) (by simpa using hfits) (by simpa using hesc)]
    simp

theorem run_whole_line {events : List ControlEvent} (hs : p.state = .records) (hl : p.line = []) (l : Bytes)
    (hlf : lf ∉ l) (hcr : l.getLast? ≠ some cr) (hfits : l.length ≤ p.limits.maxLineBytes)
    (hesc : p.pendingCommand ≠ none ∨ l.head? ≠ some esc) (hline : p.processLine l = .ok (q, events)) :
    run pushByte p (l ++ [lf]) = ⟨q, events, none⟩ := by
  rw [run_append_ok (run_line hs l hlf (by simpa [hl] using hfits) (by simpa [hl] using hesc)), hl, nil_append]
  have hstrip : l.rdropWhile (· == cr) = l := by
    rw [rdropWhile_eq_self_iff]
    intro hne hlast
    exact hcr (by rw [getLast?_eq_some_getLast hne]; simpa using hlast)
  have hp : (⟨p.limits, .records, [], p.pendingCommand⟩ : TmuxControlParser) = p := by
    rw [← hs, ← hl]
  have hbreak : ({ p with line := l } : TmuxControlParser).pushByte lf = .ok (q, events) := by
    have hne : (lf == esc) = false := by decide
    simp only [pushByte, hs, hne, Bool.and_false, Bool.false_and, Bool.false_eq_true, if_false,
      if_true, hstrip, hp, hline]
  rw [run_cons_ok hbreak]
  simp [Outcome.prepend]

/-! ## Blocks -/

/-- A payload line: within the line limit, no line break or trailing return, no terminator of the
block. -/
structure PayloadLine (limits : ParserLimits) (tag : CommandTag) (l : Bytes) : Prop where
  noBreak : lf ∉ l
  noReturn : l.getLast? ≠ some cr
  fits : l.length ≤ limits.maxLineBytes
  noTerminator : ∀ status rest, l = closeKeyword status ++ rest → parseCommandTag rest ≠ .ok tag

theorem closes_iff (pending : PendingCommand) (keyword l : Bytes) : pending.closes keyword l = true ↔
      ∃ rest, l = keyword ++ rest ∧ parseCommandTag rest = .ok pending.tag := by
  unfold closes
  constructor
  · intro h
    split at h
    · cases h
    · rename_i rest hrest
      split at h
      · rename_i tag htag
        exact ⟨rest, (stripPrefix_eq_some _ _ _).mp hrest, by rw [htag, eq_of_beq h]⟩
      · cases h
  · rintro ⟨rest, hl, htag⟩
    rw [(stripPrefix_eq_some keyword l rest).mpr hl]
    simp [htag]

theorem PayloadLine.not_closes {limits : ParserLimits} {pending : PendingCommand} {l : Bytes}
    (h : PayloadLine limits pending.tag l) (status : CommandStatus) :
    pending.closes (closeKeyword status) l = false := by
  rw [← Bool.not_eq_true, closes_iff]
  rintro ⟨rest, hl, htag⟩
  exact h.noTerminator status rest hl htag

/-- The parser inside a block that has received the lines `output`. -/
def inBlock (p : TmuxControlParser) (tag : CommandTag) (output : List Bytes) : TmuxControlParser :=
  { p with pendingCommand := some ⟨tag, output, (output.map List.length).sum⟩ }

variable {tag : CommandTag}

theorem processLine_begin (hp : p.pendingCommand = none) {b : Bytes} (hb : parseCommandTag b = .ok tag) :
    p.processLine (beginKeyword ++ b) = .ok (p.inBlock tag [], []) := by
  have hstrip : stripPrefix (ascii "%begin ") (beginKeyword ++ b) = some b :=
    (stripPrefix_eq_some _ _ _).mpr rfl
  simp only [processLine, hp, processRecord, hstrip, hb]
  rfl

theorem processLine_payload {output : List Bytes} {l : Bytes} (hl : PayloadLine p.limits tag l)
    (hlines : output.length < p.limits.maxCommandOutputLines)
    (hbytes : ((output ++ [l]).map length).sum ≤ p.limits.maxCommandOutputBytes) :
    (p.inBlock tag output).processLine l = .ok (p.inBlock tag (output ++ [l]), []) := by
  have hnot : ∀ status, closes ⟨tag, output, (output.map length).sum⟩
      (closeKeyword status) l = false := hl.not_closes
  have hend := hnot .success
  have herror := hnot .error
  simp only [closeKeyword] at hend herror
  simp only [map_append, map_cons, map_nil, sum_append, sum_singleton] at hbytes
  have hadd : checkedAdd (output.map length).sum l.length = some ((output.map length).sum + l.length) := by
    have := p.limits.maxCommandOutputBytes_lt
    rw [checkedAdd, if_pos (by omega)]
  simp only [inBlock, processLine, processBlockLine, hend, herror,
    if_neg (ne_of_lt hlines), hadd, gt_iff_lt, if_neg (not_lt.mpr hbytes)]
  simp

theorem processLine_close (hp : p.pendingCommand = none) {e : Bytes}
    (he : parseCommandTag e = .ok tag) (status : CommandStatus) (output : List Bytes) :
    (p.inBlock tag output).processLine (closeKeyword status ++ e) =
      .ok (p, [.command tag.timestamp tag.number tag.flags status output]) := by
  have hback : { p with pendingCommand := none } = p := by rw [← hp]
  have hclose : closes ⟨tag, output, (output.map length).sum⟩
      (closeKeyword status) (closeKeyword status ++ e) = true :=
    (closes_iff _ _ _).mpr ⟨e, rfl, he⟩
  cases status with
  | success =>
    simp only [closeKeyword] at hclose
    simp only [inBlock, processLine, processBlockLine, closeKeyword, hclose, if_true, hback,
      PendingCommand.finish]
  | error =>
    have hother : closes ⟨tag, output, (output.map length).sum⟩
        (ascii "%end ") (ascii "%error " ++ e) = false := by
      rw [← Bool.not_eq_true, closes_iff]
      rintro ⟨rest, hrest, -⟩
      have hbyte := congrArg (·[2]?) hrest
      simp [ascii] at hbyte
    simp only [closeKeyword] at hclose
    simp only [inBlock, processLine, processBlockLine, closeKeyword, hother, hclose,
      Bool.false_eq_true, if_false, if_true, hback, PendingCommand.finish]

theorem run_payload (hp : p.Ground)
    (output payload : List Bytes) (hlines : ∀ l ∈ payload, PayloadLine p.limits tag l)
    (hcount : (output ++ payload).length ≤ p.limits.maxCommandOutputLines)
    (hbytes : ((output ++ payload).map length).sum ≤ p.limits.maxCommandOutputBytes) :
    run pushByte (p.inBlock tag output) (payload.flatMap (· ++ [lf])) =
      ⟨p.inBlock tag (output ++ payload), [], none⟩ := by
  induction payload generalizing output with
  | nil => simp
  | cons l payload ih =>
    have hl := hlines l (by simp)
    have hassoc : output ++ l :: payload = (output ++ [l]) ++ payload := by simp
    rw [hassoc] at hcount hbytes
    have hstep : (p.inBlock tag output).processLine l = .ok (p.inBlock tag (output ++ [l]), []) :=
      processLine_payload hl
      (by simp only [length_append, length_singleton] at hcount; omega)
      (by rw [map_append, sum_append] at hbytes; omega)
    have hrun := run_whole_line (p := p.inBlock tag output) hp.state hp.line l hl.noBreak
      hl.noReturn hl.fits (.inl (by simp [inBlock])) hstep
    rw [flatMap_cons, run_append_ok hrun, prepend_nil,
      ih (output ++ [l]) (fun l' h => hlines l' (mem_cons_of_mem _ h)) hcount hbytes, hassoc]

/-- **Command blocks are framed by their tag alone**: a `%begin` line, payload within the limits and
the terminator of the same tag deliver one result with that payload, for every chunking. -/
theorem feed_command_block {p : TmuxControlParser} (hp : p.Ground) {tag : CommandTag} {b e : Bytes}
    (hb : parseCommandTag b = .ok tag) (he : parseCommandTag e = .ok tag) (status : CommandStatus)
    {payload : List Bytes} (hbfits : (beginKeyword ++ b).length ≤ p.limits.maxLineBytes)
    (hefits : (closeKeyword status ++ e).length ≤ p.limits.maxLineBytes)
    (hlines : ∀ l ∈ payload, PayloadLine p.limits tag l)
    (hcount : payload.length ≤ p.limits.maxCommandOutputLines)
    (hbytes : (payload.map length).sum ≤ p.limits.maxCommandOutputBytes) {chunks : List Bytes}
    (hchunks : chunks.flatten = (beginKeyword ++ b ++ [lf]) ++ payload.flatMap (· ++ [lf]) ++
      (closeKeyword status ++ e ++ [lf])) :
    p.feed chunks = ⟨p, [.command tag.timestamp tag.number tag.flags status payload], none⟩ := by
  have hbeginBytes : ∀ x ∈ beginKeyword, x ≠ lf ∧ x ≠ cr := by decide +kernel
  have hcloseBytes : ∀ x ∈ closeKeyword status, x ≠ lf ∧ x ≠ cr := by
    cases status <;> decide +kernel
  obtain ⟨hblf, hbcr⟩ := framing_line_bytes hb hbeginBytes
  obtain ⟨helf, hecr⟩ := framing_line_bytes he hcloseBytes
  have hbegin :=
    run_whole_line hp.state hp.line _ hblf hbcr hbfits
      (.inr (by simp [beginKeyword, ascii, esc])) (processLine_begin hp.pendingCommand hb)
  have hpayload : run pushByte (p.inBlock tag []) (payload.flatMap (· ++ [lf])) =
      ⟨p.inBlock tag payload, [], none⟩ := run_payload hp [] payload hlines hcount hbytes
  have hclose := run_whole_line (p := p.inBlock tag payload) hp.state hp.line _ helf hecr hefits
    (.inl (by simp [inBlock])) (processLine_close hp.pendingCommand he status payload)
  have hrun : run pushByte p chunks.flatten =
      ⟨p, [.command tag.timestamp tag.number tag.flags status payload], none⟩ := by
    rw [hchunks, append_assoc, run_append_ok hbegin, run_append_ok hpayload, hclose]
    rfl
  rw [feed_ok (by rw [hp.state]; simp) chunks (by rw [hrun]), hrun]

/-- A failed command whose payload imitates a terminator, an exit record and the stream's end. -/
theorem feed_command_block_imitations : (⟨.default, .records, [], none⟩ : TmuxControlParser).feed
        [ascii "%begin 1 2 0\n%end 7 2 0\n%ex", ascii "it\n\x1b", ascii "\\\n%error 1 02 0\n"] =
      ⟨⟨.default, .records, [], none⟩,
        [.command 1 2 0 .error [ascii "%end 7 2 0", ascii "%exit", ascii "\x1b\\"]], none⟩ := by
  have hbegin : parseCommandTag (ascii "1 2 0") = .ok ⟨1, 2, 0⟩ := by decide +kernel
  have hend : parseCommandTag (ascii "1 02 0") = .ok ⟨1, 2, 0⟩ := by decide +kernel
  refine feed_command_block ⟨rfl, rfl, rfl⟩ hbegin hend .error (by decide +kernel)
    (by decide +kernel) ?_ (by decide +kernel) (by decide +kernel) (by decide +kernel)
  have hpayload : ∀ l ∈ [ascii "%end 7 2 0", ascii "%exit", ascii "\x1b\\"],
      lf ∉ l ∧ l.getLast? ≠ some cr ∧ l.length ≤ 64 * 1024 ∧
      closes ⟨⟨1, 2, 0⟩, [], 0⟩ (closeKeyword .success) l = false ∧
      closes ⟨⟨1, 2, 0⟩, [], 0⟩ (closeKeyword .error) l = false := by
    decide +kernel
  intro l hl
  obtain ⟨hlf, hcr, hfits, hend, herror⟩ := hpayload l hl
  refine ⟨hlf, hcr, hfits, fun status rest hrest htag => ?_⟩
  have hcloses := (closes_iff ⟨⟨1, 2, 0⟩, [], 0⟩ (closeKeyword status) l).mpr ⟨rest, hrest, htag⟩
  cases status
  · rw [hend] at hcloses; cases hcloses
  · rw [herror] at hcloses; cases hcloses

end TmuxControlParser

end Lector.Control
