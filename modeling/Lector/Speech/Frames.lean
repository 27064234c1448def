import Lector.Foundations.Lines

/-! The line framing of the speech protocol (`proc_server_common.rs`): what `FrameBuffer` hands on does not
depend on the chunks in which the stream arrives. -/
namespace Lector.ProcServer
open Bytes Lines List Option

def maxRpcFrameBytes : Nat := 1024 * 1024

inductive Frame where
  | line (bytes : Bytes)
  | tooLarge
  deriving DecidableEq, Repr

structure FrameBuffer where
  bytes : Bytes
  discarding : Bool
  deriving DecidableEq, Repr

namespace FrameBuffer

def new : FrameBuffer := ⟨[], false⟩

def take (self : FrameBuffer) (segment : Bytes) (newline : Bool) : FrameBuffer × Option Frame :=
  if self.discarding then
    if newline then ({ self with discarding := false }, some .tooLarge) else (self, none)
  else if maxRpcFrameBytes < saturatingAdd 64 self.bytes.length segment.length then
    if newline then ({ self with bytes := [] }, some .tooLarge) else (⟨[], true⟩, none)
  else if newline then ({ self with bytes := [] }, some (.line (self.bytes ++ segment)))
  else ({ self with bytes := self.bytes ++ segment }, none)

def consumed (input : Bytes) : Nat := (input.idxOf? lf).elim input.length (· + 1)

section Handler

variable {σ ε : Type} (handle : σ → Frame → Except ε σ)

def push (self : FrameBuffer) (input : Bytes) (s : σ) : Except ε (FrameBuffer × σ) :=
  if _hempty : input = [] then .ok (self, s)
  else
    let round := self.take (input.take (consumed input)) (input.idxOf? lf).isSome
    (round.2.elim (.ok s) (handle s)).bind (push round.1 (input.drop (consumed input)))
termination_by input.length
decreasing_by
  have hpos := length_pos_iff.mpr _hempty
  rw [length_drop, consumed]
  cases input.idxOf? lf with
  | none => exact Nat.sub_lt hpos hpos
  | some n => exact Nat.sub_lt hpos (Nat.succ_pos n)

def pushAll (self : FrameBuffer) (chunks : List Bytes) (s : σ) : Except ε (FrameBuffer × σ) :=
  chunks.foldlM (fun state chunk => push handle state.1 chunk state.2) (self, s)

end Handler

/-! ## The stream as a whole -/

def frame (line : Bytes) : Frame :=
  if line.length + 1 ≤ maxRpcFrameBytes then .line (line ++ [lf]) else .tooLarge

def frames (stream : Bytes) : List Frame := (read stream).map frame

def holding (line : Bytes) : FrameBuffer :=
  if line.length ≤ maxRpcFrameBytes then ⟨line, false⟩ else ⟨[], true⟩

theorem bytes_holding (line : Bytes) : (holding line).bytes.length ≤ maxRpcFrameBytes := by
  unfold holding
  split
  · assumption
  · exact Nat.zero_le _

variable {line segment tail : Bytes}

theorem exceeds_iff : maxRpcFrameBytes < saturatingAdd 64 line.length segment.length ↔
    maxRpcFrameBytes < line.length + segment.length := by
  unfold saturatingAdd maxRpcFrameBytes
  omega

theorem take_open : (holding line).take segment false = (holding (line ++ segment), none) := by
  unfold holding
  rw [length_append]
  split
  · rw [take]
    by_cases hfits : line.length + segment.length ≤ maxRpcFrameBytes
    · rw [if_neg (mt exceeds_iff.mp (not_lt.mpr hfits)), if_pos hfits]
      rfl
    · rw [if_pos (exceeds_iff.mpr (Nat.lt_of_not_le hfits)), if_neg hfits]
      rfl
  · rw [if_neg (by omega)]
    rfl

theorem take_closed : (holding line).take (segment ++ [lf]) true = (new, some (frame (line ++ segment))) := by
  unfold holding frame
  have hlength : line.length + (segment ++ [lf]).length = (line ++ segment).length + 1 := by
    simp only [length_append, length_singleton]
    omega
  split
  · rw [take]
    by_cases hfits : (line ++ segment).length + 1 ≤ maxRpcFrameBytes
    · rw [if_neg (mt exceeds_iff.mp (by rw [hlength]; omega)), if_pos hfits, append_assoc]
      rfl
    · rw [if_pos (exceeds_iff.mpr (by rw [hlength]; omega)), if_neg hfits]
      rfl
  · rw [if_neg (by rw [length_append]; omega)]
    rfl

theorem readFrom_closed (h : lf ∉ segment) :
    readFrom line (segment ++ lf :: tail) = (line ++ segment) :: read tail := by
  rw [readFrom_concat, readFrom_of_notMem h, openLine_of_notMem h]
  rfl

theorem openLine_line : openLine line (segment ++ lf :: tail) = openLine [] tail := by
  rw [openLine_concat, openLine, if_pos rfl]

variable {σ ε : Type} (handle : σ → Frame → Except ε σ)

/-- **A chunk** continues the line that is open. -/
theorem push_holding (line input : Bytes) (s : σ) :
    push handle (holding line) input s = (((readFrom line input).map frame).foldlM handle s).map
      fun s' => (holding (openLine line input), s') := by
  induction hlength : input.length using Nat.strongRecOn generalizing line input s with
  | ind n ih =>
  by_cases hempty : input = []
  · rw [push, hempty]
    rfl
  rw [push, dif_neg hempty]
  by_cases hmem : lf ∈ input
  · obtain ⟨segment, tail, rfl, hsegment⟩ := eq_append_cons_of_mem hmem
    have hindex : (segment ++ lf :: tail).idxOf? lf = some segment.length := by
      refine idxOf?_eq_some_iff.mpr ⟨by simp, by simp, fun j hj heq => hsegment ?_⟩
      rw [getElem_append_left hj] at heq
      exact heq ▸ getElem_mem hj
    have htake : (segment ++ lf :: tail).take (segment.length + 1) = segment ++ [lf] := by
      simp [take_append]
    have hdrop : (segment ++ lf :: tail).drop (segment.length + 1) = tail := by
      simp
    have htail : tail.length < n := by
      rw [← hlength, length_append, length_cons]
      omega
    simp only [consumed, hindex, elim_some, isSome_some, htake, hdrop, take_closed]
    rw [readFrom_closed hsegment, openLine_line, map_cons, foldlM_cons]
    cases handle s (frame (line ++ segment)) with
    | error e => rfl
    | ok s' => exact ih _ htail [] tail s' rfl
  · have hindex := idxOf?_eq_none_iff.mpr hmem
    simp only [consumed, hindex, elim_none, isSome_none, take_length, drop_length, take_open]
    rw [readFrom_of_notMem hmem, openLine_of_notMem hmem]
    show push handle (holding (line ++ input)) [] s = _
    rw [push]
    rfl

theorem pushAll_holding (chunks : List Bytes) (line : Bytes) (s : σ) :
    pushAll handle (holding line) chunks s = (((readFrom line chunks.flatten).map frame).foldlM handle s).map
      fun s' => (holding (openLine line chunks.flatten), s') := by
  induction chunks generalizing line s with
  | nil => rfl
  | cons chunk rest ih =>
    rw [pushAll, foldlM_cons, push_holding, flatten_cons, readFrom_concat, openLine_concat,
      map_append, foldlM_append]
    cases ((readFrom line chunk).map frame).foldlM handle s with
    | error e => rfl
    | ok s' => exact ih (openLine line chunk) s'

/-- **The handler gets the frames of the whole stream**, however it is cut into chunks, until it fails; the
line that is still open is buffered, within the limit. -/
theorem pushAll_frames (chunks : List Bytes) (s : σ) :
    pushAll handle new chunks s = ((frames chunks.flatten).foldlM handle s).map
        (fun s' => (holding (openLine [] chunks.flatten), s')) ∧
      ∀ buffer s', pushAll handle new chunks s = .ok (buffer, s') → buffer.bytes.length ≤ maxRpcFrameBytes := by
  have hframes := pushAll_holding handle chunks [] s
  refine ⟨hframes, fun buffer s' hok => ?_⟩
  rw [show new = holding [] from rfl, hframes] at hok
  cases hrun : ((readFrom [] chunks.flatten).map frame).foldlM handle s with
  | error e => exact absurd hok (by rw [hrun]; exact nofun)
  | ok last =>
    rw [hrun] at hok
    obtain ⟨rfl, -⟩ := Prod.mk.inj (Except.ok.inj hok)
    exact bytes_holding _

end FrameBuffer
end Lector.ProcServer
