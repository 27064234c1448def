import Lector.Foundations.Bytes

/-! The focus-mode query at startup (`locate_focus_mode_report` and `separate_focus_mode_report_input` in
`src/main.rs`): which replies it takes out of the input that it has read along with them. -/
namespace Lector.FocusMode
open Bytes List
open Option hiding all_eq_true

/-! ## Taking replies out -/

def focusPrefix : Bytes := ascii "\x1b[?1004;"

def statedMode : Nat → Option Bool
  | 1 | 3 => some true
  | 2 | 4 => some false
  | _ => none

/-- The report at the front of the bytes: its length and what it states. -/
def reportHere (buf : Bytes) : Option (Nat × Bool) := do
  let rest ← stripPrefix focusPrefix buf
  let digits := rest.takeWhile isDigit
  match rest.dropWhile isDigit with
  | 0x24 :: 0x79 :: _ =>
    let code ← parseUnsigned (2 ^ 8) digits
    let enabled ← statedMode code
    some (focusPrefix.length + digits.length + 2, enabled)
  | _ => none

def locateFocusModeReport : Bytes → Option (Nat × Nat × Bool)
  | [] => none
  | byte :: buf =>
    match reportHere (byte :: buf) with
    | some (length, enabled) => some (0, length, enabled)
    | none => (locateFocusModeReport buf).map fun (start, stop, enabled) => (start + 1, stop + 1, enabled)

structure FocusModeQueryResult where
  wasEnabled : Option Bool
  pendingInput : Bytes
deriving DecidableEq

/-- The loop, once for each report; no report is empty. -/
def separateLoop : (fuel : Nat) → (remaining pendingInput : Bytes) → (wasEnabled : Option Bool) →
    FocusModeQueryResult
  | 0, remaining, pendingInput, wasEnabled => ⟨wasEnabled, pendingInput ++ remaining⟩
  | fuel + 1, remaining, pendingInput, wasEnabled =>
    match locateFocusModeReport remaining with
    | none => ⟨wasEnabled, pendingInput ++ remaining⟩
    | some (start, stop, enabled) =>
      separateLoop fuel (remaining.drop stop) (pendingInput ++ remaining.take start)
        (wasEnabled.or (some enabled))

def separateFocusModeReportInput (buf : Bytes) : FocusModeQueryResult := separateLoop buf.length buf [] none

/-! ## Replies among typed bytes -/

/-- A report whose status states a mode. -/
def IsReport (report : Bytes) : Prop :=
  ∃ digits, digits.all isDigit = true ∧ (statedMode (digitsValue digits)).isSome = true ∧
    report = focusPrefix ++ digits ++ [0x24, 0x79]

def NoReport (typed : Bytes) : Prop := ∀ report, IsReport report → ¬ report <:+: typed

/-- The statuses that the terminal can answer with. -/
inductive Status
  | notRecognised
  | set
  | reset
  | permanentlySet
  | permanentlyReset
deriving DecidableEq

namespace Status

def code : Status → UInt8
  | notRecognised => 0x30
  | set => 0x31
  | reset => 0x32
  | permanentlySet => 0x33
  | permanentlyReset => 0x34

def mode : Status → Option Bool
  | notRecognised => none
  | set | permanentlySet => some true
  | reset | permanentlyReset => some false

def reply (status : Status) : Bytes := focusPrefix ++ [status.code, 0x24, 0x79]

end Status

variable (parts : List (Bytes × Status)) (last : Bytes)

/-- Typed bytes, each time followed by a reply, and what is typed after the last one. -/
def received : Bytes :=
  (parts.flatMap fun (typed, status) => typed ++ status.reply) ++ last

def typedBytes : Bytes := parts.flatMap Prod.fst ++ last

def firstStated : Option Bool := parts.findSome? fun part => part.2.mode

/-! ## Where a report is found -/

theorem reportHere_isReport {buf : Bytes} {found : Nat × Bool} (h : reportHere buf = some found) :
    ∃ report rest, IsReport report ∧ buf = report ++ rest := by
  simp only [reportHere, bind_eq_bind, bind_eq_some_iff] at h
  obtain ⟨rest, hprefix, h⟩ := h
  rw [stripPrefix_eq_some] at hprefix
  split at h
  · rename_i after hafter
    simp only [bind_eq_some_iff] at h
    obtain ⟨code, hcode, enabled, hmode, -⟩ := h
    have hvalue : digitsValue (rest.takeWhile isDigit) = code := by
      have hplus : stripPrefix (ascii "+") (rest.takeWhile isDigit) = none := by
        rw [eq_none_iff_forall_ne_some]
        intro others hstrip
        have hmem : (0x2b : UInt8) ∈ rest.takeWhile isDigit := by
          rw [(stripPrefix_eq_some _ _ _).mp hstrip]
          exact mem_append_left _ (by decide)
        cases mem_takeWhile_imp hmem
      rw [parseUnsigned, hplus] at hcode
      split at hcode
      · cases hcode
      · exact (ite_none_right_eq_some.mp hcode).2 |> some.inj
    refine ⟨focusPrefix ++ rest.takeWhile isDigit ++ [0x24, 0x79], after,
      ⟨_, all_takeWhile, by rw [hvalue, hmode]; rfl, rfl⟩, ?_⟩
    have hrest : rest = rest.takeWhile isDigit ++ 0x24 :: 0x79 :: after := by
      rw [← hafter, takeWhile_append_dropWhile]
    rw [ hprefix, append_assoc]
    exact congrArg _ hrest
  · cases h

theorem IsReport.esc {report : Bytes} (h : IsReport report) :
    ∃ rest, report = Bytes.esc :: rest ∧ Bytes.esc ∉ rest := by
  obtain ⟨digits, hdigits, -, rfl⟩ := h
  refine ⟨ascii "[?1004;" ++ digits ++ [0x24, 0x79], rfl, ?_⟩
  have hnone : Bytes.esc ∉ digits := fun hmem => absurd (all_eq_true.mp hdigits _ hmem) (by decide)
  have hfirst : Bytes.esc ∉ ascii "[?1004;" := by decide +kernel
  have hlast : Bytes.esc ∉ ([0x24, 0x79] : Bytes) := by decide
  simp only [mem_append, hnone, hfirst, hlast, or_false, not_false_eq_true]

theorem reportHere_of_ne_esc {byte : UInt8} (h : byte ≠ esc) (buf : Bytes) :
    reportHere (byte :: buf) = none := by
  rw [eq_none_iff_forall_ne_some]
  intro found hfound
  obtain ⟨report, rest, hreport, heq⟩ := reportHere_isReport hfound
  obtain ⟨others, rfl, -⟩ := hreport.esc
  exact h (cons.inj heq).1

/-- Text that moves the next report along. -/
def shift (count : Nat) : Nat × Nat × Bool → Nat × Nat × Bool
  | (start, stop, enabled) => (start + count, stop + count, enabled)

theorem locate_cons {byte : UInt8} {buf : Bytes} (h : reportHere (byte :: buf) = none) :
    locateFocusModeReport (byte :: buf) = (locateFocusModeReport buf).map (shift 1) := by
  rw [locateFocusModeReport, h]
  rfl

theorem map_shift_shift (found : Option (Nat × Nat × Bool)) (m n : Nat) :
    (found.map (shift m)).map (shift n) = found.map (shift (m + n)) := by
  cases found with
  | none => rfl
  | some found => simp [shift, add_assoc]

theorem locate_append {text buf : Bytes}
    (h : ∀ byte rest, byte :: rest <:+ text → reportHere (byte :: (rest ++ buf)) = none) :
    locateFocusModeReport (text ++ buf) = (locateFocusModeReport buf).map (shift text.length) := by
  induction text with
  | nil =>
    rw [nil_append]
    cases locateFocusModeReport buf <;> rfl
  | cons byte text ih =>
    rw [cons_append, locate_cons (h byte text suffix_rfl),
      ih fun other rest hsuffix => h other rest (hsuffix.trans (suffix_cons _ _)), map_shift_shift,
      length_cons]

/-- Nothing is found in front of the end or of an escape where no report is typed. -/
theorem locate_typed {typed : Bytes} (h : NoReport typed) {buf : Bytes}
    (hbuf : buf = [] ∨ ∃ rest, buf = esc :: rest) :
    locateFocusModeReport (typed ++ buf) = (locateFocusModeReport buf).map (shift typed.length) := by
  refine locate_append fun byte more hsuffix => ?_
  rw [eq_none_iff_forall_ne_some]
  intro found hfound
  obtain ⟨report, rest, hreport, heq⟩ := reportHere_isReport hfound
  rw [← cons_append, append_eq_append_iff] at heq
  obtain ⟨between, hend, hfront⟩ | ⟨between, hend, -⟩ := heq
  · obtain ⟨others, hothers, hnone⟩ := hreport.esc
    cases between with
    | nil =>
      rw [append_nil] at hend
      exact h report hreport (hend ▸ hsuffix.isInfix)
    | cons first between =>
      -- the report would go on with the escape of the next one
      obtain rfl | ⟨next, rfl⟩ := hbuf
      · cases hfront
      · obtain ⟨rfl, -⟩ := cons.inj hfront
        rw [hothers] at hend
        exact hnone ((cons.inj hend).2 ▸ mem_append_right _ mem_cons_self)
  · exact h report hreport ((hend ▸ prefix_append _ _ : report <+: byte :: more).isInfix.trans hsuffix.isInfix)

theorem locate_reply (status : Status) (buf : Bytes) : locateFocusModeReport (status.reply ++ buf) =
      match status.mode with
      | some enabled => some (0, status.reply.length, enabled)
      | none => (locateFocusModeReport buf).map (shift status.reply.length) := by
  cases status with
  | notRecognised =>
    have hnone : esc ∉ ascii "[?1004;0$y" := by decide +kernel
    have hrest : locateFocusModeReport (ascii "[?1004;0$y" ++ buf) = _ :=
      locate_append fun byte rest hsuffix => reportHere_of_ne_esc (fun heq =>
        hnone (hsuffix.subset (heq ▸ mem_cons_self))) _
    show locateFocusModeReport (esc :: (ascii "[?1004;0$y" ++ buf)) = _
    rw [locate_cons rfl, hrest, map_shift_shift]
    rfl
  | _ => rfl

/-! ## The whole input -/

/-- What stays in the input: the typed bytes, and the replies that state no mode. -/
def leftover : Bytes :=
  (parts.flatMap fun (typed, status) => typed ++ if status.mode.isSome then [] else status.reply) ++ last

/-- Text in which nothing is found, whatever is typed behind it. -/
def Quiet (before : Bytes) : Prop :=
  ∀ typed, NoReport typed → ∀ buf, (buf = [] ∨ ∃ rest, buf = esc :: rest) →
    locateFocusModeReport (before ++ typed ++ buf) =
      (locateFocusModeReport buf).map (shift (before ++ typed).length)

theorem quiet_nil : Quiet [] := fun _ h _ hbuf => locate_typed h hbuf

theorem Quiet.notRecognised {before typed : Bytes} (h : Quiet before) (htyped : NoReport typed) :
    Quiet (before ++ typed ++ Status.notRecognised.reply) := by
  intro more hmore buf hbuf
  rw [append_assoc, append_assoc (before ++ typed),
    h typed htyped (Status.notRecognised.reply ++ (more ++ buf)) (.inr ⟨_, rfl⟩), locate_reply]
  show ((locateFocusModeReport (more ++ buf)).map _).map _ = _
  rw [locate_typed hmore hbuf, map_shift_shift, map_shift_shift]
  congr 2
  simp only [length_append]
  omega

theorem separateLoop_received {parts : List (Bytes × Status)}
    (htyped : ∀ part ∈ parts, NoReport part.1) (hlast : NoReport last) {before : Bytes}
    (hquiet : Quiet before) (fuel : Nat) (hfuel : parts.length ≤ fuel) (pending : Bytes)
    (was : Option Bool) : separateLoop fuel (before ++ received parts last) pending was =
      ⟨was.or (firstStated parts), pending ++ before ++ leftover parts last⟩ := by
  induction parts generalizing before fuel pending was with
  | nil =>
    have hnone : locateFocusModeReport (before ++ last) = none := by
      have h := hquiet last hlast [] (.inl rfl)
      rwa [append_nil] at h
    cases fuel with
    | zero => simp [separateLoop, received, leftover, firstStated]
    | succ fuel => simp [separateLoop, received, leftover, firstStated, hnone]
  | cons part parts ih =>
    obtain ⟨typed, status⟩ := part
    obtain ⟨hfirst, hothers⟩ := forall_mem_cons.mp htyped
    have hsplit : received ((typed, status) :: parts) last =
        typed ++ (status.reply ++ received parts last) := by simp [received]
    have hfound := hquiet typed hfirst (status.reply ++ received parts last) (.inr ⟨_, rfl⟩)
    rw [locate_reply] at hfound
    cases hmode : status.mode with
    | none =>
      obtain rfl : status = .notRecognised := by cases status <;> first | rfl | cases hmode
      rw [hsplit, ← append_assoc, ← append_assoc,
        ih hothers (hquiet.notRecognised hfirst) fuel (Nat.le_of_succ_le hfuel)]
      simp [firstStated, leftover, Status.mode]
    | some enabled =>
      cases fuel with
      | zero => cases hfuel
      | succ fuel =>
        rw [hmode] at hfound
        rw [hsplit, ← append_assoc, separateLoop, hfound]
        simp only [map_some, shift, zero_add]
        have htake : (before ++ typed ++ (status.reply ++ received parts last)).take
            (before ++ typed).length = before ++ typed := take_left
        have hdrop : (before ++ typed ++ (status.reply ++ received parts last)).drop
            (status.reply.length + (before ++ typed).length) = [] ++ received parts last := by
          rw [add_comm, ← drop_drop, drop_left, drop_left, nil_append]
        rw [htake, hdrop, ih hothers quiet_nil fuel (Nat.le_of_succ_le_succ hfuel)]
        simp [firstStated, leftover, hmode]

/-- **The mode is that of the first reply that states one, and the pending input is what was typed together
with the replies of a terminal that does not know the mode.** -/
theorem separate_received {parts : List (Bytes × Status)} {last : Bytes}
    (htyped : ∀ part ∈ parts, NoReport part.1) (hlast : NoReport last) :
    separateFocusModeReportInput (received parts last) = ⟨firstStated parts, leftover parts last⟩ := by
  have hfuel : parts.length ≤ (received parts last).length := by
    induction parts with
    | nil => exact Nat.zero_le _
    | cons part parts ih =>
      have h := ih (fun other hother => htyped other (mem_cons_of_mem _ hother))
      simp only [received, flatMap_cons, length_append, length_cons, Status.reply] at h ⊢
      omega
  have h := separateLoop_received last htyped hlast quiet_nil _ hfuel [] none
  simpa [separateFocusModeReportInput] using h

theorem typedBytes_length_le : (typedBytes parts last).length ≤ (leftover parts last).length := by
  induction parts with
  | nil => exact le_rfl
  | cons part parts ih =>
    simp only [typedBytes, leftover, flatMap_cons, length_append] at ih ⊢
    omega

theorem leftover_eq_typedBytes :
    leftover parts last = typedBytes parts last ↔ ∀ part ∈ parts, part.2 ≠ .notRecognised := by
  induction parts with
  | nil => simp [leftover, typedBytes]
  | cons part parts ih =>
    obtain ⟨typed, status⟩ := part
    have hleft : leftover ((typed, status) :: parts) last =
        typed ++ ((if status.mode.isSome then [] else status.reply) ++ leftover parts last) := by
      simp [leftover]
    have htyped : typedBytes ((typed, status) :: parts) last = typed ++ typedBytes parts last := by
      simp [typedBytes]
    rw [hleft, htyped, append_cancel_left_eq, forall_mem_cons, ← ih]
    have hlength := typedBytes_length_le parts last
    cases status with
    | notRecognised =>
      refine iff_of_false (fun heq => ?_) fun h => h.1 rfl
      have hsame := congrArg length heq
      rw [length_append] at hsame
      have hpos : (if Status.notRecognised.mode.isSome then [] else Status.notRecognised.reply).length = 11 := rfl
      omega
    | _ => exact ⟨fun h => ⟨nofun, h⟩, fun h => h.2⟩

/-- **Only what was typed stays, and the mode is the first one stated, exactly if no reply says that the mode
is not recognised.** -/
theorem separate_keeps_typed_iff {parts : List (Bytes × Status)} {last : Bytes}
    (htyped : ∀ part ∈ parts, NoReport part.1) (hlast : NoReport last) :
    separateFocusModeReportInput (received parts last) = ⟨firstStated parts, typedBytes parts last⟩ ↔
      ∀ part ∈ parts, part.2 ≠ .notRecognised := by
  rw [separate_received htyped hlast, ← leftover_eq_typedBytes parts last,
    FocusModeQueryResult.mk.injEq, and_iff_right rfl]

theorem separate_keeps_typed_set : separateFocusModeReportInput (received [(ascii "l", .set)] (ascii "s")) =
        ⟨firstStated [(ascii "l", .set)], typedBytes [(ascii "l", .set)] (ascii "s")⟩ ↔
      ∀ part ∈ [(ascii "l", Status.set)], part.2 ≠ .notRecognised := by
  have hquiet : ∀ typed : Bytes, esc ∉ typed → NoReport typed := by
    intro typed hnone report hreport hinfix
    obtain ⟨rest, rfl, -⟩ := hreport.esc
    exact hnone ( hinfix.subset mem_cons_self)
  exact separate_keeps_typed_iff (forall_mem_singleton.mpr (hquiet _ (by decide))) (hquiet _ (by decide))

/-- A terminal that does not know the mode types its answer into the shell. -/
theorem separate_forwards_reply :
    let result := separateFocusModeReportInput (received [(ascii "l", .notRecognised)] (ascii "s"))
    result.pendingInput = ascii "l\x1b[?1004;0$ys" ∧
      result ≠ ⟨firstStated [(ascii "l", .notRecognised)], typedBytes [(ascii "l", .notRecognised)] (ascii "s")⟩ := by
  decide +kernel

end Lector.FocusMode
