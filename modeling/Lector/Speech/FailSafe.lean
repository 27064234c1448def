import Lector.Foundations.Execution
import Lector.Speech.Supervision

/-! What every run of the speech supervisor keeps: no request twice, no process after the end, the rate
before the speech. -/
namespace Lector.Speech
open List Option Deed Bool

/-! ## A started supervisor runs a process or is fatal -/

namespace Supervisor

variable {world : World} {self : Supervisor}

def Steady (self : Supervisor) : Prop := self.started = true → self.fatalError = none → self.active ≠ none

theorem enterFatal_steady (self : Supervisor) (message : String) : (self.enterFatal message).Steady := by
  intro _ hnone
  unfold enterFatal at hnone
  split at hnone
  · rename_i hsome
    rw [hnone] at hsome
    cases hsome
  · cases hnone

theorem recoverAfterTransportFailure_steady (self : Supervisor) (failure : String) :
    (self.recoverAfterTransportFailure world failure).2.Steady := by
  unfold recoverAfterTransportFailure
  dsimp only
  split
  · exact enterFatal_steady _ _
  · split
    · exact fun _ _ => some_ne_none _
    · exact enterFatal_steady _ _

theorem callActive_steady (self : Supervisor) (h : self.Steady) (number : Nat) (call : Call) :
    (self.callActive world number call).2.Steady := by
  unfold callActive
  cases havailable : self.ensureAvailable with
  | error error => exact h
  | ok process =>
    dsimp only [invoke]
    cases hreply : world.reply self.log.length with
    | none => exact h
    | some failure =>
      dsimp only
      split
      · exact h
      · split <;> rename_i hresult
        · exact congrArg Prod.snd hresult ▸ recoverAfterTransportFailure_steady _ _
        · exact congrArg Prod.snd hresult ▸ recoverAfterTransportFailure_steady _ _

theorem flushPendingSpeechFrom_steady (self : Supervisor) (h : self.Steady) (rounds : Nat) :
    (self.flushPendingSpeechFrom world rounds).2.Steady := by
  induction rounds generalizing self with
  | zero => exact h
  | succ rounds ih =>
    unfold flushPendingSpeechFrom
    split
    · exact h
    · rename_i pending rest hpending
      have hcall : Steady (callActive world { self with
          pendingSpeech := rest
          pendingSpeechBytes := self.pendingSpeechBytes - pending.text.utf8ByteSize }
          pending.number (.speak pending.text pending.interrupt)).2 := by
        refine callActive_steady _ ?_ _ _
        exact h
      dsimp only
      split
      · rename_i after hresult
        rw [hresult] at hcall
        exact ih after hcall
      · rename_i error after hresult
        rw [hresult] at hcall
        split
        · exact hcall
        · exact ih after hcall

theorem spawnReady_frame (world : World) (self : Supervisor) (spec : SpeechServerSpec) :
    ∃ generation log, (self.spawnReady world spec).2 =
      { self with nextGeneration := generation, log } := by
  unfold spawnReady
  split
  · exact ⟨_, _, rfl⟩
  · cases world.spawn self.log.length with
    | some error => exact ⟨_, _, rfl⟩
    | none =>
      dsimp only
      split
      · exact ⟨_, _, rfl⟩
      · split <;> rename_i hresult <;> obtain ⟨-, rfl⟩ := Prod.mk.inj hresult <;> exact ⟨_, _, rfl⟩

theorem startup_steady (self : Supervisor) (h : self.Steady) : (self.startup world).2.Steady := by
  unfold startup
  split
  · exact h
  · split
    · exact h
    · obtain ⟨generation, log, hstate⟩ := spawnReady_frame world self self.spec
      split
      · exact flushPendingSpeechFrom_steady _ (fun _ _ => some_ne_none _) _
      · rename_i firstError after hresult
        rw [hresult] at hstate
        obtain rfl : after = _ := hstate
        obtain ⟨generation', log', hstate⟩ := spawnReady_frame world
          { self with nextGeneration := generation, log } self.spec
        split
        · exact flushPendingSpeechFrom_steady _ (fun _ _ => some_ne_none _) _
        · rename_i secondError after hresult
          rw [hresult] at hstate
          obtain rfl : after = _ := hstate
          exact h

theorem reconfigure_error (self : Supervisor) {spec : SpeechServerSpec} {error : DriverError} {after : Supervisor}
    (h : self.reconfigure world spec = (.error error, after)) :
    after.active = self.active ∧ after.spec = self.spec := by
  unfold reconfigure at h
  split at h
  · split at h
    · cases h
      exact ⟨rfl, rfl⟩
    · cases h
  · split at h
    · cases h
      exact ⟨rfl, rfl⟩
    · obtain ⟨generation, log, hstate⟩ := spawnReady_frame world self spec
      split at h
      · cases h
      · rename_i failure spawned hresult
        rw [hresult] at hstate
        obtain rfl : spawned = _ := hstate
        cases h
        exact ⟨rfl, rfl⟩

theorem reconfigure_steady (self : Supervisor) (h : self.Steady) (spec : SpeechServerSpec) :
    (self.reconfigure world spec).2.Steady := by
  unfold reconfigure
  split
  · split
    · exact h
    · exact h
  · split
    · exact h
    · obtain ⟨generation, log, hstate⟩ := spawnReady_frame world self spec
      split
      · exact fun _ _ => some_ne_none _
      · rename_i failure spawned hresult
        rw [hresult] at hstate
        obtain rfl : spawned = _ := hstate
        exact h

theorem bufferSpeech_steady (self : Supervisor) (h : self.Steady) (number : Nat) (text : String)
    (interrupt : Bool) : (self.bufferSpeech number text interrupt).Steady := by
  unfold bufferSpeech
  cases interrupt with
  | true => exact h
  | false =>
    obtain ⟨kept, bytes, heq, -⟩ := evictPending_waiting self
      (boundedText text maxSpeechItemBytes).utf8ByteSize self.pendingSpeech.length
    rw [if_neg Bool.false_ne_true]
    dsimp only
    rw [heq]
    exact h

theorem handle_steady (self : Supervisor) (h : self.Steady) (request : Request) :
    (self.handle world request).2.Steady := by
  unfold handle
  cases request with
  | speak text interrupt =>
    dsimp only
    unfold speak
    split
    · exact h
    · split
      · split
        · exact h
        · exact bufferSpeech_steady (self.record (.receive (.speak text interrupt))) (by exact h) _ text interrupt
      · refine callActive_steady _ ?_ _ _
        exact h
  | stop =>
    dsimp only
    unfold stop
    split
    · exact h
    · refine callActive_steady _ ?_ _ _
      exact h
  | setRate rate =>
    dsimp only
    unfold setRate
    split
    · exact h
    · dsimp only
      split
      · exact h
      · refine callActive_steady _ ?_ _ _
        exact h
  | configureServer spec =>
    refine reconfigure_steady (self.record (.receive (.configureServer spec))) ?_ spec
    exact h
  | start completed =>
    refine startup_steady (self.record (.receive (.start completed))) ?_
    exact h

end Supervisor

/-! ## What the acts keep -/

/-- After the fatal notice there are only requests; after two crashes or a failed replacement no
start and no call; a process is called with the rate, and started once. -/
structure Lawful (world : World) (before : List Deed) (deed : Deed) : Prop where
  ends : (∃ earlier ∈ before, earlier.isFatal = true) → deed.isReceive = true
  restarts : ¬ Spaced world isCrash before → deed.isReceive = true ∨ deed.isFatal = true
  replaces : lost before = true → (∀ last, before.getLast? = some last → last.isCrash = false) →
    deed.starts = none ∧ deed.passes = none
  served : ∀ generation number call error, deed = .call generation (.request number) call error →
    Ready before generation
  generations : ∀ generation, deed.starts = some generation →
    ∀ earlier ∈ before, earlier.starts ≠ some generation

structure Sound (world : World) (core : Core) (taken : List SupervisorEvent) : Prop where
  fresh : core.started = false → core.fatalError = none
  running : core.active ≠ none → core.started = true
  lost : lost core.log = true → core.active = none ∧ core.started = true
  received : ∀ number ∈ core.passed ++ core.waiting, number < core.log.length
  unique : (core.passed ++ core.waiting).Nodup
  desired : core.desiredRate = desiredOf core.log
  generations : ∀ deed ∈ core.log, ∀ generation, deed.starts = some generation →
    generation < core.nextGeneration
  ready : ∀ generation, core.active = some generation → Ready core.log generation
  idle : core.fatalError ≠ none → core.active = none
  spaced : core.fatalError = none → Spaced world isCrash core.log
  lastCrash : core.fatalError = none → core.lastCrash = (timesOf world isCrash core.log).getLast?
  calm : core.fatalError = none → ∀ deed ∈ core.log, deed.isFatal = false
  notice : ∀ message, .emit (.fatal message) ∈ core.log → .fatal message ∈ taken ++ core.events
  lawful : Historic (Lawful world) core.log

namespace Sound

variable {world : World} {core : Core} {taken : List SupervisorEvent}

theorem lawful_receive (before : List Deed) (request : Request) : Lawful world before (.receive request) where
  ends _ := rfl
  restarts _ := Or.inl rfl
  replaces _ _ := ⟨rfl, rfl⟩
  served _ _ _ _ h := by cases h
  generations _ h := by cases h

theorem lawful_calm (h : Sound world core taken) (hfatal : core.fatalError = none) {deed : Deed}
    (hreplaces : Speech.lost core.log = true →
      (∀ last, core.log.getLast? = some last → last.isCrash = false) →
      deed.starts = none ∧ deed.passes = none)
    (hserved : ∀ generation number call error, deed = .call generation (.request number) call error →
      Ready core.log generation)
    (hgeneration : ∀ generation, deed.starts = some generation → core.nextGeneration ≤ generation) :
    Lawful world core.log deed where
  ends hended := by
    obtain ⟨earlier, hmem, hisFatal⟩ := hended
    exact absurd ((h.calm hfatal earlier hmem).symm.trans hisFatal) false_ne_true
  restarts hcrowded := absurd (h.spaced hfatal) hcrowded
  replaces := hreplaces
  served := hserved
  generations generation hstarts earlier hmem hearlier :=
    absurd (h.generations earlier hmem generation hearlier) (not_lt.mpr (hgeneration generation hstarts))

theorem passed_record (core : Core) (deed : Deed) :
    (core.record deed).passed = core.passed ++ deed.passes.toList := by
  show (core.log ++ [deed]).filterMap Deed.passes = _
  cases h : deed.passes <;> simp [Core.passed, h]

theorem length_record (core : Core) (deed : Deed) : (core.record deed).log.length = core.log.length + 1 :=
  length_append

section

variable (h : Sound world core taken)
include h

theorem record {deed : Deed} {next : Nat} (hpasses : deed.passes = none)
    (hcrash : deed.isCrash = false) (hcalm : deed.isFatal = false) (hnext : core.nextGeneration ≤ next)
    (hstarts : ∀ generation, deed.starts = some generation → generation < next)
    (hlawful : Lawful world core.log deed) : Sound world { core.record deed with
      desiredRate := deed.desired core.desiredRate, nextGeneration := next } taken where
  fresh := h.fresh
  running := h.running
  lost hlost := h.lost (lost_of_concat hlost hcrash)
  received number hmem := by
    have hmem : number ∈ (core.record deed).passed ++ core.waiting := hmem
    rw [passed_record, hpasses, toList_none, append_nil] at hmem
    rw [length_record]
    exact Nat.lt_succ_of_lt (h.received number hmem)
  unique := by
    show ((core.record deed).passed ++ core.waiting).Nodup
    rw [passed_record, hpasses, toList_none, append_nil]
    exact h.unique
  desired := by
    show deed.desired core.desiredRate = desiredOf (core.log ++ [deed])
    rw [desiredOf_concat, h.desired]
  generations found hmem generation hfound := by
    rcases mem_append.mp hmem with hmem | hmem
    · exact lt_of_lt_of_le (h.generations found hmem generation hfound) hnext
    · rw [mem_singleton.mp hmem] at hfound
      exact hstarts generation hfound
  ready generation hactive := (h.ready generation hactive).concat deed
  idle := h.idle
  spaced hfatal := by
    show Spaced world isCrash (core.log ++ [deed])
    rw [Spaced, timesOf_concat_other hcrash]
    exact h.spaced hfatal
  lastCrash hfatal := by
    show core.lastCrash = (timesOf world isCrash (core.log ++ [deed])).getLast?
    rw [timesOf_concat_other hcrash]
    exact h.lastCrash hfatal
  calm hfatal found hmem := by
    rcases mem_append.mp hmem with hmem | hmem
    · exact h.calm hfatal found hmem
    · rw [mem_singleton.mp hmem]
      exact hcalm
  notice message hmem := by
    rcases mem_append.mp hmem with hmem | hmem
    · exact h.notice message hmem
    · rw [← mem_singleton.mp hmem] at hcalm
      cases hcalm
  lawful := h.lawful.concat hlawful

theorem record_quiet (deed : Deed) (hpasses : deed.passes = none) (hcrash : deed.isCrash = false)
    (hcalm : deed.isFatal = false) (hstarts : deed.starts = none) (hlawful : Lawful world core.log deed) :
    Sound world { core.record deed with desiredRate := deed.desired core.desiredRate } taken :=
  h.record hpasses hcrash hcalm (le_rfl)
    (fun _ heq => absurd (hstarts.symm.trans heq) (some_ne_none _).symm) hlawful

theorem unique_spends {number : Nat} {waiting : List Nat}
    (hspends : core.Spends number waiting) : ((core.passed ++ [number]) ++ waiting).Nodup := by
  rcases hspends with ⟨hunspent, rfl⟩ | hwaiting
  · have hfresh : number ∉ core.passed ++ core.waiting := fun hmem =>
      (mem_append.mp hmem).elim hunspent.passed hunspent.waiting
    rw [append_assoc]
    exact (perm_middle.nodup_iff).mpr (nodup_cons.mpr ⟨hfresh, h.unique⟩)
  · rw [append_assoc, singleton_append, ← hwaiting]
    exact h.unique

theorem received_spends {number : Nat} {waiting : List Nat} (hspends : core.Spends number waiting) :
    ∀ found ∈ (core.passed ++ [number]) ++ waiting, found < core.log.length + 1 := by
  intro found hmem
  refine Nat.lt_succ_of_lt ?_
  rcases hspends with ⟨hunspent, rfl⟩ | hwaiting
  · rw [append_assoc, singleton_append, mem_append, mem_cons] at hmem
    rcases hmem with hmem | rfl | hmem
    · exact h.received found (mem_append_left _ hmem)
    · exact hunspent.received
    · exact h.received found (mem_append_right _ hmem)
  · rw [append_assoc, singleton_append, ← hwaiting] at hmem
    exact h.received found hmem

end

/-- What holds of the log and the requests while nothing fatal has happened. -/
structure Written (world : World) (core : Core) : Prop where
  received : ∀ number ∈ core.passed ++ core.waiting, number < core.log.length
  unique : (core.passed ++ core.waiting).Nodup
  desired : core.desiredRate = desiredOf core.log
  generations : ∀ deed ∈ core.log, ∀ generation, deed.starts = some generation →
    generation < core.nextGeneration
  calm : ∀ deed ∈ core.log, deed.isFatal = false
  lawful : Historic (Lawful world) core.log

theorem pass (h : Sound world core taken) {generation number : Nat} {waiting : List Nat}
    (hactive : core.active = some generation) (hfatal : core.fatalError = none)
    (hspends : core.Spends number waiting) (call : Call) (error : Option DriverError) :
    Written world { core.record (.call generation (.request number) call error) with waiting } := by
  have hpassed : (core.record (.call generation (.request number) call error)).passed =
      core.passed ++ [number] := passed_record core _
  refine ⟨?_, ?_, ?_, ?_, ?_, ?_⟩
  · show ∀ found ∈ (core.record (.call generation (.request number) call error)).passed ++ waiting, _
    rw [hpassed]
    intro found hmem
    rw [length_record]
    exact h.received_spends hspends found hmem
  · show ((core.record (.call generation (.request number) call error)).passed ++ waiting).Nodup
    rw [hpassed]
    exact h.unique_spends hspends
  · show core.desiredRate = desiredOf (core.log ++ [_])
    rw [desiredOf_concat]
    exact h.desired
  · intro deed hmem found hfound
    rcases mem_append.mp hmem with hmem | hmem
    · exact h.generations deed hmem found hfound
    · rw [mem_singleton.mp hmem] at hfound
      cases hfound
  · intro deed hmem
    rcases mem_append.mp hmem with hmem | hmem
    · exact h.calm hfatal deed hmem
    · rw [mem_singleton.mp hmem]
      rfl
  · refine h.lawful.concat (h.lawful_calm hfatal (fun hlost _ => ?_)
      (fun found request made outcome heq => ?_) fun _ h => by cases h)
    · rw [(h.lost hlost).1] at hactive
      cases hactive
    · cases heq
      exact h.ready generation hactive

theorem pairwise_of_restartAllowed {times : List Nat} {now : Nat}
    (h : times.Pairwise fun a b => a + crashWindow ≤ b) (hallowed : restartAllowed times.getLast? now = true) :
    (times ++ [now]).Pairwise fun a b => a + crashWindow ≤ b := by
  refine pairwise_append.mpr ⟨h, pairwise_singleton _ _, fun a ha b hb => ?_⟩
  rw [mem_singleton.mp hb]
  rcases eq_nil_or_concat times with rfl | ⟨rest, last, rfl⟩
  · cases ha
  · rw [concat_eq_append, getLast?_concat, restartAllowed, all_some, and_eq_true,
      decide_eq_true_eq, decide_eq_true_eq] at hallowed
    rw [concat_eq_append] at ha h
    have hlast : a ≤ last := by
      rcases mem_append.mp ha with hmem | hmem
      · have := (pairwise_append.mp h).2.2 a hmem last (mem_singleton_self _)
        omega
      · exact le_of_eq (mem_singleton.mp hmem)
    omega

theorem fatal_mem_pushed (events : List SupervisorEvent) (event : SupervisorEvent) (taken : List SupervisorEvent) :
    event ∈ taken ++ ((if events.length = maxEvents then events.tail else events) ++ [event]) :=
  mem_append_right _ (mem_append_right _ (mem_singleton_self _))

theorem last {core : Core} (h : Written world core) (hactive : core.active = none)
    (hstarted : core.started = true) (message : String) :
    Sound world ({ core with fatalError := some message }.pushEvent (.fatal message)) taken where
  fresh hfresh := absurd (hfresh.symm.trans hstarted) false_ne_true
  running _ := hstarted
  lost _ := ⟨hactive, hstarted⟩
  received number hmem := by
    have hpasses : (Deed.emit (.fatal message)).passes = none := rfl
    have hmem : number ∈ (core.record (.emit (.fatal message))).passed ++ core.waiting := hmem
    rw [passed_record, hpasses, toList_none, append_nil] at hmem
    show number < (core.record (.emit (.fatal message))).log.length
    rw [length_record]
    exact Nat.lt_succ_of_lt (h.received number hmem)
  unique := by
    have hpasses : (Deed.emit (.fatal message)).passes = none := rfl
    show ((core.record (.emit (.fatal message))).passed ++ core.waiting).Nodup
    rw [passed_record, hpasses, toList_none, append_nil]
    exact h.unique
  desired := by
    show core.desiredRate = desiredOf (core.log ++ [_])
    rw [desiredOf_concat]
    exact h.desired
  generations deed hmem generation hstarts := by
    rcases mem_append.mp hmem with hmem | hmem
    · exact h.generations deed hmem generation hstarts
    · rw [mem_singleton.mp hmem] at hstarts
      cases hstarts
  ready generation hrunning := absurd (hactive.symm.trans hrunning) (some_ne_none _).symm
  idle _ := hactive
  spaced hnone := absurd hnone (some_ne_none _)
  lastCrash hnone := absurd hnone (some_ne_none _)
  calm hnone := absurd hnone (some_ne_none _)
  notice found hmem := by
    rcases mem_append.mp hmem with hmem | hmem
    · exact absurd (h.calm _ hmem) (by simp [Deed.isFatal, SupervisorEvent.isFatal])
    · cases mem_singleton.mp hmem
      exact fatal_mem_pushed _ _ _
  lawful := h.lawful.concat {
    ends := fun hended => by
      obtain ⟨earlier, hmem, hfatal⟩ := hended
      exact absurd ((h.calm earlier hmem).symm.trans hfatal) false_ne_true
    restarts := fun _ => .inr rfl
    replaces := fun _ _ => ⟨rfl, rfl⟩
    served := fun _ _ _ _ heq => by cases heq
    generations := fun _ heq => by cases heq }

/-- **Every act keeps the invariant.** -/
theorem act (h : Sound world core taken) {core' : Core} (act : Act world core core') :
    Sound world core' taken := by
  cases act with
  | receive request => exact h.record_quiet (.receive request) rfl rfl rfl rfl (lawful_receive _ _)
  | @discard waiting hwaiting =>
    have hsub := hwaiting.append_left core.passed
    exact { h with
      received := fun number hmem => h.received number (hsub.subset hmem)
      unique := h.unique.sublist hsub }
  | @buffer waiting number hwaiting hunspent =>
    have hsub := hwaiting.append_left core.passed
    have hfresh : number ∉ core.passed ++ waiting := fun hmem =>
      (mem_append.mp (hsub.subset hmem)).elim hunspent.passed hunspent.waiting
    refine { h with received := fun found hmem => ?_, unique := ?_ }
    · rw [← append_assoc] at hmem
      rcases mem_append.mp hmem with hmem | hmem
      · exact h.received found (hsub.subset hmem)
      · rw [mem_singleton.mp hmem]
        exact hunspent.received
    · rw [← append_assoc, nodup_append]
      refine ⟨h.unique.sublist hsub, by simp, fun a ha b hb heq => hfresh ?_⟩
      rw [← mem_singleton.mp hb, ← heq]
      exact ha
  | start spec error hfatal hattempt =>
    have hlawful : Lawful world core.log (.start core.nextGeneration spec error) := by
      refine h.lawful_calm hfatal (fun hlost hquiet => ?_) (fun _ _ _ _ heq => by cases heq)
        fun generation heq => ?_
      · obtain ⟨hactive, hstarted⟩ := h.lost hlost
        rcases eq_nil_or_concat core.log with hempty | ⟨rest, last, hlog⟩
        · rw [hempty] at hlost
          cases hlost
        · have hlast : core.log.getLast? = some last := by
            rw [hlog, concat_eq_append, getLast?_concat]
          exact absurd ((hattempt hstarted hactive last hlast).symm.trans (hquiet last hlast))
            false_ne_true.symm
      · cases heq
        exact le_rfl
    refine h.record rfl rfl rfl (Nat.le_succ _) (fun generation heq => ?_) hlawful
    cases heq
    exact Nat.lt_succ_self _
  | restore generation error hfatal =>
    exact h.record_quiet (.call generation .restore (.setRate core.desiredRate) error) rfl rfl rfl rfl
      (h.lawful_calm hfatal (fun _ _ => ⟨rfl, rfl⟩) (fun _ _ _ _ heq => by cases heq)
        fun _ heq => by cases heq)
  | @activate generation started hrestored hfatal hstarted =>
    obtain ⟨before, spec, hlog⟩ := hrestored
    refine { h with
      fresh := fun _ => hfatal
      running := fun _ => hstarted
      lost := fun hlost => ?_
      ready := fun found hfound => ?_
      idle := fun hne => ?_ }
    · rw [hlog, lost_concat] at hlost
      simp [isCrash, isRestored] at hlost
    · cases hfound
      have hdesired := h.desired
      rw [hlog, desiredOf_concat, desiredOf_concat] at hdesired
      refine ⟨before, spec, [], ?_⟩
      rw [hlog, hdesired, append_assoc]
      rfl
    · exact absurd hfatal hne
  | emit event hevent hfatal =>
    have hpushed : Sound world { core with
        events := (if core.events.length = maxEvents then core.events.tail else core.events) ++ [event] }
        taken :=
      { h with
        notice := fun message hmem => absurd (h.calm hfatal _ hmem)
          (by simp [Deed.isFatal, SupervisorEvent.isFatal]) }
    exact hpushed.record_quiet (.emit event) rfl rfl hevent rfl
      (hpushed.lawful_calm hfatal (fun _ _ => ⟨rfl, rfl⟩) (fun _ _ _ _ heq => by cases heq)
        fun _ heq => by cases heq)
  | call call hactive hfatal hspends herror =>
    rename_i generation number waiting error
    have hpass := h.pass hactive hfatal hspends call error
    have hcrash : (Deed.call generation (.request number) call error).isCrash = false := by
      cases error with
      | none => rfl
      | some failure => exact herror failure rfl
    exact { h with
        lost := fun hlost => h.lost (lost_of_concat hlost hcrash)
        received := hpass.received
        unique := hpass.unique
        desired := hpass.desired
        generations := hpass.generations
        ready := fun found hfound => (h.ready found hfound).concat _
        notice := fun message hmem => absurd (hpass.calm _ hmem)
          (by simp [Deed.isFatal, SupervisorEvent.isFatal])
        spaced := fun _ => by
          show Spaced world isCrash (core.log ++ [_])
          rw [Spaced, timesOf_concat_other hcrash]
          exact h.spaced hfatal
        lastCrash := fun _ => by
          show core.lastCrash = (timesOf world isCrash (core.log ++ [_])).getLast?
          rw [timesOf_concat_other hcrash]
          exact h.lastCrash hfatal
        calm := fun _ => hpass.calm
        lawful := hpass.lawful }
  | crash call hactive hfatal hspends hfailure hallowed =>
    rename_i generation number waiting failure
    have hpass := h.pass hactive hfatal hspends call (some failure)
    have htimes := timesOf_concat world isCrash core.log
      (.call generation (.request number) call (some failure))
    have hisCrash : (Deed.call generation (.request number) call (some failure)).isCrash = true := hfailure
    rw [if_pos hisCrash] at htimes
    exact { h with
        running := fun hne => absurd rfl hne
        lost := fun _ => ⟨rfl, h.running (by rw [hactive]; exact some_ne_none _)⟩
        received := hpass.received
        unique := hpass.unique
        desired := hpass.desired
        generations := hpass.generations
        ready := fun found hfound => by cases hfound
        notice := fun message hmem => absurd (hpass.calm _ hmem)
          (by simp [Deed.isFatal, SupervisorEvent.isFatal])
        idle := fun _ => rfl
        spaced := fun _ => by
          show Spaced world isCrash (core.log ++ [_])
          rw [Spaced, htimes]
          rw [h.lastCrash hfatal] at hallowed
          exact pairwise_of_restartAllowed (h.spaced hfatal) hallowed
        lastCrash := fun _ => by
          show some _ = (timesOf world isCrash (core.log ++ [_])).getLast?
          rw [htimes, getLast?_concat]
        calm := fun _ => hpass.calm
        lawful := hpass.lawful }
  | doom call message hactive hfatal hspends hfailure hstarted hrefused =>
    rename_i generation number waiting failure
    have hpass := h.pass hactive hfatal hspends call (some failure)
    have hwritten : Written world { core.record (.call generation (.request number) call (some failure)) with
        waiting, active := none } :=
      ⟨hpass.received, hpass.unique, hpass.desired, hpass.generations, hpass.calm, hpass.lawful⟩
    exact last hwritten rfl hstarted message
  | lose message hactive hfatal hstarted =>
    exact last ⟨h.received, h.unique, h.desired, h.generations, h.calm hfatal, h.lawful⟩ hactive
      hstarted message

theorem acts (h : Sound world core taken) {core' : Core} (acts : Acts world core core') :
    Sound world core' taken := by
  induction acts with
  | refl => exact h
  | tail _ hact ih => exact ih.act hact

end Sound

/-! ## Runs -/

namespace Supervision

variable {world : World} {self : Supervision}

theorem initial_sound (world : World) (spec : SpeechServerSpec) :
    Sound world (initial spec).supervisor.core (initial spec).taken where
  fresh _ := rfl
  running h := absurd rfl h
  lost h := by cases h
  received _ hmem := absurd hmem not_mem_nil
  unique := nodup_nil
  desired := rfl
  generations _ hmem := absurd hmem not_mem_nil
  ready _ h := by cases h
  idle h := absurd rfl h
  spaced _ := Pairwise.nil
  lastCrash _ := rfl
  calm _ _ hmem := absurd hmem not_mem_nil
  notice _ hmem := absurd hmem not_mem_nil
  lawful := Historic.nil

theorem step_sound (h : Sound world self.supervisor.core self.taken) (event : SupervisionEvent) :
    Sound world (self.step world event).supervisor.core (self.step world event).taken := by
  cases event with
  | request request => exact h.acts (self.supervisor.handle_acts request h.fresh h.received)
  | takeEvents =>
    exact { h with
      notice := fun message hmem => by
        show _ ∈ (self.taken ++ self.supervisor.events) ++ []
        rw [append_nil]
        exact h.notice message hmem }
  | terminate => exact h

theorem sound_run (h : Sound world self.supervisor.core self.taken) (events : List SupervisionEvent) :
    Sound world (self.run world events).supervisor.core (self.run world events).taken := by
  induction events generalizing self with
  | nil => exact h
  | cons event events ih => exact ih (step_sound h event)

theorem run_steady (h : self.supervisor.Steady) (events : List SupervisionEvent) :
    (self.run world events).supervisor.Steady := by
  induction events generalizing self with
  | nil => exact h
  | cons event events ih =>
    refine ih ?_
    cases event with
    | request request => exact self.supervisor.handle_steady h request
    | takeEvents => exact h
    | terminate => exact h

/-- **Speech supervision is fail-safe.** No request is passed on twice, two crashes within the restart window or
a replacement that does not come up are fatal, and a failed reconfiguration leaves the active process. -/
theorem run_failSafe (world : World) (spec : SpeechServerSpec) (events : List SupervisionEvent) :
    let supervision := (initial spec).run world events
    let log := supervision.supervisor.log
    (log.filterMap Deed.passes).Nodup ∧
    (∀ before deed after, log = before ++ deed :: after → Lawful world before deed) ∧
    (¬ Spaced world isCrash log → supervision.supervisor.fatalError ≠ none) ∧
    (lost log = true → supervision.supervisor.fatalError ≠ none) ∧
    (∀ message, .emit (.fatal message) ∈ log →
      .fatal message ∈ supervision.taken ++ supervision.supervisor.events) ∧
    ∀ target error after,
      supervision.supervisor.handle world (.configureServer target) = (.error error, after) →
      after.active = supervision.supervisor.active ∧ after.spec = supervision.supervisor.spec := by
  have hsound := sound_run (initial_sound world spec) events
  have hsteady : ((initial spec).run world events).supervisor.Steady :=
    run_steady (fun hstarted => absurd hstarted Bool.false_ne_true) events
  refine ⟨(nodup_append.mp hsound.unique).1, hsound.lawful, fun hcrowded hnone => ?_,
    fun hlost hnone => ?_, hsound.notice, fun target error after h => ?_⟩
  · exact hcrowded (hsound.spaced hnone)
  · obtain ⟨hactive, hstarted⟩ := hsound.lost hlost
    exact hsteady hstarted hnone (map_eq_none_iff.mp hactive)
  · exact Supervisor.reconfigure_error
      (((initial spec).run world events).supervisor.record (.receive (.configureServer target))) h

/-- The first process fails to take the rate back and the second fails its first speech, at one
moment. -/
def unluckyWorld : World where
  spawn _ := none
  reply position := if position = 2 ∨ position = 6 then some ⟨"closed", true⟩ else none
  now _ := 0
  terminates _ := false

/-- Two transport failures within the window are not the end when the first of them is a failed start. -/
theorem startup_failures_not_fatal :
    ¬ ∀ (world : World) (spec : SpeechServerSpec) (events : List SupervisionEvent)
      (before : List Deed) (deed : Deed) (after : List Deed),
      ((initial spec).run world events).supervisor.log = before ++ deed :: after →
      ¬ Spaced world isTransportFailure before → deed.starts = none := by
  intro h
  have hlog := h unluckyWorld .native [.request (.start 0), .request (.speak "line" false)]
    (((initial .native).run unluckyWorld
      [.request (.start 0), .request (.speak "line" false)]).supervisor.log.take 7)
    (.start 3 .native none) [.call 3 .restore (.setRate .one) none] (by decide +kernel) (by
      unfold Spaced
      decide +kernel)
  cases hlog

end Supervision

end Lector.Speech
