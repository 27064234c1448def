import Lector.Speech.Supervisor

/-! Every run of the speech supervisor: which acts its requests are made of, and what the acts keep. -/
namespace Lector.Speech
open List Relation.ReflTransGen Bool

/-! ## Reading the log -/

namespace Deed

def isReceive : Deed → Bool
  | .receive _ => true
  | _ => false

def passes : Deed → Option Nat
  | .call _ (.request number) _ _ => some number
  | _ => none

def starts : Deed → Option Nat
  | .start generation _ _ => some generation
  | _ => none

def isFatal : Deed → Bool
  | .emit event => event.isFatal
  | _ => false

/-- A transport failure of a call that passes a request on to the active process. -/
def isCrash : Deed → Bool
  | .call _ (.request _) _ (some error) => error.transport
  | _ => false

def isTransportFailure : Deed → Bool
  | .start _ _ (some error) => error.transport
  | .call _ _ _ (some error) => error.transport
  | _ => false

def isRestored : Deed → Bool
  | .call _ .restore _ none => true
  | _ => false

def desired (rate : F32) : Deed → F32
  | .receive (.setRate wanted) => if wanted.isFinite then wanted else rate
  | _ => rate

end Deed

variable (log : List Deed)

def desiredOf : F32 := log.foldl Deed.desired .one

variable (world : World) (kind : Deed → Bool) (log : List Deed)

def timesOf : List Nat :=
  log.zipIdx.filterMap fun entry => if kind entry.1 then some (world.now (entry.2 + 1)) else none

/-- No two deeds of the kind are within the restart window. -/
def Spaced : Prop :=
  (timesOf world kind log).Pairwise fun a b => a + crashWindow ≤ b

/-- The active process has crashed, and no process that replaces it has taken the rate. -/
def lost : Bool :=
  log.foldl (fun lost deed => if deed.isCrash then true else lost && !deed.isRestored) false

/-- The process was started, and then given the rate that was desired at its start. -/
def Ready (generation : Nat) : Prop :=
  ∃ before spec after, log = before ++ .start generation spec none ::
    .call generation .restore (.setRate (desiredOf before)) none :: after

/-- The process was started and given the rate just now. -/
def Restored (rate : F32) (generation : Nat) : Prop :=
  ∃ before spec, log = before ++ [.start generation spec none] ++
    [.call generation .restore (.setRate rate) none]

@[simp] theorem desiredOf_concat (deed : Deed) : desiredOf (log ++ [deed]) = deed.desired (desiredOf log) := by
  rw [desiredOf, foldl_append]
  rfl

theorem timesOf_concat (deed : Deed) : timesOf world kind (log ++ [deed]) =
      timesOf world kind log ++ if kind deed then [world.now (log.length + 1)] else [] := by
  unfold timesOf
  rw [zipIdx_append]
  cases h : kind deed <;> simp [h]

theorem timesOf_concat_other {world : World} {kind : Deed → Bool} {log : List Deed} {deed : Deed}
    (h : kind deed = false) : timesOf world kind (log ++ [deed]) = timesOf world kind log := by
  rw [timesOf_concat, h, if_neg Bool.false_ne_true, append_nil]

theorem lost_concat (deed : Deed) :
    lost (log ++ [deed]) = if deed.isCrash then true else lost log && !deed.isRestored := by
  rw [lost, foldl_append]
  rfl

theorem lost_of_concat {log : List Deed} {deed : Deed} (h : lost (log ++ [deed]) = true)
    (hcrash : deed.isCrash = false) : lost log = true := by
  rw [lost_concat, hcrash, if_neg Bool.false_ne_true, and_eq_true] at h
  exact h.1

theorem Ready.concat {log : List Deed} {generation : Nat} (h : Ready log generation) (deed : Deed) :
    Ready (log ++ [deed]) generation := by
  obtain ⟨before, spec, after, rfl⟩ := h
  exact ⟨before, spec, after ++ [deed], by simp⟩

/-! ## Acts -/

structure Core where
  started : Bool
  active : Option Nat
  desiredRate : F32
  fatalError : Option String
  lastCrash : Option Nat
  events : List SupervisorEvent
  /-- The requests whose speech waits for the start. -/
  waiting : List Nat
  nextGeneration : Nat
  log : List Deed

def Supervisor.core (self : Supervisor) : Core where
  started := self.started
  active := self.active.map (·.generation)
  desiredRate := self.desiredRate
  fatalError := self.fatalError
  lastCrash := self.lastCrash
  events := self.events
  waiting := self.pendingSpeech.map (·.number)
  nextGeneration := self.nextGeneration
  log := self.log

namespace Core

variable (core : Core)

def record (deed : Deed) : Core := { core with log := core.log ++ [deed] }

def pushEvent (event : SupervisorEvent) : Core :=
  { core with
    events := (if core.events.length = maxEvents then core.events.tail else core.events) ++ [event] }.record
      (.emit event)

def passed : List Nat := core.log.filterMap Deed.passes

/-- The number of a request that was received and neither waits nor was passed on. -/
structure Unspent (core : Core) (number : Nat) : Prop where
  received : number < core.log.length
  passed : number ∉ core.passed
  waiting : number ∉ core.waiting

/-- Where the active process is lost, a start follows the crash at once. -/
def MayStart : Prop :=
  core.started = true → core.active = none → ∀ last, core.log.getLast? = some last → last.isCrash = true

/-- A request that is passed on was not passed on before, and waits no longer. -/
def Spends (number : Nat) (waiting : List Nat) : Prop :=
  (core.Unspent number ∧ waiting = core.waiting) ∨ core.waiting = number :: waiting

end Core

inductive Act (world : World) (core : Core) : Core → Prop where
  | receive (request : Request) : Act world core { core.record (.receive request) with
        desiredRate := Deed.desired core.desiredRate (.receive request) }
  | discard {waiting : List Nat} (hwaiting : waiting.Sublist core.waiting) :
      Act world core { core with waiting }
  | buffer {waiting : List Nat} {number : Nat} (hwaiting : waiting.Sublist core.waiting)
      (hunspent : core.Unspent number) :
      Act world core { core with waiting := waiting ++ [number] }
  | start (spec : SpeechServerSpec) (error : Option DriverError) (hfatal : core.fatalError = none)
      (hattempt : core.MayStart) :
      Act world core { core.record (.start core.nextGeneration spec error) with
        nextGeneration := core.nextGeneration + 1 }
  | restore (generation : Nat) (error : Option DriverError) (hfatal : core.fatalError = none) :
      Act world core (core.record (.call generation .restore (.setRate core.desiredRate) error))
  | activate {generation : Nat} {started : Bool}
      (hrestored : Restored core.log core.desiredRate generation) (hfatal : core.fatalError = none)
      (hstarted : started = true) :
      Act world core { core with active := some generation, started }
  | emit (event : SupervisorEvent) (hevent : event.isFatal = false) (hfatal : core.fatalError = none) :
      Act world core (core.pushEvent event)
  | call {generation number : Nat} {waiting : List Nat} (call : Call) {error : Option DriverError}
      (hactive : core.active = some generation) (hfatal : core.fatalError = none)
      (hspends : core.Spends number waiting)
      (herror : ∀ failure, error = some failure → failure.transport = false) :
      Act world core { core.record (.call generation (.request number) call error) with waiting }
  | crash {generation number : Nat} {waiting : List Nat} (call : Call) {failure : DriverError}
      (hactive : core.active = some generation) (hfatal : core.fatalError = none)
      (hspends : core.Spends number waiting) (hfailure : failure.transport = true)
      (hallowed : restartAllowed core.lastCrash (world.now (core.log.length + 1)) = true) :
      Act world core { core.record (.call generation (.request number) call (some failure)) with
        waiting, active := none, lastCrash := some (world.now (core.log.length + 1)) }
  | doom {generation number : Nat} {waiting : List Nat} (call : Call) {failure : DriverError}
      (message : String) (hactive : core.active = some generation) (hfatal : core.fatalError = none)
      (hspends : core.Spends number waiting) (hfailure : failure.transport = true)
      (hstarted : core.started = true)
      (hrefused : restartAllowed core.lastCrash (world.now (core.log.length + 1)) = false) :
      Act world core ({ core.record (.call generation (.request number) call (some failure)) with
        waiting, active := none, fatalError := some message }.pushEvent (.fatal message))
  | lose (message : String) (hactive : core.active = none) (hfatal : core.fatalError = none)
      (hstarted : core.started = true) :
      Act world core ({ core with fatalError := some message }.pushEvent (.fatal message))

def Acts : Core → Core → Prop := Relation.ReflTransGen (Act world)

namespace Supervisor

variable {world : World} {self : Supervisor}

@[simp] theorem record_log (deed : Deed) : (self.record deed).log = self.log ++ [deed] := rfl

theorem spawnReady_acts (world : World) (self : Supervisor) (spec : SpeechServerSpec) (hfatal : self.fatalError = none)
    (hattempt : self.core.MayStart) : ∃ generation log, (self.spawnReady world spec).2 =
        { self with nextGeneration := generation, log } ∧
      Acts world self.core { self.core with nextGeneration := generation, log } ∧
      ∀ process, (self.spawnReady world spec).1 = .ok process →
        Restored log self.desiredRate process.generation := by
  unfold spawnReady
  split
  · exact ⟨_, _, rfl, refl, fun process h => by cases h⟩
  · have hstart : Act world self.core _ :=
      Act.start spec (world.spawn self.log.length) hfatal hattempt
    dsimp only
    split
    · exact ⟨_, _, rfl, single hstart, fun process h => by cases h⟩
    · rename_i hspawn
      split
      · exact ⟨_, _, rfl, single hstart, fun process h => by cases h⟩
      · have hrestore : Act world { self.core.record (.start self.nextGeneration spec none) with
            nextGeneration := self.nextGeneration + 1 } _ :=
          Act.restore self.nextGeneration
            (world.reply (self.log ++ [Deed.start self.nextGeneration spec none]).length) hfatal
        rw [hspawn] at hstart
        have hacts := (single hstart).tail hrestore
        unfold invoke
        dsimp only [record]
        rw [hspawn]
        cases hreply : world.reply (self.log ++ [Deed.start self.nextGeneration spec none]).length with
        | some error =>
          rw [hreply] at hacts
          exact ⟨_, _, rfl, hacts, fun process h => by cases h⟩
        | none =>
          rw [hreply] at hacts
          refine ⟨_, _, rfl, hacts, fun process h => ?_⟩
          cases h
          exact ⟨self.log, spec, rfl⟩

theorem enterFatal_core (self : Supervisor) (message : String) (hfatal : self.fatalError = none) :
    (self.enterFatal message).core =
      { self.core with fatalError := some message }.pushEvent (.fatal message) := by
  unfold enterFatal
  rw [hfatal]
  rfl

theorem recoverAfterTransportFailure_acts {core : Core} (failure : String)
    (hfatal : self.fatalError = none) (hstarted : self.started = true)
    (hlast : ∀ last, self.log.getLast? = some last → last.isCrash = true)
    (hallowed : restartAllowed self.lastCrash (world.now self.log.length) = true →
      Acts world core { self.core with
        active := none, lastCrash := some (world.now self.log.length) })
    (hrefused : restartAllowed self.lastCrash (world.now self.log.length) = false → ∀ message,
      Acts world core ({ self.core with active := none, fatalError := some message }.pushEvent
        (.fatal message))) :
    Acts world core (self.recoverAfterTransportFailure world failure).2.core := by
  unfold recoverAfterTransportFailure
  dsimp only
  cases hrestart : restartAllowed self.lastCrash (world.now self.log.length) with
  | false =>
    rw [Bool.not_false, if_pos rfl]
    rw [enterFatal_core { self with active := none } _ hfatal]
    exact hrefused hrestart _
  | true =>
    rw [Bool.not_true, if_neg Bool.false_ne_true]
    obtain ⟨generation, log, hstate, hacts, hrestored⟩ := spawnReady_acts world
      { self with active := none, lastCrash := some (world.now self.log.length) } self.spec hfatal
      fun _ _ => hlast
    have hspawned := (hallowed hrestart).trans hacts
    split
    · rename_i process after hresult
      rw [hresult] at hstate hrestored
      obtain rfl : after = _ := hstate
      exact hspawned.tail (Act.activate (hrestored process rfl) hfatal hstarted)
    · rename_i error after hresult
      rw [hresult] at hstate
      have hafter : after = _ := hstate
      have hnone : after.fatalError = none := by
        rw [hafter]
        exact hfatal
      rw [enterFatal_core after _ hnone, hafter]
      exact hspawned.tail (Act.lose _ rfl hfatal hstarted)

theorem callActive_acts (self : Supervisor) {number : Nat} (waiting : List Nat) (call : Call)
    (hspends : { self.core with waiting }.Spends number self.core.waiting) (hstarted : self.started = true) :
    Acts world { self.core with waiting } (self.callActive world number call).2.core := by
  have hsub : self.core.waiting.Sublist waiting := by
    rcases hspends with ⟨-, hsame⟩ | hhead
    · exact hsame ▸ .refl _
    · have hwaiting : waiting = number :: self.core.waiting := hhead
      rw [hwaiting]
      exact sublist_cons_self _ _
  have hdiscard : Acts world { self.core with waiting } self.core := by
    have hact : Act world { self.core with waiting } _ := Act.discard hsub
    exact single hact
  unfold callActive ensureAvailable
  cases hfatal : self.fatalError with
  | some error => exact hdiscard
  | none =>
    cases hactive : self.active with
    | none => exact hdiscard
    | some process =>
      have hcore : { self.core with waiting }.active = some process.generation := by
        rw [core, hactive]
        rfl
      have hnone := hfatal
      have hlength : (self.log ++ [Deed.call process.generation (.request number) call
          (world.reply self.log.length)]).length = self.log.length + 1 := length_append
      dsimp only [invoke]
      cases hreply : world.reply self.log.length with
      | none =>
        exact single (Act.call call hcore hnone hspends (fun failure h => by cases h))
      | some failure =>
        rw [hreply] at hlength
        cases htransport : failure.transport with
        | false =>
          dsimp only
          rw [htransport]
          exact single (Act.call call hcore hnone hspends
            (fun other h => by rw [← Option.some.inj h]; exact htransport))
        | true =>
          dsimp only
          rw [htransport, Bool.not_true, if_neg Bool.false_ne_true]
          have hrecover : Acts world { self.core with waiting }
              ((self.record (.call process.generation (.request number) call
                (some failure))).recoverAfterTransportFailure world
                  ("speech " ++ call.operation ++ " transport failure: " ++ failure.message)).2.core := by
            refine recoverAfterTransportFailure_acts _ hfatal hstarted (fun last hlast => ?_)
              (fun hallowed => ?_) fun hrefused message => ?_
            · rw [record_log, getLast?_concat] at hlast
              rw [← Option.some.inj hlast]
              exact htransport
            · rw [record_log, hlength] at hallowed ⊢
              exact single (Act.crash call hcore hnone hspends htransport hallowed)
            · rw [record_log, hlength] at hrefused
              exact single (Act.doom call message hcore hnone hspends htransport hstarted hrefused)
          split <;> rename_i hresult <;> rw [hresult] at hrecover <;> exact hrecover

theorem started_of_acts {core core' : Core} (h : Acts world core core') (hstarted : core.started = true) :
    core'.started = true := by
  induction h with
  | refl => exact hstarted
  | tail _ hact ih =>
    cases hact with
    | activate _ _ hset => exact hset
    | receive | discard | buffer | start | restore | emit | call | crash | doom | lose => exact ih

theorem flushPendingSpeechFrom_acts (self : Supervisor) (rounds : Nat) (hstarted : self.started = true) :
    Acts world self.core (self.flushPendingSpeechFrom world rounds).2.core := by
  induction rounds generalizing self with
  | zero => exact refl
  | succ rounds ih =>
    unfold flushPendingSpeechFrom
    split
    · exact refl
    · rename_i pending rest hpending
      have hwaiting : self.core.waiting = pending.number :: rest.map (·.number) := by
        rw [core, hpending]
        rfl
      have hcall : Acts world self.core _ := callActive_acts { self with
          pendingSpeech := rest
          pendingSpeechBytes := self.pendingSpeechBytes - pending.text.utf8ByteSize }
        self.core.waiting (.speak pending.text pending.interrupt) (.inr hwaiting) hstarted
      have hstill := started_of_acts hcall hstarted
      dsimp only
      split
      · rename_i after hresult
        rw [hresult] at hcall hstill
        exact hcall.trans (ih after hstill)
      · rename_i error after hresult
        rw [hresult] at hcall hstill
        split
        · exact hcall.tail (Act.discard (nil_sublist _))
        · exact hcall.trans (ih after hstill)

theorem installed_acts (self : Supervisor) {process : ManagedProcess}
    (hrestored : Restored self.log self.desiredRate process.generation) (hfatal : self.fatalError = none) :
    Acts world self.core
      ({ self with active := some process, started := true }.flushPendingSpeech world).2.core := by
  have hactivate : Act world self.core { self with active := some process, started := true }.core :=
    Act.activate hrestored hfatal rfl
  exact (single hactivate).trans (flushPendingSpeechFrom_acts _ _ rfl)

theorem startup_acts (self : Supervisor) (hfresh : self.started = false → self.fatalError = none) :
    Acts world self.core (self.startup world).2.core := by
  unfold startup
  cases hstarted : self.started with
  | true => exact refl
  | false =>
    rw [if_neg Bool.false_ne_true]
    have hfatal := hfresh hstarted
    split
    · exact refl
    · obtain ⟨generation, log, hstate, hacts, hrestored⟩ := spawnReady_acts world self self.spec hfatal
        fun hset => absurd (hstarted.symm.trans hset) false_ne_true
      split
      · rename_i process after hresult
        rw [hresult] at hstate hrestored
        obtain rfl : after = _ := hstate
        exact hacts.trans
          (installed_acts { self with nextGeneration := generation, log } (hrestored process rfl) hfatal)
      · rename_i firstError after hresult
        rw [hresult] at hstate
        obtain rfl : after = _ := hstate
        obtain ⟨generation', log', hstate, hretried, hrestored⟩ := spawnReady_acts world
          { self with nextGeneration := generation, log } self.spec hfatal
          fun hset => absurd (hstarted.symm.trans hset) false_ne_true
        split
        · rename_i process after hresult
          rw [hresult] at hstate hrestored
          obtain rfl : after = _ := hstate
          exact (hacts.trans hretried).trans
            (installed_acts { self with nextGeneration := generation', log := log' }
              (hrestored process rfl) hfatal)
        · rename_i secondError after hresult
          rw [hresult] at hstate
          obtain rfl : after = _ := hstate
          exact hacts.trans hretried

theorem evictPending_waiting (self : Supervisor) (textBytes rounds : Nat) :
    ∃ kept bytes, self.evictPending textBytes rounds =
        { self with pendingSpeech := kept, pendingSpeechBytes := bytes } ∧
      kept.Sublist self.pendingSpeech := by
  induction rounds generalizing self with
  | zero => exact ⟨_, _, rfl, .refl _⟩
  | succ rounds ih =>
    unfold evictPending
    split
    · split
      · exact ⟨_, _, rfl, .refl _⟩
      · rename_i stale rest hpending
        obtain ⟨kept, bytes, heq, hsub⟩ := ih { self with
          pendingSpeech := rest
          pendingSpeechBytes := self.pendingSpeechBytes - stale.text.utf8ByteSize }
        rw [hpending]
        exact ⟨kept, bytes, heq, hsub.trans (sublist_cons_self _ _)⟩
    · exact ⟨_, _, rfl, .refl _⟩

theorem bufferSpeech_acts (self : Supervisor) {number : Nat} (text : String) (interrupt : Bool)
    (hunspent : self.core.Unspent number) :
    Acts world self.core (self.bufferSpeech number text interrupt).core := by
  have hbuffer : ∀ kept : List PendingSpeech, kept.Sublist self.pendingSpeech → ∀ item : PendingSpeech,
      item.number = number → Acts world self.core
        { self.core with waiting := (kept ++ [item]).map (·.number) } := by
    intro kept hsub item hitem
    rw [map_append, map_singleton, hitem]
    exact single (Act.buffer (hsub.map _) hunspent)
  unfold bufferSpeech
  cases interrupt with
  | true =>
    obtain ⟨kept, bytes, heq, hsub⟩ := evictPending_waiting
      { self with pendingSpeech := [], pendingSpeechBytes := 0 }
      (boundedText text maxSpeechItemBytes).utf8ByteSize 0
    rw [if_pos rfl]
    dsimp only [length_nil]
    rw [heq]
    exact hbuffer kept (hsub.trans (nil_sublist _)) _ rfl
  | false =>
    obtain ⟨kept, bytes, heq, hsub⟩ := evictPending_waiting self
      (boundedText text maxSpeechItemBytes).utf8ByteSize self.pendingSpeech.length
    rw [if_neg Bool.false_ne_true]
    dsimp only
    rw [heq]
    exact hbuffer kept hsub _ rfl

theorem ensureAvailable_ok {process : ManagedProcess} (h : self.ensureAvailable = .ok process) :
    self.fatalError = none ∧ self.active = some process := by
  unfold ensureAvailable at h
  split at h
  · cases h
  · rename_i hfatal
    split at h
    · cases h
    · rename_i running hactive
      cases h
      exact ⟨hfatal, hactive⟩

theorem reconfigure_acts (self : Supervisor) (spec : SpeechServerSpec) :
    Acts world self.core (self.reconfigure world spec).2.core := by
  unfold reconfigure
  split
  · split
    · exact refl
    · exact refl
  · rename_i hstarted
    split
    · exact refl
    · rename_i running havailable
      obtain ⟨hfatal, hactive⟩ := ensureAvailable_ok havailable
      obtain ⟨generation, log, hstate, hacts, hrestored⟩ := spawnReady_acts world self spec hfatal
        fun _ hnone => by
          rw [core, hactive] at hnone
          cases hnone
      split
      · rename_i process after hresult
        rw [hresult] at hstate hrestored
        obtain rfl : after = _ := hstate
        have hactive := hacts.tail (Act.activate (hrestored process rfl) hfatal (by simpa using hstarted))
        exact hactive.tail (Act.emit (.reconfigured spec) rfl hfatal)
      · rename_i error after hresult
        rw [hresult] at hstate
        obtain rfl : after = _ := hstate
        exact hacts.tail (Act.emit _ rfl hfatal)

theorem unspent_receive (self : Supervisor) (request : Request)
    (hreceived : ∀ number ∈ self.core.passed ++ self.core.waiting, number < self.log.length) :
    (self.record (.receive request)).core.Unspent self.log.length := by
  refine ⟨?_, fun hmem => ?_, fun hmem => ?_⟩
  · show self.log.length < (self.log ++ [Deed.receive request]).length
    rw [length_append]
    exact Nat.lt_succ_self _
  · have hpassed : (self.record (.receive request)).core.passed = self.core.passed := by
      show (self.log ++ [Deed.receive request]).filterMap Deed.passes = _
      rw [filterMap_append]
      exact append_nil _
    rw [hpassed] at hmem
    exact lt_irrefl _ (hreceived _ (mem_append_left _ hmem))
  · exact lt_irrefl _ (hreceived _ (mem_append_right _ hmem))

theorem handle_acts (self : Supervisor) (request : Request)
    (hfresh : self.started = false → self.fatalError = none)
    (hreceived : ∀ number ∈ self.core.passed ++ self.core.waiting, number < self.log.length) :
    Acts world self.core (self.handle world request).2.core := by
  have hreceive : Acts world self.core _ := single (Act.receive request)
  have hunspent := unspent_receive self request hreceived
  refine hreceive.trans ?_
  unfold handle
  cases request with
  | speak text interrupt =>
    dsimp only
    unfold speak
    split
    · exact refl
    · split
      · split
        · exact refl
        · exact bufferSpeech_acts _ text interrupt hunspent
      · rename_i hstarted
        exact callActive_acts _ _ _ (.inl ⟨hunspent, rfl⟩) (by simpa using hstarted)
  | stop =>
    dsimp only
    unfold stop
    split
    · exact single (Act.discard (nil_sublist _))
    · rename_i hstarted
      exact callActive_acts _ _ _ (.inl ⟨hunspent, rfl⟩) (by simpa using hstarted)
  | setRate rate =>
    dsimp only [Deed.desired]
    unfold setRate
    cases hfinite : rate.isFinite with
    | false => exact refl
    | true =>
      rw [if_pos rfl, Bool.not_true, if_neg Bool.false_ne_true]
      dsimp only
      split
      · exact refl
      · rename_i hstarted
        exact callActive_acts { self.record (.receive (.setRate rate)) with desiredRate := rate }
          self.core.waiting (.setRate rate)
          (.inl ⟨⟨hunspent.received, hunspent.passed, hunspent.waiting⟩, rfl⟩) (by simpa using hstarted)
  | configureServer spec => exact reconfigure_acts (self.record (.receive (.configureServer spec))) spec
  | start completed => exact startup_acts (self.record (.receive (.start completed))) hfresh

end Supervisor

end Lector.Speech
