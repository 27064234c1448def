import Lector.Speech.Mailbox

/-! The supervisor of the speech process (`speech/supervisor.rs`). What the process, the clock and the
other thread do is a `World`, asked at the positions of the supervisor's log. -/
namespace Lector.Speech

structure DriverError where
  message : String
  transport : Bool
  deriving DecidableEq, Repr

def DriverError.context (error : DriverError) (text : String) : DriverError :=
  { error with message := text ++ ": " ++ error.message }

def DriverError.plain (message : String) : DriverError := ⟨message, false⟩

inductive SupervisorEvent where
  | fatal (message : String)
  | reconfigured (spec : SpeechServerSpec)
  | reconfigureFailed (message : String)
  deriving DecidableEq, Repr

def SupervisorEvent.isFatal : SupervisorEvent → Bool
  | .fatal _ => true
  | _ => false

inductive Call where
  | speak (text : String) (interrupt : Bool)
  | stop
  | setRate (rate : F32)
  deriving DecidableEq, Repr

def Call.operation : Call → String
  | .speak _ _ => "speak"
  | .stop => "stop"
  | .setRate _ => "set_rate"

/-- A new process gets the rate back, or the request received at this position is passed on. -/
inductive Origin where
  | restore
  | request (number : Nat)
  deriving DecidableEq, Repr

inductive Deed where
  | receive (request : Request)
  | start (generation : Nat) (spec : SpeechServerSpec) (error : Option DriverError)
  | call (generation : Nat) (origin : Origin) (call : Call) (error : Option DriverError)
  | emit (event : SupervisorEvent)
  deriving DecidableEq, Repr

/-- The process, the driver, the clock in nanoseconds, and whether the supervisor is terminated by
then. -/
structure World where
  spawn : Nat → Option DriverError
  reply : Nat → Option DriverError
  now : Nat → Nat
  terminates : Nat → Bool

structure ManagedProcess where
  generation : Nat
  spec : SpeechServerSpec
  deriving DecidableEq, Repr

structure PendingSpeech where
  text : String
  interrupt : Bool
  /-- The position at which the request was received. -/
  number : Nat
  deriving DecidableEq, Repr

structure Supervisor where
  spec : SpeechServerSpec := .native
  active : Option ManagedProcess := none
  desiredRate : F32 := .one
  pendingSpeech : List PendingSpeech := []
  pendingSpeechBytes : Nat := 0
  started : Bool := false
  startupError : Option String := none
  fatalError : Option String := none
  lastCrash : Option Nat := none
  events : List SupervisorEvent := []
  shuttingDown : Bool := false
  nextGeneration : Nat := 1
  log : List Deed := []
  deriving DecidableEq, Repr

def crashWindow : Nat := 30 * 1000000000
def maxEvents : Nat := 32

def restartAllowed (lastCrash : Option Nat) (now : Nat) : Bool :=
  lastCrash.all fun lastCrash => decide (lastCrash ≤ now) && decide (crashWindow ≤ now - lastCrash)

namespace Supervisor

variable (world : World)

def record (self : Supervisor) (deed : Deed) : Supervisor := { self with log := self.log ++ [deed] }

def isShuttingDown (self : Supervisor) : Bool := self.shuttingDown || world.terminates self.log.length

def pushEvent (self : Supervisor) (event : SupervisorEvent) : Supervisor :=
  { self with
    events := (if self.events.length = maxEvents then self.events.tail else self.events) ++ [event] }.record
      (.emit event)

def invoke (self : Supervisor) (generation : Nat) (origin : Origin) (call : Call) :
    Option DriverError × Supervisor :=
  (world.reply self.log.length, self.record (.call generation origin call (world.reply self.log.length)))

def spawnReady (self : Supervisor) (spec : SpeechServerSpec) :
    Except DriverError ManagedProcess × Supervisor :=
  if self.isShuttingDown world then (.error (.plain "speech supervisor is shutting down"), self)
  else
    let generation := self.nextGeneration
    let error := world.spawn self.log.length
    let self := { self with nextGeneration := generation + 1 }.record (.start generation spec error)
    match error with
    | some error => (.error error, self)
    | none =>
      if self.isShuttingDown world then (.error (.plain "speech supervisor is shutting down"), self)
      else
        match self.invoke world generation .restore (.setRate self.desiredRate) with
        | (some error, self) => (.error (error.context "restore speech rate"), self)
        | (none, self) => (.ok ⟨generation, spec⟩, self)

def ensureAvailable (self : Supervisor) : Except DriverError ManagedProcess :=
  match self.fatalError with
  | some error => .error (.plain error)
  | none =>
    match self.active with
    | none => .error (.plain "speech server is not active")
    | some process => .ok process

def enterFatal (self : Supervisor) (message : String) : Supervisor :=
  if self.fatalError.isSome then self
  else { self with fatalError := some message }.pushEvent (.fatal message)

def recoverAfterTransportFailure (self : Supervisor) (failure : String) :
    Except DriverError Unit × Supervisor :=
  let now := world.now self.log.length
  let mayRestart := restartAllowed self.lastCrash now
  let self := { self with active := none }
  if !mayRestart then
    let message := failure ++ "; a second speech transport failure occurred within 30 seconds"
    (.error (.plain message), self.enterFatal message)
  else
    match { self with lastCrash := some now }.spawnReady world self.spec with
    | (.ok process, self) => (.ok (), { self with active := some process })
    | (.error error, self) =>
      let message := failure ++ "; restarting the speech server failed: " ++ error.message
      (.error (.plain message), self.enterFatal message)

/-- The request may have reached the failed process, so it is not called again after a recovery. -/
def callActive (self : Supervisor) (number : Nat) (call : Call) : Except DriverError Unit × Supervisor :=
  match self.ensureAvailable with
  | .error error => (.error error, self)
  | .ok process =>
    match self.invoke world process.generation (.request number) call with
    | (none, self) => (.ok (), self)
    | (some error, self) =>
      if !error.transport then (.error error, self)
      else
        let failure := "speech " ++ call.operation ++ " transport failure: " ++ error.message
        match self.recoverAfterTransportFailure world failure with
        | (.error lost, self) => (.error lost, self)
        | (.ok (), self) => (.error error, self)

/-- The loop of `flushPendingSpeech`. Each round takes an item, so there are as many rounds as items. -/
def flushPendingSpeechFrom (self : Supervisor) : Nat → Except DriverError Unit × Supervisor
  | 0 => (.ok (), self)
  | rounds + 1 =>
    match self.pendingSpeech with
    | [] => (.ok (), self)
    | pending :: rest =>
      let self := { self with
        pendingSpeech := rest
        pendingSpeechBytes := self.pendingSpeechBytes - pending.text.utf8ByteSize }
      match self.callActive world pending.number (.speak pending.text pending.interrupt) with
      | (.ok (), self) => flushPendingSpeechFrom self rounds
      | (.error error, self) =>
        if self.fatalError.isSome then
          (.error error, { self with pendingSpeech := [], pendingSpeechBytes := 0 })
        else flushPendingSpeechFrom self rounds

def flushPendingSpeech (self : Supervisor) : Except DriverError Unit × Supervisor :=
  self.flushPendingSpeechFrom world self.pendingSpeech.length

def startup (self : Supervisor) : Except DriverError Unit × Supervisor :=
  if self.started then (self.ensureAvailable.map fun _ => (), self)
  else
    match self.startupError with
    | some error => (.error (.plain error), self)
    | none =>
      match self.spawnReady world self.spec with
      | (.ok process, self) => { self with active := some process, started := true }.flushPendingSpeech world
      | (.error firstError, self) =>
        match self.spawnReady world self.spec with
        | (.ok process, self) => { self with active := some process, started := true }.flushPendingSpeech world
        | (.error secondError, self) =>
          let message := "speech server startup failed twice; first attempt: " ++ firstError.message ++
            "; retry: " ++ secondError.message
          (.error (.plain message), { self with startupError := some message })

/-- The eviction loop of `bufferSpeech`: a round for each item. -/
def evictPending (self : Supervisor) (textBytes : Nat) : Nat → Supervisor
  | 0 => self
  | rounds + 1 =>
    if self.pendingSpeech.length = maxPendingSpeechItems ∨
        saturatingAdd self.pendingSpeechBytes textBytes > maxPendingSpeechBytes then
      match self.pendingSpeech with
      | [] => self
      | stale :: rest =>
        evictPending { self with
          pendingSpeech := rest
          pendingSpeechBytes := self.pendingSpeechBytes - stale.text.utf8ByteSize } textBytes rounds
    else self

def bufferSpeech (self : Supervisor) (number : Nat) (text : String) (interrupt : Bool) : Supervisor :=
  let self := if interrupt then { self with pendingSpeech := [], pendingSpeechBytes := 0 } else self
  let text := boundedText text maxSpeechItemBytes
  let self := self.evictPending text.utf8ByteSize self.pendingSpeech.length
  { self with
    pendingSpeechBytes := saturatingAdd self.pendingSpeechBytes text.utf8ByteSize
    pendingSpeech := self.pendingSpeech ++ [⟨text, interrupt, number⟩] }

def reconfigure (self : Supervisor) (spec : SpeechServerSpec) : Except DriverError Unit × Supervisor :=
  if !self.started then
    if self.startupError.isSome then
      (.error (.plain "speech server startup has already failed; configuration is closed"), self)
    else (.ok (), { self with spec })
  else
    match self.ensureAvailable with
    | .error error => (.error error, self)
    | .ok _ =>
      match self.spawnReady world spec with
      | (.ok candidate, self) =>
        (.ok (), { self with active := some candidate, spec }.pushEvent (.reconfigured spec))
      | (.error error, self) =>
        let message := "replace speech server: " ++ error.message
        (.error (.plain message), self.pushEvent (.reconfigureFailed message))

def speak (self : Supervisor) (number : Nat) (text : String) (interrupt : Bool) :
    Except DriverError Unit × Supervisor :=
  if text.isEmpty then (.ok (), self)
  else if !self.started then
    match self.startupError with
    | some error => (.error (.plain error), self)
    | none => (.ok (), self.bufferSpeech number text interrupt)
  else self.callActive world number (.speak text interrupt)

def stop (self : Supervisor) (number : Nat) : Except DriverError Unit × Supervisor :=
  if !self.started then (.ok (), { self with pendingSpeech := [], pendingSpeechBytes := 0 })
  else self.callActive world number .stop

def setRate (self : Supervisor) (number : Nat) (rate : F32) : Except DriverError Unit × Supervisor :=
  if !rate.isFinite then (.error (.plain "speech rate must be finite"), self)
  else
    let self := { self with desiredRate := rate }
    if !self.started then (.ok (), self)
    else self.callActive world number (.setRate rate)

def handle (self : Supervisor) (request : Request) : Except DriverError Unit × Supervisor :=
  let number := self.log.length
  let self := self.record (.receive request)
  match request with
  | .speak text interrupt => self.speak world number text interrupt
  | .stop => self.stop world number
  | .setRate rate => self.setRate world number rate
  | .configureServer spec => self.reconfigure world spec
  | .start _ => self.startup world

end Supervisor

/-! ## Runs -/

inductive SupervisionEvent where
  | request (request : Request)
  /-- The event loop drains the lifecycle events. -/
  | takeEvents
  | terminate
  deriving DecidableEq, Repr

structure Supervision where
  supervisor : Supervisor
  taken : List SupervisorEvent := []
  deriving DecidableEq, Repr

namespace Supervision

def step (world : World) (self : Supervision) : SupervisionEvent → Supervision
  | .request request => { self with supervisor := (self.supervisor.handle world request).2 }
  | .takeEvents =>
    { supervisor := { self.supervisor with events := [] }
      taken := self.taken ++ self.supervisor.events }
  | .terminate => { self with supervisor := { self.supervisor with shuttingDown := true } }

def run (world : World) (self : Supervision) (events : List SupervisionEvent) : Supervision :=
  events.foldl (step world) self

def initial (spec : SpeechServerSpec) : Supervision where
  supervisor := { spec }

end Supervision

end Lector.Speech
