import Lector.Speech.Supervisor

/-! Rates that the speech server rejects: the supervisor keeps them, and asks a restarted server for them. -/
namespace Lector.Speech

namespace Supervisor

def state (self : Supervisor) : Supervisor := { self with log := [] }

/-- The server that runs rejects the rate, and its transport is intact. -/
structure Rejects (world : World) (s : Supervisor) (rate : F32) (error : DriverError) : Prop where
  finite : rate.isFinite = true
  started : s.started = true
  available : s.ensureAvailable.isOk = true
  reply : world.reply s.log.length = some error
  intact : error.transport = false

variable {world : World} {self : Supervisor} {rate : F32} {error : DriverError}

theorem callActive_refused (number : Nat) (call : Call) (available : self.ensureAvailable.isOk = true)
    (reply : world.reply self.log.length = some error) (intact : error.transport = false) :
    (self.callActive world number call).1 = .error error ∧
      (self.callActive world number call).2.state = self.state := by
  unfold callActive
  cases hprocess : self.ensureAvailable with
  | error lost =>
    rw [hprocess] at available
    cases available
  | ok process =>
    simp only [invoke, reply, intact, Bool.not_false, if_true]
    exact ⟨trivial, rfl⟩

/-- **A rejected rate is reported, and the supervisor is as it was before exactly where it had this rate
already**: what it keeps is the rejected rate. -/
theorem setRate_rejected (number : Nat) (h : Rejects world self rate error) :
    (self.setRate world number rate).1 = .error error ∧
      (self.setRate world number rate).2.state = { self.state with desiredRate := rate } ∧
      ((self.setRate world number rate).2.state = self.state ↔ rate = self.desiredRate) := by
  have hcall : self.setRate world number rate =
      { self with desiredRate := rate }.callActive world number (.setRate rate) := by
    simp only [setRate, h.finite, h.started, Bool.not_true, Bool.false_eq_true, if_false]
  obtain ⟨herror, hstate⟩ := @callActive_refused world { self with desiredRate := rate } error number
    (.setRate rate) h.available h.reply h.intact
  rw [hcall, hstate]
  refine ⟨herror, rfl, fun hsame => congrArg Supervisor.desiredRate hsame, ?_⟩
  rintro rfl
  rfl

/-- A server that rejects one rate, whenever it is asked for it, and whose process breaks down in between. -/
def pickyWorld : World where
  spawn _ := none
  reply n := if n = 6 then some ⟨"broken pipe", true⟩ else if n < 4 then none else some ⟨"rate out of range", false⟩
  now _ := 0
  terminates _ := false

def startedSupervisor : Supervisor := ((Supervision.initial .native).run pickyWorld [.request (.start 0)]).supervisor

theorem setRate_rejected_same :
    let self := startedSupervisor.record (.receive (.setRate .one))
    Rejects pickyWorld self .one ⟨"rate out of range", false⟩ ∧
      (self.setRate pickyWorld 3 .one).2.state = self.state := by
  have hrejects : Rejects pickyWorld (startedSupervisor.record (.receive (.setRate .one))) .one
      ⟨"rate out of range", false⟩ := ⟨by decide, by decide, by decide, by decide, rfl⟩
  exact ⟨hrejects, (setRate_rejected 3 hrejects).2.2.mpr (by decide)⟩

/-- The rejected rate is kept, and the next process rejects it again, which is fatal. -/
theorem rejected_rate_fatal :
    let self := startedSupervisor.record (.receive (.setRate ⟨0x40000000⟩))
    let after := (startedSupervisor.handle pickyWorld (.setRate ⟨0x40000000⟩)).2
    Rejects pickyWorld self ⟨0x40000000⟩ ⟨"rate out of range", false⟩ ∧ after.state ≠ self.state ∧
      (after.handle pickyWorld .stop).2.fatalError.isSome = true :=
  ⟨⟨by decide, by decide, by decide, by decide, rfl⟩, by decide, by decide⟩

end Supervisor

end Lector.Speech
