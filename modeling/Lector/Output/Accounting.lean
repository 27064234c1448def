import Lector.Output.Order

/-! Memory accounting. `pending_bytes()` is the sum of what the queue retains, it stays within the
configured maximum, and activation never raises it. -/
namespace Lector.Output
open Bytes PendingRender OutputScheduler Bool
open Option hiding mem_map min
open List hiding min

variable {Scene Bundle : Type}

/-! ## Retained bytes -/

def unwritten (ts : List (ActiveTransaction Scene Bundle)) : Nat :=
  (ts.map fun t => t.bytes.length - t.offset).sum

def queuedLength (ps : List PendingBytes) : Nat := (ps.map fun pending => pending.bytes.length).sum

def effectsRetained (es : List ScheduledTerminalEffect) : Nat :=
  (es.map fun effect => terminalEventRetainedBytes effect.event).sum

def batchLength (batch : RenderBatch Scene) : Nat := (batch.transactions.map fun t => t.bytes.length).sum

def wrapperLength (supported : Bool) : Nat := if supported then 16 else 0

namespace OutputScheduler

variable (s : OutputScheduler Scene Bundle)

def retainedTotal : Nat :=
  unwritten s.active + queuedLength s.pendingBytes + s.pendingRender.elim 0 PendingRender.byteLen +
    effectsRetained s.pendingEffects + s.pendingBells

def controlTotal : Nat := queuedLength s.pendingBytes + unwritten (s.active.filter (·.kind == .control))

theorem pendingByteCount_eq : s.pendingByteCount = min s.retainedTotal (2 ^ 64 - 1) := by
  have hactive : s.activeByteCount = unwritten s.active := rfl
  have hqueued : (s.pendingBytes.map fun pending => pending.bytes.length).sum =
      queuedLength s.pendingBytes := rfl
  have heffects : (s.pendingEffects.map fun effect => terminalEventRetainedBytes effect.event).sum =
      effectsRetained s.pendingEffects := rfl
  rw [pendingByteCount, retainedTotal]
  simp only [saturatingAdd]
  omega

theorem controlBytes_eq : s.controlBytes = min s.controlTotal (2 ^ 64 - 1) := rfl

theorem exceeds_false {extra : Nat} (h : s.exceeds extra = false)
    (hmax : s.config.maximumPendingBytes < 2 ^ 64 - 1) :
    s.retainedTotal + extra ≤ s.config.maximumPendingBytes := by
  rw [exceeds, decide_eq_false_iff_not, pendingByteCount_eq, saturatingAdd] at h
  omega

end OutputScheduler

section Sums

variable {ts us : List (ActiveTransaction Scene Bundle)}

@[simp] theorem unwritten_append : unwritten (ts ++ us) = unwritten ts + unwritten us := by
  simp [unwritten]

@[simp] theorem unwritten_cons (t : ActiveTransaction Scene Bundle) :
    unwritten (t :: ts) = (t.bytes.length - t.offset) + unwritten ts := by
  simp [unwritten]

theorem unwritten_sublist (h : ts.Sublist us) : unwritten ts ≤ unwritten us := (h.map _).sum_le_sum (by simp)

theorem effectsRetained_append (es fs : List ScheduledTerminalEffect) :
    effectsRetained (es ++ fs) = effectsRetained es + effectsRetained fs := by
  simp [effectsRetained]

theorem effectsRetained_sublist {es fs : List ScheduledTerminalEffect} (h : es.Sublist fs) :
    effectsRetained es ≤ effectsRetained fs :=
  (h.map _).sum_le_sum (by simp)

theorem filter_control_sublist (h : ts.Sublist us) :
    unwritten (ts.filter (·.kind == .control)) ≤ unwritten (us.filter (·.kind == .control)) :=
  unwritten_sublist (h.filter _)

end Sums

/-! ## Lengths of transactions -/

theorem withoutSynchronizationMarkers_length (source : Bytes) :
    (withoutSynchronizationMarkers source).length ≤ source.length := by
  fun_induction withoutSynchronizationMarkers source with
  | case1 => exact le_rfl
  | case2 byte rest tail hstart ih =>
    rw [(stripPrefix_eq_some _ _ _).mp hstart, length_append]
    omega
  | case3 byte rest hstart tail hend ih =>
    rw [(stripPrefix_eq_some _ _ _).mp hend, length_append]
    omega
  | case4 byte rest hstart hend ih =>
    rw [length_cons, length_cons]
    omega

theorem scheduledBytes_length (supported : Bool) (batch : RenderBatch Scene) :
    (scheduledBytes supported batch.transactions).length ≤ batchLength batch + wrapperLength supported := by
  have hstripped : (batch.transactions.flatMap fun t =>
      withoutSynchronizationMarkers t.bytes).length ≤ batchLength batch := by
    rw [length_flatMap]
    exact sum_le_sum fun t _ => withoutSynchronizationMarkers_length t.bytes
  have hwrapper : synchronizedOutputStart.length + synchronizedOutputEnd.length = 16 := by
    decide +kernel
  cases supported with
  | true =>
    simp only [scheduledBytes, if_true, length_append, wrapperLength]
    omega
  | false =>
    simp only [scheduledBytes, false_eq_true, if_false]
    split
    · rename_i t hsingle
      split
      · omega
      · simp [batchLength, hsingle]
    · omega

theorem utf8_length (value : String) : (utf8 value).length = value.utf8ByteSize := by
  simp [utf8]

theorem writeOsc_length (code : UInt8) (value : String) :
    (writeOsc code value).length ≤ (ascii (toString code.toNat)).length + value.utf8ByteSize + 5 := by
  have hfilter := length_filter_le (fun byte : UInt8 => 0x20 ≤ byte && byte != 0x7f) (utf8 value)
  have hmarks : (ascii "\x1b]").length + (ascii ";").length + (ascii "\x1b\\").length = 5 := by
    decide +kernel
  rw [utf8_length] at hfilter
  simp only [writeOsc, length_append]
  omega

theorem progressDigits_length (n : Nat) (h : n ≤ 100) : (ascii (toString n)).length ≤ 3 := by
  have hall : ∀ n < 101, (ascii (toString n)).length ≤ 3 := by decide +kernel
  exact hall n (Nat.lt_succ_of_le h)

theorem encodeProgress_length (state : ProgressState) (progress : Option UInt8) :
    (encodeTerminalEffect (.progressReport state progress)).length ≤ 16 := by
  have hstate : (ascii (toString (progressCode state))).length = 1 := by
    cases state <;> decide +kernel
  have hmarks : (ascii "\x1b]9;4;").length + (ascii ";").length + (ascii "\x1b\\").length = 9 := by
    decide +kernel
  cases progress with
  | none =>
    simp only [encodeTerminalEffect, length_append, length_nil]
    omega
  | some value =>
    have hdigits := progressDigits_length (min value.toNat 100) (min_le_right _ _)
    simp only [encodeTerminalEffect, length_append]
    omega

theorem encodeTerminalEffect_length (event : TerminalEvent) :
    min (encodeTerminalEffect event).length (2 ^ 64 - 1) ≤ terminalEventRetainedBytes event := by
  cases event with
  | titleChanged title =>
    have hosc := writeOsc_length 2 title
    have hcode : (ascii (toString (2 : UInt8).toNat)).length = 1 := by decide +kernel
    simp only [encodeTerminalEffect, terminalEventRetainedBytes, saturatingAdd]
    omega
  | workingDirectoryChanged directory =>
    have hosc := writeOsc_length 7 directory
    have hcode : (ascii (toString (7 : UInt8).toNat)).length = 1 := by decide +kernel
    simp only [encodeTerminalEffect, terminalEventRetainedBytes, saturatingAdd]
    omega
  | progressReport state progress =>
    have hprogress := encodeProgress_length state progress
    simp only [terminalEventRetainedBytes, saturatingAdd]
    omega
  | bell => simp [encodeTerminalEffect, terminalEventRetainedBytes, saturatingAdd]
  | clipboardWrite location contents => simp [encodeTerminalEffect]
  | desktopNotification title body => simp [encodeTerminalEffect]
  | query query => simp [encodeTerminalEffect]
  | ptyReply bytes => simp [encodeTerminalEffect]
  | unknownSequence content truncated => simp [encodeTerminalEffect]

/-! ## Activation -/

section Activation

variable (s : OutputScheduler Scene Bundle)

theorem unwritten_pendingBytes (ps : List PendingBytes) :
    unwritten (ps.map PendingBytes.activated : List (ActiveTransaction Scene Bundle)) = queuedLength ps := by
  simp [unwritten, queuedLength, PendingBytes.activated, Function.comp_def]

theorem unwritten_effects (es : List ScheduledTerminalEffect) :
    min (unwritten (es.map ScheduledTerminalEffect.activated :
      List (ActiveTransaction Scene Bundle))) (2 ^ 64 - 1) ≤ effectsRetained es := by
  induction es with
  | nil => simp [unwritten]
  | cons e es ih =>
    have hevent := encodeTerminalEffect_length e.event
    have hcons : effectsRetained (e :: es) = terminalEventRetainedBytes e.event + effectsRetained es := by
      simp [effectsRetained]
    rw [map_cons, unwritten_cons]
    simp only [ScheduledTerminalEffect.activated] at *
    omega

theorem unwritten_bells (count : Nat) :
    unwritten (bellTransactions count : List (ActiveTransaction Scene Bundle)) = count := by
  unfold bellTransactions
  split
  · simp [unwritten]
  · simp only [unwritten, map_nil, sum_nil]
    omega

theorem unwritten_activations (hrender : ∀ p, s.pendingRender = some p →
      p.byteLen = batchLength p.batch + wrapperLength s.synchronizedOutputSupported) :
    min (unwritten s.activations) (2 ^ 64 - 1) ≤
      queuedLength s.pendingBytes + s.pendingRender.elim 0 byteLen +
        effectsRetained s.pendingEffects + s.pendingBells := by
  have hbytes : unwritten (s.pendingBytes.map PendingBytes.activated :
      List (ActiveTransaction Scene Bundle)) = queuedLength s.pendingBytes :=
    unwritten_pendingBytes _
  have heffects : min (unwritten (s.pendingEffects.map ScheduledTerminalEffect.activated :
      List (ActiveTransaction Scene Bundle))) (2 ^ 64 - 1) ≤ effectsRetained s.pendingEffects :=
    unwritten_effects _
  have hbells : unwritten (bellTransactions s.pendingBells :
      List (ActiveTransaction Scene Bundle)) = s.pendingBells := unwritten_bells _
  have hscheduled : unwritten (s.pendingRender.map
      (activated s.synchronizedOutputSupported)).toList ≤
      s.pendingRender.elim 0 byteLen := by
    cases hpending : s.pendingRender with
    | none => simp [unwritten]
    | some p =>
      have hlength := scheduledBytes_length s.synchronizedOutputSupported p.batch
      rw [← hrender p hpending] at hlength
      simpa [unwritten, activated] using hlength
  simp only [activations, unwritten_append]
  omega

theorem control_activations :
    unwritten (s.activations.filter (·.kind == .control)) = queuedLength s.pendingBytes := by
  have hbytes : (s.pendingBytes.map PendingBytes.activated :
      List (ActiveTransaction Scene Bundle)).filter (·.kind == .control) =
      s.pendingBytes.map PendingBytes.activated := by
    apply filter_eq_self.mpr
    intro t ht
    obtain ⟨pending, -, rfl⟩ := mem_map.mp ht
    cases pending.kind
    rfl
  have heffects : (s.pendingEffects.map ScheduledTerminalEffect.activated :
      List (ActiveTransaction Scene Bundle)).filter (·.kind == .control) = [] := by
    apply filter_eq_nil_iff.mpr
    intro t ht
    obtain ⟨-, -, rfl⟩ := mem_map.mp ht
    exact false_ne_true
  have hrender : ((s.pendingRender.map
      (activated s.synchronizedOutputSupported)).toList).filter
        (·.kind == .control) = [] := by
    cases s.pendingRender with
    | none => rfl
    | some p => rfl
  have hbells : (bellTransactions s.pendingBells :
      List (ActiveTransaction Scene Bundle)).filter (·.kind == .control) = [] := by
    unfold bellTransactions
    split
    · rfl
    · rfl
  rw [activations, filter_append, filter_append, filter_append,
    hbytes, heffects, hrender, hbells, append_nil, append_nil, append_nil,
    unwritten_pendingBytes]

end Activation

/-! ## The accounts -/

/-- Only a render queued before the terminal got its synchronized output brings the `excess`. -/
structure Accounted (maximum excess : Nat) (s : OutputScheduler Scene Bundle) : Prop where
  config : s.config.maximumPendingBytes = maximum
  total : maximum + excess < 2 ^ 64 - 1 → s.retainedTotal ≤ maximum + excess
  narrow : maximum + excess < 2 ^ 64 - 1 → s.synchronizedOutputSupported = false →
    s.pendingRender.isSome → s.retainedTotal ≤ maximum
  control : s.controlTotal ≤ controlBacklogLimitBytes
  render : ∀ p, s.pendingRender = some p → batchLength p.batch + 16 < 2 ^ 64 ∧
    p.byteLen = batchLength p.batch + wrapperLength s.synchronizedOutputSupported

section Operations

variable {maximum excess : Nat} {s s' : OutputScheduler Scene Bundle}

theorem accounted_new (config : OutputSchedulerConfig) (supported : Bool) (excess : Nat) :
    Accounted config.maximumPendingBytes excess
      (new config supported : OutputScheduler Scene Bundle) where
  config := rfl
  total _ := Nat.zero_le _
  narrow _ _ h := absurd h (by simp [new])
  control := Nat.zero_le _
  render p h := absurd h (by simp [new])

theorem Accounted.shrink (h : Accounted maximum excess s) (hconfig : s'.config = s.config)
    (hsupported : s'.synchronizedOutputSupported = s.synchronizedOutputSupported)
    (hrender : ∀ p, s'.pendingRender = some p → s.pendingRender = some p)
    (htotal : s'.retainedTotal ≤ s.retainedTotal) (hcontrol : s'.controlTotal ≤ s.controlTotal) :
    Accounted maximum excess s' where
  config := by
    rw [hconfig]
    exact h.config
  total hmax := le_trans htotal (h.total hmax)
  narrow hmax hnarrow hsome := by
    obtain ⟨p, hp⟩ := isSome_iff_exists.mp hsome
    refine le_trans htotal (h.narrow hmax (hsupported ▸ hnarrow) ?_)
    rw [hrender p hp]
    rfl
  control := le_trans hcontrol h.control
  render p hp := by
    rw [hsupported]
    exact h.render p (hrender p hp)

theorem Accounted.admit (h : Accounted maximum excess s) (hconfig : s'.config = s.config)
    (htotal : maximum + excess < 2 ^ 64 - 1 → s'.retainedTotal ≤ maximum)
    (hcontrol : s'.controlTotal ≤ controlBacklogLimitBytes)
    (hrender : ∀ p, s'.pendingRender = some p → batchLength p.batch + 16 < 2 ^ 64 ∧
      p.byteLen = batchLength p.batch + wrapperLength s'.synchronizedOutputSupported) :
    Accounted maximum excess s' where
  config := by
    rw [hconfig]
    exact h.config
  total hmax := le_trans (htotal hmax) (Nat.le_add_right _ _)
  narrow hmax _ _ := htotal hmax
  control := hcontrol
  render := hrender

theorem retainedTotal_le (hactive : s'.active.Sublist s.active)
    (hbytes : queuedLength s'.pendingBytes ≤ queuedLength s.pendingBytes)
    (hrender : s'.pendingRender.elim 0 byteLen ≤ s.pendingRender.elim 0 byteLen)
    (heffects : s'.pendingEffects.Sublist s.pendingEffects) (hbells : s'.pendingBells ≤ s.pendingBells) :
    s'.retainedTotal ≤ s.retainedTotal := by
  have hunwritten := unwritten_sublist hactive
  have hretained := effectsRetained_sublist heffects
  simp only [retainedTotal]
  omega

theorem Accounted.evictUnstarted (h : Accounted maximum excess s) :
    Accounted maximum excess s.evictUnstarted := by
  refine h.shrink rfl rfl ?_ (retainedTotal_le filter_sublist (le_rfl) ?_ ?_ ?_) ?_
  · intro p hp
    exact (filter_eq_some_iff.mp hp).1
  · simp only [OutputScheduler.evictUnstarted]
    cases hp : s.pendingRender with
    | none => simp
    | some p =>
      rw [filter_some]
      split
      · exact le_rfl
      · exact Nat.zero_le _
  · exact nil_sublist _
  · exact Nat.zero_le _
  · exact Nat.add_le_add_left (filter_control_sublist filter_sublist) _

theorem queuedLength_coalesce (maximum : Nat) (pending : List PendingBytes)
    (kind : ScheduledOutputClass) (bytes : Bytes) :
    queuedLength (coalesceBytes maximum pending kind bytes) = queuedLength pending + bytes.length := by
  unfold coalesceBytes
  split
  · rename_i last hlast
    split
    · have hsplit := (dropLast_append_getLast? last hlast).symm
      have hpending : queuedLength pending = queuedLength pending.dropLast + last.bytes.length := by
        conv_lhs => rw [hsplit]
        simp [queuedLength]
      rw [hpending]
      simp [queuedLength, add_assoc]
    · simp [queuedLength]
  · simp [queuedLength]

theorem Accounted.enqueueBytes (h : Accounted maximum excess s) (kind : ScheduledOutputClass)
    (bytes : Bytes) (nowMs : Nat) : Accounted maximum excess (s.enqueueBytes kind bytes nowMs) := by
  unfold OutputScheduler.enqueueBytes
  split
  · exact h
  · split
    · exact h
    · rename_i hbacklog
      have hevicted : Accounted maximum excess (if s.exceeds bytes.length then s.evictUnstarted else s) ∧
          (if s.exceeds bytes.length then s.evictUnstarted else s).controlTotal ≤ s.controlTotal := by
        split
        · exact ⟨h.evictUnstarted, Nat.add_le_add_left (filter_control_sublist filter_sublist) _⟩
        · exact ⟨h, le_rfl⟩
      simp only
      generalize (if s.exceeds bytes.length then s.evictUnstarted else s) = evicted at hevicted ⊢
      obtain ⟨hevicted, hless⟩ := hevicted
      split
      · exact hevicted
      · rename_i hroom
        have hlength : queuedLength ((evicted.notePending nowMs).pushBytes kind bytes).pendingBytes =
            queuedLength evicted.pendingBytes + bytes.length := queuedLength_coalesce _ _ _ _
        refine hevicted.admit rfl ?_ ?_ hevicted.render
        · intro hmax
          have hfits := evicted.exceeds_false (eq_false_of_ne_true hroom) (by
            rw [hevicted.config]
            omega)
          rw [hevicted.config] at hfits
          have htotal : ((evicted.notePending nowMs).pushBytes kind bytes).retainedTotal =
              evicted.retainedTotal + bytes.length := by
            simp only [OutputScheduler.retainedTotal, hlength]
            simp only [OutputScheduler.pushBytes, OutputScheduler.notePending]
            omega
          omega
        · have htotal : ((evicted.notePending nowMs).pushBytes kind bytes).controlTotal =
              evicted.controlTotal + bytes.length := by
            simp only [OutputScheduler.controlTotal, hlength]
            simp only [OutputScheduler.pushBytes, OutputScheduler.notePending]
            omega
          rw [OutputScheduler.controlBytes_eq, saturatingAdd, controlBacklogLimitBytes] at hbacklog
          rw [controlBacklogLimitBytes]
          omega

theorem Accounted.prepareForLifecycleCleanup (h : Accounted maximum excess s) :
    Accounted maximum excess s.prepareForLifecycleCleanup := by
  refine h.shrink rfl rfl (by simp [OutputScheduler.prepareForLifecycleCleanup])
    (retainedTotal_le filter_sublist (Nat.zero_le _) (Nat.zero_le _) (nil_sublist _) (Nat.zero_le _)) ?_
  exact add_le_add (Nat.zero_le _) (filter_control_sublist filter_sublist)

theorem unwritten_eraseIdx {ts : List (ActiveTransaction Scene Bundle)} {index : Nat}
    {t : ActiveTransaction Scene Bundle} (hindex : ts[index]? = some t) :
    unwritten (ts.eraseIdx index) + (t.bytes.length - t.offset) = unwritten ts := by
  obtain ⟨-, rfl⟩ := List.getElem?_eq_some_iff.mp hindex
  have hsplit : ts = ts.take index ++ ts[index] :: ts.drop (index + 1) := by
    rw [getElem_cons_drop, take_append_drop]
  rw [eraseIdx_eq_take_drop_succ, unwritten_append]
  conv_rhs => rw [hsplit, unwritten_append, unwritten_cons]
  omega

theorem acceptRender_total (batch : RenderBatch Scene) (renderBytes : Nat) (accessibility : Bundle)
    (bypassRequested : Bool) (nowMs : Nat) :
    (s.acceptRender batch renderBytes accessibility bypassRequested nowMs).2.retainedTotal +
        s.pendingRender.elim 0 byteLen +
        s.replaceableActive.elim 0 (fun t => t.bytes.length) ≤ s.retainedTotal + renderBytes ∧
      (s.acceptRender batch renderBytes accessibility bypassRequested nowMs).2.controlTotal ≤
        s.controlTotal := by
  cases hindex : s.replaceableActiveIndex with
  | none =>
    have hreplaceable : s.replaceableActive = none := by
      simp [replaceableActive, hindex]
    have hactive : (s.acceptRender batch renderBytes accessibility bypassRequested nowMs).2 =
        { (s.acceptRender batch renderBytes accessibility bypassRequested nowMs).2 with
          active := s.active
          pendingBytes := s.pendingBytes
          pendingEffects := s.pendingEffects
          pendingBells := s.pendingBells } := by
      simp [acceptRender, hindex, notePending]
    rw [hreplaceable, hactive]
    simp only [retainedTotal, controlTotal, acceptRender, elim_none, elim_some]
    omega
  | some index =>
    obtain ⟨t, ht, hzero⟩ := s.replaceableActiveIndex_spec hindex
    have hreplaceable : s.replaceableActive = some t := by
      simp [replaceableActive, hindex, ht]
    have herase := unwritten_eraseIdx ht
    have hbells := withdrawBells_measure (fun t _ => unwritten_cons t) (fun t hbell => by
      simp only [ActiveTransaction.isUnstarted, and_eq_true, beq_iff_eq] at hbell
      rw [hbell.2, Nat.sub_zero]) (s.active.eraseIdx index) s.pendingBells
    have hresult : (s.acceptRender batch renderBytes accessibility bypassRequested nowMs).2 =
        { (s.acceptRender batch renderBytes accessibility bypassRequested nowMs).2 with
          active := (s.active.eraseIdx index).filter fun t => !t.isUnstarted .bell
          pendingBytes := s.pendingBytes
          pendingEffects := s.pendingEffects
          pendingBells := ((s.active.eraseIdx index).filter (·.isUnstarted .bell)).foldl
            (fun count t => saturatingAdd 64 count t.bytes.length) s.pendingBells } := by
      simp [acceptRender, hindex, notePending, removeActiveRender, withdrawBells]
    have hcontrol := filter_control_sublist ((filter_sublist (l := s.active.eraseIdx index)
        (p := fun t => !t.isUnstarted .bell)).trans (eraseIdx_sublist s.active index))
    rw [hreplaceable, hresult]
    simp only [retainedTotal, controlTotal, acceptRender, elim_some]
    omega

theorem foldlM_checkedAdd {ts : List OutputTransaction} {total sum : Nat}
    (h : ts.foldlM (fun total t => checkedAdd total t.bytes.length) total = some sum) :
    sum = total + (ts.map fun t => t.bytes.length).sum := by
  induction ts generalizing total with
  | nil => simpa using h.symm
  | cons t ts ih =>
    obtain ⟨next, hnext, hrest⟩ := bind_eq_some_iff.mp h
    have hsum := ih hrest
    simp only [checkedAdd, ite_none_right_eq_some, some.injEq] at hnext
    rw [map_cons, sum_cons]
    omega

theorem renderBatchByteLen_eq {batch : RenderBatch Scene} {supported : Bool} {renderBytes : Nat}
    (h : renderBatchByteLen batch supported = some renderBytes) :
    renderBytes = batchLength batch + wrapperLength supported := by
  obtain ⟨total, htotal, hwrapped⟩ := bind_eq_some_iff.mp h
  have hsum := foldlM_checkedAdd htotal
  have hwrapper : synchronizedOutputStart.length + synchronizedOutputEnd.length = 16 := by
    decide +kernel
  simp only [checkedAdd, ite_none_right_eq_some, some.injEq] at hwrapped
  rw [← hwrapped.2, hsum, batchLength, wrapperLength, hwrapper]
  simp

theorem Accounted.enqueueRender (h : Accounted maximum excess s) (batch : RenderBatch Scene)
    (accessibility : Bundle) (nowMs : Nat) (hmemory : batchLength batch + 16 < 2 ^ 64) :
    Accounted maximum excess (s.enqueueRenderWithAccessibility batch accessibility nowMs).2 := by
  have htaken : Accounted maximum excess { s with bypassNextRender := false } :=
    h.shrink rfl rfl (fun p hp => hp) (le_rfl) (le_rfl)
  unfold enqueueRenderWithAccessibility
  simp only
  split
  · exact htaken
  · rename_i renderBytes hlength
    split
    · exact htaken
    · rename_i hfits
      obtain ⟨htotal, hcontrol⟩ := acceptRender_total (s := { s with bypassNextRender := false })
        batch renderBytes accessibility s.bypassNextRender nowMs
      have hrest : (acceptRender { s with bypassNextRender := false } batch
          renderBytes accessibility s.bypassNextRender nowMs).2.config = s.config ∧
          (acceptRender { s with bypassNextRender := false } batch renderBytes
            accessibility s.bypassNextRender nowMs).2.synchronizedOutputSupported =
            s.synchronizedOutputSupported := by
        cases hindex : replaceableActiveIndex { s with bypassNextRender := false } with
        | none => simp [acceptRender, hindex, notePending]
        | some index =>
          simp [acceptRender, hindex, notePending, removeActiveRender, withdrawBells]
      refine h.admit hrest.1 ?_ (le_trans hcontrol h.control) ?_
      · intro hmax
        have hless := h.total hmax
        have hcount := s.pendingByteCount_eq
        rw [h.config] at hfits
        have hreplaceable : (replaceableActive { s with bypassNextRender := false }) =
            s.replaceableActive := rfl
        have hsame : (retainedTotal { s with bypassNextRender := false }) = s.retainedTotal := rfl
        rw [hreplaceable] at htotal
        simp only [saturatingAdd] at hfits
        simp only at htotal ⊢
        omega
      · intro p hp
        cases hp
        rw [hrest.2]
        exact ⟨hmemory, renderBatchByteLen_eq hlength⟩

/-- The capability changes under a queued render that was counted without the wrapper. -/
def OutputScheduler.Widens (s : OutputScheduler Scene Bundle) (supported : Bool) : Prop :=
  supported = true ∧ s.synchronizedOutputSupported = false ∧ s.pendingRender.isSome

section

variable (h : Accounted maximum excess s)
include h

theorem Accounted.setSynchronizedOutputSupported
    (supported : Bool) (hbound : excess ≤ 16) (hexcess : excess = 16 ∨ ¬ s.Widens supported) :
    Accounted maximum excess (s.setSynchronizedOutputSupported supported) := by
  by_cases hsame : supported = s.synchronizedOutputSupported
  · have hidle : s.setSynchronizedOutputSupported supported = s := by
      simp [OutputScheduler.setSynchronizedOutputSupported, hsame]
    rw [hidle]
    exact h
  · have hwrapper : saturatingAdd 64 synchronizedOutputStart.length synchronizedOutputEnd.length =
        16 := by decide +kernel
    cases hpending : s.pendingRender with
    | none =>
      have hresult : s.setSynchronizedOutputSupported supported =
          { s with synchronizedOutputSupported := supported } := by
        simp [OutputScheduler.setSynchronizedOutputSupported, hpending]
      rw [hresult]
      refine ⟨h.config, h.total, ?_, h.control, ?_⟩
      · intro _ _ hsome
        rw [hpending] at hsome
        exact absurd hsome false_ne_true
      · intro p hp
        rw [hpending] at hp
        cases hp
    | some p =>
      obtain ⟨hmemory, hlength⟩ := h.render p hpending
      cases supported with
      | true =>
        have hnarrow : s.synchronizedOutputSupported = false := by simpa using hsame
        have hlonger : saturatingAdd 64 p.byteLen 16 = p.byteLen + 16 := by
          rw [hnarrow] at hlength
          simp only [wrapperLength, false_eq_true, if_false] at hlength
          simp only [saturatingAdd]
          omega
        have hresult : s.setSynchronizedOutputSupported true = { s with
              synchronizedOutputSupported := true
              pendingRender := some { p with byteLen := p.byteLen + 16 } } := by
          simp [OutputScheduler.setSynchronizedOutputSupported, hpending, hnarrow, hwrapper, hlonger]
        have hexact : excess = 16 := by
          obtain hexact | hnot := hexcess
          · exact hexact
          · exact absurd ⟨rfl, hnarrow, by rw [hpending]; rfl⟩ hnot
        rw [hresult]
        refine ⟨h.config, ?_, ?_, h.control, ?_⟩
        · intro hmax
          have hless := h.narrow hmax hnarrow (by rw [hpending]; rfl)
          simp only [OutputScheduler.retainedTotal, hpending, elim_some] at hless ⊢
          omega
        · intro _ hfalse
          cases hfalse
        · intro q hq
          cases hq
          refine ⟨hmemory, ?_⟩
          simp only [hlength, hnarrow, wrapperLength, false_eq_true, if_false, if_true]
      | false =>
        have hwide : s.synchronizedOutputSupported = true := by simpa using hsame
        rw [hwide] at hlength
        simp only [wrapperLength, if_true] at hlength
        have hresult : s.setSynchronizedOutputSupported false = { s with
              synchronizedOutputSupported := false
              pendingRender := some { p with byteLen := p.byteLen - 16 } } := by
          simp [OutputScheduler.setSynchronizedOutputSupported, hpending, hwide, hwrapper]
        rw [hresult]
        refine ⟨h.config, ?_, ?_, h.control, ?_⟩
        · intro hmax
          have hless := h.total hmax
          simp only [OutputScheduler.retainedTotal, hpending, elim_some] at hless ⊢
          omega
        · intro hmax _ _
          have hless := h.total hmax
          simp only [OutputScheduler.retainedTotal, hpending, elim_some] at hless ⊢
          omega
        · intro q hq
          cases hq
          refine ⟨hmemory, ?_⟩
          simp only [hlength]
          rfl

theorem Accounted.enqueueTerminalEffect (owner : SurfaceId) (event : TerminalEvent) (nowMs : Nat) :
    Accounted maximum excess (s.enqueueTerminalEffect owner event nowMs) := by
  have hsupersede : ∀ kind, Accounted maximum excess (s.supersedeEffects owner kind) := by
    intro kind
    refine h.shrink rfl rfl (fun p hp => hp) (retainedTotal_le filter_sublist (le_rfl)
      (le_rfl) filter_sublist (le_rfl)) ?_
    exact Nat.add_le_add_left (filter_control_sublist filter_sublist) _
  have hremove : ∀ (s : OutputScheduler Scene Bundle) kind, Accounted maximum excess s →
      Accounted maximum excess (s.removePendingEffect owner kind) := by
    intro s kind h
    unfold removePendingEffect
    split
    · exact h.shrink rfl rfl (fun p hp => hp) (retainedTotal_le (.refl _) (le_rfl)
        (le_rfl) (eraseIdx_sublist _ _) (le_rfl)) (le_rfl)
    · exact h
  generalize hbounded : boundTerminalEffect event s.config.maximumPendingBytes = bounded
  obtain ⟨roomier, hroomier, heq | ⟨hroom, heq⟩⟩ := s.enqueueTerminalEffect_rule hbounded owner nowMs h
    (hsupersede _) fun s' h' => hremove s' _ h'
  · rw [heq]
    exact hroomier
  · rw [heq]
    refine hroomier.admit rfl ?_ hroomier.control hroomier.render
    intro hmax
    have hfits := roomier.exceeds_false hroom (by
      rw [hroomier.config]
      omega)
    rw [hroomier.config] at hfits
    have hsum := effectsRetained_append roomier.pendingEffects [⟨owner, bounded⟩]
    simp only [retainedTotal, notePending, hsum] at hfits ⊢
    simp only [effectsRetained, map_cons, map_nil, sum_singleton] at hfits ⊢
    omega

theorem Accounted.enqueueBell (count nowMs : Nat) : Accounted maximum excess (s.enqueueBell count nowMs) := by
  unfold OutputScheduler.enqueueBell
  simp only
  split
  · exact h
  · rename_i hsome
    refine h.admit rfl ?_ h.control h.render
    have hcount := s.pendingByteCount_eq
    rw [h.config] at hsome ⊢
    simp only [OutputScheduler.retainedTotal, OutputScheduler.notePending, saturatingAdd] at *
    omega

theorem Accounted.command (hbound : excess ≤ 16) (c : Command)
    (hexcess : excess = 16 ∨ ∀ supported, c = .setSynchronizedOutputSupported supported → ¬ s.Widens supported) :
    Accounted maximum excess (c.apply s) := by
  have hsame : ∀ s' : OutputScheduler Scene Bundle, s'.config = s.config →
      s'.synchronizedOutputSupported = s.synchronizedOutputSupported →
      s'.pendingRender = s.pendingRender → s'.retainedTotal = s.retainedTotal →
      s'.controlTotal = s.controlTotal → Accounted maximum excess s' := by
    intro s' hconfig hsupported hrender htotal hcontrol
    exact h.shrink hconfig hsupported (fun p hp => hrender ▸ hp) (le_of_eq htotal) (le_of_eq hcontrol)
  cases c with
  | enqueueBytes kind bytes nowMs => exact h.enqueueBytes kind bytes nowMs
  | enqueueTerminalEffect owner event nowMs => exact h.enqueueTerminalEffect owner event nowMs
  | enqueueBell count nowMs => exact h.enqueueBell count nowMs
  | setSynchronizedOutputSupported supported =>
    exact h.setSynchronizedOutputSupported supported hbound (hexcess.imp id fun hnot => hnot supported rfl)
  | observeApplicationSynchronization synchronized opened activity nowMs =>
    simp only [Command.apply]
    unfold observeApplicationSynchronization
    split
    · split
      · split
        · exact hsame _ rfl rfl rfl rfl rfl
        · exact h
      · split
        · exact hsame _ rfl rfl rfl rfl rfl
        · exact h
      · exact hsame _ rfl rfl rfl rfl rfl
    · exact hsame _ rfl rfl rfl rfl rfl
  | setApplicationSynchronizationBypassed bypassed => exact hsame _ rfl rfl rfl rfl rfl
  | prepareForLifecycleCleanup => exact h.prepareForLifecycleCleanup
  | recover => exact hsame _ rfl rfl rfl rfl rfl
  | notifyWritable => exact hsame _ rfl rfl rfl rfl rfl

theorem activatePending_total : min s.activatePending.retainedTotal (2 ^ 64 - 1) ≤ s.retainedTotal ∧
      s.activatePending.controlTotal = s.controlTotal := by
  unfold activatePending
  split
  · rename_i hempty
    have hnil : s.active = [] := isEmpty_iff.mp hempty
    have hweight := unwritten_activations s fun p hp => (h.render p hp).2
    have hcontrol := control_activations s
    simp only [retainedTotal, controlTotal, hnil, queuedLength,
      effectsRetained, map_nil, sum_nil, elim_none, filter_nil, unwritten] at *
    omega
  · exact ⟨min_le_left _ _, rfl⟩

theorem Accounted.activatePending : Accounted maximum excess s.activatePending := by
  obtain ⟨htotal, hcontrol⟩ := activatePending_total h
  have hconfig : s.activatePending.config = s.config := by
    unfold OutputScheduler.activatePending
    split
    · rfl
    · rfl
  have hsupported : s.activatePending.synchronizedOutputSupported = s.synchronizedOutputSupported := by
    unfold OutputScheduler.activatePending
    split
    · rfl
    · rfl
  have hrender : ∀ p, s.activatePending.pendingRender = some p → s.pendingRender = some p := by
    unfold OutputScheduler.activatePending
    split
    · exact fun p hp => absurd hp (by simp)
    · exact fun p hp => hp
  refine ⟨hconfig ▸ h.config, ?_, ?_, hcontrol ▸ h.control, ?_⟩
  · intro hmax
    have hless := h.total hmax
    omega
  · intro hmax hnarrow hsome
    obtain ⟨p, hp⟩ := isSome_iff_exists.mp hsome
    have hless := h.narrow hmax (hsupported ▸ hnarrow) (by rw [hrender p hp]; rfl)
    omega
  · intro p hp
    rw [hsupported]
    exact h.render p (hrender p hp)

end

end Operations

/-! ## Refusals -/

section Refusals

variable (s : OutputScheduler Scene Bundle)

theorem enqueueRender_dropped (batch : RenderBatch Scene) (accessibility : Bundle) (nowMs : Nat)
    (hdropped : (s.enqueueRenderWithAccessibility batch accessibility nowMs).1 = .droppedForCapacity) :
    (s.enqueueRenderWithAccessibility batch accessibility nowMs).2 =
      { s with bypassNextRender := false } := by
  unfold enqueueRenderWithAccessibility at hdropped ⊢
  simp only at hdropped ⊢
  split
  · rfl
  · rename_i renderBytes hlength
    rw [hlength] at hdropped
    simp only at hdropped
    split
    · rfl
    · rename_i hfits
      rw [if_neg hfits] at hdropped
      exact absurd hdropped (acceptRender_accepts _ _ _ _ _ _).1

theorem coalesceBytes_ne {bytes : Bytes} (hbytes : bytes ≠ []) (maximum : Nat) (pending : List PendingBytes)
    (kind : ScheduledOutputClass) : coalesceBytes maximum pending kind bytes ≠ pending := by
  intro hsame
  have hlength := queuedLength_coalesce maximum pending kind bytes
  have hpositive := length_pos_iff.mpr hbytes
  rw [hsame] at hlength
  omega

/-- The queue without its bells. -/
def withoutBells (s : OutputScheduler Scene Bundle) : OutputScheduler Scene Bundle :=
  { s with pendingBells := 0, active := s.active.filter (·.kind != .bell) }

/-- The queue without its unstarted visual work; control bytes and a render that ends a hold stay. -/
def evictVisualWork (s : OutputScheduler Scene Bundle) : OutputScheduler Scene Bundle :=
  { s with
    pendingRender := s.pendingRender.filter fun render => s.isReleaseBoundary render.generation
    pendingEffects := []
    active := s.active.filter s.survivesEviction }

theorem withoutBells_evictUnstarted : withoutBells s.evictUnstarted = evictVisualWork (withoutBells s) := by
  have hactive : (s.active.filter s.survivesEviction).filter (·.kind != .bell) =
      (s.active.filter (·.kind != .bell)).filter s.survivesEviction := filter_comm ..
  simp only [withoutBells, evictUnstarted, hactive]
  rfl

theorem enqueueBytes_refused (kind : ScheduledOutputClass) (bytes : Bytes) (nowMs : Nat)
    (hrefused : (s.enqueueBytes kind bytes nowMs).pendingBytes = s.pendingBytes) :
    s.enqueueBytes kind bytes nowMs = s ∨ s.enqueueBytes kind bytes nowMs = s.evictUnstarted := by
  unfold enqueueBytes at hrefused ⊢
  split
  · exact .inl rfl
  · rename_i hbytes
    rw [if_neg hbytes] at hrefused
    split
    · exact .inl rfl
    · rename_i hbacklog
      rw [if_neg hbacklog] at hrefused
      simp only at hrefused ⊢
      have hevicted : (if s.exceeds bytes.length then s.evictUnstarted else s) = s ∨
          (if s.exceeds bytes.length then s.evictUnstarted else s) = s.evictUnstarted := by
        split
        · exact .inr rfl
        · exact .inl rfl
      have hqueued : (if s.exceeds bytes.length then s.evictUnstarted else s).pendingBytes =
          s.pendingBytes := by
        split
        · rfl
        · rfl
      generalize (if s.exceeds bytes.length then s.evictUnstarted else s) = evicted at *
      split
      · exact hevicted
      · rename_i hroom
        rw [if_neg hroom] at hrefused
        exact absurd (hrefused.trans hqueued.symm) (coalesceBytes_ne hbytes _ _ _)

theorem enqueueBytes_backlog (kind : ScheduledOutputClass) (bytes : Bytes) (nowMs : Nat)
    (hbacklog : controlBacklogLimitBytes < s.controlBytes + bytes.length) :
    s.enqueueBytes kind bytes nowMs = s := by
  unfold enqueueBytes
  split
  · rfl
  · rw [if_pos]
    simp only [controlBacklogLimitBytes, saturatingAdd] at hbacklog ⊢
    omega

/-- What a newer effect of `owner` withdraws: unstarted effects of its own kind. -/
structure Supersedes (owner : SurfaceId) (kind : TerminalEventKind)
    (s s' : OutputScheduler Scene Bundle) : Prop where
  rest : s' = { s with pendingEffects := s'.pendingEffects, active := s'.active }
  effects : s'.pendingEffects.Sublist s.pendingEffects
  otherEffects : s'.pendingEffects.filter (!OutputScheduler.sameEffect owner kind ·) =
    s.pendingEffects.filter (!OutputScheduler.sameEffect owner kind ·)
  active : s'.active = s.active ∨ s'.active = (s.supersedeEffects owner kind).active

variable (owner : SurfaceId)

theorem Supersedes.refl (kind : TerminalEventKind) : Supersedes owner kind s s :=
  ⟨rfl, .refl _, rfl, .inl rfl⟩

theorem supersedeEffects_supersedes (kind : TerminalEventKind) :
    Supersedes owner kind s (s.supersedeEffects owner kind) :=
  ⟨rfl, filter_sublist, by simp [supersedeEffects], .inr rfl⟩

variable {s}

theorem Supersedes.removePendingEffect {s' : OutputScheduler Scene Bundle} {owner : SurfaceId}
    {kind : TerminalEventKind} (h : Supersedes owner kind s s') :
    Supersedes owner kind s (s'.removePendingEffect owner kind) := by
  unfold OutputScheduler.removePendingEffect
  split
  · rename_i index hindex
    obtain ⟨hlt, hsame, -⟩ := findIdx?_eq_some_iff_getElem.mp hindex
    refine ⟨?_, (eraseIdx_sublist _ _).trans h.effects, ?_, h.active⟩
    · conv_lhs => rw [h.rest]
    · rw [← h.otherEffects]
      have hsplit : s'.pendingEffects = s'.pendingEffects.take index ++ s'.pendingEffects[index] ::
            s'.pendingEffects.drop (index + 1) := by
        rw [getElem_cons_drop, take_append_drop]
      conv_rhs => rw [hsplit]
      rw [eraseIdx_eq_take_drop_succ, filter_append, filter_append, filter_cons_of_neg (by simp [hsame])]
  · exact h

variable (s)

theorem enqueueTerminalEffect_cases (event : TerminalEvent) (nowMs : Nat) :
    (∃ kept, kept.Sublist s.pendingEffects ∧ (s.enqueueTerminalEffect owner event nowMs).pendingEffects =
        kept ++ [⟨owner, boundTerminalEffect event s.config.maximumPendingBytes⟩]) ∨
    Supersedes owner
      (terminalEventKind (boundTerminalEffect event s.config.maximumPendingBytes)) s
      (s.enqueueTerminalEffect owner event nowMs) := by
  obtain ⟨roomier, hroomier, heq | ⟨-, heq⟩⟩ := s.enqueueTerminalEffect_rule rfl owner nowMs
    (.refl s owner _) (supersedeEffects_supersedes s owner _) fun _ h => h.removePendingEffect
  · exact .inr (heq ▸ hroomier)
  · exact .inl ⟨roomier.pendingEffects, hroomier.effects, by rw [heq]⟩

theorem enqueueBell_full (count nowMs : Nat)
    (hfull : s.config.maximumPendingBytes ≤ s.pendingByteCount) : s.enqueueBell count nowMs = s := by
  simp [enqueueBell, Nat.sub_eq_zero_of_le hfull]

end Refusals

/-! ## Runs -/

section Runs

variable [SceneGeometry Scene] {maximum excess : Nat} {d d' : Drain Scene Bundle}

theorem Move.accounted (hmove : Move d d') (h : Accounted maximum excess d.scheduler) :
    Accounted maximum excess d'.scheduler := by
  have hless : ∀ s' : OutputScheduler Scene Bundle, s'.config = d.scheduler.config →
      s'.synchronizedOutputSupported = d.scheduler.synchronizedOutputSupported →
      s'.pendingRender = d.scheduler.pendingRender → s'.retainedTotal ≤ d.scheduler.retainedTotal →
      s'.controlTotal ≤ d.scheduler.controlTotal → Accounted maximum excess s' := by
    intro s' hconfig hsupported hrender htotal hcontrol
    exact h.shrink hconfig hsupported (fun p hp => hrender ▸ hp) htotal hcontrol
  cases hmove with
  | wait waiting => exact hless _ rfl rfl rfl (le_rfl) (le_rfl)
  | block writer same => exact hless _ rfl rfl rfl (le_rfl) (le_rfl)
  | retry writer same => exact h
  | release startedMs lastActivityMs held => exact hless _ rfl rfl rfl (le_rfl) (le_rfl)
  | activate => exact h.activatePending
  | flush writer same => exact hless _ rfl rfl rfl (le_rfl) (le_rfl)
  | conclude => exact h
  | write t rest count writer front some fits same =>
    refine hless _ rfl rfl rfl ?_ ?_
    · simp only [retainedTotal, Drain.advanceFront, front, unwritten_cons]
      omega
    · simp only [controlTotal, Drain.advanceFront, front, filter_cons]
      split
      · simp only [unwritten_cons]
        omega
      · exact le_rfl
  | pop t rest front done =>
    refine hless _ rfl rfl rfl ?_ ?_
    · simp only [retainedTotal, Drain.finishFront, front, unwritten_cons]
      omega
    · simp only [controlTotal, front]
      exact Nat.add_le_add_left (filter_control_sublist (sublist_cons_self _ _)) _
  | complete flushed =>
    obtain ⟨release, bypass, report, heq, -⟩ := completeAwaiting_spec d
    rw [heq]
    exact hless _ rfl rfl rfl (le_rfl) (le_rfl)

theorem Moves.accounted (hmoves : Moves d d') (h : Accounted maximum excess d.scheduler) :
    Accounted maximum excess d'.scheduler := by
  induction hmoves with
  | refl => exact h
  | tail _ hmove ih => exact hmove.accounted ih

theorem Phase.Follows.accounted {α : Type} {p : Phase Scene Bundle α} (hp : p.Follows d)
    (h : Accounted maximum excess d.scheduler) : Accounted maximum excess p.drain.scheduler := by
  obtain ⟨-, hmoves⟩ | ⟨-, d', hmoves, writer, -, hfailed⟩ := hp
  · exact Moves.accounted hmoves h
  · rw [hfailed]
    exact (Moves.accounted hmoves h).shrink rfl rfl
      (by simp [Drain.fail, failed]) (Nat.zero_le _) (Nat.zero_le _)

namespace Run

variable {r : Run Scene Bundle}

def FitsMemory : Op Scene Bundle → Prop
  | .render batch _ _ => batchLength batch + 16 < 2 ^ 64
  | _ => True

def NeverWidens : Run Scene Bundle → List (Op Scene Bundle) → Prop
  | _, [] => True
  | r, op :: ops =>
    (∀ supported, op = .command (.setSynchronizedOutputSupported supported) →
      ¬ r.scheduler.Widens supported) ∧ NeverWidens (r.step op) ops

theorem accounted_step (h : Accounted maximum excess r.scheduler) (hbound : excess ≤ 16)
    {op : Op Scene Bundle} (hmemory : FitsMemory op)
    (hexcess : excess = 16 ∨ ∀ supported, op = .command (.setSynchronizedOutputSupported supported) →
      ¬ r.scheduler.Widens supported) :
    Accounted maximum excess (r.step op).scheduler := by
  unfold step
  split
  · exact h
  · cases op with
    | command c =>
      refine h.command hbound c (hexcess.imp id fun hnot supported hc => hnot supported ?_)
      rw [hc]
    | render batch accessibility nowMs => exact h.enqueueRender batch accessibility nowMs hmemory
    | drain nowMs force => exact (Drain.drainReady_follows r.opened nowMs force).accounted h

theorem accounted_runOps (h : Accounted maximum excess r.scheduler) (hbound : excess ≤ 16)
    {ops : List (Op Scene Bundle)} (hmemory : ∀ op ∈ ops, FitsMemory op)
    (hexcess : excess = 16 ∨ r.NeverWidens ops) : Accounted maximum excess (r.runOps ops).scheduler := by
  induction ops generalizing r with
  | nil => exact h
  | cons op ops ih =>
    apply ih
    · exact accounted_step h hbound (hmemory op mem_cons_self) (hexcess.imp id fun hnever => hnever.1)
    · exact fun op hop => hmemory op (mem_cons_of_mem _ hop)
    · exact hexcess.imp id fun hnever => hnever.2

/-- The books of a scheduler with a configured maximum. -/
structure KeepsBooks (maximum : Nat) (s : OutputScheduler Scene Bundle) : Prop where
  sum : s.pendingByteCount = min s.retainedTotal (2 ^ 64 - 1)
  render : ∀ p, s.pendingRender = some p →
    p.byteLen = batchLength p.batch + wrapperLength s.synchronizedOutputSupported
  bounded : s.pendingByteCount ≤ maximum + 16
  control : s.controlBytes ≤ controlBacklogLimitBytes
  droppedRender : ∀ batch accessibility nowMs,
    (s.enqueueRenderWithAccessibility batch accessibility nowMs).1 = .droppedForCapacity →
      (s.enqueueRenderWithAccessibility batch accessibility nowMs).2 =
        { s with bypassNextRender := false }
  fullBell : ∀ count nowMs, maximum ≤ s.pendingByteCount → s.enqueueBell count nowMs = s
  backlogBytes : ∀ kind bytes nowMs,
    controlBacklogLimitBytes < s.controlBytes + bytes.length → s.enqueueBytes kind bytes nowMs = s
  refusedBytes : ∀ kind bytes nowMs, (s.enqueueBytes kind bytes nowMs).pendingBytes = s.pendingBytes →
      withoutBells (s.enqueueBytes kind bytes nowMs) = withoutBells s ∨
        withoutBells (s.enqueueBytes kind bytes nowMs) = evictVisualWork (withoutBells s)
  effect : ∀ owner event nowMs, (∃ kept, kept.Sublist s.pendingEffects ∧
      (s.enqueueTerminalEffect owner event nowMs).pendingEffects =
        kept ++ [⟨owner, boundTerminalEffect event maximum⟩]) ∨
    Supersedes owner (terminalEventKind (boundTerminalEffect event maximum)) s
      (s.enqueueTerminalEffect owner event nowMs)
  activation : s.activatePending.pendingByteCount ≤ s.pendingByteCount

omit [SceneGeometry Scene] in
theorem bounded_of_accounted {maximum excess : Nat} {s : OutputScheduler Scene Bundle}
    (h : Accounted maximum excess s) : s.pendingByteCount ≤ maximum + excess := by
  have hsum := s.pendingByteCount_eq
  by_cases hmax : maximum + excess < 2 ^ 64 - 1
  · have htotal := h.total hmax
    omega
  · omega

omit [SceneGeometry Scene] in
theorem keepsBooks_of_accounted {maximum : Nat} {s : OutputScheduler Scene Bundle}
    (h : Accounted maximum 16 s) : KeepsBooks maximum s where
  sum := s.pendingByteCount_eq
  render p hp := (h.render p hp).2
  bounded := bounded_of_accounted h
  control := le_trans (min_le_left _ _) h.control
  droppedRender := enqueueRender_dropped s
  fullBell count nowMs hfull := enqueueBell_full s count nowMs (h.config ▸ hfull)
  backlogBytes := enqueueBytes_backlog s
  refusedBytes kind bytes nowMs hrefused := by
    rw [← withoutBells_evictUnstarted]
    exact (enqueueBytes_refused s kind bytes nowMs hrefused).imp (congrArg _) (congrArg _)
  effect owner event nowMs := h.config ▸ enqueueTerminalEffect_cases s owner event nowMs
  activation := by
    have hactivated := (activatePending_total h).1
    rw [pendingByteCount_eq, pendingByteCount_eq]
    omega

/-- **The scheduler's memory is accounted for.** In every run `pending_bytes()` is what is retained, only the
wrapper around a render queued before synchronized output came passes the maximum, and a refused call costs,
bells aside, unstarted visual work at most. -/
theorem memory_accounted (config : OutputSchedulerConfig) (supported : Bool)
    (writes : List WriteResponse) (flushes : List FlushResponse) (ops : List (Op Scene Bundle))
    (hmemory : ∀ op ∈ ops, FitsMemory op) : KeepsBooks config.maximumPendingBytes
      ((start config supported writes flushes).runOps ops).scheduler ∧
    ((start config supported writes flushes).NeverWidens ops →
      ((start config supported writes flushes).runOps ops).scheduler.pendingByteCount ≤
        config.maximumPendingBytes) := by
  constructor
  · exact keepsBooks_of_accounted
      (accounted_runOps (accounted_new config supported 16) (le_rfl) hmemory (.inl rfl))
  · intro hnever
    exact bounded_of_accounted
      (accounted_runOps (accounted_new config supported 0) (Nat.zero_le _) hmemory (.inr hnever))

/-- A queue of ten bytes: a frame of two bytes and six control bytes. -/
def crampedOps : List (Op TerminalGeometry Nat) :=
  [.render (textFrame "ok") 1 0, .command (.enqueueBytes .control (ascii "123456") 0)]

def crampedRun : Run TerminalGeometry Nat :=
  (start { OutputSchedulerConfig.default with maximumPendingBytes := 10 } false [] []).runOps
    crampedOps

theorem memory_accounted_cramped :
    KeepsBooks 10 crampedRun.scheduler ∧ crampedRun.scheduler.pendingByteCount = 8 := by
  have hframe : FitsMemory (.render (textFrame "ok") 1 0 : Op TerminalGeometry Nat) := by
    have hlength : batchLength (textFrame "ok") = 2 := by decide +kernel
    simp [FitsMemory, hlength]
  have hmemory : ∀ op ∈ crampedOps, FitsMemory op :=
    forall_mem_cons.mpr ⟨hframe, forall_mem_cons.mpr ⟨trivial, forall_mem_nil _⟩⟩
  exact ⟨(memory_accounted { OutputSchedulerConfig.default with maximumPendingBytes := 10 } false
    [] [] crampedOps hmemory).1, by decide +kernel⟩

/-- Five more control bytes do not fit, and yet they cost the frame. -/
theorem refusedBytes_cost_frame : crampedRun.scheduler.pendingRender.isSome ∧
      (crampedRun.scheduler.enqueueBytes .control (ascii "abcde") 1).pendingBytes =
        crampedRun.scheduler.pendingBytes ∧
      (crampedRun.scheduler.enqueueBytes .control (ascii "abcde") 1).pendingRender.isNone :=
  ⟨by decide +kernel, by with_unfolding_all rfl, by decide +kernel⟩

end Run

end Runs

end Lector.Output
