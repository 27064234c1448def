import Lector.Foundations.Leading
import Lector.Output.Accounting
import Lector.Output.Bypass

/-! Bells and their frames. Renders and bells stand in one line in the order of writing: a bell is
behind every render queued when it was accepted, and a replacement takes the place in the line.
Control bytes that do not fit evict bells. -/
namespace Lector.Output
open SerialQueue Leading ActiveTransaction OutputScheduler
open List hiding max min

variable {Scene Bundle : Type}

/-! ## The line of renders and bells -/

namespace ActiveTransaction

def bellPlaces (t : ActiveTransaction Scene Bundle) : List (Place (TrackedRender Scene Bundle)) :=
  if t.kind = .bell then List.replicate t.bytes.length .follower else []

def places (t : ActiveTransaction Scene Bundle) : List (Place (TrackedRender Scene Bundle)) :=
  t.completedRender.toList.map .leader ++ t.bellPlaces

end ActiveTransaction

def placesOf (ts : List (ActiveTransaction Scene Bundle)) : List (Place (TrackedRender Scene Bundle)) :=
  ts.flatMap ActiveTransaction.places

def OutputScheduler.pendingPlaces (s : OutputScheduler Scene Bundle) :
    List (Place (TrackedRender Scene Bundle)) :=
  (s.pendingRender.map PendingRender.tracked).toList.map .leader ++ List.replicate s.pendingBells .follower

def lineOf (finished : List (ActiveTransaction Scene Bundle)) (s : OutputScheduler Scene Bundle) :
    List (Place (TrackedRender Scene Bundle)) :=
  placesOf (finished ++ s.active) ++ s.pendingPlaces

section Places

variable {t : ActiveTransaction Scene Bundle} {ts us : List (ActiveTransaction Scene Bundle)}
  {s : OutputScheduler Scene Bundle} {render : TrackedRender Scene Bundle}

@[simp] theorem placesOf_append : placesOf (ts ++ us) = placesOf ts ++ placesOf us := flatMap_append

@[simp] theorem placesOf_cons : placesOf (t :: ts) = t.places ++ placesOf ts := rfl

theorem followers_places (t : ActiveTransaction Scene Bundle) : followers t.places = bellsOf [t] := by
  unfold places bellPlaces
  by_cases hkind : t.kind = .bell
  · simp [bellsOf, hkind]
  · simp [bellsOf, hkind]

theorem followers_placesOf (ts : List (ActiveTransaction Scene Bundle)) :
    followers (placesOf ts) = bellsOf ts := by
  induction ts with
  | nil => rfl
  | cons t ts ih =>
    have hcons : bellsOf (t :: ts) = bellsOf [t] + bellsOf ts := bellsOf_append [t] ts
    rw [placesOf_cons, followers_append, followers_places, ih, hcons]

theorem followers_pendingPlaces : followers s.pendingPlaces = s.pendingBells := by
  simp [pendingPlaces]

theorem followers_lineOf (finished : List (ActiveTransaction Scene Bundle)) :
    followers (lineOf finished s) = bellsOf finished + s.bellLane := by
  rw [lineOf, followers_append, followers_placesOf, bellsOf_append, followers_pendingPlaces,
    bellLane, add_assoc]

theorem mem_places : Place.leader render ∈ t.places ↔ t.completedRender = some render := by
  unfold places bellPlaces
  by_cases hkind : t.kind = .bell
  · simp
  · simp

theorem mem_placesOf : Place.leader render ∈ placesOf ts ↔ render ∈ rendersOf ts := by
  simp [placesOf, mem_places, mem_rendersOf]

theorem mem_lineOf {finished : List (ActiveTransaction Scene Bundle)} :
    Place.leader render ∈ lineOf finished s ↔ render ∈ rendersOf finished ++ s.renderLane := by
  simp [lineOf, pendingPlaces, mem_placesOf, renderLane]

def ActiveTransaction.Placeless (t : ActiveTransaction Scene Bundle) : Prop :=
  t.completedRender = none ∧ t.kind ≠ .bell

theorem ActiveTransaction.Placeless.places_eq (h : t.Placeless) : t.places = [] := by
  simp [places, bellPlaces, h.1, h.2]

theorem placesOf_placeless (h : ∀ t ∈ ts, t.Placeless) : placesOf ts = [] :=
  flatMap_eq_nil_iff.mpr fun t hmem => (h t hmem).places_eq

theorem placesOf_filter {keep : ActiveTransaction Scene Bundle → Bool}
    (h : ∀ t ∈ ts, keep t = false → t.Placeless) : placesOf (ts.filter keep) = placesOf ts := by
  induction ts with
  | nil => rfl
  | cons t ts ih =>
    have hrest := ih fun u hu => h u (mem_cons_of_mem _ hu)
    cases hkeep : keep t with
    | true => rw [filter_cons_of_pos hkeep, placesOf_cons, placesOf_cons, hrest]
    | false =>
      rw [filter_cons_of_neg (by simp [hkeep]), placesOf_cons, hrest, (h t mem_cons_self hkeep).places_eq]
      rfl

theorem placesOf_activations (s : OutputScheduler Scene Bundle) : placesOf s.activations = s.pendingPlaces := by
  have hbytes : placesOf (s.pendingBytes.map PendingBytes.activated :
      List (ActiveTransaction Scene Bundle)) = [] := by
    refine placesOf_placeless fun t hmem => ?_
    obtain ⟨pending, -, rfl⟩ := mem_map.mp hmem
    obtain ⟨kind, -⟩ := pending
    cases kind
    exact ⟨rfl, by simp [PendingBytes.activated, ScheduledOutputClass.activeKind]⟩
  have heffects : placesOf (s.pendingEffects.map ScheduledTerminalEffect.activated :
      List (ActiveTransaction Scene Bundle)) = [] := by
    refine placesOf_placeless fun t hmem => ?_
    obtain ⟨-, -, rfl⟩ := mem_map.mp hmem
    exact ⟨rfl, by simp [ScheduledTerminalEffect.activated]⟩
  have hbells : placesOf (bellTransactions s.pendingBells : List (ActiveTransaction Scene Bundle)) =
      replicate s.pendingBells .follower := by
    unfold bellTransactions
    split
    · simp [placesOf, places, bellPlaces]
    · have hnone : s.pendingBells = 0 := by omega
      simp [placesOf, hnone]
  rw [activations, placesOf_append, placesOf_append, placesOf_append, hbytes, heffects, hbells, pendingPlaces]
  cases s.pendingRender with
  | none => rfl
  | some render => rfl

end Places

/-! ## Calls of `drain_ready` -/

section Moves

variable [SceneGeometry Scene] {d d' : Drain Scene Bundle}

omit [SceneGeometry Scene] in
theorem lineOf_eq_seen (finished : List (ActiveTransaction Scene Bundle)) (s : OutputScheduler Scene Bundle) :
    lineOf finished s = seen places finished s := by
  rw [lineOf, ← placesOf_activations, ← placesOf_append]
  rfl

theorem Moves.lineOf_eq (hmoves : Moves d d') :
    lineOf d'.finished d'.scheduler = lineOf d.finished d.scheduler := by
  rw [lineOf_eq_seen, lineOf_eq_seen]
  exact hmoves.seen_eq _ fun _ _ => rfl

end Moves

/-! ## Bells that wait -/

def OutputScheduler.bellsWaiting (s : OutputScheduler Scene Bundle) : Nat :=
  unwritten (s.active.filter (·.kind == .bell)) + s.pendingBells

/-- No bell is in front of an active render, only the pending render is replaced, and the bells fit.
-/
structure Layered (s : OutputScheduler Scene Bundle) : Prop where
  bellsLast : s.active.Pairwise fun t u => t.kind = .bell → u.kind ≠ .render
  sole : s.pendingRender.isSome → ∀ t ∈ s.active, t.kind = .render → 0 < t.offset
  room : s.bellsWaiting ≤ s.config.maximumPendingBytes

section Layered

variable {s s' : OutputScheduler Scene Bundle} {ts : List (ActiveTransaction Scene Bundle)}

theorem layered_new (config : OutputSchedulerConfig) (supported : Bool) :
    Layered (new config supported : OutputScheduler Scene Bundle) where
  bellsLast := Pairwise.nil
  sole h := absurd h (by simp [new])
  room := Nat.zero_le _

theorem unwritten_unstarted (h : ∀ t ∈ ts, t.offset = 0) :
    unwritten (ts.filter (·.kind == .bell)) = bellsOf ts := by
  refine congrArg sum (map_congr_left fun t hmem => ?_)
  rw [h t (mem_of_mem_filter hmem), Nat.sub_zero]

theorem Layered.shrink (h : Layered s) (hactive : s'.active.Sublist s.active)
    (hrender : s'.pendingRender.isSome → s.pendingRender.isSome) (hbells : s'.pendingBells ≤ s.pendingBells)
    (hconfig : s'.config = s.config) : Layered s' where
  bellsLast := h.bellsLast.sublist hactive
  sole hsome t hmem := h.sole (hrender hsome) t (hactive.subset hmem)
  room := by
    have hwaiting := unwritten_sublist (hactive.filter (·.kind == .bell))
    have hroom := h.room
    rw [hconfig]
    unfold bellsWaiting at hroom ⊢
    omega

theorem Layered.same (h : Layered s) (hactive : s'.active = s.active)
    (hrender : s'.pendingRender = s.pendingRender) (hbells : s'.pendingBells = s.pendingBells)
    (hconfig : s'.config = s.config) : Layered s' :=
  h.shrink (hactive ▸ .refl _) (hrender ▸ id) (le_of_eq hbells) hconfig

theorem activations_bellsLast (s : OutputScheduler Scene Bundle) :
    s.activations.Pairwise fun t u => t.kind = .bell → u.kind ≠ .render := by
  rw [activations, pairwise_append]
  refine ⟨?_, ?_, ?_⟩
  · refine Pairwise.imp_of_mem (R := fun _ _ => True) (fun {t u} hmem _ _ hbell => ?_)
      (pairwise_of_forall fun _ _ => trivial)
    simp only [mem_append, mem_map, Option.mem_toList, Option.map_eq_some_iff] at hmem
    obtain (⟨⟨kind, bytes⟩, -, rfl⟩ | ⟨effect, -, rfl⟩) | ⟨render, -, rfl⟩ := hmem
    · cases kind
      exact absurd hbell (by simp [PendingBytes.activated, ScheduledOutputClass.activeKind])
    · exact absurd hbell (by simp [ScheduledTerminalEffect.activated])
    · exact absurd hbell (by simp [PendingRender.activated])
  · unfold bellTransactions
    split
    · exact pairwise_singleton _ _
    · exact Pairwise.nil
  · intro t _ u hmem _
    unfold bellTransactions at hmem
    split at hmem
    · rw [mem_singleton.mp hmem]
      simp
    · cases hmem

theorem Layered.activatePending (h : Layered s) : Layered s.activatePending := by
  unfold OutputScheduler.activatePending
  split
  · refine ⟨activations_bellsLast s, fun hsome => absurd hsome (by simp), ?_⟩
    have hroom := h.room
    unfold OutputScheduler.bellsWaiting at hroom ⊢
    simp only
    rw [unwritten_unstarted (activations_unstarted s), bellsOf_activations]
    omega
  · exact h

variable [SceneGeometry Scene] {d d' : Drain Scene Bundle}

theorem Move.layered (hmove : Move d d') (h : Layered d.scheduler) : Layered d'.scheduler := by
  cases hmove with
  | wait waiting => exact h.same rfl rfl rfl rfl
  | block writer same => exact h.same rfl rfl rfl rfl
  | retry writer same => exact h
  | release startedMs lastActivityMs held => exact h.same rfl rfl rfl rfl
  | flush writer same => exact h.same rfl rfl rfl rfl
  | conclude => exact h
  | activate => exact h.activatePending
  | write t rest count writer front some fits same =>
    have hactive := h.bellsLast
    rw [front, pairwise_cons] at hactive
    refine ⟨pairwise_cons.mpr hactive, fun hsome u hmem hkind => ?_, ?_⟩
    · obtain rfl | hmem := mem_cons.mp hmem
      · simp only
        omega
      · exact h.sole hsome u (front ▸ mem_cons_of_mem _ hmem) hkind
    · have hroom := h.room
      unfold bellsWaiting at hroom ⊢
      rw [front] at hroom
      refine le_trans (Nat.add_le_add_right ?_ _) hroom
      unfold Drain.advanceFront
      cases hkind : t.kind == .bell with
      | true =>
        simp only [filter_cons, hkind, if_true, unwritten_cons]
        omega
      | false => simp only [filter_cons, hkind, Bool.false_eq_true, if_false, le_refl]
  | pop t rest front done =>
    refine h.shrink ?_ id (le_rfl) rfl
    rw [front]
    exact sublist_cons_self _ _
  | complete flushed =>
    obtain ⟨release, bypass, report, heq, -⟩ := completeAwaiting_spec d
    rw [heq]
    exact h.same rfl rfl rfl rfl

theorem Moves.layered (hmoves : Moves d d') (h : Layered d.scheduler) : Layered d'.scheduler := by
  induction hmoves with
  | refl => exact h
  | tail _ hmove ih => exact hmove.layered ih

end Layered

/-! ## Calls that do not write -/

namespace OutputScheduler

variable {s : OutputScheduler Scene Bundle}

section

variable (s : OutputScheduler Scene Bundle)

def retainedBells (count : Nat) : Nat :=
  min count (s.config.maximumPendingBytes - s.pendingByteCount)

/-- `enqueue_bytes` makes room for these bytes. -/
def Evicts (bytes : Bytes) : Prop :=
  bytes ≠ [] ∧ ¬(controlBacklogLimitBytes < bytes.length ∨
    controlBacklogLimitBytes < saturatingAdd 64 s.controlBytes bytes.length) ∧
    s.exceeds bytes.length = true

def NoBellWaits : Prop :=
  s.pendingBells = 0 ∧ ∀ t ∈ s.active, t.isUnstarted .bell = false

theorem bellsWaiting_le : s.bellsWaiting ≤ s.retainedTotal := by
  have hactive := unwritten_sublist (filter_sublist (l := s.active) (p := (·.kind == .bell)))
  unfold bellsWaiting retainedTotal
  omega

end

theorem enqueueBell_eq (hmaximum : s.config.maximumPendingBytes < 2 ^ 64) (count nowMs : Nat) :
    (s.enqueueBell count nowMs).pendingBells = s.pendingBells + s.retainedBells count ∧
      s.pendingByteCount + s.retainedBells count ≤ max s.pendingByteCount s.config.maximumPendingBytes := by
  have hwaiting := s.bellsWaiting_le
  have hcount := s.pendingByteCount_eq
  unfold bellsWaiting at hwaiting
  unfold enqueueBell retainedBells
  simp only
  split
  · constructor
    · omega
    · omega
  · simp only [saturatingAdd]
    constructor
    · omega
    · omega

end OutputScheduler

section Layered

variable {s : OutputScheduler Scene Bundle}

theorem Layered.enqueueBell (h : Layered s) (hmaximum : s.config.maximumPendingBytes < 2 ^ 64)
    (count nowMs : Nat) : Layered (s.enqueueBell count nowMs) := by
  obtain ⟨hbells, hfits⟩ := s.enqueueBell_eq hmaximum count nowMs
  have hsame : (s.enqueueBell count nowMs).active = s.active ∧
      (s.enqueueBell count nowMs).pendingRender = s.pendingRender ∧
      (s.enqueueBell count nowMs).config = s.config := by
    unfold OutputScheduler.enqueueBell
    simp only
    split
    · exact ⟨rfl, rfl, rfl⟩
    · exact ⟨rfl, rfl, rfl⟩
  obtain ⟨hactive, hrender, hconfig⟩ := hsame
  refine ⟨hactive ▸ h.bellsLast, fun hsome t hmem => h.sole (hrender ▸ hsome) t (hactive ▸ hmem), ?_⟩
  have hroom := h.room
  have hwaiting := s.bellsWaiting_le
  have hcount := s.pendingByteCount_eq
  unfold OutputScheduler.bellsWaiting at hroom hwaiting ⊢
  rw [hactive, hconfig]
  by_cases hretained : s.retainedBells count = 0
  · omega
  · omega

theorem Layered.enqueueBytes (h : Layered s) (kind : ScheduledOutputClass) (bytes : Bytes) (nowMs : Nat) :
    Layered (s.enqueueBytes kind bytes nowMs) := by
  unfold OutputScheduler.enqueueBytes
  split
  · exact h
  · split
    · exact h
    · have hevicted : Layered (if s.exceeds bytes.length then s.evictUnstarted else s) := by
        split
        · refine h.shrink filter_sublist (fun hsome => ?_) (Nat.zero_le _) rfl
          exact Option.isSome_of_isSome_filter _ _ hsome
        · exact h
      simp only
      generalize (if s.exceeds bytes.length then s.evictUnstarted else s) = evicted at hevicted
      split
      · exact hevicted
      · exact hevicted.same rfl rfl rfl rfl

theorem enqueueTerminalEffect_frame (s : OutputScheduler Scene Bundle) (owner : SurfaceId)
    (event : TerminalEvent) (nowMs : Nat) :
    ((s.enqueueTerminalEffect owner event nowMs).active = s.active ∨
      ∃ kind, (s.enqueueTerminalEffect owner event nowMs).active = (s.supersedeEffects owner kind).active) ∧
      (s.enqueueTerminalEffect owner event nowMs).pendingRender = s.pendingRender ∧
      (s.enqueueTerminalEffect owner event nowMs).pendingBells = s.pendingBells ∧
      (s.enqueueTerminalEffect owner event nowMs).config = s.config := by
  obtain ⟨roomier, hroomier, hresult⟩ := s.enqueueTerminalEffect_rule rfl owner nowMs
    (.refl s owner _) (supersedeEffects_supersedes s owner _) fun _ h => h.removePendingEffect
  have hrest : roomier.pendingRender = s.pendingRender ∧ roomier.pendingBells = s.pendingBells ∧
      roomier.config = s.config := by
    rw [hroomier.rest]
    exact ⟨rfl, rfl, rfl⟩
  have hactive : roomier.active = s.active ∨ ∃ kind, roomier.active = (s.supersedeEffects owner kind).active :=
    hroomier.active.imp id fun h => ⟨_, h⟩
  obtain heq | ⟨-, heq⟩ := hresult
  · rw [heq]
    exact ⟨hactive, hrest⟩
  · rw [heq]
    exact ⟨hactive, hrest⟩

theorem Layered.enqueueTerminalEffect (h : Layered s) (owner : SurfaceId) (event : TerminalEvent)
    (nowMs : Nat) : Layered (s.enqueueTerminalEffect owner event nowMs) := by
  obtain ⟨hactive, hrender, hbells, hconfig⟩ := enqueueTerminalEffect_frame s owner event nowMs
  obtain hactive | ⟨kind, hactive⟩ := hactive
  · exact h.same hactive hrender hbells hconfig
  · exact h.shrink (hactive ▸ filter_sublist) (hrender ▸ id) (le_of_eq hbells) hconfig

theorem Command.apply_layered (h : Layered s) (hmaximum : s.config.maximumPendingBytes < 2 ^ 64)
    (c : Command) : Layered (c.apply s) := by
  cases c with
  | enqueueBytes kind bytes nowMs => exact h.enqueueBytes kind bytes nowMs
  | enqueueTerminalEffect owner event nowMs => exact h.enqueueTerminalEffect owner event nowMs
  | enqueueBell count nowMs => exact h.enqueueBell hmaximum count nowMs
  | setSynchronizedOutputSupported supported =>
    refine h.shrink (.refl _) (fun hsome => ?_) (le_rfl) rfl
    simp only [Command.apply, OutputScheduler.setSynchronizedOutputSupported] at hsome
    split at hsome
    · simpa using hsome
    · exact hsome
  | observeApplicationSynchronization synchronized opened activity nowMs =>
    simp only [Command.apply, OutputScheduler.observeApplicationSynchronization]
    split
    · split
      · split
        · exact h.same rfl rfl rfl rfl
        · exact h
      · split
        · exact h.same rfl rfl rfl rfl
        · exact h
      · exact h.same rfl rfl rfl rfl
    · exact h.same rfl rfl rfl rfl
  | setApplicationSynchronizationBypassed bypassed => exact h.same rfl rfl rfl rfl
  | prepareForLifecycleCleanup =>
    exact h.shrink filter_sublist (fun hsome => absurd hsome (by
      simp [Command.apply, OutputScheduler.prepareForLifecycleCleanup])) (Nat.zero_le _) rfl
  | recover => exact h.same rfl rfl rfl rfl
  | notifyWritable => exact h.same rfl rfl rfl rfl

end Layered

/-! ## Renders -/

section Renders

variable {s : OutputScheduler Scene Bundle}

theorem foldl_bells {ts : List (ActiveTransaction Scene Bundle)} {count : Nat}
    (h : count + (ts.map fun t => t.bytes.length).sum < 2 ^ 64) :
    ts.foldl (fun count t => saturatingAdd 64 count t.bytes.length) count =
      count + (ts.map fun t => t.bytes.length).sum := by
  induction ts generalizing count with
  | nil => rfl
  | cons t ts ih =>
    rw [map_cons, sum_cons] at h ⊢
    have hsat : saturatingAdd 64 count t.bytes.length = count + t.bytes.length := by
      unfold saturatingAdd
      omega
    rw [foldl_cons, hsat, ih (by omega), add_assoc]

/-- What an accepted render takes the place of. -/
inductive Admission (s s' : OutputScheduler Scene Bundle) : Prop
  | joins (noRender : s.pendingRender = none) (active : s'.active = s.active)
      (bells : s'.pendingBells = s.pendingBells)
  | pending (p : PendingRender Scene Bundle) (replaced : s.pendingRender = some p)
      (active : s'.active = s.active) (bells : s'.pendingBells = s.pendingBells)
  | active (before after : List (ActiveTransaction Scene Bundle)) (t : ActiveTransaction Scene Bundle)
      (render : TrackedRender Scene Bundle) (noRender : s.pendingRender = none)
      (split : s.active = before ++ t :: after) (unstarted : t.offset = 0) (kind : t.kind = .render)
      (replaced : t.completedRender = some render) (placeless : ∀ u ∈ before, u.Placeless)
      (bellsOnly : ∀ u ∈ after, u.completedRender = none) (later : ∀ u ∈ after, u.offset = 0)
      (active : s'.active = before ++ after.filter fun u => u.kind != .bell)
      (bells : s'.pendingBells = s.pendingBells + bellsOf after)

theorem acceptRender_admission (hone : OneRender s.active) (h : Layered s)
    (hbehind : ∀ t ∈ s.active.tail, t.offset = 0) (hmaximum : s.config.maximumPendingBytes < 2 ^ 64)
    (batch : RenderBatch Scene) (renderBytes : Nat) (accessibility : Bundle) (bypassRequested : Bool)
    (nowMs : Nat) : Admission s (s.acceptRender batch renderBytes accessibility bypassRequested nowMs).2 := by
  cases hindex : s.replaceableActiveIndex with
  | none =>
    have hactive : (s.acceptRender batch renderBytes accessibility bypassRequested nowMs).2.active =
        s.active := by
      simp [acceptRender, hindex, notePending]
    have hbells : (s.acceptRender batch renderBytes accessibility bypassRequested nowMs).2.pendingBells =
        s.pendingBells := by
      simp [acceptRender, hindex, notePending]
    cases hrender : s.pendingRender with
    | none => exact .joins hrender hactive hbells
    | some p => exact .pending p hrender hactive hbells
  | some index =>
    obtain ⟨hlt, hunstarted, -⟩ := findIdx?_eq_some_iff_getElem.mp hindex
    simp only [isUnstarted, Bool.and_eq_true, beq_iff_eq] at hunstarted
    obtain ⟨hkind, hoffset⟩ := hunstarted
    have hsplit : s.active = s.active.take index ++ s.active[index] :: s.active.drop (index + 1) := by
      rw [getElem_cons_drop, take_append_drop]
    have herase : s.active.eraseIdx index = s.active.take index ++ s.active.drop (index + 1) :=
      eraseIdx_eq_take_drop_succ ..
    generalize s.active[index] = t at hkind hoffset hsplit
    generalize s.active.take index = before at hsplit herase
    generalize s.active.drop (index + 1) = after at hsplit herase
    have hothers := (hsplit ▸ hone).others hkind
    rw [rendersOf_append, append_eq_nil_iff] at hothers
    have hnone : ∀ {ts : List (ActiveTransaction Scene Bundle)}, rendersOf ts = [] →
        ∀ u ∈ ts, u.completedRender = none := fun hts u hmem => filterMap_eq_nil_iff.mp hts u hmem
    obtain ⟨render, hrender⟩ := Option.isSome_iff_exists.mp ((hone.kind t (by rw [hsplit]; simp)).mp hkind)
    have hnoRender : s.pendingRender = none := by
      by_contra hsome
      have hpos := h.sole (Option.isSome_iff_ne_none.mpr hsome) t (by rw [hsplit]; simp) hkind
      omega
    have hplaceless : ∀ u ∈ before, u.Placeless := by
      intro u hmem
      have hpair := h.bellsLast
      rw [hsplit, pairwise_append] at hpair
      exact ⟨hnone hothers.1 u hmem, fun hbell => hpair.2.2 u hmem t mem_cons_self hbell hkind⟩
    have hlater : ∀ u ∈ after, u.offset = 0 := by
      intro u hmem
      refine hbehind u ?_
      rw [hsplit]
      cases before with
      | nil => exact hmem
      | cons front before => exact mem_append_right _ (mem_cons_of_mem _ hmem)
    have hbefore : before.filter (·.isUnstarted .bell) = [] := by
      refine filter_eq_nil_iff.mpr fun u hmem => ?_
      simp [isUnstarted, (hplaceless u hmem).2]
    have hafter : after.filter (·.isUnstarted .bell) = after.filter (·.kind == .bell) :=
      filter_congr fun u hmem => by simp [isUnstarted, hlater u hmem]
    have hroom : s.pendingBells + bellsOf after < 2 ^ 64 := by
      have hsub : after.Sublist s.active := by
        rw [hsplit]
        exact (sublist_cons_self t after).trans (sublist_append_right before _)
      have hwaiting := unwritten_sublist (hsub.filter (·.kind == .bell))
      rw [unwritten_unstarted hlater] at hwaiting
      have hroom := h.room
      unfold bellsWaiting at hroom
      omega
    refine .active before after t render hnoRender hsplit hoffset hkind hrender hplaceless (hnone hothers.2)
      hlater ?_ ?_
    · simp only [acceptRender, hindex, notePending, removeActiveRender, withdrawBells]
      rw [herase, filter_append]
      refine congrArg₂ (· ++ ·) (filter_eq_self.mpr fun u hmem => ?_) (filter_congr fun u hmem => ?_)
      · simp [isUnstarted, (hplaceless u hmem).2]
      · simp [isUnstarted, hlater u hmem, bne]
    · simp only [acceptRender, hindex, removeActiveRender, withdrawBells]
      rw [herase, filter_append, hbefore, hafter]
      exact foldl_bells hroom

variable {s' : OutputScheduler Scene Bundle}

theorem acceptRender_started (hone : OneRender s.active) (batch : RenderBatch Scene) (renderBytes : Nat)
    (accessibility : Bundle) (bypassRequested : Bool) (nowMs : Nat) :
    ∀ t ∈ (s.acceptRender batch renderBytes accessibility bypassRequested nowMs).2.active,
      t.kind = .render → 0 < t.offset := by
  intro t hmem hkind
  cases hindex : s.replaceableActiveIndex with
  | none =>
    have hmem : t ∈ s.active := by
      simpa [acceptRender, hindex, notePending] using hmem
    refine pos_of_ne_zero fun hzero => ?_
    have hunstarted := findIdx?_eq_none_iff.mp hindex t hmem
    simp [isUnstarted, hkind, hzero] at hunstarted
  | some index =>
    have hmem : t ∈ s.active.eraseIdx index := by
      simp only [acceptRender, hindex] at hmem
      exact mem_of_mem_filter hmem
    have hnone := filterMap_eq_nil_iff.mp (hone.erase hindex) t hmem
    have hsome := (hone.kind t (mem_of_mem_eraseIdx hmem)).mp hkind
    rw [hnone] at hsome
    cases hsome

theorem Admission.layered (hadmission : Admission s s') (h : Layered s) (hconfig : s'.config = s.config)
    (hstarted : ∀ t ∈ s'.active, t.kind = .render → 0 < t.offset) : Layered s' := by
  have hroom := h.room
  unfold bellsWaiting at hroom
  cases hadmission with
  | joins noRender active bells =>
    refine ⟨active ▸ h.bellsLast, fun _ => hstarted, ?_⟩
    unfold bellsWaiting
    rwa [active, bells, hconfig]
  | pending p replaced active bells =>
    refine ⟨active ▸ h.bellsLast, fun _ => hstarted, ?_⟩
    unfold bellsWaiting
    rwa [active, bells, hconfig]
  | active before after t render noRender split unstarted kind replaced placeless bellsOnly later active bells =>
    refine ⟨?_, fun _ => hstarted, ?_⟩
    · refine h.bellsLast.sublist ?_
      rw [active, split]
      exact (filter_sublist.trans (sublist_cons_self _ _)).append_left before
    · have hbefore : before.filter (·.kind == .bell) = [] :=
        filter_eq_nil_iff.mpr fun u hmem => by simp [(placeless u hmem).2]
      have hafter : (after.filter fun u => u.kind != .bell).filter (·.kind == .bell) = [] := by
        refine filter_eq_nil_iff.mpr fun u hmem => ?_
        simpa using (mem_filter.mp hmem).2
      have hgone : unwritten (s'.active.filter (·.kind == .bell)) = 0 := by
        rw [active, filter_append, hbefore, hafter]
        rfl
      have hkept : unwritten (s.active.filter (·.kind == .bell)) = bellsOf after := by
        rw [split, filter_append, hbefore, nil_append, filter_cons_of_neg (by simp [kind]),
          unwritten_unstarted later]
      unfold bellsWaiting
      rw [hconfig]
      omega

theorem placesOf_bellsOnly {ts : List (ActiveTransaction Scene Bundle)}
    (h : ∀ t ∈ ts, t.completedRender = none) : placesOf ts = replicate (bellsOf ts) .follower := by
  induction ts with
  | nil => rfl
  | cons t ts ih =>
    have hcons : bellsOf (t :: ts) = bellsOf [t] + bellsOf ts := bellsOf_append [t] ts
    have hplaces : t.places = replicate (bellsOf [t]) .follower := by
      unfold places bellPlaces
      by_cases hkind : t.kind = .bell
      · simp [bellsOf, hkind, h t mem_cons_self]
      · simp [bellsOf, hkind, h t mem_cons_self]
    rw [placesOf_cons, hplaces, ih fun u hmem => h u (mem_cons_of_mem _ hmem), hcons,
      replicate_append_replicate]

/-- **The new render joins the line in front of the pending bells, or takes a place in it.** -/
theorem Admission.lineOf_cases (hadmission : Admission s s')
    (finished : List (ActiveTransaction Scene Bundle)) {p' : PendingRender Scene Bundle}
    (hpending : s'.pendingRender = some p') :
    ∃ front rest, lineOf finished s' = front ++ .leader p'.tracked :: rest ∧
      (lineOf finished s = front ++ rest ∨
        ∃ render, s.Unstarted render ∧ lineOf finished s = front ++ .leader render :: rest) := by
  cases hadmission with
  | joins noRender active bells =>
    refine ⟨placesOf (finished ++ s.active), replicate s.pendingBells .follower, ?_, .inl ?_⟩
    · simp [lineOf, pendingPlaces, active, bells, hpending]
    · simp [lineOf, pendingPlaces, noRender]
  | pending p replaced active bells =>
    refine ⟨placesOf (finished ++ s.active), replicate s.pendingBells .follower, ?_,
      .inr ⟨p.tracked, .inr ⟨p, replaced, rfl⟩, ?_⟩⟩
    · simp [lineOf, pendingPlaces, active, bells, hpending]
    · simp [lineOf, pendingPlaces, replaced]
  | active before after t render noRender split unstarted kind replaced placeless bellsOnly later active bells =>
    have hafter : ∀ u ∈ after.filter (fun u => u.kind != .bell), u.Placeless := by
      intro u hmem
      obtain ⟨hmem, hkind⟩ := mem_filter.mp hmem
      exact ⟨bellsOnly u hmem, by simpa using hkind⟩
    have hrender : t.places = [.leader render] := by
      simp [places, bellPlaces, replaced, kind]
    refine ⟨placesOf finished, replicate (bellsOf after + s.pendingBells) .follower, ?_,
      .inr ⟨render, .inl ⟨t, by rw [split]; simp, unstarted, replaced⟩, ?_⟩⟩
    · simp [lineOf, pendingPlaces, active, bells, hpending, placesOf_placeless placeless,
        placesOf_placeless hafter, add_comm]
    · simp [lineOf, pendingPlaces, split, noRender, placesOf_placeless placeless, hrender,
        placesOf_bellsOnly bellsOnly]

end Renders

/-! ## Commands and the line -/

section Commands

variable {s : OutputScheduler Scene Bundle} {finished : List (ActiveTransaction Scene Bundle)}

theorem lineOf_same {s' : OutputScheduler Scene Bundle} (hactive : s'.active = s.active)
    (hrender : s'.pendingRender.map PendingRender.tracked = s.pendingRender.map PendingRender.tracked)
    (hbells : s'.pendingBells = s.pendingBells) : lineOf finished s' = lineOf finished s := by
  simp only [lineOf, pendingPlaces, hactive, hrender, hbells]

theorem enqueueBell_lineOf (hmaximum : s.config.maximumPendingBytes < 2 ^ 64) (count nowMs : Nat) :
    lineOf finished (s.enqueueBell count nowMs) =
      lineOf finished s ++ replicate (s.retainedBells count) .follower := by
  have hbells := (s.enqueueBell_eq hmaximum count nowMs).1
  have hsame : (s.enqueueBell count nowMs).active = s.active ∧
      (s.enqueueBell count nowMs).pendingRender = s.pendingRender := by
    unfold enqueueBell
    simp only
    split
    · exact ⟨rfl, rfl⟩
    · exact ⟨rfl, rfl⟩
  simp only [lineOf, pendingPlaces, hsame.1, hsame.2, hbells, append_assoc, replicate_append_replicate]

theorem bellsOf_none {ts : List (ActiveTransaction Scene Bundle)} (h : ∀ t ∈ ts, t.kind ≠ .bell) :
    bellsOf ts = 0 := by
  have hnone : ts.filter (·.kind == .bell) = [] := filter_eq_nil_iff.mpr fun t hmem => by simpa using h t hmem
  rw [bellsOf, hnone]
  rfl

theorem evictUnstarted_lineOf (h : s.NoBellWaits) (hbehind : ∀ t ∈ s.active.tail, t.offset = 0) :
    ∃ front rest rest', lineOf finished s = front ++ rest ∧
      lineOf finished s.evictUnstarted = front ++ rest' ∧ followers rest = 0 ∧ followers rest' = 0 := by
  obtain ⟨hpending, hactive⟩ := h
  have hbells : ∀ t ∈ s.active, t.offset = 0 → t.kind ≠ .bell := by
    intro t hmem hzero hkind
    have hwaits := hactive t hmem
    simp [isUnstarted, hzero, hkind] at hwaits
  have hfilter : ∀ ts : List (ActiveTransaction Scene Bundle), (∀ t ∈ ts, t.kind ≠ .bell) →
      bellsOf ts = 0 ∧ bellsOf (ts.filter s.survivesEviction) = 0 := by
    intro ts hts
    exact ⟨bellsOf_none hts, bellsOf_none fun t hmem => hts t (mem_of_mem_filter hmem)⟩
  have hsplit : ∃ started unstarted, s.active = started ++ unstarted ∧
      (∀ t ∈ started, 0 < t.offset) ∧ ∀ t ∈ unstarted, t.offset = 0 := by
    cases heq : s.active with
    | nil => exact ⟨[], [], rfl, by simp, by simp⟩
    | cons front rest =>
      rw [heq] at hbehind
      obtain hzero | hpos := eq_zero_or_pos front.offset
      · exact ⟨[], front :: rest, rfl, by simp, by simpa [hzero] using hbehind⟩
      · exact ⟨[front], rest, rfl, by simpa using hpos, hbehind⟩
  obtain ⟨started, unstarted, heq, hstarted, hunstarted⟩ := hsplit
  have hkept : started.filter s.survivesEviction = started :=
    filter_eq_self.mpr fun t hmem => by simp [survivesEviction, hstarted t hmem]
  obtain ⟨hnone, hnone'⟩ := hfilter unstarted fun t hmem =>
    hbells t (by rw [heq]; exact mem_append_right _ hmem) (hunstarted t hmem)
  refine ⟨placesOf (finished ++ started), placesOf unstarted ++ s.pendingPlaces,
    placesOf (unstarted.filter s.survivesEviction) ++ s.evictUnstarted.pendingPlaces, ?_, ?_, ?_, ?_⟩
  · simp only [lineOf, heq, placesOf_append, append_assoc]
  · simp only [lineOf, evictUnstarted, heq, filter_append, hkept, placesOf_append, append_assoc]
  · rw [followers_append, followers_placesOf, hnone, followers_pendingPlaces, hpending]
  · rw [followers_append, followers_placesOf, hnone', followers_pendingPlaces]
    rfl

theorem enqueueBytes_lineOf (finished : List (ActiveTransaction Scene Bundle)) (kind : ScheduledOutputClass)
    (bytes : Bytes) (nowMs : Nat)
    (h : s.Evicts bytes → s.NoBellWaits) (hbehind : ∀ t ∈ s.active.tail, t.offset = 0) :
    ∃ front rest rest', lineOf finished s = front ++ rest ∧
      lineOf finished (s.enqueueBytes kind bytes nowMs) = front ++ rest' ∧ followers rest = 0 ∧
      followers rest' = 0 := by
  have hsame : lineOf finished s = lineOf finished s ++ [] := by simp
  unfold enqueueBytes
  split
  · exact ⟨_, [], [], hsame, hsame, rfl, rfl⟩
  · rename_i hbytes
    split
    · exact ⟨_, [], [], hsame, hsame, rfl, rfl⟩
    · rename_i hbacklog
      have hevicted : ∃ front rest rest', lineOf finished s = front ++ rest ∧
          lineOf finished (if s.exceeds bytes.length then s.evictUnstarted else s) = front ++ rest' ∧
          followers rest = 0 ∧ followers rest' = 0 := by
        split
        · rename_i hexceeds
          exact evictUnstarted_lineOf (h ⟨hbytes, hbacklog, hexceeds⟩) hbehind
        · exact ⟨_, [], [], hsame, hsame, rfl, rfl⟩
      simp only
      generalize (if s.exceeds bytes.length then s.evictUnstarted else s) = evicted at hevicted
      split
      · exact hevicted
      · exact hevicted

theorem Command.lineOf_eq (hkind : ∀ t ∈ s.active, t.kind = .effect → t.completedRender = none)
    (c : Command) (hbytes : ∀ kind bytes nowMs, c ≠ .enqueueBytes kind bytes nowMs)
    (hbell : ∀ count nowMs, c ≠ .enqueueBell count nowMs) (hcleanup : c ≠ .prepareForLifecycleCleanup) :
    lineOf finished (c.apply s) = lineOf finished s := by
  cases c with
  | enqueueBytes kind bytes nowMs => exact absurd rfl (hbytes kind bytes nowMs)
  | enqueueBell count nowMs => exact absurd rfl (hbell count nowMs)
  | prepareForLifecycleCleanup => exact absurd rfl hcleanup
  | enqueueTerminalEffect owner event nowMs =>
    obtain ⟨hactive, hrender, hbells, -⟩ := enqueueTerminalEffect_frame s owner event nowMs
    obtain hactive | ⟨kind, hactive⟩ := hactive
    · exact lineOf_same hactive (by rw [Command.apply, hrender]) hbells
    · simp only [Command.apply, lineOf, OutputScheduler.pendingPlaces, hactive, hrender, hbells,
        placesOf_append]
      rw [OutputScheduler.supersedeEffects, placesOf_filter]
      intro t hmem hgone
      simp only [Bool.or_eq_false_iff, bne_eq_false_iff_eq] at hgone
      exact ⟨hkind t hmem hgone.1.2, by simp [hgone.1.2]⟩
  | setSynchronizedOutputSupported supported =>
    refine lineOf_same rfl ?_ rfl
    simp only [Command.apply, OutputScheduler.setSynchronizedOutputSupported]
    split
    · rw [Option.map_map]
      rfl
    · rfl
  | observeApplicationSynchronization synchronized opened activity nowMs =>
    simp only [Command.apply, OutputScheduler.observeApplicationSynchronization]
    split
    · split
      · split
        · rfl
        · rfl
      · split
        · rfl
        · rfl
      · rfl
    · rfl
  | setApplicationSynchronizationBypassed bypassed => rfl
  | recover => rfl
  | notifyWritable => rfl

end Commands

/-! ## Runs -/

def Run.Along [SceneGeometry Scene] (holds : Run Scene Bundle → Op Scene Bundle → Prop) :
    Run Scene Bundle → List (Op Scene Bundle) → Prop
  | _, [] => True
  | r, op :: ops => holds r op ∧ Along holds (r.step op) ops

namespace Run

variable [SceneGeometry Scene]

def Peaceful (r : Run Scene Bundle) : Op Scene Bundle → Prop
  | .command .prepareForLifecycleCleanup => False
  | .drain nowMs force => (r.opened.drainReady nowMs force).outcome ≠ .failed
  | _ => True

def SparesBells (r : Run Scene Bundle) : Op Scene Bundle → Prop
  | .command (.enqueueBytes _ bytes _) => r.scheduler.Evicts bytes → r.scheduler.NoBellWaits
  | _ => True

def bellsTaken (r : Run Scene Bundle) : Op Scene Bundle → Nat
  | .command (.enqueueBell count _) => if r.hung then 0 else r.scheduler.retainedBells count
  | _ => 0

def bellsAccepted : Run Scene Bundle → List (Op Scene Bundle) → Nat
  | _, [] => 0
  | r, op :: ops => r.bellsTaken op + bellsAccepted (r.step op) ops

def bellsWritten (r : Run Scene Bundle) : Nat :=
  bellsOf r.finished +
    ((r.scheduler.active.filter (·.kind == .bell)).map fun t => (t.bytes.take t.offset).length).sum

/-- The call queues a render in the place of an unstarted one. -/
def Replaces (r : Run Scene Bundle) (op : Op Scene Bundle) (render render' : TrackedRender Scene Bundle) :
    Prop :=
  ∃ batch accessibility nowMs, op = .render batch accessibility nowMs ∧
    (r.scheduler.enqueueRenderWithAccessibility batch accessibility nowMs).1 ≠ .droppedForCapacity ∧
    r.scheduler.Unstarted render ∧
    render' = ⟨batch.predicted, r.scheduler.nextRenderGeneration, accessibility⟩

/-- `render` itself while it is queued or written, or the one that replaced it. -/
inductive StandsFor : Run Scene Bundle → List (Op Scene Bundle) → TrackedRender Scene Bundle →
    TrackedRender Scene Bundle → Prop
  | last (r : Run Scene Bundle) (render : TrackedRender Scene Bundle) : StandsFor r [] render render
  | kept {r : Run Scene Bundle} {op : Op Scene Bundle} {ops : List (Op Scene Bundle)}
      {render render' : TrackedRender Scene Bundle}
      (stays : render ∈ rendersOf (r.step op).finished ++ (r.step op).scheduler.renderLane)
      (rest : StandsFor (r.step op) ops render render') : StandsFor r (op :: ops) render render'
  | replaced {r : Run Scene Bundle} {op : Op Scene Bundle} {ops : List (Op Scene Bundle)}
      {render newer render' : TrackedRender Scene Bundle} (replaces : r.Replaces op render newer)
      (rest : StandsFor (r.step op) ops newer render') : StandsFor r (op :: ops) render render'

def line (r : Run Scene Bundle) : List (Place (TrackedRender Scene Bundle)) := lineOf r.finished r.scheduler

structure InLine (r : Run Scene Bundle) : Prop where
  sound : r.Sound
  single : (rendersOf r.scheduler.active).length ≤ 1
  layered : Layered r.scheduler
  maximum : r.scheduler.config.maximumPendingBytes < 2 ^ 64

section States

omit [SceneGeometry Scene]

variable {r : Run Scene Bundle}

theorem inLine_start (config : OutputSchedulerConfig) (supported : Bool) (writes : List WriteResponse)
    (flushes : List FlushResponse) (hmaximum : config.maximumPendingBytes < 2 ^ 64) :
    (start config supported writes flushes : Run Scene Bundle).InLine :=
  ⟨sound_start config supported writes flushes, Nat.zero_le _, layered_new config supported, hmaximum⟩

theorem InLine.behind (h : r.InLine) : ∀ t ∈ r.scheduler.active.tail, t.offset = 0 := by
  obtain ⟨-, recent, -, -, -, hserial, -⟩ := h.sound.written
  exact hserial.behind

theorem InLine.oneRender (h : r.InLine) : OneRender r.scheduler.active := h.sound.oneRender h.single

theorem InLine.admission (h : r.InLine) (batch : RenderBatch Scene) (accessibility : Bundle) (nowMs : Nat)
    (haccepted : (r.scheduler.enqueueRenderWithAccessibility batch accessibility nowMs).1 ≠ .droppedForCapacity) :
    Admission r.scheduler (r.scheduler.enqueueRenderWithAccessibility batch accessibility nowMs).2 ∧
      ∀ t ∈ (r.scheduler.enqueueRenderWithAccessibility batch accessibility nowMs).2.active,
        t.kind = .render → 0 < t.offset := by
  have htaken : ∀ {s' : OutputScheduler Scene Bundle},
      Admission { r.scheduler with bypassNextRender := false } s' → Admission r.scheduler s' := by
    intro s' hadmission
    cases hadmission with
    | joins noRender active bells => exact .joins noRender active bells
    | pending p replaced active bells => exact .pending p replaced active bells
    | active before after t render noRender split unstarted kind replaced placeless bellsOnly later active
        bells =>
      exact .active before after t render noRender split unstarted kind replaced placeless bellsOnly later
        active bells
  revert haccepted
  unfold enqueueRenderWithAccessibility
  simp only
  split
  · exact fun haccepted => absurd rfl haccepted
  · rename_i renderBytes _
    split
    · exact fun haccepted => absurd rfl haccepted
    · have hone : OneRender ({ r.scheduler with bypassNextRender := false }).active := h.oneRender
      have hlayered : Layered { r.scheduler with bypassNextRender := false } := h.layered.same rfl rfl rfl rfl
      exact fun _ => ⟨htaken (acceptRender_admission hone hlayered h.behind h.maximum batch renderBytes
        accessibility _ nowMs), acceptRender_started hone batch renderBytes accessibility _ nowMs⟩

end States

/-! ### Steps -/

variable {r : Run Scene Bundle}

theorem config_step (r : Run Scene Bundle) (op : Op Scene Bundle) :
    (r.step op).scheduler.config = r.scheduler.config := by
  unfold step
  split
  · rfl
  · cases op with
    | command c => exact (c.apply_advances r.scheduler).config
    | render batch accessibility nowMs =>
      obtain ⟨-, hadv⟩ | ⟨-, hacc⟩ := r.scheduler.enqueueRender_cases batch accessibility nowMs
      · exact hadv.config
      · obtain ⟨s₀, hadv, -, -, -, -, -, -, hconfig⟩ := hacc.withdrawn
        exact hconfig.trans hadv.config
    | drain nowMs force =>
      obtain ⟨-, hmoves⟩ | ⟨-, d, hmoves, writer, -, hfailed⟩ := Drain.drainReady_follows r.opened nowMs force
      · exact hmoves.keepsWork.config
      · have hkept := hmoves.keepsWork.config
        simp only [close, hfailed]
        exact hkept

theorem InLine.step (h : r.InLine) (op : Op Scene Bundle) : (r.step op).InLine := by
  refine ⟨sound_step h.sound op, single_step h.single op, ?_, (config_step r op).symm ▸ h.maximum⟩
  unfold Run.step
  split
  · exact h.layered
  · cases op with
    | command c => exact c.apply_layered h.layered h.maximum
    | render batch accessibility nowMs =>
      show Layered (r.scheduler.enqueueRenderWithAccessibility batch accessibility nowMs).2
      by_cases hdropped : (r.scheduler.enqueueRenderWithAccessibility batch accessibility nowMs).1 =
          .droppedForCapacity
      · rw [(enqueueRender_dropped r.scheduler batch accessibility nowMs hdropped)]
        exact h.layered.same rfl rfl rfl rfl
      · obtain ⟨hadmission, hstarted⟩ := h.admission batch accessibility nowMs hdropped
        refine hadmission.layered h.layered ?_ hstarted
        have hconfig := config_step r (.render batch accessibility nowMs)
        unfold Run.step at hconfig
        split at hconfig
        · rename_i hhung hrunning
          exact absurd hrunning hhung
        · exact hconfig
    | drain nowMs force =>
      obtain ⟨-, hmoves⟩ | ⟨-, d, -, writer, -, hfailed⟩ := Drain.drainReady_follows r.opened nowMs force
      · exact Moves.layered hmoves h.layered
      · simp only [close, hfailed]
        exact ⟨Pairwise.nil, fun hsome => absurd hsome (by simp [Drain.fail, failed]), Nat.zero_le _⟩

/-- The line grows by the accepted bells, and a bell stays behind its render or what replaces it. -/
def KeepsLine (r : Run Scene Bundle) (op : Op Scene Bundle) (r' : Run Scene Bundle) : Prop :=
  followers r'.line = followers r.line + r.bellsTaken op ∧ ∀ render k, Leads render k r.line →
      Leads render k r'.line ∨ ∃ newer, r.Replaces op render newer ∧ Leads newer k r'.line

section Calls

omit [SceneGeometry Scene]

theorem keepsLine_same {r' : Run Scene Bundle} {op : Op Scene Bundle} (hline : r'.line = r.line)
    (htaken : r.bellsTaken op = 0) : r.KeepsLine op r' := by
  unfold KeepsLine
  rw [hline, htaken]
  exact ⟨rfl, fun render k hleads => .inl hleads⟩

theorem InLine.enqueueBell_keepsLine (h : r.InLine) (hrunning : ¬r.hung = true) (count nowMs : Nat) :
    r.KeepsLine (.command (.enqueueBell count nowMs))
      { r with scheduler := r.scheduler.enqueueBell count nowMs } := by
  have hline : ({ r with scheduler := r.scheduler.enqueueBell count nowMs }).line =
      r.line ++ replicate (r.scheduler.retainedBells count) .follower :=
    enqueueBell_lineOf h.maximum count nowMs
  unfold KeepsLine
  rw [hline, followers_append, followers_replicate, bellsTaken, if_neg hrunning]
  exact ⟨rfl, fun render k hleads => .inl (hleads.append _)⟩

theorem InLine.enqueueBytes_keepsLine (h : r.InLine) (kind : ScheduledOutputClass) (bytes : Bytes)
    (nowMs : Nat) (hspares : r.scheduler.Evicts bytes → r.scheduler.NoBellWaits) :
    r.KeepsLine (.command (.enqueueBytes kind bytes nowMs))
      { r with scheduler := r.scheduler.enqueueBytes kind bytes nowMs } := by
  obtain ⟨front, rest, rest', hline, hline', hrest, hrest'⟩ :=
    enqueueBytes_lineOf r.finished kind bytes nowMs hspares h.behind
  have hbefore : r.line = front ++ rest := hline
  have hafter : ({ r with scheduler := r.scheduler.enqueueBytes kind bytes nowMs }).line = front ++ rest' :=
    hline'
  unfold KeepsLine
  rw [hbefore, hafter, followers_append, followers_append, hrest, hrest']
  exact ⟨rfl, fun render k hleads => .inl ((hleads.of_tail hrest).append _)⟩

theorem InLine.command_keepsLine (h : r.InLine) (hrunning : ¬r.hung = true) (c : Command)
    (hcleanup : c ≠ .prepareForLifecycleCleanup) (hspares : r.SparesBells (.command c)) :
    r.KeepsLine (.command c) { r with scheduler := c.apply r.scheduler } := by
  by_cases hbell : ∃ count nowMs, c = .enqueueBell count nowMs
  · obtain ⟨count, nowMs, rfl⟩ := hbell
    exact h.enqueueBell_keepsLine hrunning count nowMs
  · by_cases hbytes : ∃ kind bytes nowMs, c = .enqueueBytes kind bytes nowMs
    · obtain ⟨kind, bytes, nowMs, rfl⟩ := hbytes
      exact h.enqueueBytes_keepsLine kind bytes nowMs hspares
    · have htaken : r.bellsTaken (.command c) = 0 := by
        cases c with
        | enqueueBell count nowMs => exact absurd ⟨count, nowMs, rfl⟩ hbell
        | _ => rfl
      refine keepsLine_same (Command.lineOf_eq (fun t hmem hkind => ?_) c ?_ ?_ hcleanup) htaken
      · have hgenuine := h.sound.genuine t (mem_append_right _ hmem)
        rw [Genuine, hkind] at hgenuine
        exact hgenuine.1
      · exact fun kind bytes nowMs heq => hbytes ⟨kind, bytes, nowMs, heq⟩
      · exact fun count nowMs heq => hbell ⟨count, nowMs, heq⟩

theorem InLine.render_keepsLine (h : r.InLine) (batch : RenderBatch Scene) (accessibility : Bundle)
    (nowMs : Nat) :
    r.KeepsLine (.render batch accessibility nowMs) (r.enqueueRender batch accessibility nowMs) := by
  obtain ⟨hdropped, -⟩ | ⟨haccepted, hacc⟩ := r.scheduler.enqueueRender_cases batch accessibility nowMs
  · refine keepsLine_same ?_ rfl
    show lineOf r.finished (r.scheduler.enqueueRenderWithAccessibility batch accessibility nowMs).2 = _
    rw [enqueueRender_dropped r.scheduler batch accessibility nowMs hdropped]
    rfl
  · obtain ⟨byteLen, hpending⟩ := hacc.pending
    obtain ⟨front, rest, hline', hcases⟩ :=
      (h.admission batch accessibility nowMs haccepted).1.lineOf_cases r.finished hpending
    have hafter : (r.enqueueRender batch accessibility nowMs).line = front ++ .leader _ :: rest := hline'
    unfold KeepsLine
    rw [hafter]
    obtain hline | ⟨replaced, hunstarted, hline⟩ := hcases
    · have hbefore : r.line = front ++ rest := hline
      rw [hbefore]
      exact ⟨by simp [bellsTaken], fun render k hleads => .inl (hleads.insert _)⟩
    · have hbefore : r.line = front ++ .leader replaced :: rest := hline
      rw [hbefore]
      refine ⟨by simp [bellsTaken], fun render k hleads => ?_⟩
      obtain hkept | ⟨rfl, hnewer⟩ := hleads.replace (PendingRender.tracked
        ⟨batch, byteLen, r.scheduler.nextRenderGeneration, accessibility⟩)
      · exact .inl hkept
      · exact .inr ⟨_, ⟨batch, accessibility, nowMs, rfl, haccepted, hunstarted, rfl⟩, hnewer⟩

end Calls

/-- **One call keeps the line.** -/
theorem InLine.keepsLine_step (h : r.InLine) (op : Op Scene Bundle) (hpeaceful : r.Peaceful op)
    (hspares : r.SparesBells op) : r.KeepsLine op (r.step op) := by
  by_cases hhung : r.hung = true
  · rw [step_hung hhung]
    refine keepsLine_same rfl ?_
    unfold bellsTaken
    split
    · rw [if_pos hhung]
    · rfl
  · unfold Run.step
    rw [if_neg hhung]
    cases op with
    | command c =>
      refine h.command_keepsLine hhung c ?_ hspares
      rintro rfl
      exact hpeaceful
    | render batch accessibility nowMs => exact h.render_keepsLine batch accessibility nowMs
    | drain nowMs force =>
      obtain ⟨-, hmoves⟩ | ⟨hfailed, -⟩ := Drain.drainReady_follows r.opened nowMs force
      · exact keepsLine_same (Moves.lineOf_eq hmoves) rfl
      · exact absurd hfailed hpeaceful

/-! ### Whole runs -/

variable {ops : List (Op Scene Bundle)}

theorem along_append {holds : Run Scene Bundle → Op Scene Bundle → Prop} {more : List (Op Scene Bundle)}
    (h : Along holds r (ops ++ more)) : Along holds r ops ∧ Along holds (r.runOps ops) more := by
  induction ops generalizing r with
  | nil => exact ⟨trivial, h⟩
  | cons op ops ih =>
    obtain ⟨hop, hrest⟩ := h
    obtain ⟨hops, hmore⟩ := ih hrest
    exact ⟨⟨hop, hops⟩, hmore⟩

theorem bellsAccepted_append (r : Run Scene Bundle) (ops more : List (Op Scene Bundle)) :
    r.bellsAccepted (ops ++ more) = r.bellsAccepted ops + (r.runOps ops).bellsAccepted more := by
  induction ops generalizing r with
  | nil =>
    rw [bellsAccepted, zero_add]
    rfl
  | cons op ops ih =>
    rw [cons_append, bellsAccepted, bellsAccepted, ih, add_assoc]
    rfl

theorem InLine.runOps (h : r.InLine) (ops : List (Op Scene Bundle)) : (r.runOps ops).InLine := by
  induction ops generalizing r with
  | nil => exact h
  | cons op ops ih => exact ih (h.step op)

theorem InLine.followers_runOps (h : r.InLine) (hpeaceful : Along Peaceful r ops)
    (hspares : Along SparesBells r ops) :
    followers (r.runOps ops).line = followers r.line + r.bellsAccepted ops := by
  induction ops generalizing r with
  | nil => rfl
  | cons op ops ih =>
    have hstep := (h.keepsLine_step op hpeaceful.1 hspares.1).1
    have hrest := ih (h.step op) hpeaceful.2 hspares.2
    rw [bellsAccepted, ← add_assoc, ← hstep]
    exact hrest

theorem InLine.leads_runOps (h : r.InLine) (hpeaceful : Along Peaceful r ops)
    (hspares : Along SparesBells r ops) {render : TrackedRender Scene Bundle} {k : Nat}
    (hleads : Leads render k r.line) :
    ∃ render', StandsFor r ops render render' ∧ Leads render' k (r.runOps ops).line := by
  induction ops generalizing r render with
  | nil => exact ⟨render, .last r render, hleads⟩
  | cons op ops ih =>
    obtain hkept | ⟨newer, hreplaces, hnewer⟩ := (h.keepsLine_step op hpeaceful.1 hspares.1).2 render k hleads
    · obtain ⟨render', hstands, hleads'⟩ := ih (h.step op) hpeaceful.2 hspares.2 hkept
      exact ⟨render', .kept (mem_lineOf.mp hkept.mem) hstands, hleads'⟩
    · obtain ⟨render', hstands, hleads'⟩ := ih (h.step op) hpeaceful.2 hspares.2 hnewer
      exact ⟨render', .replaced hreplaces hstands, hleads'⟩

theorem InLine.leads_accepted (h : r.InLine) (count nowMs : Nat) {render : TrackedRender Scene Bundle}
    (hrender : render ∈ r.scheduler.renderLane) {k : Nat} (hfirst : followers r.line ≤ k)
    (hlast : k < followers r.line + r.bellsTaken (.command (.enqueueBell count nowMs))) :
    Leads render k (r.step (.command (.enqueueBell count nowMs))).line := by
  by_cases hhung : r.hung = true
  · rw [bellsTaken, if_pos hhung] at hlast
    omega
  · rw [bellsTaken, if_neg hhung] at hlast
    have hline : (r.step (.command (.enqueueBell count nowMs))).line =
        r.line ++ replicate (r.scheduler.retainedBells count) .follower := by
      unfold Run.step
      rw [if_neg hhung]
      exact enqueueBell_lineOf h.maximum count nowMs
    rw [hline]
    exact leads_new (mem_lineOf.mpr (mem_append_right _ hrender)) hfirst hlast

section States

omit [SceneGeometry Scene]

theorem InLine.renders_before (h : r.InLine) {render : TrackedRender Scene Bundle} {k : Nat}
    (hleads : Leads render k r.line) {earlier later : List (ActiveTransaction Scene Bundle)}
    {t : ActiveTransaction Scene Bundle} (hsplit : r.finished ++ r.scheduler.active = earlier ++ t :: later)
    (hkind : t.kind = .bell) (hlast : k < bellsOf (earlier ++ [t])) : render ∈ rendersOf earlier := by
  have hgenuine := h.sound.genuine t (by
    show t ∈ r.finished ++ r.scheduler.active
    rw [hsplit]
    exact mem_append_right _ mem_cons_self)
  rw [Genuine, hkind] at hgenuine
  have hplaces : t.places = replicate t.bytes.length .follower := by
    simp [places, bellPlaces, hkind, hgenuine.1]
  have hline : r.line = placesOf earlier ++ (replicate t.bytes.length .follower ++
      (placesOf later ++ r.scheduler.pendingPlaces)) := by
    rw [line, lineOf, hsplit, placesOf_append, placesOf_cons, hplaces]
    simp only [append_assoc]
  have hcount : k < followers (placesOf earlier) + t.bytes.length := by
    rw [bellsOf_append] at hlast
    have hbell : bellsOf [t] = t.bytes.length := by simp [bellsOf, hkind]
    rw [followers_placesOf]
    omega
  rw [hline] at hleads
  exact mem_placesOf.mp (hleads.before hcount)

theorem bells_split (ts : List (ActiveTransaction Scene Bundle)) :
    ((ts.filter (·.kind == .bell)).map fun t => (t.bytes.take t.offset).length).sum +
      unwritten (ts.filter (·.kind == .bell)) = bellsOf ts := by
  unfold unwritten bellsOf
  induction ts.filter (·.kind == .bell) with
  | nil => rfl
  | cons t ts ih =>
    simp only [map_cons, sum_cons, length_take] at ih ⊢
    omega

theorem followers_line (r : Run Scene Bundle) :
    followers r.line = r.bellsWritten + r.scheduler.bellsWaiting := by
  have hsplit := bells_split r.scheduler.active
  rw [line, followers_lineOf, bellsWritten, bellsWaiting, bellLane]
  omega

theorem InLine.serial (h : r.InLine) (hunfailed : .failed ∉ r.writer.events) :
    Serial transactionLayout r.finished r.scheduler.active (acceptedBytes r.writer.events) := by
  obtain ⟨past, recent, hevents, hpast, -, hserial, -⟩ := h.sound.written
  obtain rfl | hfailed := hpast
  · have hevents : r.writer.events = recent := hevents
    rw [hevents]
    exact hserial
  · have hevents : r.writer.events = past ++ recent := hevents
    exact absurd (by rw [hevents]; exact mem_append_left _ hfailed) hunfailed

end States

end Run

theorem Move.unfailed [SceneGeometry Scene] {d d' : Drain Scene Bundle} (hmove : Move d d')
    (h : .failed ∉ d.writer.events) : .failed ∉ d'.writer.events := by
  cases hmove with
  | wait waiting => exact h
  | block writer same => exact same ▸ h
  | retry writer same => exact same ▸ h
  | release startedMs lastActivityMs held => exact h
  | activate => exact h
  | write t rest count writer front some fits same => simpa [Drain.advanceFront, same] using h
  | pop t rest front done => exact h
  | flush writer same => simpa [Drain.flush, same] using h
  | complete flushed =>
    obtain ⟨release, bypass, report, heq, -⟩ := completeAwaiting_spec d
    rw [heq]
    exact h
  | conclude => exact h

namespace Run

variable [SceneGeometry Scene] {r : Run Scene Bundle}

theorem unfailed_step {op : Op Scene Bundle} (h : .failed ∉ r.writer.events) (hpeaceful : r.Peaceful op) :
    .failed ∉ (r.step op).writer.events := by
  unfold Run.step
  split
  · exact h
  · cases op with
    | command c => exact h
    | render batch accessibility nowMs => exact h
    | drain nowMs force =>
      obtain ⟨-, hmoves⟩ | ⟨hfailed, -⟩ := Drain.drainReady_follows r.opened nowMs force
      · exact Relation.ReflTransGen.rec (motive := fun d _ => .failed ∉ d.writer.events) h
          (fun _ hmove ih => hmove.unfailed ih) hmoves
      · exact absurd hfailed hpeaceful

theorem unfailed_runOps {ops : List (Op Scene Bundle)} (h : .failed ∉ r.writer.events)
    (hpeaceful : Along Peaceful r ops) : .failed ∉ (r.runOps ops).writer.events := by
  induction ops generalizing r with
  | nil => exact h
  | cons op ops ih => exact ih (unfailed_step h hpeaceful.1) hpeaceful.2

/-- **Bells are kept, each behind its frame**, in a run without a fatal error or a lifecycle cleanup, in which
control bytes evict no bell. A bell accepted while a render was queued is behind the render that stands for it.
-/
theorem bells_behind_frames (config : OutputSchedulerConfig) (supported : Bool) (writes : List WriteResponse)
    (flushes : List FlushResponse) (ops : List (Op Scene Bundle))
    (hmaximum : config.maximumPendingBytes < 2 ^ 64)
    (hpeaceful : Along Peaceful (start config supported writes flushes) ops)
    (hspares : Along SparesBells (start config supported writes flushes) ops) :
    let r₀ : Run Scene Bundle := start config supported writes flushes
    let r := r₀.runOps ops
    r.bellsWritten + r.scheduler.bellsWaiting = r₀.bellsAccepted ops ∧
      Serial transactionLayout r.finished r.scheduler.active (acceptedBytes r.writer.events) ∧
      ∀ before count nowMs after, ops = before ++ .command (.enqueueBell count nowMs) :: after →
        ∀ render ∈ (r₀.runOps before).scheduler.renderLane, ∀ k, r₀.bellsAccepted before ≤ k →
          k < r₀.bellsAccepted (before ++ [.command (.enqueueBell count nowMs)]) →
          ∃ render', StandsFor (r₀.runOps (before ++ [.command (.enqueueBell count nowMs)])) after
              render render' ∧
            ∀ earlier t later, r.finished ++ r.scheduler.active = earlier ++ t :: later → t.kind = .bell →
              k < bellsOf (earlier ++ [t]) → render' ∈ rendersOf earlier := by
  intro r₀ r
  have hstart : r₀.InLine := inLine_start config supported writes flushes hmaximum
  have hline : r.InLine := hstart.runOps ops
  refine ⟨?_, hline.serial (unfailed_runOps not_mem_nil hpeaceful), ?_⟩
  · rw [← followers_line]
    exact (hstart.followers_runOps hpeaceful hspares).trans (zero_add _)
  · rintro before count nowMs after rfl render hrender k hfirst hlast
    obtain ⟨hpeacefulBefore, -, hpeacefulAfter⟩ := along_append hpeaceful
    obtain ⟨hsparesBefore, -, hsparesAfter⟩ := along_append hspares
    have hbefore := (hstart.followers_runOps hpeacefulBefore hsparesBefore).trans (zero_add _)
    rw [bellsAccepted_append] at hlast
    have hleads : Leads render k ((r₀.runOps before).step (.command (.enqueueBell count nowMs))).line :=
      (hstart.runOps before).leads_accepted count nowMs hrender (by rwa [hbefore]) (by rwa [hbefore])
    obtain ⟨render', hstands, hleads'⟩ :=
      ((hstart.runOps before).step _).leads_runOps hpeacefulAfter hsparesAfter hleads
    refine ⟨render', by rw [runOps_append]; exact hstands, fun earlier t later hsplit hkind hlast => ?_⟩
    refine hline.renders_before ?_ hsplit hkind hlast
    show Leads render' k (r₀.runOps _).line
    rw [runOps_append]
    exact hleads'

def framedOps : List (Op TerminalGeometry Nat) :=
  [.render (textFrame "old") 1 0, .command (.enqueueBell 1 0), .render (textFrame "new") 2 0, .drain 0 false]

def framedStart : Run TerminalGeometry Nat :=
  start OutputSchedulerConfig.default false [.accepted 3, .accepted 1] [.flushed]

/-- The bell comes after the frame that replaced its own. -/
theorem bells_behind_frames_replaced :
    (framedStart.runOps framedOps).bellsWritten + (framedStart.runOps framedOps).scheduler.bellsWaiting = 1 ∧
      acceptedBytes (framedStart.runOps framedOps).writer.events = ascii "new" ++ [bellByte] := by
  have hpeaceful : Along Peaceful framedStart framedOps :=
    ⟨trivial, trivial, trivial, by show Phase.outcome _ ≠ .failed; decide +kernel, trivial⟩
  have hspares : Along SparesBells framedStart framedOps := ⟨trivial, trivial, trivial, trivial, trivial⟩
  obtain ⟨hcounted, -⟩ := bells_behind_frames OutputSchedulerConfig.default false [.accepted 3, .accepted 1]
    [.flushed] framedOps (by decide) hpeaceful hspares
  exact ⟨hcounted.trans (by decide +kernel), by decide +kernel⟩

def evictingOps : List (Op TerminalGeometry Nat) :=
  [.command (.enqueueBell 2 0), .command (.enqueueBytes .control (ascii "123456789") 0)]

def evictingStart : Run TerminalGeometry Nat :=
  start { OutputSchedulerConfig.default with maximumPendingBytes := 10 } false [] []

/-- The control bytes cost both bells. -/
theorem bells_evicted :
    Along Peaceful evictingStart evictingOps ∧ evictingStart.bellsAccepted evictingOps = 2 ∧
      (evictingStart.runOps evictingOps).bellsWritten +
        (evictingStart.runOps evictingOps).scheduler.bellsWaiting = 0 :=
  ⟨⟨trivial, trivial, trivial⟩, by decide +kernel, by decide +kernel⟩

end Run

end Lector.Output
