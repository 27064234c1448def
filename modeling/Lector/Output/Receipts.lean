import Lector.Output.Order
import Mathlib.Data.Fintype.Card

/-! Receipts. What a run reports as shown are renders that it accepted, each once and in order,
written in full and flushed before, and never one that was replaced, cleaned up or lost. -/
namespace Lector.Output
open List Option OutputScheduler AcceptedRender Run

variable {Scene Bundle : Type}

/-! ## Reports inside a call -/

section Reports

variable [SceneGeometry Scene] {accepted : List (AcceptedRender Scene Bundle)}
  {d d' d'' : Drain Scene Bundle}

/-- The call reports confirmed renders from the front of the unreported ones. -/
structure Reports (accepted : List (AcceptedRender Scene Bundle)) (d d' : Drain Scene Bundle) : Prop where
  events : d.writer.events <+: d'.writer.events
  finished : d.finished <+: d'.finished
  reported : ∃ reported : List (TrackedRender Scene Bundle), d'.report.completedRenders =
      d.report.completedRenders ++ reported.map TrackedRender.completed ∧
    reported ++ d'.scheduler.unreported = d.scheduler.unreported ∧
    ∀ render ∈ reported, Confirmed accepted d'.writer.events d'.finished render

omit [SceneGeometry Scene] in
theorem Confirmed.later {events events' : List WriterEvent}
    {finished finished' : List (ActiveTransaction Scene Bundle)} {render : TrackedRender Scene Bundle}
    (h : Confirmed accepted events finished render) (hevents : events <+: events')
    (hfinished : finished <+: finished') : Confirmed accepted events' finished' render := by
  obtain ⟨es, rfl⟩ := hevents
  obtain ⟨fs, rfl⟩ := hfinished
  have hmono : Confirmed (accepted ++ []) (events ++ es) (finished ++ fs) render := h.mono es fs
  rw [append_nil] at hmono
  exact hmono

theorem Reports.trans (h : Reports accepted d d') (h' : Reports accepted d' d'') : Reports accepted d d'' := by
  obtain ⟨reported, hcompleted, hunreported, hconfirmed⟩ := h.reported
  obtain ⟨reported', hcompleted', hunreported', hconfirmed'⟩ := h'.reported
  refine ⟨h.events.trans h'.events, h.finished.trans h'.finished, reported ++ reported', ?_, ?_, ?_⟩
  · rw [hcompleted', hcompleted, map_append, append_assoc]
  · rw [append_assoc, hunreported', hunreported]
  · intro render hrender
    obtain hrender | hrender := mem_append.mp hrender
    · exact (hconfirmed render hrender).later h'.events h'.finished
    · exact hconfirmed' render hrender

theorem Reports.silent (hkeeps : KeepsWork d d') (hevents : d.writer.events <+: d'.writer.events)
    (hfinished : d.finished <+: d'.finished)
    (hsame : d'.report.completedRenders = d.report.completedRenders) : Reports accepted d d' := by
  obtain ⟨reported, hcompleted, hunreported⟩ := hkeeps.reported
  have hnone : reported = [] := by
    rw [hsame] at hcompleted
    simpa using hcompleted
  exact ⟨hevents, hfinished, reported, hcompleted, hunreported, by simp [hnone]⟩

theorem Move.reports (hmove : Move d d') (h : Sound accepted d) : Reports accepted d d' := by
  have hkeeps := hmove.keepsWork
  have hsame : d.writer.events <+: d.writer.events := prefix_refl _
  cases hmove with
  | wait waiting => exact .silent hkeeps hsame (prefix_refl _) rfl
  | block writer same => exact .silent hkeeps (same ▸ hsame) (prefix_refl _) rfl
  | retry writer same => exact .silent hkeeps (same ▸ hsame) (prefix_refl _) rfl
  | release startedMs lastActivityMs held => exact .silent hkeeps hsame (prefix_refl _) rfl
  | activate => exact .silent hkeeps hsame (prefix_refl _) rfl
  | conclude => exact .silent hkeeps hsame (prefix_refl _) rfl
  | write t rest count writer front some fits same =>
    exact .silent hkeeps (same ▸ prefix_append _ _) (prefix_refl _) rfl
  | pop t rest front done => exact .silent hkeeps hsame (prefix_append _ _) rfl
  | flush writer same => exact .silent hkeeps (same ▸ prefix_append _ _) (prefix_refl _) rfl
  | complete flushed =>
    obtain ⟨release, bypass, report, heq, hcompleted⟩ := completeAwaiting_spec d
    rw [heq]
    refine ⟨hsame, prefix_refl _, d.scheduler.awaitingFlushRenders, hcompleted, rfl, ?_⟩
    exact fun render hrender => h.confirms flushed hrender

theorem Moves.reports (hmoves : Moves d d') (h : Sound accepted d) : Reports accepted d d' := by
  induction hmoves with
  | refl => exact .silent .refl (prefix_refl _) (prefix_refl _) rfl
  | tail hmoves hmove ih => exact ih.trans (hmove.reports (Moves.sound hmoves h))

end Reports

/-! ## Reports of a run -/

/-- The report of `receipt` is of these renders, all of them confirmed. -/
structure Receipt.Lists [SceneGeometry Scene] (accepted : List (AcceptedRender Scene Bundle))
    (receipt : Receipt Scene Bundle) (reported : List (TrackedRender Scene Bundle)) : Prop where
  completed : receipt.report.completedRenders = reported.map TrackedRender.completed
  confirmed : ∀ render ∈ reported, Confirmed accepted receipt.events receipt.finished render

theorem Receipt.Lists.mono [SceneGeometry Scene] {accepted : List (AcceptedRender Scene Bundle)}
    {receipt : Receipt Scene Bundle} {reported : List (TrackedRender Scene Bundle)}
    (h : receipt.Lists accepted reported) (more : List (AcceptedRender Scene Bundle)) :
    receipt.Lists (accepted ++ more) reported := by
  refine ⟨h.completed, ?_⟩
  intro render hrender
  have hmono : Confirmed (accepted ++ more) (receipt.events ++ []) (receipt.finished ++ []) render :=
    (h.confirmed render hrender).mono [] []
  rw [append_nil, append_nil] at hmono
  exact hmono

/-- Each report is of `kept` renders and later ones, once, in order and confirmed; the unreported
follow. -/
def Settles [SceneGeometry Scene] (kept : List (TrackedRender Scene Bundle))
    (r r' : Run Scene Bundle) : Prop :=
  ∃ receipts accepted reported, r'.receipts = r.receipts ++ receipts ∧ r'.accepted = r.accepted ++ accepted ∧
    List.Forall₂ (Receipt.Lists r'.accepted) receipts reported ∧
    (reported.flatten ++ r'.scheduler.unreported).Sublist
      (kept ++ accepted.map AcceptedRender.tracked)

section Settling

variable [SceneGeometry Scene] {kept : List (TrackedRender Scene Bundle)}
  {r r' r'' : Run Scene Bundle}

theorem Settles.refl (r : Run Scene Bundle) : Settles r.scheduler.unreported r r :=
  ⟨[], [], [], by simp, by simp, .nil, by simp⟩

theorem Settles.trans (h : Settles kept r r') (h' : Settles r'.scheduler.unreported r' r'') :
    Settles kept r r'' := by
  obtain ⟨receipts, accepted, reported, hreceipts, haccepted, hlists, hsublist⟩ := h
  obtain ⟨receipts', accepted', reported', hreceipts', haccepted', hlists', hsublist'⟩ := h'
  refine ⟨receipts ++ receipts', accepted ++ accepted', reported ++ reported', ?_, ?_, ?_, ?_⟩
  · rw [hreceipts', hreceipts, append_assoc]
  · rw [haccepted', haccepted, append_assoc]
  · apply rel_append _ hlists'
    rw [haccepted']
    exact hlists.imp fun receipt reported hlist => hlist.mono accepted'
  · rw [flatten_append, append_assoc, map_append, ← append_assoc kept]
    have hlater : (reported.flatten ++ (reported'.flatten ++ r''.scheduler.unreported)).Sublist
        (reported.flatten ++ r'.scheduler.unreported ++ accepted'.map tracked) := by
      rw [append_assoc reported.flatten]
      exact (Sublist.refl _).append hsublist'
    exact hlater.trans (hsublist.append (Sublist.refl _))

omit [SceneGeometry Scene] in
theorem Advances.unreported {offer : Offer} {s s' : OutputScheduler Scene Bundle}
    (hadv : Advances offer s s') : s'.unreported.Sublist s.unreported :=
  hadv.awaiting.append hadv.renders

theorem Settles.advance {offer : Offer} {s : OutputScheduler Scene Bundle}
    (hadv : Advances offer r.scheduler s) : Settles r.scheduler.unreported r { r with scheduler := s } := by
  refine ⟨[], [], [], by simp, by simp, .nil, ?_⟩
  simp only [map_nil, append_nil]
  exact hadv.unreported

theorem enqueueRender_settles (r : Run Scene Bundle) (batch : RenderBatch Scene) (accessibility : Bundle)
    (nowMs : Nat) : Settles r.scheduler.unreported r (r.enqueueRender batch accessibility nowMs) := by
  obtain ⟨hdropped, hadv⟩ | ⟨hkept, hacc⟩ := r.scheduler.enqueueRender_cases batch accessibility nowMs
  · rw [enqueueRender, if_pos hdropped]
    exact .advance hadv
  · rw [enqueueRender, if_neg hkept]
    obtain ⟨s₀, hadv, hactive, -, -, -, hawaiting, -, -⟩ := hacc.withdrawn
    obtain ⟨byteLen, hpending⟩ := hacc.pending
    refine ⟨[], [_], [], by simp, rfl, .nil, ?_⟩
    simp only [flatten_nil, nil_append, OutputScheduler.unreported, renderLane, hactive, hawaiting, hpending]
    rw [← append_assoc]
    refine Sublist.append (hadv.awaiting.append ?_) (.refl _)
    exact (sublist_append_left _ _).trans hadv.renders

theorem close_settles (h : r.Sound) {p : Phase Scene Bundle PUnit} (hp : p.Follows r.opened) :
    Settles r.scheduler.unreported r (r.close p) := by
  obtain ⟨-, hmoves⟩ | ⟨hfailed, d, -, writer, -, hdrain⟩ := hp
  · obtain ⟨-, -, reported, hcompleted, hunreported, hconfirmed⟩ := hmoves.reports h
    have hlist : Receipt.Lists r.accepted
        ⟨p.drain.report, p.drain.writer.events, p.drain.finished⟩ reported := by
      exact ⟨by simpa [opened, DrainReport.default] using hcompleted, hconfirmed⟩
    by_cases hreturned : p.outcome = .returned
    · refine ⟨[_], [], [reported], by simp [close, hreturned], by simp [close], .cons hlist .nil, ?_⟩
      simp only [flatten_cons, flatten_nil, append_nil, map_nil]
      rw [← show reported ++ p.drain.scheduler.unreported = r.scheduler.unreported from hunreported]
      exact .refl _
    · refine ⟨[], [], [], by simp [close, hreturned], by simp [close], .nil, ?_⟩
      simp only [map_nil, append_nil]
      rw [← show reported ++ p.drain.scheduler.unreported = r.scheduler.unreported from hunreported]
      exact sublist_append_right _ _
  · refine ⟨[], [], [], by simp [close, hfailed], by simp [close], .nil, ?_⟩
    simp [close, hdrain, Drain.fail, OutputScheduler.failed, OutputScheduler.unreported, renderLane, rendersOf]

theorem step_settles (h : r.Sound) (op : Op Scene Bundle) : Settles r.scheduler.unreported r (r.step op) := by
  unfold step
  split
  · exact .refl r
  · cases op with
    | command c => exact .advance (c.apply_advances r.scheduler)
    | render batch accessibility nowMs => exact enqueueRender_settles r batch accessibility nowMs
    | drain nowMs force => exact close_settles h (Drain.drainReady_follows _ nowMs force)

theorem runOps_settles (h : r.Sound) (ops : List (Op Scene Bundle)) :
    Settles r.scheduler.unreported r (r.runOps ops) := by
  induction ops generalizing r with
  | nil => exact .refl r
  | cons op ops ih => exact (step_settles h op).trans (ih (sound_step h op))

end Settling

/-! ## Generations -/

/-- The generation of the render accepted after `k` others. -/
def generationAt (k : Nat) : UInt64 := OutputScheduler.nextGeneration^[k] 1

theorem generationAt_succ (k : Nat) : generationAt (k + 1) = OutputScheduler.nextGeneration (generationAt k) :=
  Function.iterate_succ_apply' _ _ _

theorem generationAt_toNat (k : Nat) (h : k + 1 < 2 ^ 64) : (generationAt k).toNat = k + 1 := by
  induction k with
  | zero => rfl
  | succ k ih =>
    have hk := ih (by omega)
    have hadd : (generationAt k + 1).toNat = k + 2 := by
      rw [UInt64.toNat_add, hk]
      show (k + 1 + 1) % 2 ^ 64 = k + 2
      omega
    have hne : generationAt k + 1 ≠ 0 := by
      intro hzero
      rw [hzero] at hadd
      cases hadd
    rw [generationAt_succ, OutputScheduler.nextGeneration, if_neg hne, hadd]

/-- The accepted renders are numbered in the order of their acceptance. -/
def Numbered (r : Run Scene Bundle) : Prop :=
  r.accepted.map AcceptedRender.generation = (List.range r.accepted.length).map generationAt ∧
    r.scheduler.nextRenderGeneration = generationAt r.accepted.length

section Numbering

variable {r : Run Scene Bundle}

theorem numbered_start (config : OutputSchedulerConfig) (supported : Bool)
    (writes : List WriteResponse) (flushes : List FlushResponse) :
    Numbered (start config supported writes flushes : Run Scene Bundle) := ⟨rfl, rfl⟩

theorem numbered_enqueueRender (h : Numbered r) (batch : RenderBatch Scene) (accessibility : Bundle)
    (nowMs : Nat) : Numbered (r.enqueueRender batch accessibility nowMs) := by
  obtain ⟨haccepted, hnext⟩ := h
  obtain ⟨hdropped, hadv⟩ | ⟨hkept, hacc⟩ := r.scheduler.enqueueRender_cases batch accessibility nowMs
  · rw [enqueueRender, if_pos hdropped]
    exact ⟨haccepted, hadv.nextRenderGeneration.trans hnext⟩
  · rw [enqueueRender, if_neg hkept]
    constructor
    · simp only [map_append, length_append, length_singleton, range_succ, haccepted, hnext, map_cons, map_nil]
    · simp only [length_append, length_singleton]
      rw [hacc.nextRenderGeneration, hnext, generationAt_succ]

variable [SceneGeometry Scene]

theorem numbered_step (h : Numbered r) (op : Op Scene Bundle) : Numbered (r.step op) := by
  unfold step
  split
  · exact h
  · cases op with
    | command c => exact ⟨h.1, (c.apply_advances r.scheduler).nextRenderGeneration.trans h.2⟩
    | render batch accessibility nowMs => exact numbered_enqueueRender h batch accessibility nowMs
    | drain nowMs force =>
      refine ⟨h.1, Eq.trans ?_ h.2⟩
      obtain ⟨-, hmoves⟩ | ⟨-, d, hmoves, writer, -, hfailed⟩ := Drain.drainReady_follows r.opened nowMs force
      · exact hmoves.keepsWork.nextRenderGeneration
      · simp only [close, hfailed]
        exact hmoves.keepsWork.nextRenderGeneration

theorem numbered_runOps (h : Numbered r) (ops : List (Op Scene Bundle)) : Numbered (r.runOps ops) := by
  induction ops generalizing r with
  | nil => exact h
  | cons op ops ih => exact ih (numbered_step h op)

omit [SceneGeometry Scene] in
theorem Numbered.increasing (h : Numbered r) (hlength : r.accepted.length < 2 ^ 64) :
    (r.accepted.map tracked).Pairwise fun t u => t.generation < u.generation := by
  have hrange : ((range r.accepted.length).map generationAt).Pairwise (· < ·) := by
    rw [pairwise_map]
    apply pairwise_lt_range.imp_of_mem
    intro j k hj hk hlt
    rw [mem_range] at hj hk
    rw [UInt64.lt_iff_toNat_lt, generationAt_toNat j (by omega), generationAt_toNat k (by omega)]
    omega
  rw [← h.1, pairwise_map] at hrange
  rw [pairwise_map]
  exact hrange

end Numbering

/-! ## Replacement -/

/-- The queue holds one render transaction at most, and it is recognized by its kind. -/
structure OneRender (ts : List (ActiveTransaction Scene Bundle)) : Prop where
  single : (rendersOf ts).length ≤ 1
  kind : ∀ t ∈ ts, t.kind = .render ↔ t.completedRender.isSome

def startedRenders (s : OutputScheduler Scene Bundle) : List (TrackedRender Scene Bundle) :=
  rendersOf (s.active.filter fun t => 0 < t.offset)

section Replacement

variable {ts us : List (ActiveTransaction Scene Bundle)} {t : ActiveTransaction Scene Bundle}

theorem rendersOf_filter {keep : ActiveTransaction Scene Bundle → Bool}
    (h : ∀ t ∈ ts, keep t = false → t.completedRender = none) : rendersOf (ts.filter keep) = rendersOf ts := by
  induction ts with
  | nil => rfl
  | cons t ts ih =>
    have hrest := ih fun u hu => h u (mem_cons_of_mem _ hu)
    cases hkeep : keep t with
    | true => rw [filter_cons_of_pos hkeep, rendersOf_cons, rendersOf_cons, hrest]
    | false =>
      rw [filter_cons_of_neg (by simp [hkeep]), rendersOf_cons, hrest, h t mem_cons_self hkeep]
      rfl

theorem OneRender.others (h : OneRender (ts ++ t :: us)) (hkind : t.kind = .render) :
    rendersOf (ts ++ us) = [] := by
  obtain ⟨render, hrender⟩ := isSome_iff_exists.mp ((h.kind t (mem_append_right _ mem_cons_self)).mp hkind)
  have hsingle := h.single
  rw [rendersOf_append, rendersOf_cons, hrender] at hsingle
  simp only [toList_some, length_append, length_singleton] at hsingle
  rw [rendersOf_append, append_eq_nil_iff]
  exact ⟨length_eq_zero_iff.mp (by omega), length_eq_zero_iff.mp (by omega)⟩

variable {s : OutputScheduler Scene Bundle}

section

variable (h : OneRender s.active)
include h

theorem OneRender.erase {index : Nat}
    (hindex : s.replaceableActiveIndex = some index) : rendersOf (s.active.eraseIdx index) = [] := by
  obtain ⟨hlt, hunstarted, -⟩ := findIdx?_eq_some_iff_getElem.mp hindex
  simp only [ActiveTransaction.isUnstarted, Bool.and_eq_true, beq_iff_eq] at hunstarted
  have hsplit : s.active = s.active.take index ++ s.active[index] :: s.active.drop (index + 1) := by
    rw [getElem_cons_drop, take_append_drop]
  rw [eraseIdx_eq_take_drop_succ]
  rw [hsplit] at h
  exact h.others hunstarted.1

theorem OneRender.unstarted (hindex : s.replaceableActiveIndex = none) {t : ActiveTransaction Scene Bundle}
    (ht : t ∈ s.active) (hzero : t.offset = 0) : t.completedRender = none := by
  have hunstarted := findIdx?_eq_none_iff.mp hindex t ht
  have hkind : t.kind ≠ .render := by
    intro hkind
    simp [ActiveTransaction.isUnstarted, hkind, hzero] at hunstarted
  exact not_isSome_iff_eq_none.mp fun hsome => hkind ((h.kind t ht).mpr hsome)

theorem acceptRender_active (batch : RenderBatch Scene) (renderBytes : Nat)
    (accessibility : Bundle) (bypassRequested : Bool) (nowMs : Nat) :
    rendersOf (s.acceptRender batch renderBytes accessibility bypassRequested nowMs).2.active =
      startedRenders s := by
  cases hindex : s.replaceableActiveIndex with
  | none =>
    have hactive : (s.acceptRender batch renderBytes accessibility bypassRequested nowMs).2.active =
        s.active := by
      simp [acceptRender, hindex, notePending]
    rw [hactive]
    symm
    apply rendersOf_filter
    intro t ht hstarted
    exact h.unstarted hindex ht (by simpa using hstarted)
  | some index =>
    have hactive : (s.acceptRender batch renderBytes accessibility bypassRequested nowMs).2.active =
        (s.active.eraseIdx index).filter fun t => !t.isUnstarted .bell := by
      simp [acceptRender, hindex, notePending, removeActiveRender, withdrawBells]
    obtain ⟨hlt, hunstarted, -⟩ := findIdx?_eq_some_iff_getElem.mp hindex
    simp only [ActiveTransaction.isUnstarted, Bool.and_eq_true, beq_iff_eq] at hunstarted
    have hsplit : s.active = s.active.take index ++ s.active[index] :: s.active.drop (index + 1) := by
      rw [getElem_cons_drop, take_append_drop]
    have hothers := h.erase hindex
    have hfilter : s.active.filter (fun t => 0 < t.offset) =
        (s.active.eraseIdx index).filter fun t => 0 < t.offset := by
      rw [eraseIdx_eq_take_drop_succ]
      conv_lhs => rw [hsplit]
      rw [filter_append, filter_append, filter_cons_of_neg (by simp [hunstarted.2])]
    have hnone : ∀ keep, rendersOf ((s.active.eraseIdx index).filter keep) = [] := by
      intro keep
      have hsublist := rendersOf_sublist (filter_sublist (l := s.active.eraseIdx index) (p := keep))
      rw [hothers] at hsublist
      exact sublist_nil.mp hsublist
    rw [hactive, startedRenders, hfilter, hnone, hnone]

theorem acceptRender_unreported (batch : RenderBatch Scene) (renderBytes : Nat)
    (accessibility : Bundle) (bypassRequested : Bool) (nowMs : Nat) :
    (s.acceptRender batch renderBytes accessibility bypassRequested nowMs).2.unreported =
      s.awaitingFlushRenders ++ startedRenders s ++
        [⟨batch.predicted, s.nextRenderGeneration, accessibility⟩] := by
  have hawaiting : (s.acceptRender batch renderBytes accessibility bypassRequested
      nowMs).2.awaitingFlushRenders = s.awaitingFlushRenders := by
    cases hindex : s.replaceableActiveIndex with
    | none => simp [acceptRender, hindex, notePending]
    | some index => simp [acceptRender, hindex, notePending, removeActiveRender, withdrawBells]
  rw [OutputScheduler.unreported, renderLane, hawaiting, acceptRender_active h, ← append_assoc]
  rfl

/-- **An accepted render is the only one left behind the started ones and those awaiting a flush.** -/
theorem enqueueRender_unreported {batch : RenderBatch Scene} {accessibility : Bundle} {nowMs : Nat}
    (hkept : (s.enqueueRenderWithAccessibility batch accessibility nowMs).1 ≠ .droppedForCapacity) :
    (s.enqueueRenderWithAccessibility batch accessibility nowMs).2.unreported =
      s.awaitingFlushRenders ++ startedRenders s ++
        [⟨batch.predicted, s.nextRenderGeneration, accessibility⟩] := by
  unfold enqueueRenderWithAccessibility at hkept ⊢
  simp only at hkept ⊢
  split at hkept
  · exact absurd rfl hkept
  · split at hkept
    · exact absurd rfl hkept
    · rename_i renderBytes _ hfits
      rw [if_neg hfits]
      exact acceptRender_unreported (s := { s with bypassNextRender := false }) h batch renderBytes
        accessibility s.bypassNextRender nowMs

end

end Replacement

/-! ## One render at a time -/

theorem Genuine.kind {accepted : List (AcceptedRender Scene Bundle)} {t : ActiveTransaction Scene Bundle}
    (h : Genuine accepted t) : t.kind = .render ↔ t.completedRender.isSome := by
  unfold Genuine at h
  split at h
  · rename_i hkind
    simp [hkind, h.1]
  · rename_i hkind
    simp [hkind, h.1]
  · rename_i hkind
    simp [hkind, h.1]
  · rename_i hkind
    obtain ⟨-, a, -, hrender, -⟩ := h
    simp [hkind, hrender]

section Single

variable [SceneGeometry Scene] {d d' : Drain Scene Bundle} {r : Run Scene Bundle}

theorem Move.single (hmove : Move d d') (h : (rendersOf d.scheduler.active).length ≤ 1) :
    (rendersOf d'.scheduler.active).length ≤ 1 := by
  cases hmove with
  | wait waiting => exact h
  | block writer same => exact h
  | retry writer same => exact h
  | release startedMs lastActivityMs held => exact h
  | flush writer same => exact h
  | conclude => exact h
  | activate =>
    simp only [OutputScheduler.activatePending]
    split
    · rw [rendersOf_activations]
      exact length_toList_le
    · exact h
  | write t rest count writer front some fits same =>
    simp only [Drain.advanceFront]
    rw [front, rendersOf_cons] at h
    rw [rendersOf_cons]
    exact h
  | pop t rest front done =>
    rw [front, rendersOf_cons, length_append] at h
    exact le_trans (Nat.le_add_left _ _) h
  | complete flushed =>
    obtain ⟨release, bypass, report, heq, -⟩ := completeAwaiting_spec d
    rw [heq]
    exact h

theorem Moves.single (hmoves : Moves d d') (h : (rendersOf d.scheduler.active).length ≤ 1) :
    (rendersOf d'.scheduler.active).length ≤ 1 := by
  induction hmoves with
  | refl => exact h
  | tail _ hmove ih => exact hmove.single ih

omit [SceneGeometry Scene] in
theorem Advances.single {offer : Offer} {s s' : OutputScheduler Scene Bundle} (hadv : Advances offer s s')
    (h : (rendersOf s.active).length ≤ 1) : (rendersOf s'.active).length ≤ 1 :=
  le_trans (rendersOf_sublist hadv.active.sublist).length_le h

theorem single_step (h : (rendersOf r.scheduler.active).length ≤ 1) (op : Op Scene Bundle) :
    (rendersOf (r.step op).scheduler.active).length ≤ 1 := by
  unfold step
  split
  · exact h
  · cases op with
    | command c => exact (c.apply_advances r.scheduler).single h
    | render batch accessibility nowMs =>
      obtain ⟨-, hadv⟩ | ⟨-, hacc⟩ := r.scheduler.enqueueRender_cases batch accessibility nowMs
      · exact hadv.single h
      · obtain ⟨s₀, hadv, hactive, -⟩ := hacc.withdrawn
        simp only [enqueueRender]
        rw [hactive]
        exact hadv.single h
    | drain nowMs force =>
      obtain ⟨-, hmoves⟩ | ⟨-, d, -, writer, -, hfailed⟩ := Drain.drainReady_follows r.opened nowMs force
      · exact Moves.single hmoves h
      · simp [close, hfailed, Drain.fail, OutputScheduler.failed, rendersOf]

theorem single_runOps (h : (rendersOf r.scheduler.active).length ≤ 1) (ops : List (Op Scene Bundle)) :
    (rendersOf (r.runOps ops).scheduler.active).length ≤ 1 := by
  induction ops generalizing r with
  | nil => exact h
  | cons op ops ih => exact ih (single_step h op)

omit [SceneGeometry Scene] in
theorem Run.Sound.oneRender (h : r.Sound) (hsingle : (rendersOf r.scheduler.active).length ≤ 1) :
    OneRender r.scheduler.active :=
  ⟨hsingle, fun t ht => (h.genuine t (mem_append_right _ ht)).kind⟩

end Single

/-! ## The law -/

namespace Run

variable [SceneGeometry Scene]

/-- The renders that can still be reported: not replaced, cleaned up or lost to a fatal error. -/
def keeps (r : Run Scene Bundle) : Op Scene Bundle → List (TrackedRender Scene Bundle)
  | .command .prepareForLifecycleCleanup => startedRenders r.scheduler
  | .command _ => r.scheduler.unreported
  | .render batch accessibility nowMs =>
    if (r.scheduler.enqueueRenderWithAccessibility batch accessibility nowMs).1 =
        .droppedForCapacity then r.scheduler.unreported
    else r.scheduler.awaitingFlushRenders ++ startedRenders r.scheduler ++
      [⟨batch.predicted, r.scheduler.nextRenderGeneration, accessibility⟩]
  | .drain nowMs force =>
    if (r.opened.drainReady nowMs force).outcome = .failed then [] else r.scheduler.unreported

/-- The reports are of accepted renders, each once, in order and confirmed. -/
def Truthful (r : Run Scene Bundle) : Prop :=
  ∃ reported : List (List (TrackedRender Scene Bundle)),
    List.Forall₂ (Receipt.Lists r.accepted) r.receipts reported ∧
    reported.flatten.Sublist (r.accepted.map AcceptedRender.tracked) ∧
    (r.accepted.length < 2 ^ 64 → reported.flatten.Pairwise fun t u => t.generation < u.generation)

/-- From `r` to `r'`, only `kept` renders and renders accepted since are reported. -/
def ReportsOnly (kept : List (TrackedRender Scene Bundle)) (r r' : Run Scene Bundle) : Prop :=
  ∃ receipts accepted reported, r'.receipts = r.receipts ++ receipts ∧ r'.accepted = r.accepted ++ accepted ∧
    List.Forall₂ (Receipt.Lists r'.accepted) receipts reported ∧
    reported.flatten.Sublist (kept ++ accepted.map AcceptedRender.tracked)

variable {r : Run Scene Bundle}

theorem step_hung (h : r.hung = true) (op : Op Scene Bundle) : r.step op = r := by
  unfold step
  rw [if_pos h]

theorem runOps_hung (h : r.hung = true) (ops : List (Op Scene Bundle)) : r.runOps ops = r := by
  induction ops with
  | nil => rfl
  | cons op ops ih =>
    show (r.step op).runOps ops = r
    rw [step_hung h, ih]

omit [SceneGeometry Scene] in
theorem cleanup_unreported (s : OutputScheduler Scene Bundle) :
    s.prepareForLifecycleCleanup.unreported = startedRenders s := by
  simp [OutputScheduler.unreported, renderLane, startedRenders, OutputScheduler.prepareForLifecycleCleanup]

theorem close_unreported {p : Phase Scene Bundle PUnit} (hp : p.Follows r.opened) :
    (r.close p).scheduler.unreported.Sublist
      (if p.outcome = .failed then [] else r.scheduler.unreported) := by
  obtain ⟨hkept, hmoves⟩ | ⟨-, d, -, writer, -, hdrain⟩ := hp
  · rw [if_neg hkept]
    obtain ⟨reported, -, hunreported⟩ := hmoves.keepsWork.reported
    rw [← show reported ++ p.drain.scheduler.unreported = r.scheduler.unreported from hunreported]
    exact sublist_append_right _ _
  · simp [close, hdrain, Drain.fail, OutputScheduler.failed, OutputScheduler.unreported, renderLane, rendersOf]

theorem step_keeps (h : OneRender r.scheduler.active) (hrunning : r.hung = false)
    (op : Op Scene Bundle) : (r.step op).scheduler.unreported.Sublist (r.keeps op) := by
  unfold step
  rw [hrunning]
  cases op with
  | command c =>
    have hless := (c.apply_advances r.scheduler).unreported
    cases c with
    | prepareForLifecycleCleanup =>
      show r.scheduler.prepareForLifecycleCleanup.unreported.Sublist (startedRenders r.scheduler)
      rw [cleanup_unreported]
    | enqueueBytes kind bytes nowMs => exact hless
    | enqueueTerminalEffect owner event nowMs => exact hless
    | enqueueBell count nowMs => exact hless
    | setSynchronizedOutputSupported supported => exact hless
    | observeApplicationSynchronization synchronized opened activity nowMs => exact hless
    | setApplicationSynchronizationBypassed bypassed => exact hless
    | recover => exact hless
    | notifyWritable => exact hless
  | render batch accessibility nowMs =>
    simp only [keeps, enqueueRender, Bool.false_eq_true, if_false]
    split
    · rename_i hdropped
      obtain ⟨-, hadv⟩ | ⟨hkept, -⟩ := r.scheduler.enqueueRender_cases batch accessibility nowMs
      · exact hadv.unreported
      · exact absurd hdropped hkept
    · rename_i hkept
      rw [enqueueRender_unreported h hkept]
  | drain nowMs force => exact close_unreported (Drain.drainReady_follows _ nowMs force)

/-- **Receipts are truthful.** The reports of a run are of renders that it accepted, each at most once, in
order, after their bytes were written and flushed; a replaced or dropped render is not reported later. -/
theorem receipts_truthful (config : OutputSchedulerConfig) (supported : Bool)
    (writes : List WriteResponse) (flushes : List FlushResponse) (ops : List (Op Scene Bundle))
    (r : Run Scene Bundle) (hr : r = (start config supported writes flushes).runOps ops) : r.Truthful ∧
      ∀ op more, ReportsOnly (r.keeps op) (r.step op) ((r.step op).runOps more) := by
  have hstart : (start config supported writes flushes : Run Scene Bundle).Sound :=
    sound_start config supported writes flushes
  have hsound : r.Sound := hr ▸ sound_runOps hstart ops
  constructor
  · obtain ⟨receipts, accepted, reported, hreceipts, haccepted, hlists, hsublist⟩ :=
      runOps_settles hstart ops
    rw [← hr] at hreceipts haccepted hlists hsublist
    have hall : r.receipts = receipts := hreceipts
    have hnew : r.accepted = accepted := haccepted
    have hshown : reported.flatten.Sublist (r.accepted.map tracked) := by
      rw [hnew]
      exact (sublist_append_left _ _).trans hsublist
    refine ⟨reported, hall ▸ hlists, hshown, ?_⟩
    intro hlength
    have hnumbered : Numbered r := hr ▸ numbered_runOps (numbered_start config supported writes flushes) ops
    exact (hnumbered.increasing hlength).sublist hshown
  · intro op more
    cases hhung : r.hung with
    | true =>
      rw [step_hung hhung, runOps_hung hhung]
      exact ⟨[], [], [], by simp, by simp, .nil, by simp⟩
    | false =>
      have hsingle := hr ▸ single_runOps (by simp [start, OutputScheduler.new, rendersOf]) ops
      have hkept := step_keeps (hsound.oneRender hsingle) hhung op
      obtain ⟨receipts, accepted, reported, hreceipts, haccepted, hlists, hsublist⟩ :=
        runOps_settles (sound_step hsound op) more
      refine ⟨receipts, accepted, reported, hreceipts, haccepted, hlists, ?_⟩
      exact (sublist_append_left _ _).trans (hsublist.trans (hkept.append (.refl _)))

def waitingRun : Run TerminalGeometry Nat :=
  (start .default false [.accepted 1, .interrupted, .wouldBlock, .accepted 9, .accepted 2,
    .wouldBlock, .accepted 9, .failed] [.flushed, .flushed, .flushed, .flushed]).runOps
    (replacingOps.take 4)

def replaceOp : Op TerminalGeometry Nat := .render (textFrame "new") 2 1

/-- The replacing frame is written in two parts, and a fatal error takes the one after it. -/
def lossyOps : List (Op TerminalGeometry Nat) :=
  [.drain 1 false, .drain 2 false, .command .notifyWritable, .drain 3 false,
    .render (textFrame "last") 3 3, .drain 4 false]

theorem receipts_truthful_replaced : (waitingRun.keeps replaceOp).map TrackedRender.accessibility = [2] ∧
      (((waitingRun.step replaceOp).runOps lossyOps).receipts.flatMap fun receipt =>
        receipt.report.completedRenders.map CompletedRender.accessibility) = [2] ∧
      waitingRun.Truthful ∧ ReportsOnly (waitingRun.keeps replaceOp) (waitingRun.step replaceOp)
        ((waitingRun.step replaceOp).runOps lossyOps) := by
  obtain ⟨htruthful, honly⟩ := receipts_truthful .default false _ _ _ waitingRun rfl
  exact ⟨by decide +kernel, by decide +kernel, htruthful, honly replaceOp lossyOps⟩

/-! ## Where the law ends -/

def idle (g : UInt64) : OutputScheduler TerminalGeometry Nat :=
  { OutputScheduler.new .default false with nextRenderGeneration := g }

def emptyFrameOps : List (Op TerminalGeometry Nat) := [.render (textFrame "") 7 0, .drain 0 false]

structure Idle (r : Run TerminalGeometry Nat) : Prop where
  scheduler : ∃ g, r.scheduler = idle g
  writer : r.writer = .scripted [] []
  hung : r.hung = false

theorem enqueue_emptyFrame (g : UInt64) : (idle g).enqueueRenderWithAccessibility (textFrame "") 7 0 =
      (.queued, { idle (OutputScheduler.nextGeneration g) with
        pendingSinceMs := some 0
        pendingRender := some ⟨textFrame "", 0, g, 7⟩ }) := rfl

theorem drain_emptyFrame (g : UInt64) (finished : List (ActiveTransaction TerminalGeometry Nat)) :
    Drain.drainReady
      ⟨{ idle (OutputScheduler.nextGeneration g) with
          pendingSinceMs := some 0
          pendingRender := some ⟨textFrame "", 0, g, 7⟩ }, .default, .scripted [] [], finished⟩
      0 false =
    .next ⟨idle (OutputScheduler.nextGeneration g),
      ⟨0, [⟨⟨24, 80, 0, 0⟩, ⟨24, 80, 0, 0⟩, 7⟩], [], false, false, false, none⟩, .scripted [] [],
      finished ++ [⟨.render, [], 0, some ⟨⟨24, 80, 0, 0⟩, g, 7⟩, []⟩]⟩ ⟨⟩ := by
  with_unfolding_all rfl

theorem emptyFrameOps_reports {r : Run TerminalGeometry Nat} (h : Idle r) :
    Idle (r.runOps emptyFrameOps) ∧ ∃ receipt, (r.runOps emptyFrameOps).receipts =
      r.receipts ++ [receipt] ∧ receipt.report.completedRenders.length = 1 := by
  obtain ⟨scheduler, writer, finished, accepted, receipts, hung⟩ := r
  obtain ⟨⟨-, rfl⟩, rfl, rfl⟩ := h
  simp only [emptyFrameOps, runOps, foldl_cons, step, enqueueRender,
    enqueue_emptyFrame, opened, drain_emptyFrame,
    Bool.false_eq_true, if_false]
  exact ⟨⟨⟨_, rfl⟩, rfl, rfl⟩, _, rfl, rfl⟩

theorem emptyFrames_report (n : Nat) {r : Run TerminalGeometry Nat} (h : Idle r) :
    ∃ receipts, (r.runOps (replicate n emptyFrameOps).flatten).receipts =
      r.receipts ++ receipts ∧ receipts.length = n ∧
      ∀ receipt ∈ receipts, receipt.report.completedRenders.length = 1 := by
  induction n generalizing r with
  | zero => exact ⟨[], by simp [runOps], rfl, by simp⟩
  | succ n ih =>
    obtain ⟨hidle, receipt, hreceipt, hone⟩ := emptyFrameOps_reports h
    obtain ⟨receipts, hreceipts, hlength, hall⟩ := ih hidle
    refine ⟨receipt :: receipts, ?_, by simp [hlength], by simpa [hone] using hall⟩
    rw [replicate_succ, flatten_cons, runOps_append, hreceipts, hreceipt, append_assoc]
    rfl

theorem listed_length {accepted : List (AcceptedRender TerminalGeometry Nat)}
    {receipts : List (Receipt TerminalGeometry Nat)}
    {reported : List (List (TrackedRender TerminalGeometry Nat))}
    (hlists : Forall₂ (Receipt.Lists accepted) receipts reported)
    (hone : ∀ receipt ∈ receipts, receipt.report.completedRenders.length = 1) :
    reported.flatten.length = receipts.length := by
  induction hlists with
  | nil => rfl
  | cons hlist hrest ih =>
    have hhead := hone _ mem_cons_self
    have htail := ih fun receipt hreceipt => hone receipt (mem_cons_of_mem _ hreceipt)
    rw [hlist.completed, length_map] at hhead
    rw [flatten_cons, length_append, length_cons]
    omega

theorem increasing_length {renders : List (TrackedRender TerminalGeometry Nat)}
    (h : renders.Pairwise fun t u => t.generation < u.generation) : renders.length ≤ 2 ^ 64 := by
  have hnodup : (renders.map fun render => render.generation.toFin).Nodup := by
    rw [Nodup, pairwise_map]
    apply h.imp
    intro t u hlt heq
    have hnat : t.generation.toNat = u.generation.toNat := congrArg Fin.val heq
    have hless := UInt64.lt_iff_toNat_lt.mp hlt
    omega
  have hcard := Nodup.length_le_card hnodup
  rw [Fintype.card_fin, length_map] at hcard
  exact hcard

/-- A frame without bytes is not flushed, and after `2 ^ 64` of them the generations come round. -/
theorem emptyFrames_unflushed_and_unordered :
    (∃ receipt ∈ ((start .default false [] [] : Run TerminalGeometry Nat).runOps
        emptyFrameOps).receipts,
      receipt.report.completedRenders.length = 1 ∧ WriterEvent.flushed ∉ receipt.events) ∧
    ∃ (ops : List (Op TerminalGeometry Nat)) (r : Run TerminalGeometry Nat),
      r = (start .default false [] []).runOps ops ∧
      ∀ reported, Forall₂ (Receipt.Lists r.accepted) r.receipts reported →
        ¬ reported.flatten.Pairwise fun t u => t.generation < u.generation := by
  refine ⟨by decide +kernel, (replicate (2 ^ 64 + 1) emptyFrameOps).flatten, _, rfl, ?_⟩
  intro reported hlists hincreasing
  obtain ⟨receipts, hreceipts, hlength, hone⟩ := emptyFrames_report (2 ^ 64 + 1)
    (r := start .default false [] []) ⟨⟨1, rfl⟩, rfl, rfl⟩
  have hreports : ((start .default false [] [] : Run TerminalGeometry Nat).runOps
      (replicate (2 ^ 64 + 1) emptyFrameOps).flatten).receipts = receipts := hreceipts
  rw [hreports] at hlists
  have hcount := listed_length hlists hone
  have hbound := increasing_length hincreasing
  omega

end Run

end Lector.Output
