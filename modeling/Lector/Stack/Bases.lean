import Lector.Stack.ViewStack
import Mathlib.Data.List.Pairwise
import Mathlib.Data.Nat.ModEq

/-! Over every run of the stack its bases stay in place, and a token names one transition until the
counter has gone round. -/
namespace Lector.Stack
open ViewController ViewStack Option
open List hiding not_le

/-! ## Tokens -/

def tokenCount : Nat := 2 ^ 64 - 1

theorem toNat_following (transition : UInt64) :
    (following transition).toNat = transition.toNat % tokenCount + 1 := by
  have hbound := transition.toNat_lt
  unfold following tokenCount
  by_cases hlast : transition.toNat = 2 ^ 64 - 1
  · have hwrap : transition + 1 = 0 := by
      apply UInt64.toNat_inj.mp
      rw [UInt64.toNat_add, hlast]
      rfl
    rw [if_pos hwrap, hlast]
    rfl
  · have hnext : (transition + 1).toNat = transition.toNat + 1 := by
      rw [UInt64.toNat_add, UInt64.toNat_one]
      omega
    have hne : transition + 1 ≠ 0 := by
      intro hzero
      rw [hzero, UInt64.toNat_zero] at hnext
      omega
    rw [if_neg hne]
    omega

structure Numbered (next : UInt64) (current : Option CompositorTransitionToken) (begun : Nat) : Prop where
  next : next.toNat = begun % tokenCount + 1
  current : ∀ token, current = some token → 0 < begun ∧ token.value.toNat = (begun - 1) % tokenCount + 1

theorem Numbered.begin {next : UInt64} {current : Option CompositorTransitionToken} {begun : Nat}
    (h : Numbered next current begun) : Numbered (following next) (some ⟨next⟩) (begun + 1) where
  next := by
    rw [toNat_following, h.next, Nat.mod_add_mod]
  current := by
    intro token htoken
    cases htoken
    exact ⟨by omega, h.next⟩

theorem Numbered.same_iff {next next' : UInt64} {current current' : Option CompositorTransitionToken}
    {begun begun' : Nat} (h : Numbered next current begun) (h' : Numbered next' current' begun')
    (later : begun ≤ begun') {token token' : CompositorTransitionToken} (htoken : current = some token)
    (htoken' : current' = some token') : token' = token ↔ tokenCount ∣ begun' - begun := by
  obtain ⟨hpos, hvalue⟩ := h.current token htoken
  obtain ⟨-, hvalue'⟩ := h'.current token' htoken'
  have hsub : begun' - begun = (begun' - 1) - (begun - 1) := by omega
  rw [hsub, ← Nat.modEq_iff_dvd' (by omega)]
  constructor
  · intro hsame
    rw [hsame, hvalue] at hvalue'
    exact add_right_cancel hvalue'
  · intro hmod
    rw [← hmod, ← hvalue] at hvalue'
    cases token
    cases token'
    exact congrArg _ (UInt64.toNat_inj.mp hvalue')

section Advances

variable {V : Type}

/-- The tokens move by transitions begun and completed. -/
structure Advances (stack stack' : ViewStack V) : Prop where
  numbered : Numbered stack.nextCompositorTransition stack.compositorTransition stack.begun →
    Numbered stack'.nextCompositorTransition stack'.compositorTransition stack'.begun
  later : stack.begun ≤ stack'.begun

theorem Advances.trans {stack stack' stack'' : ViewStack V} (h : Advances stack stack')
    (h' : Advances stack' stack'') : Advances stack stack'' where
  numbered := fun hnumbered => h'.numbered (h.numbered hnumbered)
  later := le_trans h.later h'.later

variable (stack : ViewStack V)

theorem advances_same : Advances stack stack := ⟨id, le_refl _⟩

theorem advances_begin : Advances stack stack.beginCompositorTransition :=
  ⟨Numbered.begin, Nat.le_succ _⟩

theorem advances_clearOverlays : Advances stack stack.clearOverlays := by
  have hbegin := advances_begin stack
  have hsame := advances_same stack
  unfold clearOverlays
  dsimp only
  split <;> split
  · exact ⟨hbegin.numbered, hbegin.later⟩
  · exact ⟨hbegin.numbered, hbegin.later⟩
  · exact ⟨hsame.numbered, hsame.later⟩
  · exact ⟨hsame.numbered, hsame.later⟩

end Advances

namespace ViewStack

variable {V : Type}

/-! ## Bases -/

def bases (self : ViewStack V) : List V := self.views.take self.baseCount

section

variable (self : ViewStack V)
include self

theorem views_eq : self.views = self.bases ++ self.views.drop self.baseCount :=
  (take_append_drop _ _).symm

@[simp] theorem bases_begin : self.beginCompositorTransition.bases = self.bases := rfl

@[simp] theorem bases_clearOverlays : self.clearOverlays.bases = self.bases := by
  unfold clearOverlays bases
  dsimp only
  split <;> split <;> simp [beginCompositorTransition, take_take]

@[simp] theorem baseCount_clearOverlays : self.clearOverlays.baseCount = self.baseCount := by
  unfold clearOverlays
  dsimp only
  split <;> split <;> rfl

@[simp] theorem activeBase_clearOverlays : self.clearOverlays.activeBase = self.activeBase := by
  unfold clearOverlays
  dsimp only
  split <;> split <;> rfl

@[simp] theorem views_clearOverlays : self.clearOverlays.views = self.bases := by
  unfold clearOverlays bases
  dsimp only
  split <;> split <;> rfl

end

theorem filter_zipIdx (below above : List V) (start : Nat) (p : Bool → V → Bool) :
    (((below ++ above).zipIdx start).filter fun view =>
        p (decide (view.2 < start + below.length)) view.1).map Prod.fst =
      below.filter (p true) ++ above.filter (p false) := by
  have hside : ∀ (views : List V) (first : Nat) (side : Bool),
      (∀ view ∈ views.zipIdx first, decide (view.2 < start + below.length) = side) →
      ((views.zipIdx first).filter fun view => p (decide (view.2 < start + below.length)) view.1).map Prod.fst =
        views.filter (p side) := by
    intro views first side hall
    rw [filter_congr fun view hview => congrArg (p · view.1) (hall view hview)]
    conv_rhs => rw [← zipIdx_map_fst first views, List.filter_map]
    rfl
  rw [zipIdx_append, filter_append, map_append, hside below start true, hside above _ false]
  · intro view hview
    exact decide_eq_false (Nat.not_lt.mpr (le_snd_of_mem_zipIdx hview))
  · intro view hview
    exact decide_eq_true (snd_lt_add_of_mem_zipIdx hview)

variable [ViewController V] {self : ViewStack V} {root : V}

/-- The root, other bases that are connections of one id each, and the active base among them. -/
structure Formed (root : V) (stack : ViewStack V) : Prop where
  plain : connectionId root = none
  count : stack.baseCount ≤ stack.views.length
  active : stack.activeBase < stack.baseCount
  root : ∃ n, stack.bases.head? = some (enablePresentationTracking^[n] (markReviewContextActive root))
  connections : ∀ view ∈ stack.bases.tail, (connectionId view).isSome
  distinct : (stack.bases.filterMap connectionId).Nodup

theorem Formed.length_bases (h : Formed root self) : self.bases.length = self.baseCount := by
  rw [bases, length_take, min_eq_left h.count]

theorem Formed.congr {self' : ViewStack V} (h : Formed root self) (bases : self'.bases = self.bases)
    (count : self'.baseCount = self.baseCount) (active : self'.activeBase < self.baseCount) :
    Formed root self' where
  plain := h.plain
  count := by
    have hlength := congrArg length bases
    rw [h.length_bases, ViewStack.bases, length_take] at hlength
    omega
  active := by rw [count]; exact active
  root := by rw [bases]; exact h.root
  connections := by rw [bases]; exact h.connections
  distinct := by rw [bases]; exact h.distinct

theorem formed_new (hroot : connectionId root = none) : Formed root (new root) where
  plain := hroot
  count := le_refl 1
  active := zero_lt_one
  root := ⟨0, rfl⟩
  connections := forall_mem_nil _
  distinct := by
    unfold bases new
    simp [hroot]

/-! ### The operations -/

theorem Formed.clearOverlays (h : Formed root self) : Formed root self.clearOverlays :=
  h.congr (bases_clearOverlays self) (baseCount_clearOverlays self) (by simpa using h.active)

theorem Formed.head_ne_nil (h : Formed root self) : self.bases ≠ [] := by
  obtain ⟨n, hhead⟩ := h.root
  intro hnil
  rw [hnil] at hhead
  cases hhead

theorem Formed.concat {view : V} {id : UInt64} {self' : ViewStack V} (h : Formed root self)
    (hview : connectionId view = some id) (fresh : some id ∉ self.bases.map connectionId)
    (bases : self'.bases = self.bases ++ [view]) (count : self'.baseCount = self.baseCount + 1)
    (active : self'.activeBase = self.baseCount) : Formed root self' where
  plain := h.plain
  count := by
    have hlength := congrArg length bases
    rw [ViewStack.bases, length_append, length_singleton, h.length_bases, length_take] at hlength
    omega
  active := by omega
  root := by
    rw [bases, head?_append_of_ne_nil _ h.head_ne_nil]
    exact h.root
  connections := by
    rw [bases, tail_append_of_ne_nil h.head_ne_nil]
    intro found hfound
    rcases mem_append.mp hfound with hold | hnew
    · exact h.connections found hold
    · rw [mem_singleton.mp hnew, hview]
      rfl
  distinct := by
    rw [bases, filterMap_append, filterMap_cons_some hview]
    apply nodup_append.mpr ⟨h.distinct, pairwise_singleton _ id, ?_⟩
    intro found hfound found' hid hsame
    rw [hsame, mem_singleton.mp hid] at hfound
    obtain ⟨other, hother, hotherId⟩ := mem_filterMap.mp hfound
    exact fresh (mem_map.mpr ⟨other, hother, hotherId⟩)

/-- A connection that is pushed has a new id: the hierarchy refuses an id that it has. -/
def Fresh (self : ViewStack V) (view : V) : Prop :=
  (connectionId view).isSome → connectionId view ∉ self.bases.map connectionId

theorem Formed.push {view : V} (h : Formed root self) (fresh : self.Fresh view) :
    Formed root (self.push view) := by
  unfold ViewStack.push
  dsimp only
  have hid : connectionId (if self.presentationTracking then enablePresentationTracking view else view) =
      connectionId view := by
    split
    · exact connectionId_enable view
    · rfl
  rw [hid]
  split
  · rename_i hconnection
    obtain ⟨id, hsome⟩ := isSome_iff_exists.mp hconnection
    apply h.concat (hid.trans hsome)
    · rw [← hsome]
      exact fresh hconnection
    · rw [bases_begin, bases, views_clearOverlays, baseCount_clearOverlays]
      rw [← h.length_bases, insertIdx_length_self, ← length_singleton, ← length_append, take_length]
    · exact congrArg (· + 1) (baseCount_clearOverlays self)
    · exact baseCount_clearOverlays self
  · exact h.congr (take_append_of_le_length h.count) rfl h.active

theorem Formed.pop (h : Formed root self) : Formed root self.pop.2 := by
  unfold ViewStack.pop
  split
  · exact h
  · rename_i hoverlay
    simp only [hasOverlay, Bool.not_eq_true', decide_eq_false_iff_not] at hoverlay
    have hbases : (self.views.dropLast).take self.baseCount = self.bases := by
      rw [dropLast_eq_take, take_take]
      congr 1
      omega
    dsimp only
    split <;> split <;> exact h.congr hbases rfl h.active

theorem Formed.enableTracking (h : Formed root self) : Formed root self.enableTracking := by
  have hbases : self.enableTracking.bases = self.bases.map enablePresentationTracking := map_take.symm
  constructor
  · exact h.plain
  · exact (length_map _).symm ▸ h.count
  · exact h.active
  · obtain ⟨n, hn⟩ := h.root
    refine ⟨n + 1, ?_⟩
    rw [hbases, head?_map, hn, Function.iterate_succ_apply']
    rfl
  · intro view hview
    rw [hbases, ← map_tail] at hview
    obtain ⟨old, hold, rfl⟩ := mem_map.mp hview
    rw [connectionId_enable]
    exact h.connections old hold
  · rw [hbases, filterMap_map]
    have hsame : (connectionId ∘ enablePresentationTracking : V → Option UInt64) = connectionId := by
      funext view
      exact connectionId_enable view
    rw [hsame]
    exact h.distinct

/-! ### Removing connections -/

def goes (connectionIds : List UInt64) (view : V) : Bool := (connectionId view).any connectionIds.contains

theorem Formed.removed_eq (h : Formed root self) (connectionIds : List UInt64) :
    (self.views.zipIdx.filter (self.removes connectionIds)).map Prod.fst =
      self.bases.filter (goes connectionIds) := by
  have hfilter := filter_zipIdx self.bases (self.views.drop self.baseCount) 0
    fun below => (below && goes connectionIds ·)
  rw [← views_eq, zero_add, h.length_bases] at hfilter
  simp only [Bool.true_and, Bool.false_and, filter_false, append_nil] at hfilter
  exact hfilter

theorem Formed.retained_eq (h : Formed root self) (connectionIds : List UInt64) :
    (self.views.zipIdx.filter fun view => !self.removes connectionIds view).map Prod.fst =
      self.bases.filter (fun view => !goes connectionIds view) ++ self.views.drop self.baseCount := by
  have hfilter := filter_zipIdx self.bases (self.views.drop self.baseCount) 0 fun below view =>
    !(below && goes connectionIds view)
  rw [← views_eq, zero_add, h.length_bases] at hfilter
  simp only [Bool.true_and, Bool.false_and, Bool.not_false, filter_true] at hfilter
  exact hfilter

theorem Formed.bases_eq (h : Formed root self) :
    ∃ first rest, self.bases = first :: rest ∧ connectionId first = none := by
  obtain ⟨n, hhead⟩ := h.root
  obtain ⟨rest, hrest⟩ := head?_eq_some_iff.mp hhead
  refine ⟨_, rest, hrest, ?_⟩
  clear hhead hrest
  induction n with
  | zero => exact (connectionId_mark root).trans h.plain
  | succ n ih =>
    rw [Function.iterate_succ_apply', connectionId_enable]
    exact ih

def staying (self : ViewStack V) (connectionIds : List UInt64) : List V :=
  self.bases.filter fun view => !goes connectionIds view

theorem Formed.length_staying (h : Formed root self) (connectionIds : List UInt64) :
    self.baseCount - (self.bases.filter (goes connectionIds)).length =
      (self.staying connectionIds).length := by
  have hsplit := length_eq_length_filter_add (l := self.bases) (goes connectionIds)
  rw [h.length_bases] at hsplit
  rw [hsplit, Nat.add_sub_cancel_left]
  rfl

def activeAmong (staying : List V) (connectionIds : List UInt64) (connection : UInt64) : Nat :=
  if !connectionIds.contains connection then
    (staying.findIdx? fun view => connectionId view = some connection).getD (staying.length - 1)
  else staying.length - 1

section

variable (h : Formed root self)
include h

section

variable (connectionIds : List UInt64)
include connectionIds

theorem Formed.removeTmuxConnections_eq : (self.removeTmuxConnections connectionIds).views =
        self.staying connectionIds ++ self.views.drop self.baseCount ∧
      (self.removeTmuxConnections connectionIds).baseCount = (self.staying connectionIds).length ∧
      (self.removeTmuxConnections connectionIds).activeBase =
        self.activeConnection.elim 0 (activeAmong (self.staying connectionIds) connectionIds) := by
  have hviews : _ = self.staying connectionIds ++ self.views.drop self.baseCount := h.retained_eq connectionIds
  have hcount := h.length_staying connectionIds
  rw [← h.removed_eq connectionIds] at hcount
  have htake : take (self.staying connectionIds).length
      (self.staying connectionIds ++ self.views.drop self.baseCount) = self.staying connectionIds :=
    take_left
  unfold removeTmuxConnections tmuxConnectionIndex
  dsimp only
  rw [hviews, hcount, htake]
  cases self.activeConnection with
  | none => exact ⟨rfl, rfl, rfl⟩
  | some connection => split <;> exact ⟨rfl, rfl, rfl⟩

theorem Formed.bases_removeTmuxConnections :
    (self.removeTmuxConnections connectionIds).bases = self.staying connectionIds := by
  obtain ⟨hviews, hcount, -⟩ := h.removeTmuxConnections_eq connectionIds
  rw [bases, hviews, hcount]
  exact take_left

theorem Formed.staying_eq : ∃ first rest, self.bases = first :: rest ∧ connectionId first = none ∧
      self.staying connectionIds = first :: rest.filter fun view => !goes connectionIds view := by
  obtain ⟨first, rest, hbases, hfirst⟩ := h.bases_eq
  refine ⟨first, rest, hbases, hfirst, ?_⟩
  rw [staying, hbases, filter_cons_of_pos]
  rw [goes, hfirst]
  rfl

theorem Formed.activeAmong_lt (connection : UInt64) :
    activeAmong (self.staying connectionIds) connectionIds connection <
      (self.staying connectionIds).length := by
  obtain ⟨first, rest, -, -, hstaying⟩ := h.staying_eq connectionIds
  have hpos : 0 < (self.staying connectionIds).length := by
    rw [hstaying]
    exact Nat.succ_pos _
  unfold activeAmong
  split
  · cases hfind : (self.staying connectionIds).findIdx? fun view => connectionId view = some connection with
    | none => exact Nat.sub_lt hpos one_pos
    | some index => exact (findIdx?_eq_some_iff_getElem.mp hfind).1
  · exact Nat.sub_lt hpos one_pos

theorem Formed.removeTmuxConnections : Formed root (self.removeTmuxConnections connectionIds) := by
  obtain ⟨hviews, hcount, hactive⟩ := h.removeTmuxConnections_eq connectionIds
  have hbases := h.bases_removeTmuxConnections connectionIds
  obtain ⟨first, rest, hfirst, -, hstaying⟩ := h.staying_eq connectionIds
  constructor
  · exact h.plain
  · rw [hviews, hcount, length_append]
    exact Nat.le_add_right _ _
  · rw [hactive, hcount]
    cases self.activeConnection with
    | none =>
      rw [hstaying]
      exact Nat.succ_pos _
    | some connection => exact h.activeAmong_lt connectionIds connection
  · obtain ⟨n, hroot⟩ := h.root
    rw [hfirst] at hroot
    rw [hbases, hstaying]
    exact ⟨n, hroot⟩
  · intro view hview
    have hold := h.connections view
    rw [hfirst] at hold
    rw [hbases, hstaying] at hview
    exact hold (mem_of_mem_filter hview)
  · rw [hbases]
    exact h.distinct.sublist (filter_sublist.filterMap connectionId)

end

theorem Formed.same_of_connectionId {view other : V} {connection : UInt64} (hview : view ∈ self.bases)
    (hother : other ∈ self.bases) (hconnection : connectionId view = some connection)
    (hconnection' : connectionId other = some connection) : view = other := by
  have hpairs := pairwise_filterMap.mp h.distinct
  by_contra hne
  have hsymm : Std.Symm fun view other : V =>
      ∀ id, connectionId view = some id → ∀ id', connectionId other = some id' → id ≠ id' :=
    ⟨fun view other hdiffer id hid id' hid' => (hdiffer id' hid' id hid).symm⟩
  exact hpairs.forall hview hother hne connection hconnection connection hconnection' rfl

theorem Formed.activeConnection_eq : ∃ view ∈ self.bases, self.views[self.activeBase]? = some view ∧
      self.activeConnection = connectionId view ∧ (connectionId view = none → self.activeBase = 0) := by
  have hlt : self.activeBase < self.bases.length := by
    rw [h.length_bases]
    exact h.active
  have hget : self.views[self.activeBase]? = some self.bases[self.activeBase] := by
    rw [← getElem?_eq_getElem hlt, bases, getElem?_take_of_lt h.active]
  refine ⟨_, getElem_mem hlt, hget, ?_, ?_⟩
  · rw [activeConnection, hget]
    rfl
  · intro hnone
    by_contra hpos
    have htail : self.bases[self.activeBase] ∈ self.bases.tail := by
      rw [mem_iff_getElem]
      refine ⟨self.activeBase - 1, by rw [length_tail]; omega, ?_⟩
      rw [getElem_tail]
      congr 1
      omega
    have hsome := h.connections _ htail
    rw [hnone] at hsome
    cases hsome

theorem Formed.activeBase_removeTmuxConnections {connectionIds : List UInt64}
    (spared : ∀ connection, self.activeConnection = some connection → connection ∉ connectionIds) :
    (self.removeTmuxConnections connectionIds).views[
        (self.removeTmuxConnections connectionIds).activeBase]? = self.views[self.activeBase]? := by
  obtain ⟨hviews, -, hactive⟩ := h.removeTmuxConnections_eq connectionIds
  obtain ⟨view, hview, hget, hconnection, hroot⟩ := h.activeConnection_eq
  rw [hviews, hactive, hget]
  cases hid : connectionId view with
  | none =>
    obtain ⟨first, rest, hbases, -, hstaying⟩ := h.staying_eq connectionIds
    rw [hroot hid, views_eq, hbases] at hget
    rw [hconnection, hid, hstaying]
    exact hget
  | some connection =>
    rw [hid] at hconnection
    have hspared := spared connection hconnection
    have hcontains : connectionIds.contains connection = false := by
      simpa using hspared
    have hstays : view ∈ self.staying connectionIds := by
      rw [staying, mem_filter, goes, hid, any_some, hcontains]
      exact ⟨hview, rfl⟩
    rw [hconnection, elim_some, activeAmong, hcontains, Bool.not_false, if_pos rfl]
    cases hfind : (self.staying connectionIds).findIdx? fun view => connectionId view = some connection with
    | none =>
      rw [findIdx?_eq_none_iff] at hfind
      exact absurd hid (of_decide_eq_false (hfind view hstays))
    | some index =>
      obtain ⟨hlt, hfound, -⟩ := findIdx?_eq_some_iff_getElem.mp hfind
      rw [getD_some, getElem?_append_left hlt, getElem?_eq_getElem hlt]
      have hmem := mem_of_mem_filter (getElem_mem hlt)
      exact congrArg some (h.same_of_connectionId hmem hview (of_decide_eq_true hfound) hid)

theorem Formed.active_removeTmuxConnections {connectionIds : List UInt64}
    (spared : ∀ connection, self.activeConnection = some connection → connection ∉ connectionIds) :
    (self.removeTmuxConnections connectionIds).active = self.active := by
  obtain ⟨hviews, hcount, -⟩ := h.removeTmuxConnections_eq connectionIds
  have hoverlay : (self.removeTmuxConnections connectionIds).hasOverlay = self.hasOverlay := by
    unfold hasOverlay
    rw [hviews, length_append, length_drop, decide_eq_decide]
    omega
  unfold ViewStack.active
  rw [hoverlay]
  split
  · rename_i hsome
    have habove : self.views.drop self.baseCount ≠ [] := by
      rw [ne_eq, drop_eq_nil_iff, not_le]
      exact of_decide_eq_true hsome
    have hold : self.views.getLast? = (self.views.drop self.baseCount).getLast? := by
      rw [views_eq self, getLast?_append_of_ne_nil _ habove, ← views_eq self]
    rw [← getLast?_eq_getElem?, ← getLast?_eq_getElem?, hviews, getLast?_append_of_ne_nil _ habove, hold]
  · exact h.activeBase_removeTmuxConnections spared

/-! ### Activations -/

theorem Formed.activateTerminal : Formed root self.activateTerminal := by
  have hpos : 0 < self.baseCount := Nat.zero_lt_of_lt h.active
  unfold ViewStack.activateTerminal
  dsimp only
  split <;> exact h.congr (bases_clearOverlays self) (baseCount_clearOverlays self) hpos

theorem Formed.activateTmuxConnection (connection : UInt64) :
    Formed root (self.activateTmuxConnection connection).2 := by
  unfold ViewStack.activateTmuxConnection
  split
  · exact h
  · rename_i index hindex
    have hlt : index < self.baseCount := by
      obtain ⟨hlt, -⟩ := findIdx?_eq_some_iff_getElem.mp hindex
      rw [← h.length_bases]
      exact hlt
    dsimp only
    split <;> exact h.congr (bases_clearOverlays self) (baseCount_clearOverlays self) hlt

end

end ViewStack

/-! ## Runs -/

inductive Operation (V : Type) where
  | push (view : V)
  | pop
  | clearOverlays
  | enablePresentationTracking
  | removeTmuxConnections (connectionIds : List UInt64)
  | activateTerminal
  | activateTmuxConnection (connectionId : UInt64)
  | completeCompositorTransition (transition : CompositorTransitionToken)

namespace Operation

variable {V : Type} [ViewController V]

def apply (stack : ViewStack V) : Operation V → ViewStack V
  | push view => stack.push view
  | pop => stack.pop.2
  | clearOverlays => stack.clearOverlays
  | enablePresentationTracking => stack.enableTracking
  | removeTmuxConnections connectionIds => stack.removeTmuxConnections connectionIds
  | activateTerminal => stack.activateTerminal
  | activateTmuxConnection connectionId => (stack.activateTmuxConnection connectionId).2
  | completeCompositorTransition transition => (stack.completeCompositorTransition transition).2

def Permitted (stack : ViewStack V) : Operation V → Prop
  | push view => stack.Fresh view
  | _ => True

end Operation

variable {V : Type} [ViewController V]

def Moves (stack stack' : ViewStack V) : Prop :=
  ∃ operation : Operation V, operation.Permitted stack ∧ operation.apply stack = stack'

def Reaches : ViewStack V → ViewStack V → Prop := Relation.ReflTransGen Moves

variable {stack stack' : ViewStack V}

theorem Moves.formed {root : V} (h : Moves stack stack') (formed : stack.Formed root) : stack'.Formed root := by
  obtain ⟨operation, hpermitted, rfl⟩ := h
  cases operation with
  | push view => exact formed.push hpermitted
  | pop => exact formed.pop
  | clearOverlays => exact formed.clearOverlays
  | enablePresentationTracking => exact formed.enableTracking
  | removeTmuxConnections connectionIds => exact formed.removeTmuxConnections connectionIds
  | activateTerminal => exact formed.activateTerminal
  | activateTmuxConnection connection => exact formed.activateTmuxConnection connection
  | completeCompositorTransition transition =>
    dsimp only [Operation.apply, completeCompositorTransition]
    split <;> exact formed.congr rfl rfl formed.active

theorem Reaches.formed {root : V} (h : Reaches stack stack')
    (formed : stack.Formed root) : stack'.Formed root := by
  induction h with
  | refl => exact formed
  | tail _ hmove ih => exact hmove.formed ih

/-! ### The tokens of a run -/

theorem Operation.advances (stack : ViewStack V) (operation : Operation V) :
    Advances stack (operation.apply stack) := by
  have hbegin := advances_begin stack
  have hclear := advances_clearOverlays stack
  have hsame := advances_same stack
  have hagain := hclear.trans (advances_begin stack.clearOverlays)
  cases operation with
  | push view =>
    dsimp only [Operation.apply, ViewStack.push]
    split <;> split
    · exact ⟨hagain.numbered, hagain.later⟩
    · exact ⟨hsame.numbered, hsame.later⟩
    · exact ⟨hagain.numbered, hagain.later⟩
    · exact ⟨hsame.numbered, hsame.later⟩
  | pop =>
    dsimp only [Operation.apply, ViewStack.pop]
    split
    · exact hsame
    · split <;> split
      · exact ⟨hbegin.numbered, hbegin.later⟩
      · exact ⟨hsame.numbered, hsame.later⟩
      · exact ⟨hbegin.numbered, hbegin.later⟩
      · exact ⟨hsame.numbered, hsame.later⟩
  | clearOverlays => exact hclear
  | enablePresentationTracking => exact ⟨hsame.numbered, hsame.later⟩
  | removeTmuxConnections connectionIds =>
    dsimp only [Operation.apply, ViewStack.removeTmuxConnections]
    split
    · exact ⟨hbegin.numbered, hbegin.later⟩
    · exact ⟨hsame.numbered, hsame.later⟩
  | activateTerminal =>
    dsimp only [Operation.apply, ViewStack.activateTerminal]
    split
    · exact ⟨hagain.numbered, hagain.later⟩
    · exact ⟨hclear.numbered, hclear.later⟩
  | activateTmuxConnection connection =>
    dsimp only [Operation.apply, ViewStack.activateTmuxConnection]
    split
    · exact hsame
    · split
      · exact ⟨hagain.numbered, hagain.later⟩
      · exact ⟨hclear.numbered, hclear.later⟩
  | completeCompositorTransition transition =>
    dsimp only [Operation.apply, ViewStack.completeCompositorTransition]
    split
    · exact hsame
    · exact ⟨fun hnumbered => ⟨hnumbered.next, fun token htoken => by cases htoken⟩, le_rfl⟩

theorem Reaches.advances (h : Reaches stack stack') : Advances stack stack' := by
  induction h with
  | refl => exact advances_same stack
  | tail _ hmove ih =>
    obtain ⟨operation, -, rfl⟩ := hmove
    exact ih.trans (operation.advances _)

theorem numbered_new (root : V) : Numbered (new root).nextCompositorTransition (new root).compositorTransition
      (new root).begun where
  next := rfl
  current := by
    intro token htoken
    cases htoken

theorem stale_token
    (numbered : Numbered stack.nextCompositorTransition stack.compositorTransition stack.begun)
    (h : Reaches stack stack') {token : CompositorTransitionToken}
    (issued : stack.compositorTransition = some token) (since : ¬tokenCount ∣ stack'.begun - stack.begun) :
    stack'.completeCompositorTransition token = (false, stack') := by
  have hadvances := h.advances
  have hdiffer : stack'.compositorTransition ≠ some token := by
    intro hsame
    exact since ((numbered.same_iff (hadvances.numbered numbered) hadvances.later issued hsame).mp rfl)
  exact if_pos hdiffer

/-! ### A token that recurs -/

instance : ViewController (Option UInt64) where
  connectionId := id
  markReviewContextActive := id
  enablePresentationTracking := id
  connectionId_mark := fun _ => rfl
  connectionId_enable := fun _ => rfl

theorem reaches_begin {stack : ViewStack (Option UInt64)} (bases : stack.baseCount = stack.views.length)
    (tracking : stack.presentationTracking = false) : Reaches stack stack.beginCompositorTransition := by
  have hpush : Moves stack (stack.push none) := by
    refine ⟨.push none, ?_, rfl⟩
    intro hconnection
    cases hconnection
  have hpop : Moves (stack.push none) (stack.push none).pop.2 := ⟨.pop, trivial, rfl⟩
  have hresult : (stack.push none).pop.2 = stack.beginCompositorTransition := by
    obtain ⟨views, retired, baseCount, activeBase, next, current, presentationTracking, begun⟩ := stack
    cases tracking
    change baseCount = views.length at bases
    subst bases
    simp [push, pop, hasOverlay, ViewController.connectionId]
  rw [hresult] at hpop
  exact (Relation.ReflTransGen.single hpush).tail hpop

theorem reaches_iterate {stack : ViewStack (Option UInt64)} (bases : stack.baseCount = stack.views.length)
    (tracking : stack.presentationTracking = false) (n : Nat) :
    ∃ stack' : ViewStack (Option UInt64), Reaches stack stack' ∧ stack'.baseCount = stack'.views.length ∧
      stack'.presentationTracking = false ∧ stack'.begun = stack.begun + n ∧
      (0 < n → stack'.compositorTransition.isSome) := by
  induction n with
  | zero => exact ⟨stack, .refl, bases, tracking, rfl, fun h => absurd h (lt_irrefl 0)⟩
  | succ n ih =>
    obtain ⟨stack', hreaches, hbases, htracking, hbegun, -⟩ := ih
    refine ⟨stack'.beginCompositorTransition, hreaches.trans (reaches_begin hbases htracking), hbases,
      htracking, ?_, fun _ => rfl⟩
    rw [← add_assoc, ← hbegun]
    rfl

/-- When the counter has gone round, the first token completes a later transition. -/
theorem token_recurs : ¬∀ stack stack' : ViewStack (Option UInt64), Reaches (new none) stack →
      Reaches stack stack' → stack.begun < stack'.begun →
      ∀ token, stack.compositorTransition = some token →
        stack'.completeCompositorTransition token = (false, stack') := by
  intro hclaim
  obtain ⟨stack, hreaches, hbases, htracking, -, hissued⟩ := @reaches_iterate (new none) rfl rfl 1
  obtain ⟨stack', hlater, -, -, hbegun, hissued'⟩ := reaches_iterate hbases htracking tokenCount
  obtain ⟨token, htoken⟩ := isSome_iff_exists.mp (hissued one_pos)
  obtain ⟨token', htoken'⟩ := isSome_iff_exists.mp (hissued' (by decide))
  have hnumbered := hreaches.advances.numbered (numbered_new none)
  have hdvd : tokenCount ∣ stack'.begun - stack.begun := by
    rw [hbegun, Nat.add_sub_cancel_left]
  have hsame := (hnumbered.same_iff (hlater.advances.numbered hnumbered) hlater.advances.later htoken
    htoken').mpr hdvd
  have hlt : stack.begun < stack'.begun := by
    rw [hbegun]
    exact Nat.lt_add_of_pos_right (by decide)
  have hstale := hclaim stack stack' hreaches hlater hlt token htoken
  rw [completeCompositorTransition, if_neg (not_not.mpr (hsame ▸ htoken'))] at hstale
  cases hstale

/-- **The stack stays well formed.** After every run the root is below the other bases, the active base is among
them, a removal that spares it leaves the same view active, and an earlier token completes no later transition
until the tokens come round. -/
theorem run_formed {root : V} (hroot : connectionId root = none) {stack : ViewStack V}
    (h : Reaches (new root) stack) : stack.Formed root ∧ (∀ connectionIds,
        (∀ connection, stack.activeConnection = some connection → connection ∉ connectionIds) →
          (stack.removeTmuxConnections connectionIds).views[
              (stack.removeTmuxConnections connectionIds).activeBase]? = stack.views[stack.activeBase]? ∧
            (stack.removeTmuxConnections connectionIds).active = stack.active) ∧
      ∀ stack' token, Reaches stack stack' → stack.compositorTransition = some token →
        ¬tokenCount ∣ stack'.begun - stack.begun →
          stack'.completeCompositorTransition token = (false, stack') := by
  have hformed := h.formed (formed_new hroot)
  have hnumbered := h.advances.numbered (numbered_new root)
  refine ⟨hformed, ?_, ?_⟩
  · intro connectionIds hspared
    exact ⟨hformed.activeBase_removeTmuxConnections hspared, hformed.active_removeTmuxConnections hspared⟩
  · intro stack' token hlater hissued hsince
    exact stale_token hnumbered hlater hissued hsince

/-- A stack with an overlay and two connections, of which the first is removed. -/
theorem run_formed_removed :
    let stack := (((new (none : Option UInt64)).push (some 1)).push (some 2)).push none
    Reaches (new none) stack ∧ (stack.removeTmuxConnections [1]).active = stack.active := by
  have hfirst : Moves (new (none : Option UInt64)) ((new none).push (some 1)) := by
    refine ⟨.push (some 1), ?_, rfl⟩
    intro _
    decide
  have hsecond : Moves ((new (none : Option UInt64)).push (some 1))
      (((new none).push (some 1)).push (some 2)) := by
    refine ⟨.push (some 2), ?_, rfl⟩
    intro _
    decide
  have hoverlay : Moves (((new (none : Option UInt64)).push (some 1)).push (some 2))
      ((((new none).push (some 1)).push (some 2)).push none) := by
    refine ⟨.push none, ?_, rfl⟩
    intro hconnection
    cases hconnection
  have hreaches := ((Relation.ReflTransGen.single hfirst).tail hsecond).tail hoverlay
  refine ⟨hreaches, ?_⟩
  have hspared := (run_formed rfl hreaches).2.1 [1]
  exact (hspared (by
    intro connection hconnection
    have htwo := hconnection
    cases htwo
    decide)).2

end Lector.Stack
