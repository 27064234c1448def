import Lector.Tmux.Transparency

/-! Which commands a drain writes: those of its transport for which the bounds of their route leave room. What
it writes is transparent. -/
namespace Lector.Tmux
open Std Lector.Topology Lifecycle ConnectionHierarchy Relation List Fallible Option

namespace TmuxApp

variable {app : TmuxApp}

/-- What carries the commands is bounded on every level, and so are the replies expected. -/
inductive Fits (app : TmuxApp) : UInt64 → List Encoded → List ReplyAddition → Prop
  | direct {id : UInt64} {encoded : List Encoded} {additions : List ReplyAddition}
      (horigin : app.hierarchy.origin id = some .direct)
      (hbacklog : app.replyBacklogExceeded (additions ++ [(id, repliesOf encoded)]) = false) :
      Fits app id encoded additions
  | pane {id parent session window pane : UInt64} {encoded above : List Encoded}
      {additions : List ReplyAddition}
      (horigin : app.hierarchy.origin id = some (.pane parent session window pane))
      (hcarry : carry ⟨pane⟩ encoded = .ok above) (hbounded : routeIsBounded above)
      (hup : Fits app parent above (additions ++ [(id, repliesOf encoded)])) :
      Fits app id encoded additions

/-- No bound is exceeded on the way of a command to its root transport. -/
def HasRoom (app : TmuxApp) (command : PendingTmuxCommand) : Prop :=
  ∃ encoded, encodeCommand command = .ok encoded ∧ routeIsBounded encoded ∧
    app.Fits command.connectionId encoded []

/-- Every connection on the way has its state. -/
def Attended (app : TmuxApp) (id : UInt64) : Prop :=
  ∀ above, app.hierarchy.AtOrBelow id above → (app.connection above).isSome

theorem routeFrom_of_fits {rounds d : Nat} {id : UInt64} {encoded : List Encoded} {additions : List ReplyAddition}
    (hfits : app.Fits id encoded additions) (attended : app.Attended id)
    (hdepth : app.hierarchy.Depth id d) (hrounds : d ≤ rounds) :
    ∃ result, app.routeFrom rounds id encoded additions = .ok (some result) := by
  induction hfits generalizing rounds d with
  | @direct id encoded additions horigin hbacklog =>
    have hsome := attended id .refl
    cases rounds with
    | zero => cases hdepth <;> omega
    | succ rounds =>
      rw [routeFrom, if_neg (by rw [isNone_iff_eq_none, ← not_isSome_iff_eq_none]
                                exact not_not.mpr hsome)]
      dsimp only
      rw [horigin]
      rw [if_neg (ne_true_of_eq_false hbacklog)]
      exact ⟨_, rfl⟩
  | @pane id parent session window pane encoded above additions horigin hcarry hbounded _ ih =>
    have hsome := attended id .refl
    cases hdepth with
    | direct hdirect =>
      rw [horigin] at hdirect
      cases hdirect
    | @pane _ parent' d hparent hup =>
      obtain rfl := hparent.unique ⟨session, window, pane, horigin⟩
      cases rounds with
      | zero => omega
      | succ rounds =>
        obtain ⟨result, hresult⟩ :=
          ih (fun above habove => attended above (habove.head hparent)) hup (Nat.le_of_succ_le_succ hrounds)
        refine ⟨result, ?_⟩
        rw [routeFrom, if_neg (by rw [isNone_iff_eq_none, ← not_isSome_iff_eq_none]
                                  exact not_not.mpr hsome)]
        rw [horigin]
        dsimp only
        rw [hcarry]
        show (if routeIsBounded above then _ else _) = _
        rw [if_pos hbounded]
        exact hresult

theorem fits_of_routeFrom {rounds : Nat} {id : UInt64} {encoded : List Encoded}
    {additions : List ReplyAddition} {result : UInt64 × List Bytes × TmuxApp}
    (h : app.routeFrom rounds id encoded additions = .ok (some result)) :
    app.Fits id encoded additions ∧ app.Attended id := by
  induction rounds generalizing id encoded additions with
  | zero => cases h
  | succ rounds ih =>
    rw [routeFrom] at h
    split at h
    · cases h
    · rename_i hconnection
      have hsome : (app.connection id).isSome := isNone_eq_false_iff.mp (eq_false_of_ne_true hconnection)
      dsimp only at h
      split at h
      · rename_i horigin
        split at h
        · cases h
        · rename_i hbacklog
          refine ⟨.direct horigin (eq_false_of_ne_true hbacklog), fun above habove => ?_⟩
          rwa [atOrBelow_direct horigin habove]
      · rename_i parent session window pane horigin
        obtain ⟨encodedAbove, hcarry, h⟩ := bind_eq_ok.mp h
        split at h
        · rename_i hbounded
          obtain ⟨hup, hattended⟩ := ih h
          refine ⟨.pane horigin hcarry hbounded hup, fun above habove => ?_⟩
          rcases atOrBelow_cases habove ⟨session, window, pane, horigin⟩ with rfl | habove
          · exact hsome
          · exact hattended above habove
        · cases h
      · cases h

variable {command : PendingTmuxCommand}

theorem room_of_route {result : UInt64 × List Bytes × TmuxApp}
    (h : app.routeTmuxCommand command = .ok (some result)) :
    app.HasRoom command ∧ app.Attended command.connectionId := by
  rw [routeTmuxCommand] at h
  split at h
  · cases h
  · obtain ⟨encoded, hencode, h⟩ := bind_eq_ok.mp h
    split at h
    · rename_i hbounded
      obtain ⟨hfits, hattended⟩ := fits_of_routeFrom h
      exact ⟨⟨encoded, hencode, hbounded, hfits⟩, hattended⟩
    · cases h

/-- **A command is written if and only if there is room for it** and every connection on its way is there. -/
theorem routeTmuxCommand_some_iff (forest : app.hierarchy.Forest)
    (hlive : app.hierarchy.contains command.connectionId) :
    (∃ result, app.routeTmuxCommand command = .ok (some result)) ↔
      app.HasRoom command ∧ app.Attended command.connectionId := by
  constructor
  · rintro ⟨result, h⟩
    exact room_of_route h
  · rintro ⟨⟨encoded, hencode, hbounded, hfits⟩, hattended⟩
    obtain ⟨d, hdepth, hle⟩ := forest.depth _ hlive
    obtain ⟨result, hroute⟩ := routeFrom_of_fits hfits hattended hdepth (hle.trans (by decide : _ ≤ 65))
    have hsome : ¬ (app.connection command.connectionId).isNone :=
      ne_true_of_eq_false (isNone_eq_false_iff.mpr (hattended _ .refl))
    refine ⟨result, ?_⟩
    rw [routeTmuxCommand, if_neg hsome, hencode]
    show (if routeIsBounded encoded then _ else _) = _
    rw [if_pos hbounded]
    exact hroute

theorem routeTmuxCommand_iff (forest : app.hierarchy.Forest)
    (live : ∀ id, app.hierarchy.contains id → (app.connection id).isSome)
    (hlive : app.hierarchy.contains command.connectionId) :
    (∃ result, app.routeTmuxCommand command = .ok (some result)) ↔ app.HasRoom command := by
  rw [routeTmuxCommand_some_iff forest hlive]
  exact and_iff_left fun above habove => live above (forest.contains_root hlive habove)

/-! ## Draining -/

/-- What decides on a command when its turn comes: its transport, and the room on its way. -/
structure Decided (app : TmuxApp) (root : UInt64) (command : PendingTmuxCommand) (outcome : Outcome) : Prop where
  rotated : outcome = .rotated ↔ app.directTransportFor command.connectionId ≠ some root
  discarded : outcome = .discarded ↔ app.directTransportFor command.connectionId = some root ∧
    ¬ (app.HasRoom command ∧ app.Attended command.connectionId)

variable {nowMs : Nat} {root : UInt64}

theorem decided_drainCommand (forest : app.hierarchy.Forest) {outcome : Outcome} {app' : TmuxApp}
    (h : app.drainCommand nowMs root command = .ok (outcome, app')) : Decided app root command outcome := by
  rw [drainCommand] at h
  split at h
  · rename_i hother
    cases h
    exact ⟨iff_of_true rfl hother, iff_of_false (by rintro ⟨⟩) fun hsame => hother hsame.1⟩
  · rename_i hsame
    have hsame := of_not_not hsame
    obtain ⟨result, hroute, h⟩ := bind_eq_ok.mp h
    have hroom := routeTmuxCommand_some_iff forest (contains_of_directTransport hsame)
    cases result with
    | none =>
      cases h
      refine ⟨iff_of_false (by rintro ⟨⟩) (not_not.mpr hsame), iff_of_true rfl ⟨hsame, fun hfits => ?_⟩⟩
      obtain ⟨result, hresult⟩ := hroom.mpr hfits
      rw [hroute] at hresult
      cases hresult
    | some result =>
      cases h
      exact ⟨iff_of_false (by rintro ⟨⟩) (not_not.mpr hsame),
        iff_of_false (by rintro ⟨⟩) fun h => h.2 (hroom.mp ⟨_, hroute⟩)⟩

/-- **Each outcome of a drain is decided where the commands before have left the app.** -/
theorem decided_drainRounds {queued : Nat} (forest : app.hierarchy.Forest)
    {outcomes : List (PendingTmuxCommand × Outcome)} {app' : TmuxApp}
    (h : drainRounds nowMs root queued app = .ok (outcomes, app')) {before after : List (PendingTmuxCommand × Outcome)}
    {outcome : Outcome} (hsplit : outcomes = before ++ (command, outcome) :: after) :
    ∃ reached rest, drainRounds nowMs root before.length app = .ok (before, reached) ∧
      reached.pendingTmuxCommands = command :: rest ∧
      Decided { reached with pendingTmuxCommands := rest } root command outcome := by
  induction queued generalizing app outcomes before with
  | zero =>
    cases h
    simp at hsplit
  | succ queued ih =>
    rw [drainRounds] at h
    split at h
    · cases h
      simp at hsplit
    · rename_i first rest hpending
      obtain ⟨⟨made, next⟩, hcommand, h⟩ := bind_eq_ok.mp h
      obtain ⟨⟨others, last⟩, hrounds, h⟩ := bind_eq_ok.mp h
      cases h
      cases before with
      | nil =>
        cases hsplit
        exact ⟨app, rest, rfl, hpending, @decided_drainCommand { app with pendingTmuxCommands := rest } command
          nowMs root forest outcome next hcommand⟩
      | cons head before =>
        cases hsplit
        obtain ⟨outcome', next', hcommand', hdrained⟩ :=
          @drainCommand_spec { app with pendingTmuxCommands := rest } forest nowMs root first
        rw [hcommand] at hcommand'
        cases hcommand'
        obtain ⟨reached, later, hreached, hlater, hdecided⟩ := ih (hdrained.hierarchy ▸ forest) hrounds rfl
        refine ⟨reached, later, ?_, hlater, hdecided⟩
        rw [length_cons, drainRounds, hpending]
        exact bind_eq_ok.mpr ⟨_, hcommand, bind_eq_ok.mpr ⟨_, hreached, rfl⟩⟩

/-- **Routing through a chain of nested connections is transparent.** A command is left for another transport
or discarded for want of room, or else it is written. The bytes of a drain, decoded level by level, are at each
connection its own command lines and those of the levels below, in order, and each level waits for just their
answers. -/
theorem drain_transparent (app : TmuxApp) (nowMs : Nat) (root leaf : UInt64) (forest : app.hierarchy.Forest)
    (chain : ∀ command ∈ app.pendingTmuxCommands, app.hierarchy.AtOrBelow leaf command.connectionId)
    (lines : ∀ command ∈ app.pendingTmuxCommands, WholeLines command)
    (keys : ∀ command ∈ app.pendingTmuxCommands, ∀ child pane, app.hierarchy.AtOrBelow leaf child →
      Hosted app.hierarchy child command.connectionId pane → SendsNoKeys command pane) :
    ∃ outcomes app', app.drainTmuxCommandsFor nowMs root = .ok (outcomes, app') ∧
      outcomes.map (·.1) = app.pendingTmuxCommands ∧
      (∀ before command outcome after, outcomes = before ++ (command, outcome) :: after →
        ∃ reached rest, drainRounds nowMs root before.length app = .ok (before, reached) ∧
          reached.pendingTmuxCommands = command :: rest ∧
          Decided { reached with pendingTmuxCommands := rest } root command outcome) ∧
      ∃ written : List Written, written.map (·.1) = writtenCommands outcomes ∧
        (∀ w ∈ written, Delivery app.hierarchy w.1 w.2) ∧
        writtenBytes outcomes = bytesOf (levelOf written root) ∧
        (∀ child parent pane, app.hierarchy.AtOrBelow leaf child → Hosted app.hierarchy child parent pane →
          paneInput pane (bytesOf (levelOf written parent)) = bytesOf (levelOf written child)) ∧
        Grows app.awaited app'.awaited (levelOf written) := by
  obtain ⟨outcomes, app', hdrain, hcommands, written, hall⟩ := drainRounds_spec nowMs root forest (le_rfl)
  rw [take_length] at hcommands
  have hpending : ∀ w ∈ written, w.1 ∈ app.pendingTmuxCommands := by
    intro w hw
    have hmem := hall.commands ▸ mem_map_of_mem hw
    obtain ⟨⟨command, outcome⟩, houtcome, hsome⟩ := mem_filterMap.mp hmem
    have hcommand : command = w.1 := by
      cases outcome with
      | written => exact some.inj hsome
      | rotated => cases hsome
      | discarded => cases hsome
    rw [← hcommands, ← hcommand]
    exact mem_map_of_mem houtcome
  refine ⟨outcomes, app', hdrain, hcommands, fun before command outcome after hsplit =>
    decided_drainRounds forest hdrain hsplit, written, hall.commands, hall.deliveries, hall.bytes,
    fun child parent pane hchild hosted => ?_, hall.grows⟩
  exact levelOf_input forest hall.deliveries (fun w hw => chain w.1 (hpending w hw)) hchild hosted
    (fun w hw => lines w.1 (hpending w hw))
    fun w hw hparent => keys w.1 (hpending w hw) child pane hchild (hparent.symm ▸ hosted)

/-! ## A chain of two -/

def nestedHierarchy : ConnectionHierarchy :=
  ⟨(({} : ExtTreeMap UInt64 GatewayOrigin).insert 1 .direct).insert 2 (.pane 1 0 0 5)⟩

def nestedApp (pending : List PendingTmuxCommand) : TmuxApp where
  connections := [startedConnection 1 0, startedConnection 2 0]
  hierarchy := nestedHierarchy
  pendingTmuxCommands := pending

def resumeAndCapture (connectionId : UInt64) (pane : PaneId) : PendingTmuxCommand where
  connectionId := connectionId
  bytes := joinTmuxCommandSequence [continuePaneCommand pane, captureCommandForState pane false 0 true,
    pendingEscapeCaptureCommand pane, paneCaptureMetadataCommand pane]
  expectedReplies := [.paneResyncContinue pane, .paneResyncCapture pane,
    .paneResyncPendingEscape pane, .paneResyncVerify pane]
  kind := .ordinary

theorem nestedHierarchy_forest : nestedHierarchy.Forest := by
  have hdirect : ConnectionHierarchy.new.insert 1 .direct =
      .ok ⟨({} : ExtTreeMap UInt64 GatewayOrigin).insert 1 .direct⟩ := by rfl
  have hnested : (⟨({} : ExtTreeMap UInt64 GatewayOrigin).insert 1 .direct⟩ :
      ConnectionHierarchy).insert 2 (.pane 1 0 0 5) = .ok nestedHierarchy := by rfl
  exact (Forest.new.insert hdirect).insert hnested

theorem nested_below {child : UInt64} {pane : PaneId} (hchild : nestedHierarchy.AtOrBelow 2 child)
    (hosted : Hosted nestedHierarchy child 2 pane) : False :=
  nestedHierarchy_forest.acyclic 2 (TransGen.tail' hchild hosted.parent)

def continueNested : PendingTmuxCommand where
  connectionId := 2
  bytes := continuePaneCommand ⟨7⟩
  expectedReplies := [.paneContinue ⟨7⟩]
  kind := .ordinary

/-- A command and a key for the nested connection go through the first one. -/
theorem drain_transparent_nested :
    let commands := [continueNested, ⟨2, [0x61], [], .input ⟨7⟩⟩]
    ∃ outcomes app' written, (nestedApp commands).drainTmuxCommandsFor 0 1 = .ok (outcomes, app') ∧
      writtenCommands outcomes = commands ∧
      writtenBytes outcomes = sendKeysCommand ⟨5⟩ (continuePaneCommand ⟨7⟩) ++
        sendKeysCommand ⟨5⟩ (sendKeysCommand ⟨7⟩ [0x61]) ∧
      paneInput ⟨5⟩ (writtenBytes outcomes) = bytesOf (levelOf written 2) ∧
      bytesOf (levelOf written 2) = continuePaneCommand ⟨7⟩ ++ sendKeysCommand ⟨7⟩ [0x61] := by
  intro commands
  have htarget : ∀ command ∈ commands, command.connectionId = 2 := by decide +kernel
  obtain ⟨outcomes, app', hdrain, -, -, written, -, -, hbytes, hinput, -⟩ :=
    drain_transparent (nestedApp commands) 0 1 2 nestedHierarchy_forest
      (fun command hmem => htarget command hmem ▸ .refl)
      (fun command hmem => by
        rcases mem_cons.mp hmem with rfl | hmem
        · exact (by decide +kernel : Lines.Closed (continuePaneCommand ⟨7⟩))
        · obtain rfl := mem_singleton.mp hmem
          trivial)
      fun command hmem child pane hchild hosted => (nested_below hchild (htarget command hmem ▸ hosted)).elim
  have hrun : ((nestedApp commands).drainTmuxCommandsFor 0 1).toOption.map (fun r =>
      (writtenCommands r.1, writtenBytes r.1, paneInput ⟨5⟩ (writtenBytes r.1))) =
    some (commands, sendKeysCommand ⟨5⟩ (continuePaneCommand ⟨7⟩) ++
      sendKeysCommand ⟨5⟩ (sendKeysCommand ⟨7⟩ [0x61]),
      continuePaneCommand ⟨7⟩ ++ sendKeysCommand ⟨7⟩ [0x61]) := by
    decide +kernel
  rw [hdrain] at hrun
  obtain ⟨hcommands, hrest⟩ := Prod.mk.inj (some.inj hrun)
  obtain ⟨hwritten, hpane⟩ := Prod.mk.inj hrest
  have hread : paneInput ⟨5⟩ (writtenBytes outcomes) = bytesOf (levelOf written 2) := by
    rw [hbytes]
    exact hinput 2 1 ⟨5⟩ .refl ⟨0, 0, by decide +kernel⟩
  exact ⟨outcomes, app', written, hdrain, hcommands, hwritten, hread, hread ▸ hpane⟩

/-- One line with four answers, a carrier for a connection, and a control character for a gateway.
-/
theorem joined_and_carried :
    (((nestedApp [resumeAndCapture 1 ⟨7⟩]).drainTmuxCommandsFor 0 1).toOption.map fun r =>
      ((Lines.read (writtenBytes r.1)).length, (r.2.awaited 1).map length)) =
      some (1, some 4) ∧
    (((nestedApp [continueNested]).drainTmuxCommandsFor 0 1).toOption.map fun r =>
      (Lines.read (writtenBytes r.1)).length) = some 1 ∧
    (((nestedApp [⟨1, [0x1c], [], .input ⟨5⟩⟩]).drainTmuxCommandsFor 0 1).toOption.map fun r =>
      paneInput ⟨5⟩ (writtenBytes r.1)) = some [0x1c] := by
  decide +kernel

end TmuxApp

end Lector.Tmux
